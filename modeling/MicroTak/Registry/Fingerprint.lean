import Mathlib.Data.List.Basic
import Mathlib.Tactic.IntervalCases

/-!
# Certificate fingerprints

The registry names a certificate by the SHA-256 of its DER bytes, written as uppercase hex pairs
joined by colons.  An administrator may type a fingerprint in any case and without the colons, so
`normalizeFingerprint` brings it to that form first.  A fingerprint the server printed itself is
already in it.
-/

namespace MicroTak.Registry

open List

/-- The DER bytes of a certificate, as the TLS handshake hands them over. -/
abbrev Der := List UInt8

abbrev Digest := { bytes : List UInt8 // bytes.length = 32 }

/-- The cryptographic library: the PEM decoder, which fails on text that is no certificate, and
SHA-256. -/
structure Pki where
  certPemToDer : String → Option Der
  sha256 : Der → Digest

/-- The digit of `format!("{:X}")` for a value below 16. -/
def upperHexDigit (n : Nat) : Char :=
  ("0123456789ABCDEF".toList)[n]?.getD '0'

def hexPair (byte : UInt8) : List Char :=
  [upperHexDigit (byte.toNat / 16), upperHexDigit (byte.toNat % 16)]

def joinColons : List (List Char) → List Char
  | [] => []
  | [pair] => pair
  | pair :: rest => pair ++ ':' :: joinColons rest

def colonHex (digest : Digest) : String :=
  String.ofList (joinColons (digest.val.map hexPair))

namespace Pki

variable (pki : Pki)

def fingerprintSha256ColonHexDer (der : Der) : String :=
  colonHex (pki.sha256 der)

def fingerprintSha256ColonHex (certPem : String) : Option String :=
  (pki.certPemToDer certPem).map pki.fingerprintSha256ColonHexDer

end Pki

/-- A library for worked examples: the text of a certificate stands for its bytes, and the digest is
their first 32. -/
def Pki.sample : Pki where
  certPemToDer pem := some (pem.toList.map fun c => UInt8.ofNat c.toNat)
  sha256 der := ⟨(der ++ List.replicate 32 0).take 32, by simp⟩

def isAsciiHexdigit (c : Char) : Bool :=
  ('0' ≤ c && c ≤ '9') || ('a' ≤ c && c ≤ 'f') || ('A' ≤ c && c ≤ 'F')

/-- `chunks(2)`. -/
def chunksOfTwo : List Char → List (List Char)
  | a :: b :: rest => [a, b] :: chunksOfTwo rest
  | [a] => [[a]]
  | [] => []

def normalizeFingerprint (hash : String) : Option String :=
  let hex := hash.toList.filter (· ≠ ':')
  if hex.length ≠ 64 || !hex.all isAsciiHexdigit then none
  else some (String.ofList (joinColons (chunksOfTwo (hex.map Char.toUpper))))

/-! ### A printed fingerprint is in normal form -/

private theorem upperHexDigit_normal (n : Nat) (hn : n < 16) :
    upperHexDigit n ≠ ':' ∧ isAsciiHexdigit (upperHexDigit n) = true ∧
    (upperHexDigit n).toUpper = upperHexDigit n := by
  interval_cases n <;> decide

/-- What the normalisation needs of one hex pair. -/
private structure NormalPair (pair : List Char) : Prop where
  two : ∃ a b, pair = [a, b]
  noColon : ∀ c ∈ pair, c ≠ ':'
  hex : ∀ c ∈ pair, isAsciiHexdigit c = true
  upper : ∀ c ∈ pair, c.toUpper = c

private theorem hexPair_normal (byte : UInt8) : NormalPair (hexPair byte) := by
  have hlt : byte.toNat < 256 := byte.toNat_lt
  have hhigh := upperHexDigit_normal (byte.toNat / 16) (by omega)
  have hlow := upperHexDigit_normal (byte.toNat % 16) (by omega)
  refine ⟨⟨_, _, rfl⟩, ?_, ?_, ?_⟩ <;>
    simp [hexPair]
  · exact ⟨hhigh.1, hlow.1⟩
  · exact ⟨hhigh.2.1, hlow.2.1⟩
  · exact ⟨hhigh.2.2, hlow.2.2⟩

variable {pairs : List (List Char)}

section

variable (h : ∀ pair ∈ pairs, NormalPair pair)

include h

private theorem filter_joinColons : (joinColons pairs).filter (· ≠ ':') = pairs.flatten := by
  induction pairs using joinColons.induct with
  | case1 => rfl
  | case2 pair =>
    have hpair := (h pair (by simp)).noColon
    simpa [joinColons] using hpair
  | case3 pair rest hrest ih =>
    have hpair : pair.filter (· ≠ ':') = pair := by
      simpa using (h pair (by simp)).noColon
    rw [joinColons, filter_append, hpair, filter_cons_of_neg (by simp),
      ih (fun p hp => h p (mem_cons_of_mem _ hp)), flatten_cons]
    exact hrest

private theorem chunksOfTwo_flatten : chunksOfTwo pairs.flatten = pairs := by
  induction pairs with
  | nil => rfl
  | cons pair rest ih =>
    obtain ⟨a, b, rfl⟩ := (h pair (by simp)).two
    simp only [flatten_cons, cons_append, nil_append, chunksOfTwo]
    rw [ih fun p hp => h p (mem_cons_of_mem _ hp)]

private theorem length_flatten_pairs : pairs.flatten.length = 2 * pairs.length := by
  induction pairs with
  | nil => rfl
  | cons pair rest ih =>
    obtain ⟨a, b, rfl⟩ := (h pair (by simp)).two
    have hrest := ih fun p hp => h p (mem_cons_of_mem _ hp)
    simp only [flatten_cons, length_append, length_cons, length_nil]
    omega

end

theorem normalizeFingerprint_colonHex (digest : Digest) :
    normalizeFingerprint (colonHex digest) = some (colonHex digest) := by
  obtain ⟨bytes, hlen⟩ := digest
  have hpairs : ∀ pair ∈ bytes.map hexPair, NormalPair pair := by
    simpa using fun byte _ => hexPair_normal byte
  have hchars : ∀ c ∈ (bytes.map hexPair).flatten, isAsciiHexdigit c = true ∧ c.toUpper = c := by
    intro c hc
    obtain ⟨pair, hmem, hcp⟩ := mem_flatten.1 hc
    exact ⟨(hpairs pair hmem).hex c hcp, (hpairs pair hmem).upper c hcp⟩
  have hupper : (bytes.map hexPair).flatten.map Char.toUpper = (bytes.map hexPair).flatten := by
    conv_rhs => rw [← map_id (bytes.map hexPair).flatten]
    exact map_congr_left fun c hc => (hchars c hc).2
  have hlength := length_flatten_pairs hpairs
  rw [length_map, hlen] at hlength
  have hall : (bytes.map hexPair).flatten.all isAsciiHexdigit = true :=
    all_eq_true.2 fun c hc => (hchars c hc).1
  simp only [normalizeFingerprint, colonHex, String.toList_ofList, filter_joinColons hpairs,
    hlength, hall, hupper, chunksOfTwo_flatten hpairs]
  rfl

end MicroTak.Registry
