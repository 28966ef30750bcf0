import Mathlib
import MicroTak.Lib.Lines

/-!
# Archives of stored files

The ZIP format, for files that are stored as they are: a header and the bytes of each file, a
directory of the headers, and a record at the end that says where the directory is.  Numbers have
their low byte first, and each file has its CRC-32.
-/

namespace Zip

open Lines

/-! ### Numbers -/

/-- The low `k` bytes of a number. -/
def le : Nat → Nat → Bytes
  | 0, _ => []
  | k + 1, n => .ofNat n :: le k (n / 256)

def value (bytes : Bytes) : Nat := bytes.foldr (fun b n => b.toNat + 256 * n) 0

theorem length_le (k n : Nat) : (le k n).length = k := by
  induction k generalizing n with
  | zero => rfl
  | succ k ih => rw [le, List.length_cons, ih]

theorem value_le {k n : Nat} (h : n < 256 ^ k) : value (le k n) = n := by
  induction k generalizing n with
  | zero => exact (Nat.lt_one_iff.1 h).symm
  | succ k ih =>
    change (UInt8.ofNat n).toNat + 256 * value (le k (n / 256)) = n
    rw [ih (Nat.div_lt_of_lt_mul (by rwa [pow_succ'] at h)), UInt8.toNat_ofNat']
    exact Nat.mod_add_div n 256

/-- Numbers of these widths, one after the other. -/
def row (fs : List (Nat × Nat)) : Bytes := fs.flatMap fun f => le f.1 f.2

def chunk (k : Nat) (bytes : Bytes) : Option (Bytes × Bytes) :=
  if k ≤ bytes.length then some (bytes.splitAt k) else none

def fields : List Nat → Bytes → Option (List Nat × Bytes)
  | [], bytes => some ([], bytes)
  | k :: widths, bytes => do
      let (field, bytes) ← chunk k bytes
      let (values, bytes) ← fields widths bytes
      return (value field :: values, bytes)

variable {k : Nat} {bytes rest : Bytes}

@[simp] theorem chunk_zero (bytes : Bytes) : chunk 0 bytes = some ([], bytes) := by
  simp [chunk]

theorem chunk_append (h : bytes.length = k) : chunk k (bytes ++ rest) = some (bytes, rest) := by
  simp [chunk, ← h]

theorem fields_row {fs : List (Nat × Nat)} (h : ∀ f ∈ fs, f.2 < 256 ^ f.1) :
    fields (fs.map Prod.fst) (row fs ++ rest) = some (fs.map Prod.snd, rest) := by
  induction fs with
  | nil => rfl
  | cons f fs ih =>
    have hchunk : chunk f.1 (row (f :: fs) ++ rest) = some (le f.1 f.2, row fs ++ rest) := by
      rw [row, List.flatMap_cons, List.append_assoc]
      exact chunk_append (length_le f.1 f.2)
    simp [fields, hchunk, ih fun g hg => h g (List.mem_cons_of_mem _ hg),
      value_le (h f List.mem_cons_self)]

/-! ### The checksum -/

/-- One step of the division by the polynomial, with the bits in reverse. -/
def divide (r : BitVec 32) : BitVec 32 := if r &&& 1 ≠ 0 then r >>> 1 ^^^ 0xedb88320 else r >>> 1

/-- The remainder after some more bits. -/
def remainder (r : BitVec 32) (bits : List Bool) : BitVec 32 :=
  bits.foldl (fun r b => divide (r ^^^ (BitVec.ofBool b).setWidth 32)) r

/-- The low `k` bits, the lowest first. -/
def bits : Nat → BitVec 32 → List Bool
  | 0, _ => []
  | k + 1, x => x.getLsbD 0 :: bits k (x >>> 1)

def crc (data : Bytes) : BitVec 32 :=
  ~~~ remainder (BitVec.allOnes 32) (data.flatMap fun byte => bits 8 (byte.toBitVec.setWidth 32))

/-- Of what is added to a remainder, a step looks at the lowest bit and passes the others on. -/
theorem divide_xor (r x : BitVec 32) :
    divide (r ^^^ x) = divide (r ^^^ (BitVec.ofBool (x.getLsbD 0)).setWidth 32) ^^^ x >>> 1 := by
  have hlow : (r ^^^ x) &&& 1 = (r ^^^ (BitVec.ofBool (x.getLsbD 0)).setWidth 32) &&& 1 := by
    ext i
    simp
    grind
  have hhigh : ((BitVec.ofBool (x.getLsbD 0)).setWidth 32) >>> 1 = 0 := by
    cases x.getLsbD 0 <;> rfl
  rw [divide, divide, hlow, BitVec.ushiftRight_xor_distrib, BitVec.ushiftRight_xor_distrib, hhigh]
  split
  · simp
    ac_rfl
  · simp

theorem remainder_bits {k : Nat} {x : BitVec 32} (r : BitVec 32) (hx : x >>> k = 0) :
    remainder r (bits k x) = divide^[k] (r ^^^ x) := by
  induction k generalizing r x with
  | zero =>
    obtain rfl : x = 0 := hx
    exact (BitVec.xor_zero).symm
  | succ k ih =>
    change remainder (divide _) (bits k (x >>> 1)) = divide^[k] (divide (r ^^^ x))
    rw [ih _ (by rwa [← BitVec.shiftRight_add, Nat.add_comm]), divide_xor r x]

/-! ### Names -/

/-- The characters from 128 on of code page 437; those below are ASCII. -/
def codePage : List Char :=
  ("ÇüéâäàåçêëèïîìÄÅÉæÆôöòûùÿÖÜ¢£¥₧ƒáíóúñÑªº¿⌐¬½¼¡«»░▒▓│┤╡╢╖╕╣║╗╝╜╛┐" ++
    "└┴┬├─┼╞╟╚╔╩╦╠═╬╧╨╤╥╙╘╒╓╫╪┘┌█▄▌▐▀αßΓπΣσµτΦΘΩδ∞φε∩≡±≥≤⌠⌡÷≈°∙·√ⁿ²■\u00a0").toList

def cp437 (bytes : Bytes) : String :=
  String.ofList (bytes.map fun b =>
    if b.toNat < 128 then Char.ofNat b.toNat else codePage.getD (b.toNat - 128) ' ')

/-- The flag of an entry whose name is UTF-8. -/
def utf8Names : Nat := 0x800

/-- A name is in code page 437 unless the flags say that it is UTF-8. -/
def decodeName (flags : Nat) (name : Bytes) : Option String :=
  if flags = utf8Names then decodeUtf8 name else some (cp437 name)

example : codePage.length = 128 := by decide +kernel

variable {s : String}

private theorem cp437_utf8 (hs : ∀ c ∈ s.toList, c.toNat < 128) : cp437 (utf8 s) = s := by
  obtain ⟨chars, rfl⟩ : ∃ chars, s = String.ofList chars := ⟨s.toList, by simp⟩
  rw [String.toList_ofList] at hs
  induction chars with
  | nil => rfl
  | cons c rest ih =>
    obtain ⟨hc, hrest⟩ := List.forall_mem_cons.1 hs
    have hbyte : (UInt8.ofNat c.toNat).toNat = c.toNat := by
      rw [UInt8.toNat_ofNat']
      omega
    have hencode : String.utf8EncodeChar c = [UInt8.ofNat c.toNat] := by
      rw [String.utf8EncodeChar]
      exact if_pos (Nat.le_of_lt_succ hc)
    have hdecoded := congrArg String.toList (ih hrest)
    rw [cp437, String.toList_ofList, String.toList_ofList] at hdecoded
    rw [utf8_ofList_cons, hencode, cp437, List.singleton_append, List.map_cons, hbyte, if_pos hc,
      Char.ofNat_toNat, hdecoded]

/-- A character that is not ASCII takes more than one byte. -/
private theorem length_le_utf8 (chars : List Char) :
    chars.length ≤ (utf8 (String.ofList chars)).length ∧
      ((utf8 (String.ofList chars)).length = chars.length → ∀ c ∈ chars, c.toNat < 128) := by
  induction chars with
  | nil => simp
  | cons c rest ih =>
    rw [utf8_ofList_cons, List.length_append, List.length_cons, String.length_utf8EncodeChar]
    have hpos := c.utf8Size_pos
    refine ⟨by omega, fun hlength => List.forall_mem_cons.2 ⟨?_, ih.2 (by omega)⟩⟩
    exact Nat.lt_succ_of_le (Char.utf8Size_eq_one_iff.1 (by omega))

theorem cp437_utf8_iff : cp437 (utf8 s) = s ↔ ∀ c ∈ s.toList, c.toNat < 128 := by
  refine ⟨fun h => (length_le_utf8 s.toList).2 ?_, cp437_utf8⟩
  have hlength := congrArg (·.toList.length) h
  simpa [cp437] using hlength

/-! ### The reader -/

/-- The next file of the directory, and what is left of the directory; the header of the file must
agree with it. -/
def readFile (archive bytes : Bytes) : Option ((String × Bytes) × Bytes) := do
  let ([0x02014b50, _, _, flags, 0, _, _, sum, stored, size, n, extra, comment, _, _, _, offset],
    bytes) ← fields [4, 2, 2, 2, 2, 2, 2, 4, 4, 4, 2, 2, 2, 2, 2, 4, 4] bytes | none
  let (name, bytes) ← chunk n bytes
  let (_, bytes) ← chunk (extra + comment) bytes
  let ([0x04034b50, _, flags', 0, _, _, sum', stored', size', n', extra'], file) ←
    fields [4, 2, 2, 2, 2, 2, 4, 4, 4, 2, 2] (archive.drop offset) | none
  let (name', file) ← chunk n' file
  let (_, file) ← chunk extra' file
  let (data, _) ← chunk size file
  guard (flags = 0 ∨ flags = utf8Names)
  guard (stored = size ∧ (flags', name', sum', stored', size') = (flags, name, sum, stored, size))
  guard ((crc data).toNat = sum)
  return ((← decodeName flags name, data), bytes)

def readFiles (archive : Bytes) : Nat → Bytes → Option (List (String × Bytes) × Bytes)
  | 0, bytes => some ([], bytes)
  | count + 1, bytes => do
      let (file, bytes) ← readFile archive bytes
      let (files, bytes) ← readFiles archive count bytes
      return (file :: files, bytes)

/-- The number of entries, size and offset of the directory; the archive ends in this record and its
comment. -/
def readEnd (bytes : Bytes) : Option (Nat × Nat × Nat) := do
  let ([0x06054b50, 0, 0, count, total, size, offset, comment], bytes) ← fields [4, 2, 2, 2, 2, 4,
    4, 2] bytes | none
  guard (count = total ∧ bytes.length = comment)
  return (count, size, offset)

/-- The files of an archive, by its last end record. -/
def unpack (archive : Bytes) : Option (List (String × Bytes)) := do
  let (pos, count, size, offset) ← (List.range (archive.length - 21)).reverse.findSome? fun pos =>
    (readEnd (archive.drop pos)).map (pos, ·)
  let (files, bytes) ← readFiles archive count (archive.drop offset)
  guard (offset + size = pos ∧ bytes = archive.drop pos)
  return files

end Zip
