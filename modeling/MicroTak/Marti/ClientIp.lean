import Mathlib.Data.List.Basic
import MicroTak.Lib.Lines

/-!
# The address a request is attributed to

Rate limiting counts by client address.  Behind a trusted proxy that is the right-most entry of the
forwarded-for headers that is not a trusted proxy itself: what stands further left was supplied by
the client.  From any other peer the headers are not read.
-/

namespace MicroTak.Marti

open Lines List

/-! ### Addresses and networks -/

inductive IpAddr where
  | v4 (bits : BitVec 32)
  | v6 (bits : BitVec 128)
  deriving DecidableEq

namespace IpAddr

/-- The digits at the start of a text, as the parser of the standard library reads a number. -/
def readNumber (radix maxDigits limit : Nat) (zeroPrefixed : Bool) (text : List Char) :
    Option (Nat × List Char) :=
  let digit (c : Char) : Option Nat :=
    let n := if c.isDigit then c.toNat - '0'.toNat
      else if c.isAlpha then c.toLower.toNat - 'a'.toNat + 10 else radix
    if n < radix then some n else none
  let digits := (text.takeWhile fun c => (digit c).isSome).filterMap digit
  let value := digits.foldl (fun value d => value * radix + d) 0
  if digits = [] ∨ maxDigits < digits.length ∨ limit ≤ value ∨
    (!zeroPrefixed ∧ digits.head? = some 0 ∧ 1 < digits.length) then
    none
  else some (value, text.drop digits.length)

def readChar (c : Char) : List Char → Option (List Char)
  | d :: rest => if c = d then some rest else none
  | [] => none

def readIpv4 (text : List Char) : Option (BitVec 32 × List Char) := do
  let (a, text) ← readNumber 10 3 256 false text
  let (b, text) ← readNumber 10 3 256 false (← readChar '.' text)
  let (c, text) ← readNumber 10 3 256 false (← readChar '.' text)
  let (d, text) ← readNumber 10 3 256 false (← readChar '.' text)
  return (BitVec.ofNat 32 (((a * 256 + b) * 256 + c) * 256 + d), text)

/-- Up to this many groups of an IPv6 address, with a colon before all but the first, and whether
they end in an embedded IPv4 address. -/
def readGroups : Nat → Bool → List Char → List Nat × Bool × List Char
  | 0, _, text => ([], false, text)
  | left + 1, first, text =>
      let separated := if first then some text else readChar ':' text
      match if left = 0 then none else separated.bind readIpv4 with
      | some (ipv4, rest) => ([ipv4.toNat / 65536, ipv4.toNat % 65536], true, rest)
      | none =>
          match separated.bind (readNumber 16 4 65536 true) with
          | none => ([], false, text)
          | some (group, rest) =>
              let (groups, ipv4, rest) := readGroups left false rest
              (group :: groups, ipv4, rest)

def ofGroups (groups : List Nat) : BitVec 128 :=
  BitVec.ofNat 128 (groups.foldl (fun bits group => bits * 65536 + group) 0)

def readIpv6 (text : List Char) : Option (BitVec 128 × List Char) :=
  let (head, ipv4, text) := readGroups 8 true text
  if head.length = 8 then some (ofGroups head, text)
  else if ipv4 then none
  else do
    let text ← readChar ':' (← readChar ':' text)
    -- The two colons stand for one group at least.
    let (tail, _, text) := readGroups (7 - head.length) true text
    return (ofGroups (head ++ List.replicate (8 - head.length - tail.length) 0 ++ tail), text)

def parse (text : List Char) : Option IpAddr :=
  match (readIpv4 text).map (Prod.map v4 id) <|> (readIpv6 text).map (Prod.map v6 id) with
  | some (ip, []) => some ip
  | _ => none

/-- An IPv4-mapped IPv6 address compares as the IPv4 address. -/
def canonical : IpAddr → IpAddr
  | .v4 bits => .v4 bits
  | .v6 bits => if bits >>> 32 = 0xffff then .v4 (bits.truncate 32) else .v6 bits

end IpAddr

/-- `MAX.checked_shl(width - bits)`, or zero. -/
def networkMask (width bits : Nat) : BitVec width :=
  if width - bits < width then BitVec.allOnes width <<< (width - bits) else 0

def inNetwork (ip network : IpAddr) (bits : Nat) : Bool :=
  match ip, network with
  | .v4 ip, .v4 network => ip &&& networkMask 32 bits = network &&& networkMask 32 bits
  | .v6 ip, .v6 network => ip &&& networkMask 128 bits = network &&& networkMask 128 bits
  | _, _ => false

def parseU8 (text : String) : Option Nat :=
  let digits : List Char := match text.toList with
    | '+' :: digits => digits
    | digits => digits
  let value := digits.foldl (fun value c => value * 10 + (c.toNat - '0'.toNat)) 0
  if digits ≠ [] ∧ digits.all Char.isDigit ∧ value < 256 then some value else none

def parseCidr (entry : String) : Option (IpAddr × Nat) := do
  let (address, bits) := match Text.splitOnce '/' (Text.trim entry) with
    | some (address, bits) => (address, some bits)
    | none => (Text.trim entry, none)
  let ip := (← IpAddr.parse address.toList).canonical
  let max := match ip with
    | .v4 _ => 32
    | .v6 _ => 128
  match bits with
  | none => return (ip, max)
  | some bits => return (ip, ← (parseU8 bits).filter (· ≤ max))

abbrev TrustedProxies := List (IpAddr × Nat)

/-- The configured networks, or the first entry that is not one. -/
def TrustedProxies.parse (entries : List String) : Except String TrustedProxies :=
  entries.mapM fun entry => match parseCidr entry with
    | some network => .ok network
    | none => .error entry

/-! ### Forwarded-for headers -/

/-- The bytes a header value may be read as text with. -/
def isVisibleAscii (b : UInt8) : Bool :=
  (32 ≤ b && b < 127) || b = 9

def isText (value : Bytes) : Bool := value.all isVisibleAscii

def comma : UInt8 := 44

@[irreducible] def parseEntry (entry : Bytes) : Option IpAddr :=
  IpAddr.parse (Text.trim (String.ofList (entry.map fun b => Char.ofNat b.toNat))).toList

/-- The addresses in the values of the forwarded-for headers, in order.  A value that is not text is
left out, and so is an entry that is not an address. -/
def forwarded (headers : List Bytes) : List IpAddr :=
  ((headers.filter isText).flatMap (·.splitOn comma)).filterMap parseEntry

namespace TrustedProxies

variable (proxies : TrustedProxies)

def contains (ip : IpAddr) : Bool :=
  proxies.any fun (network, bits) => inNetwork ip.canonical network bits

def clientIp (peer : IpAddr) (headers : List Bytes) : IpAddr :=
  if !proxies.contains peer then peer
  else ((forwarded headers).reverse.find? (!proxies.contains ·)).getD peer

/-! ### Entries -/

def entries (headers : List Bytes) : List Bytes :=
  headers.flatMap (·.splitOn comma)

def address (entry : Bytes) : Option IpAddr :=
  if isText entry then parseEntry entry else none

def isProxy (entry : Bytes) : Bool :=
  (address entry).any proxies.contains

/-- The entries from the right-most one that is not a trusted proxy on, all of them if there is
none. -/
def onward (entries : List Bytes) : List Bytes :=
  (entries.reverse.dropWhile proxies.isProxy).head?.toList ++
    (entries.reverse.takeWhile proxies.isProxy).reverse

def pick (peer : IpAddr) (entries : List Bytes) : IpAddr :=
  ((entries.filterMap address).reverse.find? (!proxies.contains ·)).getD peer

variable {proxies} {peer : IpAddr} {headers : List Bytes} {left tail : List Bytes} {entry : Bytes}
  {ip : IpAddr}

theorem onward_cases (proxies : TrustedProxies) (l : List Bytes) :
    (∀ entry ∈ l, proxies.isProxy entry = true) ∧ proxies.onward l = l ∨
      ∃ left entry tail, l = left ++ entry :: tail ∧ proxies.isProxy entry = false ∧
        (∀ e ∈ tail, proxies.isProxy e = true) ∧ proxies.onward l = entry :: tail := by
  have hsplit : l.reverse.takeWhile proxies.isProxy ++ l.reverse.dropWhile proxies.isProxy =
      l.reverse :=
    takeWhile_append_dropWhile
  have htail : ∀ e ∈ l.reverse.takeWhile proxies.isProxy, proxies.isProxy e = true := fun e he =>
    mem_takeWhile_imp he
  cases hdrop : l.reverse.dropWhile proxies.isProxy with
  | nil =>
    rw [hdrop, append_nil] at hsplit
    refine .inl ⟨fun entry hentry => htail entry ?_, ?_⟩
    · rw [hsplit]
      exact mem_reverse.2 hentry
    · rw [onward, hdrop, hsplit, reverse_reverse]
      rfl
  | cons entry before =>
    have hentry : proxies.isProxy entry = false := by
      have hhead :=
        head_dropWhile_not proxies.isProxy (l := l.reverse) (by rw [hdrop]; exact cons_ne_nil _ _)
      simpa [hdrop] using hhead
    refine .inr ⟨before.reverse, entry, (l.reverse.takeWhile proxies.isProxy).reverse, ?_, hentry,
      fun e he => ?_, ?_⟩
    · rw [hdrop] at hsplit
      have hreverse := congrArg List.reverse hsplit
      rw [reverse_reverse, reverse_append, reverse_cons, append_assoc] at hreverse
      exact hreverse.symm
    · exact htail e (mem_reverse.1 he)
    · rw [onward, hdrop]
      rfl

private theorem find?_tail (htail : ∀ e ∈ tail, proxies.isProxy e = true) :
    (tail.filterMap address).reverse.find? (!proxies.contains ·) = none := by
  refine find?_eq_none.2 fun ip hip => ?_
  obtain ⟨e, he, haddress⟩ := mem_filterMap.1 (mem_reverse.1 hip)
  have hproxy := htail e he
  rw [isProxy, haddress, Option.any_some] at hproxy
  simp [hproxy]

/-- The right-most entry that is not a trusted proxy decides if it is an address, and is passed over
if it is not. -/
theorem pick_append (hentry : proxies.isProxy entry = false)
    (htail : ∀ e ∈ tail, proxies.isProxy e = true) :
    proxies.pick peer (left ++ entry :: tail) = (address entry).getD (proxies.pick peer left) := by
  rw [pick, filterMap_append, filterMap_cons]
  cases haddress : address entry with
  | none =>
    rw [reverse_append, find?_append, find?_tail htail]
    rfl
  | some ip =>
    rw [isProxy, haddress, Option.any_some] at hentry
    rw [reverse_append, reverse_cons, find?_append, find?_append, find?_tail htail]
    simp [hentry]

theorem comma_notMem_of_mem_entries (h : entry ∈ entries headers) : comma ∉ entry := by
  obtain ⟨value, -, hentry⟩ := mem_flatMap.1 h
  exact (Text.of_mem_splitOn hentry).1

theorem entries_of_separate {l : List Bytes} (h : ∀ entry ∈ l, comma ∉ entry) : entries l = l := by
  induction l with
  | nil => rfl
  | cons entry l ih =>
    have hrest := ih fun e he => h e (mem_cons_of_mem _ he)
    rw [entries] at hrest ⊢
    rw [flatMap_cons, splitOn_eq_singleton (h entry mem_cons_self), hrest]
    rfl

theorem isText_of_mem_splitOn {value : Bytes} (h : isText value = true)
    (hentry : entry ∈ value.splitOn comma) : isText entry = true :=
  all_eq_true.2 fun b hb => all_eq_true.1 h b ((Text.of_mem_splitOn hentry).2 hb)

/-- Every header is read as text, or is a single entry. -/
def Plain (headers : List Bytes) : Prop :=
  ∀ value ∈ headers, isText value = true ∨ comma ∉ value

private theorem forwarded_eq_filterMap (h : Plain headers) :
    forwarded headers = (entries headers).filterMap address := by
  unfold forwarded
  induction headers with
  | nil => simp only [entries, filter_nil, flatMap_nil, filterMap_nil]
  | cons value headers ih =>
    have hrest := ih fun v hv => h v (mem_cons_of_mem _ hv)
    rw [entries] at hrest ⊢
    rw [flatMap_cons, filterMap_append, ← hrest]
    by_cases hvisible : isText value = true
    · have hpieces : (value.splitOn comma).filterMap address =
          (value.splitOn comma).filterMap parseEntry := by
        exact filterMap_congr fun entry hentry => if_pos (isText_of_mem_splitOn hvisible hentry)
      rw [filter_cons_of_pos hvisible, flatMap_cons, filterMap_append, hpieces]
    · have hcomma := (h value mem_cons_self).resolve_left hvisible
      rw [filter_cons_of_neg hvisible, splitOn_eq_singleton hcomma, filterMap_cons, address,
        if_neg hvisible, filterMap_nil, nil_append]

theorem clientIp_eq_pick (hpeer : proxies.contains peer = true) (hplain : Plain headers) :
    proxies.clientIp peer headers = proxies.pick peer (entries headers) := by
  rw [clientIp, if_neg (by rw [hpeer]; decide), forwarded_eq_filterMap hplain]
  rfl

theorem clientIp_unreadable (hpeer : proxies.contains peer = true) (value : Bytes)
    (h : isText value = false) : proxies.clientIp peer [value] = peer := by
  rw [clientIp, if_neg (by rw [hpeer]; decide), forwarded, filter_cons_of_neg (by rw [h]; decide)]
  rfl

/-- Where every address among the entries is a trusted proxy, the peer is left. -/
theorem clientIp_eq_peer
    (h : ∀ entry ∈ entries headers, ∀ ip, address entry = some ip → proxies.contains ip = true) :
    proxies.clientIp peer headers = peer := by
  unfold clientIp
  split
  · rfl
  · rw [find?_eq_none.2]
    · rfl
    intro ip hip
    obtain ⟨entry, hentry, hparse⟩ := mem_filterMap.1 (mem_reverse.1 hip)
    obtain ⟨value, hvalue, hpiece⟩ := mem_flatMap.1 hentry
    obtain ⟨hvalue, htext⟩ := mem_filter.1 hvalue
    have haddress : address entry = some ip := by
      rw [address, if_pos (isText_of_mem_splitOn htext hpiece), hparse]
    simp [h entry (mem_flatMap.2 ⟨value, hvalue, hpiece⟩) ip haddress]

/-! ### Two requests -/

/-- The headers agree from the right-most entry that is not a trusted proxy on. -/
def Agree (proxies : TrustedProxies) (headers others : List Bytes) : Prop :=
  proxies.onward (entries headers) = proxies.onward (entries others)

/-- Whatever an entry can be the address of is a trusted proxy. -/
def CoverAll (proxies : TrustedProxies) : Prop :=
  ∀ entry ip, comma ∉ entry → address entry = some ip → proxies.contains ip = true

def Readable (headers : List Bytes) : Prop :=
  ∀ value ∈ headers, isText value = true

theorem onward_append (hentry : proxies.isProxy entry = false)
    (htail : ∀ e ∈ tail, proxies.isProxy e = true) :
    proxies.onward (left ++ entry :: tail) = entry :: tail := by
  have hreverse : (left ++ entry :: tail).reverse = tail.reverse ++ entry :: left.reverse := by simp
  have hmem : ∀ e ∈ tail.reverse, proxies.isProxy e = true := fun e he => htail e (mem_reverse.1 he)
  rw [onward, hreverse, dropWhile_append_of_pos hmem, takeWhile_append_of_pos hmem,
    dropWhile_cons_of_neg (by rw [hentry]; decide), takeWhile_cons_of_neg (by rw [hentry]; decide)]
  simp

theorem isProxy_address (h : proxies.isProxy entry = true) : (address entry).isSome = true := by
  obtain ⟨ip, hip, -⟩ := (Option.any_eq_true _ _).1 h
  rw [hip]
  rfl

theorem clientIp_of_isProxy (h : ∀ entry ∈ entries headers, proxies.isProxy entry = true) :
    proxies.clientIp peer headers = peer := by
  refine clientIp_eq_peer fun entry hentry ip hip => ?_
  have hproxy := h entry hentry
  rwa [isProxy, hip] at hproxy

theorem Agree.isProxy {others : List Bytes} (hagree : Agree proxies headers others)
    (h : ∀ entry ∈ entries headers, proxies.isProxy entry = true) : ∀ entry ∈ entries others,
    proxies.isProxy entry = true := by
  have honward : proxies.onward (entries headers) = entries headers := by
    rcases onward_cases proxies (entries headers) with ⟨-, heq⟩ | ⟨left, entry, tail,
      heq, hentry, -⟩
    · exact heq
    · rw [h entry (by rw [heq]; simp)] at hentry
      cases hentry
  rcases onward_cases proxies (entries others) with ⟨hothers, -⟩ | ⟨left, entry, tail, -,
    hentry, -, heq⟩
  · exact hothers
  · have hmem : entry ∈ entries headers := by
      rw [← honward, hagree, heq]
      exact mem_cons_self
    rw [h entry hmem] at hentry
    cases hentry

section Apart

variable (hpeer : proxies.contains peer = true) (hentry : proxies.isProxy entry = false)
  (htail : ∀ e ∈ tail, proxies.isProxy e = true) (hcomma : ∀ e ∈ entry :: tail, comma ∉ e)
include hpeer hentry htail hcomma

theorem clientIp_separate (before : List Bytes) (hbefore : ∀ e ∈ before, comma ∉ e) :
    proxies.onward (entries (before ++ entry :: tail)) = entry :: tail ∧
      proxies.clientIp peer (before ++ entry :: tail) =
      (address entry).getD (proxies.pick peer before) := by
  have hseparate : ∀ e ∈ before ++ entry :: tail, comma ∉ e := by
    intro e he
    rcases mem_append.1 he with he | he
    · exact hbefore e he
    · exact hcomma e he
  rw [clientIp_eq_pick hpeer fun value hvalue => .inr (hseparate value hvalue),
    entries_of_separate hseparate]
  exact ⟨onward_append hentry htail, pick_append hentry htail⟩

private theorem clientIp_joined :
    proxies.onward (entries [[comma].intercalate ([255] :: entry :: tail)]) = entry :: tail ∧
      proxies.clientIp peer [[comma].intercalate ([255] :: entry :: tail)] = peer := by
  constructor
  · have hpieces : ∀ e ∈ [255] :: entry :: tail, comma ∉ e := by
      intro e he
      rcases mem_cons.1 he with rfl | he
      · decide
      · exact hcomma e he
    rw [entries, flatMap_singleton, splitOn_intercalate comma hpieces (cons_ne_nil _ _)]
    show proxies.onward ([[255]] ++ entry :: tail) = _
    exact onward_append hentry htail
  · refine clientIp_unreadable hpeer _ (all_eq_false.2 ⟨255, ?_, by decide⟩)
    simp

/-- An address that comes right-most is passed over beside bytes that are not text. -/
theorem clientIp_differs_of_address (haddress : address entry = some ip) :
    ∃ others more, proxies.onward (entries others) = entry :: tail ∧
    proxies.onward (entries more) = entry :: tail ∧
      proxies.clientIp peer others ≠ proxies.clientIp peer more := by
  obtain ⟨hothers, hip⟩ := clientIp_separate hpeer hentry htail hcomma [] nofun
  obtain ⟨hmore, hmorePeer⟩ := clientIp_joined hpeer hentry htail hcomma
  refine ⟨_, _, hothers, hmore, ?_⟩
  rw [hip, hmorePeer, haddress, Option.getD_some]
  rintro rfl
  rw [isProxy, haddress, Option.any_some, hpeer] at hentry
  cases hentry

/-- An entry that is not an address lets the one before it decide. -/
theorem clientIp_differs_of_none {before : Bytes} (haddress : address entry = none)
    (hbefore : address before = some ip) (hip : proxies.contains ip = false)
    (hsingle : comma ∉ before) : proxies.onward (entries (entry :: tail)) = entry :: tail ∧
      proxies.onward (entries (before :: entry :: tail)) = entry :: tail ∧
      proxies.clientIp peer (entry :: tail) ≠ proxies.clientIp peer (before :: entry :: tail) := by
  obtain ⟨hothers, hothersIp⟩ := clientIp_separate hpeer hentry htail hcomma [] nofun
  obtain ⟨hmore, hmoreIp⟩ := clientIp_separate hpeer hentry htail hcomma [before]
    fun e he => mem_singleton.1 he ▸ hsingle
  refine ⟨hothers, hmore, ?_⟩
  rw [nil_append] at hothersIp
  rw [singleton_append] at hmoreIp
  have hpick : proxies.pick peer [before] = ip := by
    rw [pick, filterMap_cons, hbefore]
    simp [hip]
  have hnil : proxies.pick peer [] = peer := rfl
  rw [hothersIp, hmoreIp, haddress, Option.getD_none, hpick, hnil]
  rintro rfl
  rw [hpeer] at hip
  cases hip

end Apart

theorem isText_of_mem_entries (h : Readable headers) (hentry : entry ∈ entries headers) :
    isText entry = true := by
  obtain ⟨value, hvalue, hpiece⟩ := mem_flatMap.1 hentry
  exact isText_of_mem_splitOn (h value hvalue) hpiece

theorem isText_of_address (h : address entry = some ip) : isText entry = true := by
  by_contra hnot
  rw [address, if_neg hnot] at h
  cases h

private theorem clientIp_of_onward (hpeer : proxies.contains peer = true)
    (hreadable : Readable headers) (honward : proxies.onward (entries headers) = entry :: tail)
    (hentry : proxies.isProxy entry = false) (haddress : address entry = some ip) :
    proxies.clientIp peer headers = ip := by
  rw [clientIp_eq_pick hpeer fun value hvalue => .inl (hreadable value hvalue)]
  rcases onward_cases proxies (entries headers) with ⟨hall, heq⟩ | ⟨left, e, others, heq, he,
    hothers, hcons⟩
  · have hmem : entry ∈ entries headers := by
      rw [← heq, honward]
      exact mem_cons_self
    rw [hall entry hmem] at hentry
    cases hentry
  · rw [honward] at hcons
    cases hcons
    rw [heq, pick_append he hothers, haddress]
    rfl

variable (proxies peer headers)

/-- An untrusted peer is the client.  For a trusted one the address is decided by the entries from
the right-most one that is not a trusted proxy on if and only if there is no such entry or no
address outside the trusted networks, as another header may hold the same entries beside bytes that
are not text.  Among headers that are text it is decided if and only if that entry is an address,
too. -/
theorem clientIp_decided_iff :
    (proxies.contains peer = false → proxies.clientIp peer headers = peer) ∧
    ((∀ others, Agree proxies headers others → proxies.clientIp peer others =
      proxies.clientIp peer headers) ↔ proxies.contains peer = false ∨ CoverAll proxies ∨
      ∀ entry ∈ entries headers, proxies.isProxy entry = true) ∧
    (Readable headers →
      ((∀ others, Readable others → Agree proxies headers others →
          proxies.clientIp peer others = proxies.clientIp peer headers) ↔
        proxies.contains peer = false ∨ CoverAll proxies ∨
          ∀ entry ∈ (proxies.onward (entries headers)).head?, (address entry).isSome = true)) := by
  have huntrusted : proxies.contains peer = false → ∀ headers,
      proxies.clientIp peer headers = peer := by
    intro hpeer headers
    rw [clientIp, hpeer]
    rfl
  have hcover : CoverAll proxies → ∀ headers, proxies.clientIp peer headers = peer :=
    fun h headers =>
    clientIp_eq_peer fun entry hentry ip hip => h entry ip (comma_notMem_of_mem_entries hentry) hip
  refine ⟨fun h => huntrusted h headers, ⟨fun h => ?_, ?_⟩, fun hreadable => ⟨fun h => ?_, ?_⟩⟩
  · by_contra hnone
    simp only [not_or, Bool.not_eq_false] at hnone
    obtain ⟨hpeer, hcovers, hproxies⟩ := hnone
    rcases onward_cases proxies (entries headers) with ⟨hall, -⟩ | ⟨left, entry, tail, hentries,
      hentry, htail, honward⟩
    · exact hproxies hall
    have hcomma : ∀ e ∈ entry :: tail, comma ∉ e := fun e he =>
      comma_notMem_of_mem_entries (hentries ▸ mem_append_right left he)
    obtain ⟨others, more, hothers, hmore, hdiffers⟩ : ∃ others more,
      proxies.onward (entries others) = entry :: tail ∧
        proxies.onward (entries more) = entry :: tail ∧
          proxies.clientIp peer others ≠ proxies.clientIp peer more := by
      cases haddress : address entry with
      | some ip => exact clientIp_differs_of_address hpeer hentry htail hcomma haddress
      | none =>
        simp only [CoverAll, not_forall, Bool.not_eq_true] at hcovers
        obtain ⟨before, ip, hsingle, hbefore, hip⟩ := hcovers
        exact ⟨_, _,
          clientIp_differs_of_none hpeer hentry htail hcomma haddress hbefore hip hsingle⟩
    exact hdiffers
      ((h others (honward.trans hothers.symm)).trans (h more (honward.trans hmore.symm)).symm)
  · rintro (h | h | h) others hagree
    · rw [huntrusted h, huntrusted h]
    · rw [hcover h, hcover h]
    · rw [clientIp_of_isProxy h, clientIp_of_isProxy (hagree.isProxy h)]
  · by_contra hnone
    simp only [not_or, Bool.not_eq_false] at hnone
    obtain ⟨hpeer, hcovers, hhead⟩ := hnone
    rcases onward_cases proxies (entries headers) with ⟨hall, heq⟩ | ⟨left, entry, tail, hentries,
      hentry, htail, honward⟩
    · rw [heq] at hhead
      exact hhead fun entry hentry => isProxy_address (hall entry (mem_of_mem_head? hentry))
    have hmem : ∀ e ∈ entry :: tail, e ∈ entries headers := fun e he =>
      hentries ▸ mem_append_right left he
    have haddress : address entry = none := by
      rw [honward] at hhead
      simpa using hhead
    simp only [CoverAll, not_forall, Bool.not_eq_true] at hcovers
    obtain ⟨before, ip, hsingle, hbefore, hip⟩ := hcovers
    obtain ⟨hothers, hmore, hdiffers⟩ := clientIp_differs_of_none hpeer hentry htail
      (fun e he => comma_notMem_of_mem_entries (hmem e he)) haddress hbefore hip hsingle
    have htext : Readable (entry :: tail) := fun e he => isText_of_mem_entries hreadable (hmem e he)
    have htextMore : Readable (before :: entry :: tail) := by
      intro e he
      rcases mem_cons.1 he with rfl | he
      · exact isText_of_address hbefore
      · exact htext e he
    exact hdiffers
      ((h _ htext (honward.trans hothers.symm)).trans
        (h _ htextMore (honward.trans hmore.symm)).symm)
  · rintro (h | h | h) others hothers hagree
    · rw [huntrusted h, huntrusted h]
    · rw [hcover h, hcover h]
    by_cases hpeer : proxies.contains peer = false
    · rw [huntrusted hpeer, huntrusted hpeer]
    rw [Bool.not_eq_false] at hpeer
    rcases onward_cases proxies (entries headers) with ⟨hall, -⟩ | ⟨left, entry, tail, hentries,
      hentry, htail, honward⟩
    · rw [clientIp_of_isProxy hall, clientIp_of_isProxy (hagree.isProxy hall)]
    · rw [honward] at h
      obtain ⟨ip, hip⟩ := Option.isSome_iff_exists.1 (h entry rfl)
      rw [clientIp_of_onward hpeer hreadable honward hentry hip,
        clientIp_of_onward hpeer hothers (hagree.symm.trans honward) hentry hip]

instance (proxies : TrustedProxies) (headers others : List Bytes) :
    Decidable (Agree proxies headers others) :=
  inferInstanceAs (Decidable (_ = _))

/-- The client moves to another bucket by what stands left of an entry that is not an address, and
to the one of the proxy by a byte that is not text in the header the proxy adds its address to. -/
theorem clientIp_chosen :
    ∃ proxies, TrustedProxies.parse ["172.18.0.0/16"] = .ok proxies ∧
      ∃ peer, IpAddr.parse "172.18.0.2".toList = some peer ∧ proxies.contains peer = true ∧
        Agree proxies [utf8 "6.6.6.6,unknown"] [utf8 "7.7.7.7,unknown"] ∧
        proxies.clientIp peer [utf8 "6.6.6.6,unknown"] ≠
        proxies.clientIp peer [utf8 "7.7.7.7,unknown"] ∧ Agree proxies [utf8 "8.8.8.8"]
        [255 :: utf8 ",8.8.8.8"] ∧ proxies.clientIp peer [utf8 "8.8.8.8"] ≠ proxies.clientIp peer
        [255 :: utf8 ",8.8.8.8"] := by
  refine ⟨[(.v4 0xac120000, 16)], by decide +kernel, .v4 0xac120002, ?_⟩
  decide +kernel

end TrustedProxies

end MicroTak.Marti
