import MicroTak.Lib.Text

/-!
# Text files read line by line

A file is a list of bytes.  `lines` cuts it the way a buffered reader does: each line ends at a line
feed, which is dropped together with a carriage return before it, and bytes after the last line feed
are a line of their own, kept as they are.  `decodeUtf8` is the check that turns a line into text.
-/

namespace Lines

open List

abbrev Bytes := List UInt8

def lineFeed : UInt8 := 10

def carriageReturn : UInt8 := 13

def utf8 (s : String) : Bytes := s.toByteArray.data.toList

/-- The text of some bytes, `none` where they are not valid UTF-8. -/
def decodeUtf8 (bytes : Bytes) : Option String := String.fromUTF8? ⟨bytes.toArray⟩

def stripCr (line : Bytes) : Bytes :=
  if line.getLast? = some carriageReturn then line.dropLast else line

/-- The lines of a file whose first line starts with the bytes already read. -/
def linesFrom (read : Bytes) : Bytes → List Bytes
  | [] => if read = [] then [] else [read]
  | b :: rest =>
    if b = lineFeed then stripCr read :: linesFrom [] rest else linesFrom (read ++ [b]) rest

def lines (file : Bytes) : List Bytes := linesFrom [] file

/-! ### Cutting into lines -/

variable {read line rest tail : Bytes} {s : String} {b : UInt8}

theorem linesFrom_append (hline : lineFeed ∉ line) :
    linesFrom read (line ++ rest) = linesFrom (read ++ line) rest := by
  induction line generalizing read with
  | nil => rw [nil_append, append_nil]
  | cons b line ih =>
    have hb : b ≠ lineFeed := fun h => hline (by simp [h])
    have hrest : lineFeed ∉ line := fun h => hline (mem_cons_of_mem _ h)
    rw [cons_append, linesFrom, if_neg hb, ih hrest, append_assoc, singleton_append]

theorem linesFrom_line (hline : lineFeed ∉ line) :
    linesFrom read (line ++ lineFeed :: rest) = stripCr (read ++ line) :: lines rest := by
  rw [linesFrom_append hline, linesFrom, if_pos rfl, lines]

theorem linesFrom_tail (htail : lineFeed ∉ tail) (hne : read ++ tail ≠ []) :
    linesFrom read tail = [read ++ tail] := by
  have happend := @linesFrom_append read tail [] htail
  rwa [append_nil, linesFrom, if_neg hne] at happend

@[simp] theorem lines_nil : lines [] = [] := rfl

theorem lines_line (hline : lineFeed ∉ line) (hcr : carriageReturn ∉ line) :
    lines (line ++ lineFeed :: rest) = line :: lines rest := by
  rw [lines, linesFrom_line hline]
  congr 1
  apply if_neg
  intro hlast
  exact hcr (mem_of_getLast? hlast)

theorem lines_tail (htail : lineFeed ∉ tail) (hne : tail ≠ []) : lines tail = [tail] :=
  linesFrom_tail htail hne

/-! ### Bytes and text -/

@[simp] theorem decodeUtf8_utf8 (s : String) : decodeUtf8 (utf8 s) = some s := by
  have hbytes : (⟨(utf8 s).toArray⟩ : ByteArray) = s.toByteArray := by simp [utf8]
  rw [decodeUtf8, String.fromUTF8?, hbytes, dif_pos s.isValidUTF8]
  rfl

theorem utf8_of_decodeUtf8 {bytes : Bytes} (h : decodeUtf8 bytes = some s) : utf8 s = bytes := by
  rw [decodeUtf8, String.fromUTF8?] at h
  split at h
  · cases h
    simp [utf8, String.fromUTF8]
  · cases h

theorem utf8_injective {t : String} (h : utf8 s = utf8 t) : s = t := by
  have hs := decodeUtf8_utf8 s
  rw [h, decodeUtf8_utf8] at hs
  exact (Option.some.inj hs).symm

theorem utf8_append (s t : String) : utf8 (s ++ t) = utf8 s ++ utf8 t := by
  simp [utf8]

theorem utf8_ofList_cons (c : Char) (rest : List Char) :
    utf8 (String.ofList (c :: rest)) = String.utf8EncodeChar c ++ utf8 (String.ofList rest) := by
  simp only [utf8, String.toByteArray_ofList]
  rw [utf8Encode_cons, utf8Encode_singleton]
  simp

theorem ascii_of_mem_utf8EncodeChar {c : Char} (hmem : b ∈ String.utf8EncodeChar c)
    (hb : b.toNat < 128) : String.utf8EncodeChar c = [b] ∧ c.toNat = b.toNat := by
  have hval : c.toNat = c.val.toNat := rfl
  rw [String.utf8EncodeChar] at hmem ⊢
  split at hmem
  · rename_i hone
    obtain rfl : b = UInt8.ofNat c.val.toNat := by simpa using hmem
    rw [if_pos hone, UInt8.toNat_ofNat']
    exact ⟨rfl, by omega⟩
  · -- Every byte of a longer encoding is at least 128.
    exfalso
    split at hmem
    · simp only [mem_cons, not_mem_nil, or_false] at hmem
      rcases hmem with rfl | rfl <;> simp only [UInt8.toNat_ofNat'] at hb <;> omega
    · split at hmem
      · simp only [mem_cons, not_mem_nil, or_false] at hmem
        rcases hmem with rfl | rfl | rfl <;> simp only [UInt8.toNat_ofNat'] at hb <;> omega
      · simp only [mem_cons, not_mem_nil, or_false] at hmem
        rcases hmem with rfl | rfl | rfl | rfl <;> simp only [UInt8.toNat_ofNat'] at hb <;> omega

theorem exists_char_of_mem_utf8 (hmem : b ∈ utf8 s) (hb : b.toNat < 128) :
    ∃ c ∈ s.toList, c.toNat = b.toNat := by
  obtain ⟨chars, rfl⟩ : ∃ chars, s = String.ofList chars := ⟨s.toList, by simp⟩
  rw [String.toList_ofList]
  induction chars with
  | nil => simp [utf8] at hmem
  | cons c rest ih =>
    rw [utf8_ofList_cons, mem_append] at hmem
    rcases hmem with hhead | htail
    · exact ⟨c, by simp, (ascii_of_mem_utf8EncodeChar hhead hb).2⟩
    · obtain ⟨d, hd, heq⟩ := ih htail
      exact ⟨d, mem_cons_of_mem _ hd, heq⟩

theorem head_of_utf8_cons (h : utf8 s = b :: rest)
    (hb : b.toNat < 128) : ∃ c chars, s.toList = c :: chars ∧ c.toNat = b.toNat := by
  obtain ⟨chars, rfl⟩ : ∃ chars, s = String.ofList chars := ⟨s.toList, by simp⟩
  rw [String.toList_ofList]
  cases chars with
  | nil => simp [utf8] at h
  | cons c chars =>
    rw [utf8_ofList_cons] at h
    have hne : String.utf8EncodeChar c ≠ [] := by
      intro hnil
      have hlen := congrArg List.length hnil
      rw [String.length_utf8EncodeChar] at hlen
      exact absurd hlen (Nat.pos_iff_ne_zero.1 c.utf8Size_pos)
    obtain ⟨first, more, hcons⟩ := exists_cons_of_ne_nil hne
    rw [hcons, cons_append, List.cons.injEq] at h
    have hmem : b ∈ String.utf8EncodeChar c := by rw [hcons, h.1]; exact mem_cons_self
    exact ⟨c, chars, rfl, (ascii_of_mem_utf8EncodeChar hmem hb).2⟩

end Lines
