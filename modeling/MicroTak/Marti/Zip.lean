import MicroTak.Lib.Zip

/-!
# Exported archives

Certificates and missions are exported as ZIP archives.  One loop writes the header, name and bytes
of each file and collects the directory, which then follows with its end record.
-/

namespace MicroTak.Marti

open Lines Zip

def crc32 (data : Bytes) : BitVec 32 :=
  ~~~ data.foldl (fun crc byte => divide^[8] (crc ^^^ byte.toBitVec.setWidth 32)) 0xffffffff

/-- Version, flags, method, time and date, checksum, sizes, and the lengths of the name and of an
extra field. -/
def localRow (name : String) (data : Bytes) : List (Nat × Nat) :=
  [(4, 0x04034b50), (2, 20), (2, 0), (2, 0), (2, 0), (2, 0x21), (4, (crc32 data).toNat),
    (4, data.length), (4, data.length), (2, (utf8 name).length), (2, 0)]

/-- The same with two versions, and with the extra field, comment, disk, attributes and offset. -/
def centralRow (name : String) (data : Bytes) (offset : Nat) : List (Nat × Nat) :=
  [(4, 0x02014b50), (2, 20), (2, 20), (2, 0), (2, 0), (2, 0), (2, 0x21), (4, (crc32 data).toNat),
    (4, data.length), (4, data.length), (2, (utf8 name).length), (2, 0), (2, 0), (2, 0), (2, 0),
      (4, 0), (4, offset)]

def addFile (written : Bytes × Bytes) (file : String × Bytes) : Bytes × Bytes :=
  (written.1 ++ (row (localRow file.1 file.2) ++ (utf8 file.1 ++ file.2)),
    written.2 ++ (row (centralRow file.1 file.2 written.1.length) ++ utf8 file.1))

def endRow (count : Nat) (out central : Bytes) : List (Nat × Nat) :=
  [(4, 0x06054b50), (2, 0), (2, 0), (2, count), (2, count), (4, central.length),
    (4, out.length), (2, 0)]

def stored (files : List (String × Bytes)) : Bytes :=
  let (out, central) := files.foldl addFile ([], [])
  out ++ (central ++ row (endRow files.length out central))

private theorem crc32_eq (data : Bytes) : crc32 data = crc data := by
  rw [crc, remainder, List.foldl_flatMap, crc32]
  congr 2
  funext r byte
  refine (remainder_bits r ?_).symm
  ext i
  simp

example : crc32 (utf8 "123456789") = 0xcbf43926 := by decide +kernel

variable {name : String} {data rest archive : Bytes} {offset : Nat}

private theorem readFile_row (hname : (utf8 name).length < 2 ^ 16) (hdata : data.length < 2 ^ 32)
    (hoffset : offset < 2 ^ 32) {tail : Bytes}
    (hdrop : archive.drop offset = row (localRow name data) ++ (utf8 name ++ (data ++ tail))) :
    readFile archive (row (centralRow name data offset) ++ (utf8 name ++ rest)) =
    some ((cp437 (utf8 name), data), rest) := by
  have hcentral : ∀ f ∈ centralRow name data offset, f.2 < 256 ^ f.1 := by
    simpa [centralRow] using ⟨(crc32 data).isLt, hdata, hname, hoffset⟩
  have hlocal : ∀ f ∈ localRow name data, f.2 < 256 ^ f.1 := by
    simpa [localRow] using ⟨(crc32 data).isLt, hdata, hname⟩
  have hfile : fields [4, 2, 2, 2, 2, 2, 4, 4, 4, 2, 2] (archive.drop offset) = _ :=
    hdrop ▸ fields_row hlocal
  have hdecode : decodeName 0 (utf8 name) = some (cp437 (utf8 name)) := rfl
  change (fields ((centralRow name data offset).map Prod.fst) _ >>= _) = _
  rw [fields_row hcentral]
  change (chunk (utf8 name).length (utf8 name ++ rest) >>= _) = _
  simp only [chunk_append, Option.bind_eq_bind, Option.bind_some, Nat.add_zero, chunk_zero, hfile]
  change (chunk (utf8 name).length (utf8 name ++ (data ++ tail))).bind _ = _
  simp [chunk_append, hdecode, crc32_eq]

/-- What the loop writes for some files is read back as these files, their names in the code page,
in every archive that starts with it. -/
theorem readFiles_written (files : List (String × Bytes))
    (hnames : ∀ file ∈ files, (utf8 file.1).length < 2 ^ 16) (out central : Bytes) :
    ∃ outs centrals, files.foldl addFile (out, central) = (out ++ outs, central ++ centrals) ∧
      ∀ archive rest : Bytes, archive.length < 2 ^ 32 → out ++ outs <+: archive →
        readFiles archive files.length (centrals ++ rest) =
          some (files.map fun file => (cp437 (utf8 file.1), file.2), rest) := by
  induction files generalizing out central with
  | nil => exact ⟨[], [], by simp, fun _ _ _ _ => rfl⟩
  | cons file files ih =>
    obtain ⟨hname, hnames⟩ := List.forall_mem_cons.1 hnames
    obtain ⟨outs, centrals, hfold, hread⟩ :=
      ih hnames (addFile (out, central) file).1 (addFile (out, central) file).2
    refine ⟨row (localRow file.1 file.2) ++ (utf8 file.1 ++ file.2) ++ outs,
      row (centralRow file.1 file.2 out.length) ++ utf8 file.1 ++ centrals, ?_,
        fun archive rest hsize hextends => ?_⟩
    · rw [List.foldl_cons, hfold]
      simp [addFile]
    · rw [← List.append_assoc] at hextends
      have hfiles := hread archive rest hsize hextends
      obtain ⟨tail, htail⟩ := hextends
      have hbounds : out.length < 2 ^ 32 ∧ file.2.length < 2 ^ 32 := by
        simp [← htail] at hsize
        omega
      have hfile :=
        @readFile_row file.1 file.2 (centrals ++ rest) archive out.length hname hbounds.2 hbounds.1
          (outs ++ tail) (by simp [← htail])
      simp [readFiles, hfile, hfiles]

variable {files : List (String × Bytes)}

private theorem unpack_stored_eq (hcount : files.length < 2 ^ 16)
    (hnames : ∀ file ∈ files, (utf8 file.1).length < 2 ^ 16)
    (hsize : (stored files).length < 2 ^ 32) :
    unpack (stored files) = some (files.map fun file => (cp437 (utf8 file.1), file.2)) := by
  obtain ⟨out, central, hfold, hread⟩ := readFiles_written files hnames [] []
  obtain ⟨ending, hending⟩ : ∃ ending, row (endRow files.length out central) = ending := ⟨_, rfl⟩
  have hstored : stored files = out ++ (central ++ ending) := by
    rw [stored, hfold, ← hending]
    rfl
  rw [hstored] at hsize ⊢
  have hfiles := hread _ ending hsize (List.prefix_append ..)
  have hlength : ending.length = 22 := by
    simp [← hending, row, endRow, length_le]
  have hend : readEnd ending = some (files.length, central.length, out.length) := by
    have hfits : ∀ f ∈ endRow files.length out central, f.2 < 256 ^ f.1 := by
      simp at hsize
      simp [endRow]
      omega
    have hfields := @fields_row [] _ hfits
    rw [List.append_nil, hending] at hfields
    change (fields ((endRow files.length out central).map Prod.fst) _ >>= _) = _
    rw [hfields]
    simp [endRow]
  -- The first place to look for the end record is 22 bytes before the end.
  have hplaces : (out ++ (central ++ ending)).length - 21 = out.length + central.length + 1 := by
    simp [hlength]
    omega
  have hdrop : (out ++ (central ++ ending)).drop (out.length + central.length) = ending := by
    simp [← List.append_assoc]
  rw [unpack, hplaces, List.range_succ]
  simp [hdrop, hend, hfiles]

/-- Within the bounds of the format, an archive is read back as the files it was made of, in their
order, exactly if all their names are ASCII. -/
theorem unpack_stored_iff (hcount : files.length < 2 ^ 16)
    (hnames : ∀ file ∈ files, (utf8 file.1).length < 2 ^ 16)
    (hsize : (stored files).length < 2 ^ 32) : unpack (stored files) = some files ↔
    ∀ file ∈ files, ∀ c ∈ file.1.toList, c.toNat < 128 := by
  have hmap := @List.map_inj_left _ _ files (fun file => (cp437 (utf8 file.1), file.2)) id
  rw [List.map_id] at hmap
  rw [unpack_stored_eq hcount hnames hsize, Option.some_inj, hmap]
  exact forall₂_congr fun _ _ => Prod.ext_iff.trans ((and_iff_left rfl).trans cp437_utf8_iff)

theorem unpack_stored_pair :
    unpack (stored [("a.pem", [65, 66]), ("b", [])]) = some [("a.pem", [65, 66]), ("b", [])] :=
  (unpack_stored_iff (by decide) (by decide) (by decide +kernel)).2 (by simp)

/-- The names are written as UTF-8, without the flag that says so. -/
theorem stored_name_read_in_code_page :
    unpack (stored [("é", [65, 66])]) = some [("├⌐", [65, 66])] := by
  decide +kernel

end MicroTak.Marti
