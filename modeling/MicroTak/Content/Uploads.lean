import MicroTak.Content.Files

/-!
# Streamed uploads

An upload writes to a temporary file of its own and renames it to the hash of its bytes.  Here the
temporary files are files of the directory like the others, and between any two accesses to the
directory other uploads may go on.
-/

namespace MicroTak.Content

open Std Lines Transition

inductive UploadError where
  | io
  | hashMismatch (claimed actual : String)
  | tooLarge (limit : Nat)

/-- The directory of a content store: the files at final names, the `.tmp-` files of this process by
their nonce, and `TMP_COUNTER`. -/
structure Directory where
  files : TreeMap String Bytes := ∅
  temps : TreeMap Nat Bytes := ∅
  counter : Nat := 0

/-- An upload that has a temporary file.  A chunk is `none` where the stream fails. -/
inductive Upload where
  | writing (bytes : Bytes)
  | streaming (hashed : Bytes) (written : Nat) (chunks : List (Option Bytes))
    (claimed : Option String) (maxBytes : Nat)
  | placing (hash : String)
  | moving (hash : String)
  | removing (result : Except UploadError String)
  | ended (result : Except UploadError String)

section Model

variable (digest : Bytes → String) (toLowercase : String → String)

def checkClaim (claimed : Option String) (actual : String) : Except UploadError String :=
  match claimed with
  | none => .ok actual
  | some claimed =>
      if toLowercase claimed = actual then .ok actual
        else .error (.hashMismatch (toLowercase claimed) actual)

namespace Directory

def write (dir : Directory) (nonce : Nat) (bytes : Bytes) : Directory :=
  { dir with temps := dir.temps.insert nonce bytes }

def unlink (dir : Directory) (nonce : Nat) : Directory :=
  { dir with temps := dir.temps.erase nonce }

def create (dir : Directory) (upload : Upload) : Directory × Upload :=
  ({ dir.write dir.counter [] with counter := dir.counter + 1 }, upload)

/-- What `put` returns before it creates a file, if it does. -/
def settled (dir : Directory) (bytes : Bytes) (claimed : Option String) :
    Option (Except UploadError String) :=
  match checkClaim toLowercase claimed (digest bytes) with
  | .error e => some (.error e)
  | .ok actual => if dir.files.contains actual then some (.ok actual) else none

def put (dir : Directory) (bytes : Bytes) (claimed : Option String) : Directory × Upload :=
  match dir.settled digest toLowercase bytes claimed with
  | some result => (dir, .ended result)
  | none => dir.create (.writing bytes)

def putStream (dir : Directory) (chunks : List (Option Bytes)) (claimed : Option String)
    (maxBytes : Nat) : Directory × Upload :=
  dir.create (.streaming [] 0 chunks claimed maxBytes)

def advance (nonce : Nat) : Directory × Upload → Directory × Upload
  | (dir, .writing bytes) => (dir.write nonce bytes, .moving (digest bytes))
  | (dir, .streaming hashed _ [] claimed _) =>
      match checkClaim toLowercase claimed (digest hashed) with
      | .ok actual => (dir, .placing actual)
      | .error e => (dir, .removing (.error e))
  | (dir, .streaming _ _ (none :: _) _ _) => (dir, .removing (.error .io))
  | (dir, .streaming hashed written (some chunk :: rest) claimed maxBytes) =>
      if maxBytes < written + chunk.length then (dir, .removing (.error (.tooLarge maxBytes)))
      else
        (dir.write nonce (dir.temps.getD nonce [] ++ chunk),
          .streaming (hashed ++ chunk) (written + chunk.length) rest claimed maxBytes)
  | (dir, .placing hash) =>
    (dir, if dir.files.contains hash then .removing (.ok hash) else .moving hash)
  | (dir, .moving hash) =>
      match dir.temps[nonce]? with
      | some bytes =>
        ({ dir.unlink nonce with files := dir.files.insert hash bytes }, .ended (.ok hash))
      | none => (dir, .ended (.error .io))
  | (dir, .removing result) => (dir.unlink nonce, .ended result)
  | (dir, .ended result) => (dir, .ended result)

end Directory

/-- The uploads by their nonce, and the bytes of each `put` that has yet to create its file. -/
structure Uploads where
  dir : Directory := {}
  uploads : TreeMap Nat Upload := ∅
  unstored : List Bytes := []

namespace Uploads

inductive Action where
  | put (bytes : Bytes) (claimed : Option String)
  | create (bytes : Bytes)
  | putStream (chunks : List (Option Bytes)) (claimed : Option String) (maxBytes : Nat)
  | advance (nonce : Nat)

def set (system : Uploads) (nonce : Nat) (point : Directory × Upload) : Uploads :=
  { system with dir := point.1, uploads := system.uploads.insert nonce point.2 }

def step (system : Uploads) : Action → Option Uploads
  | .put bytes claimed =>
      match system.dir.settled digest toLowercase bytes claimed with
      | some _ => some system
      | none => some { system with unstored := bytes :: system.unstored }
  | .create bytes =>
      if bytes ∈ system.unstored then
        some ({ system with unstored := system.unstored.erase bytes }.set system.dir.counter
          (system.dir.create (.writing bytes)))
      else none
  | .putStream chunks claimed maxBytes =>
      some (system.set system.dir.counter (system.dir.putStream chunks claimed maxBytes))
  | .advance nonce =>
      match system.uploads[nonce]? with
      | some upload =>
        some (system.set nonce (Directory.advance digest toLowercase nonce (system.dir, upload)))
      | none => none

end Uploads

end Model

variable {digest : Bytes → String} {toLowercase : String → String} {dir : Directory} {nonce : Nat}
  {upload : Upload}

/-! ### Uploads side by side -/

/-- What there is under the nonce of an upload. -/
def Upload.Holds (digest : Bytes → String) : Option Upload → Option Bytes → Prop
  | none, temp | some (.ended _), temp => temp = none
  | some (.streaming hashed ..), temp => temp = some hashed
  | some (.placing hash), temp | some (.moving hash), temp =>
    ∃ bytes, temp = some bytes ∧ digest bytes = hash
  | some (.writing _), _ | some (.removing _), _ => True

def Directory.Named (digest : Bytes → String) (dir : Directory) : Prop :=
  ∀ (hash : String) (bytes : Bytes), dir.files[hash]? = some bytes → digest bytes = hash

/-- All that an access of the upload with this nonce does to the directory. -/
structure Directory.Fits (digest : Bytes → String) (nonce : Nat) (dir : Directory)
    (point : Directory × Upload) : Prop where
  named : point.1.Named digest
  holds : Upload.Holds digest (some point.2) point.1.temps[nonce]?
  others (other : Nat) : nonce ≠ other → point.1.temps[other]? = dir.temps[other]?
  counter : dir.counter ≤ point.1.counter
  files : point.1.files = dir.files ∨ ∃ hash, point.2 = .ended (.ok hash)

theorem fits_create (h : dir.Named digest) (hholds : Upload.Holds digest (some upload) (some [])) :
    dir.Fits digest dir.counter (dir.create upload) where
  named := h
  holds := by simpa [Directory.create, Directory.write] using hholds
  others := fun _ hne => Dict.getElem?_insert_of_ne hne
  counter := Nat.le_succ _
  files := .inl rfl

private theorem fits_temps (h : dir.Named digest) {temps : TreeMap Nat Bytes}
    (hothers : ∀ other : Nat, nonce ≠ other → temps[other]? = dir.temps[other]?)
    (hholds : Upload.Holds digest (some upload) temps[nonce]?) :
    dir.Fits digest nonce ({ dir with temps }, upload) :=
  ⟨h, hholds, hothers, le_rfl, .inl rfl⟩

theorem fits_advance (h : dir.Named digest)
    (hholds : Upload.Holds digest (some upload) dir.temps[nonce]?) :
    dir.Fits digest nonce (Directory.advance digest toLowercase nonce (dir, upload)) := by
  have hrest {next : Upload} (hnext : Upload.Holds digest (some next) dir.temps[nonce]?) :
      dir.Fits digest nonce (dir, next) :=
    fits_temps h (fun _ _ => rfl) hnext
  cases upload with
  | writing bytes =>
    exact fits_temps h (fun _ hne => Dict.getElem?_insert_of_ne hne)
      ⟨bytes, Dict.getElem?_insert_self .., rfl⟩
  | streaming hashed written chunks claimed maxBytes =>
    replace hholds : dir.temps[nonce]? = some hashed := hholds
    rcases chunks with _ | ⟨_ | chunk, rest⟩
    · rw [Directory.advance]
      cases hclaim : checkClaim toLowercase claimed (digest hashed) with
      | error e => exact hrest trivial
      | ok actual =>
        refine hrest ⟨hashed, hholds, ?_⟩
        unfold checkClaim at hclaim
        split at hclaim
        · exact Except.ok.inj hclaim
        · split at hclaim <;> cases hclaim
          rfl
    · exact hrest trivial
    · rw [Directory.advance]
      split
      · exact hrest trivial
      · refine fits_temps h (fun _ hne => Dict.getElem?_insert_of_ne hne) ?_
        simp [Upload.Holds, TreeMap.getD_eq_getD_getElem?, hholds]
  | placing hash =>
    rw [Directory.advance]
    split
    · exact hrest trivial
    · exact hrest hholds
  | moving hash =>
    obtain ⟨bytes, htemp, hdigest⟩ := hholds
    simp only [Directory.advance, htemp]
    refine ⟨fun other found hfound => ?_, Dict.getElem?_erase_self .., fun _ hne =>
      Dict.getElem?_erase_of_ne hne, le_rfl, .inr ⟨hash, rfl⟩⟩
    obtain ⟨rfl, rfl⟩ | ⟨-, hold⟩ := Dict.of_insert hfound
    · exact hdigest
    · exact h other found hold
  | removing result =>
    exact fits_temps h (fun _ hne => Dict.getElem?_erase_of_ne hne) (Dict.getElem?_erase_self ..)
  | ended result => exact hrest hholds

namespace Uploads

variable {system next : Uploads}

structure Inv (digest : Bytes → String) (system : Uploads) : Prop where
  named : system.dir.Named digest
  holds (nonce : Nat) : Upload.Holds digest system.uploads[nonce]? system.dir.temps[nonce]?
  counted (nonce : Nat) : system.dir.counter ≤ nonce → system.uploads[nonce]? = none

private theorem Inv.set (h : Inv digest system) {point : Directory × Upload}
    (hpoint : system.dir.Fits digest nonce point) (hcounted : nonce < point.1.counter) :
    Inv digest (system.set nonce point) where
  named := hpoint.named
  holds := fun other => by
    by_cases hne : nonce = other
    · subst hne
      simpa [Uploads.set] using hpoint.holds
    · simpa [Uploads.set, hne, hpoint.others other hne] using h.holds other
  counted := fun other hle => by
    simpa [Uploads.set, (hcounted.trans_le hle).ne] using h.counted other (hpoint.counter.trans hle)

/-- Only an upload that is over, with the hash it returns, changes a file at a final name. -/
theorem Inv.step (h : Inv digest system) {action : Action}
    (hstep : system.step digest toLowercase action = some next) : Inv digest next ∧
    (next.dir.files = system.dir.files ∨
      ∃ nonce hash, action = .advance nonce ∧ next.uploads[nonce]? = some (.ended (.ok hash))) := by
  cases action with
  | put bytes claimed =>
    rw [Uploads.step] at hstep
    split at hstep <;> cases hstep
    · exact ⟨h, .inl rfl⟩
    · exact ⟨⟨h.named, h.holds, h.counted⟩, .inl rfl⟩
  | create bytes =>
    rw [Uploads.step] at hstep
    split at hstep <;> cases hstep
    have h' : Inv digest { system with unstored := system.unstored.erase bytes } :=
      ⟨h.named, h.holds, h.counted⟩
    exact ⟨h'.set (fits_create h.named trivial) (Nat.lt_succ_self _), .inl rfl⟩
  | putStream chunks claimed maxBytes =>
    cases hstep
    exact ⟨h.set (fits_create h.named rfl) (Nat.lt_succ_self _), .inl rfl⟩
  | advance nonce =>
    rw [Uploads.step] at hstep
    split at hstep <;> cases hstep
    next upload hupload =>
    have hfits :
        system.dir.Fits digest nonce
          (Directory.advance digest toLowercase nonce (system.dir, upload)) :=
      fits_advance h.named (hupload ▸ h.holds nonce)
    have hcounted : nonce < system.dir.counter := by
      by_contra hle
      simp [h.counted nonce (Nat.le_of_not_lt hle)] at hupload
    refine ⟨h.set hfits (hcounted.trans_le hfits.counter),
      hfits.files.imp_right fun ⟨hash, hover⟩ => ?_⟩
    exact ⟨nonce, hash, rfl, by simp [Uploads.set, hover]⟩

end Uploads

/-! ### One upload alone -/

namespace Directory

/-- The upload comes to an end with this result, leaving this directory. -/
def Ends (digest : Bytes → String) (toLowercase : String → String) (nonce : Nat)
    (point : Directory × Upload) (after : Directory) (result : Except UploadError String) : Prop :=
  ∃ n, (advance digest toLowercase nonce)^[n] point = (after, .ended result)

/-- The files with these bytes at their final name. -/
def stored (dir : Directory) (hash : String) (bytes : Bytes) : TreeMap String Bytes :=
  if dir.files.contains hash then dir.files else dir.files.insert hash bytes

variable {point other : Directory × Upload} {after : Directory} {result : Except UploadError String}
variable {hash : String} {bytes : Bytes} {claimed : Option String}

theorem temps_write : (dir.write nonce bytes).temps[nonce]? = some bytes :=
  Dict.getElem?_insert_self ..

theorem ends_over : Ends digest toLowercase nonce (dir, .ended result) dir result := ⟨0, rfl⟩

theorem Ends.of_advance (hother : advance digest toLowercase nonce point = other)
    (h : Ends digest toLowercase nonce other after result) :
    Ends digest toLowercase nonce point after result := by
  obtain ⟨n, hn⟩ := h
  exact ⟨n + 1, by rw [Function.iterate_succ_apply, hother, hn]⟩

theorem ends_removing :
    Ends digest toLowercase nonce (dir, .removing result) (dir.unlink nonce) result :=
  ends_over.of_advance rfl

theorem ends_moving (htemp : dir.temps[nonce]? = some bytes) :
    Ends digest toLowercase nonce (dir, .moving hash) { dir.unlink nonce with
      files := dir.files.insert hash bytes } (.ok hash) :=
  ends_over.of_advance (by simp [advance, htemp])

private theorem ends_placing (htemp : dir.temps[nonce]? = some bytes) :
    ∃ after, Ends digest toLowercase nonce (dir, .placing hash) after (.ok hash) ∧
    after.files = dir.stored hash bytes := by
  rw [stored]
  split
  · next hstored => exact ⟨_, ends_removing.of_advance (by rw [advance, if_pos hstored]), rfl⟩
  · next hstored => exact ⟨_, (ends_moving htemp).of_advance (by rw [advance, if_neg hstored]), rfl⟩

theorem ends_streaming {hashed : Bytes} {chunks : List Bytes} {maxBytes : Nat}
    (htemp : dir.temps[nonce]? = some hashed) (hlength : hashed.length ≤ maxBytes)
    (hbytes : hashed ++ chunks.flatten = bytes) :
    ∃ after, Ends digest toLowercase nonce
    (dir, .streaming hashed hashed.length (chunks.map some) claimed maxBytes) after
        (if bytes.length ≤ maxBytes then checkClaim toLowercase claimed (digest bytes)
          else .error (.tooLarge maxBytes)) ∧
      ∀ hash, checkClaim toLowercase claimed (digest bytes) = .ok hash → bytes.length ≤ maxBytes →
        after.files = dir.stored hash bytes := by
  induction chunks generalizing hashed dir with
  | nil =>
    obtain rfl : hashed = bytes := by simpa using hbytes
    rw [if_pos hlength]
    cases hclaim : checkClaim toLowercase claimed (digest hashed) with
    | error e =>
      exact ⟨dir.unlink nonce, ends_removing.of_advance (by simp [advance, hclaim]), nofun⟩
    | ok actual =>
      obtain ⟨after, hends, hfiles⟩ := ends_placing htemp
      refine ⟨after, hends.of_advance (by simp [advance, hclaim]), fun hash hhash _ => ?_⟩
      rw [← Except.ok.inj hhash, hfiles]
  | cons chunk rest ih =>
    rw [List.flatten_cons, ← List.append_assoc] at hbytes
    by_cases hover : maxBytes < hashed.length + chunk.length
    · have hlong : ¬ bytes.length ≤ maxBytes := by
        rw [← hbytes, List.length_append, List.length_append]
        omega
      rw [if_neg hlong]
      exact ⟨_, ends_removing.of_advance (by rw [List.map_cons, advance, if_pos hover]),
        fun _ _ h => absurd h hlong⟩
    · obtain ⟨after, hends, hfiles⟩ := ih temps_write (by rw [List.length_append]; omega) hbytes
      refine ⟨after, hends.of_advance ?_, hfiles⟩
      rw [List.map_cons, advance, if_neg hover, TreeMap.getD_eq_getD_getElem?, htemp,
        List.length_append]
      rfl

theorem ends_put (hclaim : checkClaim toLowercase claimed (digest bytes) = .ok (digest bytes)) :
    ∃ after, Ends digest toLowercase dir.counter (dir.put digest toLowercase bytes claimed) after
    (.ok (digest bytes)) ∧
      after.files = dir.stored (digest bytes) bytes := by
  simp only [put, settled, hclaim]
  by_cases hstored : dir.files.contains (digest bytes)
  · exact ⟨dir, by simpa only [if_pos hstored] using ends_over, by rw [stored, if_pos hstored]⟩
  · rw [if_neg hstored, stored, if_neg hstored]
    exact ⟨_, (ends_moving temps_write).of_advance rfl, rfl⟩

end Directory

theorem checkClaim_eq_ok {claimed : Option String} {actual hash : String} :
    checkClaim toLowercase claimed actual = .ok hash ↔ hash = actual ∧ ∀ text ∈ claimed,
    toLowercase text = actual := by
  cases claimed with
  | none => simp [checkClaim, eq_comm]
  | some text =>
    rw [checkClaim]
    split <;> simp_all [eq_comm]

/-- A streamed upload is `put` of the whole if that is within the limit, and whatever uploads go on
together, a file is under the hash of its bytes, an upload that is over has no temporary file, and
one that fails changes no file. -/
theorem uploads_sound (digest : Bytes → String) (toLowercase : String → String) :
    (∀ (dir : Directory) (chunks : List Bytes) (claimed : Option String) (maxBytes : Nat),
      ∃ after result, Directory.Ends digest toLowercase dir.counter
      (dir.putStream (chunks.map some) claimed maxBytes) after result ∧
      ((∃ hash, result = .ok hash) ↔
        chunks.flatten.length ≤ maxBytes ∧ ∀ text ∈ claimed,
        toLowercase text = digest chunks.flatten) ∧
      ∀ hash, result = .ok hash → ∃ direct,
        Directory.Ends digest toLowercase dir.counter
        (dir.put digest toLowercase chunks.flatten claimed) direct (.ok hash) ∧
        direct.files = after.files) ∧
    ∀ (store : ContentStore digest) (actions : List Uploads.Action) (system : Uploads),
      run (Uploads.step digest toLowercase) { dir := { files := store.files } } actions =
      some system →
        (∀ (hash : String) (bytes : Bytes), system.dir.files[hash]? = some bytes →
          digest bytes = hash) ∧
        (∀ (nonce : Nat) result, system.uploads[nonce]? = some (.ended result) →
          system.dir.temps[nonce]? = none) ∧
        ∀ action next, system.step digest toLowercase action = some next →
        next.dir.files = system.dir.files ∨
          ∃ nonce hash, action = .advance nonce ∧
          next.uploads[nonce]? = some (.ended (.ok hash)) := by
  refine ⟨fun dir chunks claimed maxBytes => ?_, fun store actions system hrun => ?_⟩
  · have htemp : (dir.putStream (chunks.map some) claimed maxBytes).1.temps[dir.counter]? =
        some [] := Directory.temps_write
    obtain ⟨after, hends, hfiles⟩ :=
      Directory.ends_streaming htemp (Nat.zero_le _) (List.nil_append chunks.flatten)
    refine ⟨after, _, hends, ?_, fun hash hok => ?_⟩
    · split <;> simp_all [checkClaim_eq_ok]
    · split at hok
      · next hlength =>
        obtain ⟨rfl, -⟩ := checkClaim_eq_ok.1 hok
        obtain ⟨direct, hdirect, hsame⟩ := Directory.ends_put hok
        exact ⟨direct, hdirect, hsame.trans (hfiles _ hok hlength).symm⟩
      · cases hok
  · have hinv : Uploads.Inv digest system := run_preserves (Uploads.Inv digest) hrun
      ⟨store.named, fun _ => by simp [Upload.Holds], fun _ _ => by simp⟩ fun _ _ _ h hstep =>
        (h.step hstep).1
    refine ⟨hinv.named, fun nonce result hover => ?_, fun action next hstep => (hinv.step hstep).2⟩
    have hholds := hinv.holds nonce
    rwa [hover] at hholds

theorem uploads_sound_streamed :
    ∃ system, run (Uploads.step Race.digest id) {} (.putStream [some [1]] none 9 ::
      List.replicate 4 (.advance 0)) = some system ∧ system.dir.files[Race.digest [1]]? = some [1] ∧
      ∀ (hash : String) (bytes : Bytes), system.dir.files[hash]? = some bytes →
      Race.digest bytes = hash := by
  refine exists_end_and (fun _ => True) (by decide +kernel) fun system hrun _ _ => ?_
  exact ((uploads_sound Race.digest id).2 {} _ system hrun).1

end MicroTak.Content
