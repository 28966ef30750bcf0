import MicroTak.Enrollment.Credentials
import MicroTak.Lib.Transition

/-!
# The backup of the data directory

A pass copies to each file of the backup what the file of the data directory has beyond it, as if
every file only grew.  Event logs do, and a content blob never changes under its name.  The two
snapshots that are rewritten as a whole do neither, and the key files may be made anew.  The model
has the operations by which the server changes the files of its data directory, passes that run
between them, and the single steps of a pass that runs alongside them.  The server reads the
`profiles` directory and writes nothing there, so the files an operator keeps in it are left out.
-/

namespace MicroTak.Backup

open Lines Enrollment Transition List

inductive Log where
  | devices
  | groups
  | missions
  | resources
  | enrollmentTokens
  | deviceProfiles
  | datafeeds
  | users
  deriving DecidableEq

/-- The files rewritten as a whole, through a temporary file beside them. -/
inductive Snapshot where
  | latestCot
  | clientSeen
  deriving DecidableEq

/-- The files made once and kept. -/
inductive KeyFile where
  | serverId
  | missionTokenKey
  | bootstrapToken
  | caCert
  | caKey
  | oauthSigningKey
  deriving DecidableEq

inductive BlobStore where
  | content
  | profileContent
  deriving DecidableEq

/-- The files below the data directory. -/
inductive Path where
  | log (log : Log)
  | snapshot (snapshot : Snapshot)
  | snapshotTmp (snapshot : Snapshot)
  | key (key : KeyFile)
  | blob (store : BlobStore) (hash : String)
  | upload (store : BlobStore) (nonce : String)
  deriving DecidableEq

def Path.fileName : Path → String
  | .log .devices => "devices.log"
  | .log .groups => "groups.log"
  | .log .missions => "official-missions.log"
  | .log .resources => "resources.log"
  | .log .enrollmentTokens => "enrollment_tokens.log"
  | .log .deviceProfiles => "device-profiles.log"
  | .log .datafeeds => "datafeeds.log"
  | .log .users => "users.log"
  | .snapshot .latestCot => "latest-cot.json"
  | .snapshot .clientSeen => "client-seen.json"
  | .snapshotTmp .latestCot => "latest-cot.json.tmp"
  | .snapshotTmp .clientSeen => "client-seen.json.tmp"
  | .key .serverId => "server-id"
  | .key .missionTokenKey => "mission-token-key"
  | .key .bootstrapToken => "bootstrap-token"
  | .key .caCert => "ca-cert.pem"
  | .key .caKey => "ca-key.pem"
  | .key .oauthSigningKey => "oauth-signing-key.pem"
  | .blob _ hash => hash
  | .upload _ nonce => ".tmp-" ++ nonce

/-- The names a pass leaves out. -/
def Path.isTemp (path : Path) : Bool := (Text.stripPrefix ".tmp-" path.fileName).isSome

abbrev Dir := Path → Option Bytes

def length (file : Option Bytes) : Nat := (file.map List.length).getD 0

/-- `sync_file` once the copy is not longer than the source: nothing to do, or the tail is
appended. -/
def copyTail (src : Bytes) (dest : Option Bytes) : Option Bytes :=
  if length dest = src.length then dest else some (dest.getD [] ++ src.drop (length dest))

/-- The copy after `sync_file`; one that is longer than the source is removed first. -/
def syncFile (src : Bytes) (dest : Option Bytes) : Option Bytes :=
  if src.length < length dest then copyTail src none else copyTail src dest

/-- The backup after a pass, file by file: no file depends on another. -/
def syncDir (data backup : Dir) : Dir := fun path =>
  match data path with
  | none => backup path
  | some src => if path.isTemp then backup path else syncFile src (backup path)

/-! ### The server's own changes -/

/-- What `load_or_create` leaves as it is; it writes a new file otherwise.  A signing key that can
be read as text and is no key stops the server. -/
def KeyFile.keeps : KeyFile → Bytes → Bool
  | .serverId, bytes => (decodeUtf8 bytes).any fun text => Text.trim text ≠ ""
  | .missionTokenKey, bytes => 32 ≤ bytes.length
  | .bootstrapToken, bytes => (decodeUtf8 bytes).all fun text => isWellFormed (Text.trim text)
  | .caCert, bytes | .caKey, bytes | .oauthSigningKey, bytes => (decodeUtf8 bytes).isSome

inductive Op where
  | openLog (log : Log)
  /-- A record, or as much of it as was written. -/
  | append (log : Log) (bytes : Bytes)
  | writeUpload (store : BlobStore) (nonce : String) (bytes : Bytes)
  | finishUpload (store : BlobStore) (nonce : String)
  | dropUpload (store : BlobStore) (nonce : String)
  | removeBlob (store : BlobStore) (hash : String)
  | writeSnapshot (snapshot : Snapshot) (bytes : Bytes)
  | renameSnapshot (snapshot : Snapshot)
  | loadKey (key : KeyFile) (fresh : Bytes)
  | loadCa (cert key : Bytes)
  | removeBootstrapToken

/-- The files an operation makes anew, in place of what was there. -/
def Op.rewrites (data : Dir) : Op → List (Path × Bytes)
  | .writeSnapshot snapshot bytes => [(.snapshotTmp snapshot, bytes)]
  | .renameSnapshot snapshot =>
      match data (.snapshotTmp snapshot) with
      | some bytes => [(.snapshot snapshot, bytes)]
      | none => []
  | .loadKey key fresh => if (data (.key key)).any key.keeps then [] else [(.key key, fresh)]
  | .loadCa cert key =>
      if (data (.key .caCert)).any KeyFile.caCert.keeps &&
        (data (.key .caKey)).any KeyFile.caKey.keeps then []
      else [(.key .caCert, cert), (.key .caKey, key)]
  | _ => []

def put (data : Dir) (path : Path) (file : Option Bytes) : Dir := Function.update data path file

def putAll (data : Dir) (files : List (Path × Bytes)) : Dir :=
  files.foldl (fun data file => put data file.1 (some file.2)) data

/-- The data directory after an operation; `digest` is the hash content is filed under. -/
def Op.apply (digest : Bytes → String) (data : Dir) : Op → Dir
  | .openLog log => put data (.log log) (some ((data (.log log)).getD []))
  | .append log bytes => put data (.log log) (some ((data (.log log)).getD [] ++ bytes))
  | .writeUpload store nonce bytes => put data (.upload store nonce) (some bytes)
  | .finishUpload store nonce =>
      match data (.upload store nonce) with
      | none => data
      | some bytes =>
          let dropped := put data (.upload store nonce) none
          match data (.blob store (digest bytes)) with
          | some _ => dropped
          | none => put dropped (.blob store (digest bytes)) (some bytes)
  | .dropUpload store nonce => put data (.upload store nonce) none
  | .removeBlob store hash => put data (.blob store hash) none
  | .renameSnapshot snapshot =>
      put (putAll data (Op.rewrites data (.renameSnapshot snapshot))) (.snapshotTmp snapshot) none
  | .removeBootstrapToken => put data (.key .bootstrapToken) none
  | op => putAll data (op.rewrites data)

/-! ### Histories -/

/-- The two directories, and the file a pass has measured and is about to copy, with the length its
copy had. -/
structure Mirror where
  data : Dir := fun _ => none
  backup : Dir := fun _ => none
  copying : Option (Path × Nat) := none

inductive Action where
  | op (op : Op)
  /-- A pass looks at the lengths of a file and its copy. -/
  | measure (path : Path)
  /-- A pass appends the tail of the file it has measured, or only `written` bytes of it. -/
  | copy (written : Option Nat)
  | pass

def step (digest : Bytes → String) (mirror : Mirror) : Action → Option Mirror
  | .op op => some { mirror with data := op.apply digest mirror.data }
  | .measure path =>
      match mirror.copying, mirror.data path, path.isTemp with
      | none, some src, false =>
          let copied := length (mirror.backup path)
          if src.length < copied then some { mirror with backup := put mirror.backup path none }
          else if copied = src.length then some mirror
          else some { mirror with copying := some (path, copied) }
      | _, _, _ => none
  | .copy written =>
      match mirror.copying with
      | none => none
      | some (path, copied) =>
          match mirror.data path with
          | none => some { mirror with copying := none }
          | some src =>
              let tail := src.drop copied
              some { mirror with
                copying := none
                backup := put mirror.backup path
                  (some ((mirror.backup path).getD [] ++ tail.take (written.getD tail.length))) }
  | .pass =>
      match mirror.copying with
      | some _ => none
      | none => some { mirror with backup := syncDir mirror.data mirror.backup }

/-- Every file that is no upload in progress is in the backup, byte for byte. -/
def Exact (mirror : Mirror) : Prop :=
  ∀ path bytes, mirror.data path = some bytes → path.isTemp = false →
    mirror.backup path = some bytes

/-! ### When a copy can be brought up to date -/

/-- The copy is a beginning of the file, or longer than it. -/
def Fits (copy : Option Bytes) (bytes : Bytes) : Prop :=
  ∀ c ∈ copy, c <+: bytes ∨ bytes.length < c.length

@[simp] theorem fits_none (bytes : Bytes) : Fits none bytes := by
  intro c hc
  cases hc

theorem fits_some {c bytes : Bytes} : Fits (some c) bytes ↔ c <+: bytes ∨
    bytes.length < c.length := by
  simp [Fits]

instance (copy : Option Bytes) (bytes : Bytes) : Decidable (Fits copy bytes) :=
  match copy with
  | none => isTrue (fits_none bytes)
  | some _ => decidable_of_iff _ fits_some.symm

theorem fits_nil (copy : Option Bytes) : Fits copy [] := by
  intro c _
  cases c with
  | nil => exact .inl prefix_rfl
  | cons b rest => exact .inr (Nat.succ_pos _)

@[simp] theorem length_some (bytes : Bytes) : length (some bytes) = bytes.length := rfl

@[simp] theorem length_none : length none = 0 := rfl

theorem copyTail_none (src : Bytes) : copyTail src none = if src = [] then none else some src := by
  cases src with
  | nil => rfl
  | cons b rest => simp [copyTail]

variable {src : Bytes} {dest : Option Bytes}

private theorem copyTail_some {c : Bytes} (h : c <+: src) : copyTail src (some c) = some src := by
  obtain ⟨rest, rfl⟩ := h
  cases rest with
  | nil => simp [copyTail]
  | cons b more => simp [copyTail]

theorem syncFile_of_fits (h : Fits dest src) : syncFile src dest = some src ∨
    src = [] ∧ syncFile src dest = none := by
  have hfresh : copyTail src none = some src ∨ src = [] ∧ copyTail src none = none := by
    rw [copyTail_none]
    split
    · next hnil => exact .inr ⟨hnil, rfl⟩
    · exact .inl rfl
  unfold syncFile
  split
  · exact hfresh
  · next hle =>
    cases dest with
    | none => exact hfresh
    | some c =>
      rcases fits_some.1 h with hextends | hlonger
      · exact .inl (copyTail_some hextends)
      · exact absurd hlonger hle

theorem copied_of_fits (h : Fits dest src) (n : Nat) :
    dest.getD [] ++ (src.drop (length dest)).take n <+: src ∨
      src.length < length dest ∧ dest.getD [] ++ (src.drop (length dest)).take n =
      dest.getD [] := by
  cases dest with
  | none => exact .inl (by simpa using take_prefix n src)
  | some c =>
    rcases fits_some.1 h with ⟨rest, rfl⟩ | hlonger
    · left
      simpa using take_prefix n rest
    · right
      refine ⟨hlonger, ?_⟩
      have hnil : src.drop c.length = [] := drop_eq_nil_of_le (Nat.le_of_lt hlonger)
      simp [hnil]

/-! ### The invariant -/

section Invariant

variable {digest : Bytes → String} {mirror next : Mirror}

structure Inv (digest : Bytes → String) (mirror : Mirror) : Prop where
  fits : ∀ path src, mirror.data path = some src → Fits (mirror.backup path) src
  logs : ∀ log c, mirror.backup (.log log) = some c → ∃ src, mirror.data (.log log) = some src ∧
    c <+: src
  blobs : ∀ store hash src, mirror.data (.blob store hash) = some src → digest src = hash
  copies : ∀ store hash c, mirror.backup (.blob store hash) = some c → ∃ src,
    digest src = hash ∧ c <+: src
  uploads : ∀ store nonce, mirror.backup (.upload store nonce) = none
  copying : ∀ path n, mirror.copying = some (path, n) → path.isTemp = false ∧
    n = length (mirror.backup path)

theorem inv_start : Inv digest {} where
  fits _ _ h := by cases h
  logs _ _ h := by cases h
  blobs _ _ _ h := by cases h
  copies _ _ _ h := by cases h
  uploads _ _ := rfl
  copying _ _ h := by cases h

@[simp] theorem put_self (dir : Dir) (path : Path) (file : Option Bytes) :
    put dir path file path = file :=
  Function.update_self ..

variable {path : Path}

theorem put_ne (dir : Dir) {other : Path} (file : Option Bytes) (h : other ≠ path) :
    put dir path file other = dir other :=
  Function.update_of_ne h ..

theorem isTemp_upload (store : BlobStore) (nonce : String) :
    (Path.upload store nonce).isTemp = true := by
  simp [Path.isTemp, Path.fileName, Text.stripPrefix]

variable (h : Inv digest mirror)

include h

/-- A new file under a path: its copy must fit it, a log goes on from its copy, and a blob is filed
under its hash. -/
theorem Inv.put_data {file : Option Bytes} (hfits : ∀ src ∈ file, Fits (mirror.backup path) src)
    (hlog : ∀ log, path = .log log → ∀ c, mirror.backup path = some c → ∃ src, file = some src ∧
      c <+: src)
    (hblob : ∀ store hash, path = .blob store hash → ∀ src ∈ file, digest src = hash) :
    Inv digest { mirror with data := put mirror.data path file } where
  fits other src hsrc := by
    change put mirror.data path file other = some src at hsrc
    by_cases hother : other = path
    · subst hother
      rw [put_self] at hsrc
      exact hfits src hsrc
    · rw [put_ne _ _ hother] at hsrc
      exact h.fits other src hsrc
  logs log c hc := by
    show ∃ src, put mirror.data path file (.log log) = some src ∧ c <+: src
    by_cases hother : Path.log log = path
    · rw [hother, put_self]
      exact hlog log hother.symm c (hother ▸ hc)
    · rw [put_ne _ _ hother]
      exact h.logs log c hc
  blobs store hash src hsrc := by
    change put mirror.data path file (.blob store hash) = some src at hsrc
    by_cases hother : Path.blob store hash = path
    · subst hother
      rw [put_self] at hsrc
      exact hblob store hash rfl src hsrc
    · rw [put_ne _ _ hother] at hsrc
      exact h.blobs store hash src hsrc
  __ := h

theorem Inv.remove (hlog : ∀ log, path ≠ .log log) : Inv digest
    { mirror with data := put mirror.data path none } :=
  h.put_data (fun _ hsrc => by cases hsrc) (fun log hpath => absurd hpath (hlog log))
    (fun _ _ _ _ hsrc => by cases hsrc)

private theorem Inv.putAll {files : List (Path × Bytes)}
    (hfiles : ∀ file ∈ files, Fits (mirror.backup file.1) file.2 ∧ (∀ log, file.1 ≠ .log log) ∧
      ∀ store hash, file.1 ≠ .blob store hash) : Inv digest { mirror with
      data := putAll mirror.data files } := by
  induction files generalizing mirror with
  | nil => exact h
  | cons file rest ih =>
    obtain ⟨hfits, hlog, hblob⟩ := hfiles file mem_cons_self
    have hput : Inv digest { mirror with data := put mirror.data file.1 (some file.2) } := by
      refine h.put_data (fun src hsrc => ?_) (fun log hpath => absurd hpath (hlog log))
        (fun store hash hpath => absurd hpath (hblob store hash))
      cases hsrc
      exact hfits
    exact ih hput fun other hother => hfiles other (mem_cons_of_mem _ hother)

theorem Inv.rewritten {op : Op}
    (hfits : ∀ file ∈ op.rewrites mirror.data, Fits (mirror.backup file.1) file.2) : Inv digest
    { mirror with data := Backup.putAll mirror.data (op.rewrites mirror.data) } := by
  refine h.putAll fun file hfile => ⟨hfits file hfile, ?_⟩
  cases op with
  | writeSnapshot snapshot bytes =>
    obtain rfl := mem_singleton.1 hfile
    exact ⟨fun _ => by simp, fun _ _ => by simp⟩
  | renameSnapshot snapshot =>
    simp only [Op.rewrites] at hfile
    split at hfile
    · obtain rfl := mem_singleton.1 hfile
      exact ⟨fun _ => by simp, fun _ _ => by simp⟩
    · cases hfile
  | loadKey key fresh =>
    simp only [Op.rewrites] at hfile
    split at hfile
    · cases hfile
    · obtain rfl := mem_singleton.1 hfile
      exact ⟨fun _ => by simp, fun _ _ => by simp⟩
  | loadCa cert key =>
    simp only [Op.rewrites] at hfile
    split at hfile
    · cases hfile
    · simp only [mem_cons, not_mem_nil, or_false] at hfile
      rcases hfile with rfl | rfl <;> exact ⟨fun _ => by simp, fun _ _ => by simp⟩
  | _ => cases hfile

theorem Inv.put_upload (store : BlobStore) (nonce : String) (file : Option Bytes) :
    Inv digest { mirror with data := put mirror.data (.upload store nonce) file } := by
  refine h.put_data (fun src _ => ?_) (fun log hpath => by cases hpath)
    (fun _ _ hpath => by cases hpath)
  rw [h.uploads]
  exact fits_none src

private theorem Inv.put_blob (hdigest : Function.Injective digest) (store : BlobStore)
    (bytes : Bytes) : Inv digest
    { mirror with data := put mirror.data (.blob store (digest bytes)) (some bytes) } := by
  refine h.put_data (fun src hsrc c hc => ?_) (fun log hpath => by cases hpath)
    (fun store' hash hpath src hsrc => ?_)
  · cases hsrc
    obtain ⟨found, hfound, hextends⟩ := h.copies store _ c hc
    exact .inl (hdigest hfound ▸ hextends)
  · cases hsrc
    exact (Path.blob.inj hpath).2

theorem Inv.op (hdigest : Function.Injective digest) {op : Op}
    (hfits : ∀ file ∈ op.rewrites mirror.data, Fits (mirror.backup file.1) file.2) :
    Inv digest { mirror with data := op.apply digest mirror.data } := by
  cases op with
  | openLog log =>
    refine h.put_data (fun src hsrc => ?_) (fun _ _ c hc => ?_) (fun _ _ hpath => by cases hpath)
    · cases hsrc
      cases hdata : mirror.data (.log log) with
      | none => exact fits_nil _
      | some src => exact h.fits _ src hdata
    · obtain ⟨src, hsrc, hextends⟩ := h.logs log c hc
      exact ⟨src, by rw [hsrc]; rfl, hextends⟩
  | append log bytes =>
    -- What a log has in the backup is a beginning of it, and stays one.
    have hgrown : ∀ c, mirror.backup (.log log) = some c →
        c <+: (mirror.data (.log log)).getD [] ++ bytes := by
      intro c hc
      obtain ⟨src, hsrc, hextends⟩ := h.logs log c hc
      rw [hsrc]
      exact hextends.trans (prefix_append src bytes)
    refine h.put_data (fun src hsrc c hc => ?_) (fun _ _ c hc => ?_)
      (fun _ _ hpath => by cases hpath)
    · cases hsrc
      exact .inl (hgrown c hc)
    · exact ⟨_, rfl, hgrown c hc⟩
  | writeUpload store nonce bytes => exact h.put_upload store nonce (some bytes)
  | dropUpload store nonce => exact h.put_upload store nonce none
  | finishUpload store nonce =>
    have hdropped := h.put_upload store nonce none
    simp only [Op.apply]
    split
    · exact h
    · next bytes _ =>
      split
      · exact hdropped
      · exact hdropped.put_blob hdigest store bytes
  | removeBlob store hash | removeBootstrapToken => exact h.remove fun log => by simp
  | renameSnapshot snapshot => exact (h.rewritten hfits).remove fun log => by simp
  | writeSnapshot snapshot bytes | loadKey key fresh | loadCa cert key => exact h.rewritten hfits

theorem Inv.newBackup {backup : Dir} (hcopy : ∀ path c, backup path = some c →
      mirror.backup path = some c ∨ path.isTemp = false ∧ ∃ src,
      mirror.data path = some src ∧ c <+: src) :
    Inv digest { mirror with backup, copying := none } where
  fits path src hsrc c hc := by
    rcases hcopy path c hc with hsame | ⟨-, found, hfound, hextends⟩
    · exact h.fits path src hsrc c hsame
    · exact .inl (Option.some.inj (hsrc.symm.trans hfound) ▸ hextends)
  logs log c hc := by
    rcases hcopy _ c hc with hsame | ⟨-, found, hfound, hextends⟩
    · exact h.logs log c hsame
    · exact ⟨found, hfound, hextends⟩
  blobs := h.blobs
  copies store hash c hc := by
    rcases hcopy _ c hc with hsame | ⟨-, found, hfound, hextends⟩
    · exact h.copies store hash c hsame
    · exact ⟨found, h.blobs store hash found hfound, hextends⟩
  uploads store nonce := by
    by_contra hsome
    obtain ⟨c, hc⟩ := Option.ne_none_iff_exists'.1 hsome
    rcases hcopy _ c hc with hsame | ⟨htemp, -⟩
    · rw [h.uploads] at hsame
      cases hsame
    · rw [isTemp_upload] at htemp
      cases htemp
  copying _ _ hnone := by cases hnone

theorem Inv.put_backup {copy : Option Bytes} (hcopy : ∀ c ∈ copy, mirror.backup path = some c ∨
      path.isTemp = false ∧ ∃ src, mirror.data path = some src ∧ c <+: src) :
    Inv digest { mirror with backup := put mirror.backup path copy, copying := none } := by
  refine h.newBackup fun other c hc => ?_
  by_cases hother : other = path
  · subst hother
    rw [put_self] at hc
    exact hcopy c hc
  · rw [put_ne _ _ hother] at hc
    exact .inl hc

theorem Inv.measure (hstep : step digest mirror (.measure path) = some next) : Inv digest next := by
  simp only [step] at hstep
  split at hstep
  · next src hnone hsrc htemp =>
    split at hstep
    · cases hstep
      have hput : Inv digest { mirror with
          backup := put mirror.backup path none, copying := none } :=
        h.put_backup fun c hc => by cases hc
      rwa [← hnone] at hput
    · split at hstep
      · cases hstep
        exact h
      · cases hstep
        refine ⟨h.fits, h.logs, h.blobs, h.copies, h.uploads, fun other n hcopying => ?_⟩
        obtain ⟨rfl, rfl⟩ := Prod.mk.inj (Option.some.inj hcopying)
        exact ⟨htemp, rfl⟩
  · cases hstep

theorem Inv.copy {written : Option Nat} (hstep : step digest mirror (.copy written) = some next) :
    Inv digest next := by
  simp only [step] at hstep
  split at hstep
  · cases hstep
  · next path n hcopying =>
    obtain ⟨htemp, rfl⟩ := h.copying path n hcopying
    split at hstep
    · cases hstep
      exact h.newBackup fun _ _ hc => .inl hc
    · next src hsrc =>
      cases hstep
      refine h.put_backup fun c hc => ?_
      cases hc
      rcases copied_of_fits (h.fits path src hsrc)
        (written.getD (src.drop (length (mirror.backup path))).length) with hextends | ⟨hlonger,
          hsame⟩
      · exact .inr ⟨htemp, src, hsrc, hextends⟩
      · left
        rw [hsame]
        cases hbackup : mirror.backup path with
        | none => simp [hbackup] at hlonger
        | some copy => rfl

theorem Inv.syncDir (hsrc : mirror.data path = some src) (htemp : path.isTemp = false) :
    Backup.syncDir mirror.data mirror.backup path = some src ∨
      src = [] ∧ Backup.syncDir mirror.data mirror.backup path = none := by
  simp only [Backup.syncDir, hsrc, htemp]
  exact syncFile_of_fits (h.fits path src hsrc)

theorem Inv.pass (hstep : step digest mirror .pass = some next) :
    Inv digest next ∧ next.data = mirror.data ∧
    next.backup = Backup.syncDir mirror.data mirror.backup := by
  simp only [step] at hstep
  split at hstep
  · cases hstep
  · next hnone =>
    cases hstep
    refine ⟨?_, rfl, rfl⟩
    have hpass :
        Inv digest { mirror with
          backup := Backup.syncDir mirror.data mirror.backup, copying := none } := by
      refine h.newBackup fun path c hc => ?_
      cases hdata : mirror.data path with
      | none =>
        simp only [Backup.syncDir, hdata] at hc
        exact .inl hc
      | some src =>
        cases htemp : path.isTemp with
        | true =>
          simp only [Backup.syncDir, hdata, htemp] at hc
          exact .inl hc
        | false =>
          rcases h.syncDir hdata htemp with hsome | ⟨-, hgone⟩
          · obtain rfl := Option.some.inj (hsome.symm.trans hc)
            exact .inr ⟨rfl, src, rfl, prefix_rfl⟩
          · rw [hgone] at hc
            cases hc
    rwa [← hnone] at hpass

/-- The copies fit the files an operation makes anew. -/
def Op.FitsBackup (mirror : Mirror) (op : Op) : Prop :=
  ∀ file ∈ op.rewrites mirror.data, Fits (mirror.backup file.1) file.2

instance (mirror : Mirror) (op : Op) : Decidable (op.FitsBackup mirror) :=
  inferInstanceAs (Decidable (∀ _ ∈ _, _))

/-- What a step must meet for the copies to keep up: a file made anew fits its copy, and no file is
empty when a pass runs. -/
def KeepsUp (mirror : Mirror) : Action → Prop
  | .op op => op.FitsBackup mirror
  | .pass => ∀ path, path.isTemp = false → mirror.data path ≠ some []
  | .measure _ | .copy _ => True

private theorem Inv.step (hdigest : Function.Injective digest) {action : Action}
    (hkeeps : KeepsUp mirror action) (hstep : Backup.step digest mirror action = some next) :
    Inv digest next := by
  cases action with
  | op op =>
    cases hstep
    exact h.op hdigest hkeeps
  | measure path => exact h.measure hstep
  | copy written => exact h.copy hstep
  | pass => exact (h.pass hstep).1

end Invariant

/-- In every history of the server's own changes and of passes, alone or alongside them, in which
each file made anew fits its copy and no file is empty when a whole pass runs: after a whole pass
every file that is no upload in progress is in the backup, byte for byte. -/
theorem backup_exact (digest : Bytes → String) (hdigest : Function.Injective digest)
    {actions : List Action} {mirror : Mirror}
    (hrun : run (step digest) {} (actions ++ [.pass]) = some mirror)
    (halong : Along (step digest) KeepsUp {} (actions ++ [.pass])) : Exact mirror := by
  obtain ⟨before, hbefore, hpass⟩ := run_concat_eq_some.1 hrun
  obtain ⟨halongBefore, hkeeps, -⟩ := (along_append hbefore).1 halong
  have hinv : Inv digest before :=
    run_invariant (Inv digest) hbefore halongBefore inv_start fun _ _ _ h hk hs =>
      h.step hdigest hk hs
  obtain ⟨-, hdata, hbackup⟩ := hinv.pass hpass
  intro path bytes hbytes htemp
  rw [hdata] at hbytes
  rw [hbackup]
  rcases hinv.syncDir hbytes htemp with hcopied | ⟨rfl, -⟩
  · exact hcopied
  · exact absurd hbytes (hkeeps path htemp)

namespace Rewritten

/-- A digest for worked examples, which keeps the bytes. -/
def digest (bytes : Bytes) : String := String.ofList (bytes.map fun b => Char.ofNat b.toNat)

theorem digest_injective : Function.Injective digest := by
  have hbyte : ∀ b : UInt8, UInt8.ofNat (Char.ofNat b.toNat).toNat = b := by
    intro b
    have hcode : ∀ n : Fin 256, (Char.ofNat n).toNat = n := by decide +kernel
    rw [hcode ⟨b.toNat, b.toNat_lt⟩, UInt8.ofNat_toNat]
  have hleft : Function.LeftInverse (fun text : String => text.toList.map fun c =>
      UInt8.ofNat c.toNat) digest := by
    intro bytes
    simp [digest, Function.comp_def, hbyte]
  exact hleft.injective

/-- The latest events are saved and backed up, and saved again with as many bytes. -/
def actions : List Action :=
  [.op (.writeSnapshot .latestCot (utf8 "[1]")), .op (.renameSnapshot .latestCot), .pass,
    .op (.writeSnapshot .latestCot (utf8 "[2]")), .op (.renameSnapshot .latestCot), .pass]

def mirror : Mirror := (run (step digest) {} actions).get (by decide)

end Rewritten

open Rewritten in
/-- The last pass changes nothing, since the lengths agree. -/
theorem rewritten_snapshot_not_backed_up :
    run (step digest) {} actions = some mirror ∧
      mirror.data (.snapshot .latestCot) = some (utf8 "[2]") ∧
      mirror.backup (.snapshot .latestCot) = some (utf8 "[1]") ∧ ¬ Exact mirror := by
  have hdata : mirror.data (.snapshot .latestCot) = some (utf8 "[2]") := by decide
  have hbackup : mirror.backup (.snapshot .latestCot) = some (utf8 "[1]") := by decide
  refine ⟨(Option.some_get _).symm, hdata, hbackup, fun h => ?_⟩
  have hexact := h _ _ hdata (by decide)
  exact absurd hexact (by decide)

namespace Grown

/-- A log grows while a pass copies it, and a snapshot is saved for the first time. -/
def actions : List Action :=
  [.op (.openLog .devices), .op (.append .devices (utf8 "a\n")), .measure (.log .devices),
    .op (.append .devices (utf8 "b\n")), .copy none, .op (.writeSnapshot .clientSeen (utf8 "[1]")),
    .op (.renameSnapshot .clientSeen)]

def mirror : Mirror := (run (step Rewritten.digest) {} (actions ++ [.pass])).get (by decide)

end Grown

open Grown in
theorem grown_log_backed_up : Exact mirror := by
  refine backup_exact Rewritten.digest Rewritten.digest_injective
    (show run (step Rewritten.digest) {} (actions ++ [.pass]) =
      some mirror from (Option.some_get _).symm) ?_
  have hop : ∀ {before : Mirror} {op : Op} {rest : List Action}, op.FitsBackup before →
      Along (step Rewritten.digest) KeepsUp { before with
        data := op.apply Rewritten.digest before.data } rest →
      Along (step Rewritten.digest) KeepsUp before (.op op :: rest) :=
    fun hfits hrest => (along_cons rfl).2 ⟨hfits, hrest⟩
  refine hop (by decide) (hop (by decide) ((along_cons rfl).2 ⟨trivial, hop (by decide) ?_⟩))
  refine (along_cons rfl).2
    ⟨trivial, hop (by decide) (hop (by decide) ⟨fun path _ hnil => ?_, fun _ _ => trivial⟩)⟩
  cases path with
  | log l => cases l <;> cases hnil
  | snapshot s => cases s <;> cases hnil
  | snapshotTmp s => cases s <;> cases hnil
  | key k => cases k <;> cases hnil
  | blob store hash => cases hnil
  | upload store nonce => cases hnil

end MicroTak.Backup
