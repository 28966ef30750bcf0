import MicroTak.Lib.Spending
import MicroTak.Missions.Refusals

/-!
# Refusals that come late

Which requests are refused when they have stored something, told from the request and the state it
finds.  What is stored can be nothing new, the same keywords again, but it is one more record in the
log: so the log has room for a number of appends, and a refusal is late if it leaves less.
-/

namespace MicroTak.Missions

open Std Handler Journal.Op MissionStore MissionRequest List

variable {env : Env} {caller : Caller} {inputs : Inputs} {mission : MissionRecord} {server : Server}
  {guid : String}
variable {known : List String}

/-- The server with a log that takes this many appends more. -/
def Server.onDisk (server : Server) (disk : Option Nat) : Server :=
  { server with store := { server.store with disk } }

abbrev Server.fund (room : Nat) (server : Server) : Server := server.onDisk (some room)

/-- Handlers that refuse nothing, and with room in the log record so much. -/
abbrev Costs {α : Type} (m : Api α) (n : Nat) (Q : α → Server → Prop) (server : Server) : Prop :=
  Pays Server.fund (fun e : ApiError => e.isRefusal = true) m n Q server

/-- Handlers that with room in the log refuse when they have recorded so much. -/
abbrev RefusedAt {α : Type} (m : Api α) (n : Nat) (server : Server) : Prop :=
  Refused Server.fund (fun e : ApiError => e.isRefusal = true) m n server

/-- Handlers that, if `late`, are refused so, and else only where `P` holds. -/
abbrev Told {α : Type} (P : Server → Prop) (m : Api α) (n : Nat) (late : Prop)
    (server : Server) : Prop :=
  Decided Server.fund (fun e : ApiError => e.isRefusal = true) P m n late server

variable {P : Server → Prop}

variable {event : Event} {uid creatorUid : String} {parent after : Option String}
  {content : Content} {uids : List String}

section Operations

variable {α : Type} {I : State → Prop} {Q : Unit → Server → Prop}

theorem costs_storeOp_get {Q : State → Server → Prop} (h : Q server.state server) :
    Costs (storeOp get) 0 Q server :=
  ⟨⟨0, server.state, server, Nat.le_refl 0, h, fun k => by rw [Nat.zero_add]; rfl⟩,
    wp_storeOp_get.2 h⟩

theorem costs_storeOp_orRefuse {o : Option α} {error : MissionError} {a : α} {Q : α → Server → Prop}
    (ho : o = some a) (h : Q a server) : Costs (storeOp (orRefuse o error)) 0 Q server := by
  rw [ho]
  exact pays_pure h

theorem costs_storeOp_put (h : ∀ disk, Q () (server.applied event disk)) :
    Costs (storeOp (put event)) 1 Q server := by
  refine ⟨⟨1, (), _, Nat.le_refl 1, h server.store.disk, fun k => by rw [Nat.add_comm]; rfl⟩, ?_⟩
  rw [wp_storeOp, wp_record]
  exact ⟨fun _ => h _, fun _ hrefused => by cases hrefused⟩

theorem costs_storeOp {p : Event → Prop} {op : MissionStore.Op α}
    (hkeep : ∀ state event, p event → I state → I (state.apply event)) (hop : op.Only p)
    (haccepts : op.Accepts I) (hI : I server.state) :
    Costs (storeOp op) 0 (fun _ next => I next.state) server := by
  induction op generalizing server with
  | done a => exact pays_pure hI
  | refuse error => exact haccepts.elim
  | look next ih =>
    rw [show look next = (get >>= next) from rfl, storeOp_bind]
    exact (costs_storeOp_get (ih _ (hop _) (haccepts _ hI) hI)).bind
  | record event next ih =>
    rw [show record event next = (put event >>= fun _ => next) from rfl, storeOp_bind]
    refine ((costs_storeOp_put fun disk => ?_).mono (Nat.zero_le 1) fun _ _ h => h).bind
    exact ih hop.2 haccepts (hkeep _ _ hop.1 hI)

theorem costs_existing {Q : MissionRecord → Server → Prop} (hthere : There guid server.state)
    (h : ∀ mission, Q mission server) : Costs (storeOp (existing guid)) 0 Q server := by
  obtain ⟨mission, hmission⟩ := Option.isSome_iff_exists.1 hthere
  rw [existing, storeOp_bind]
  exact Pays.bind (costs_storeOp_get (costs_storeOp_orRefuse hmission (h mission)))

theorem costs_recordExisting (hthere : There guid server.state)
    (h : ∀ disk, Q () (server.applied event disk)) :
    Costs (storeOp (recordExisting guid event)) 1 Q server := by
  rw [recordExisting, storeOp_bind]
  exact Pays.bind (costs_existing hthere fun _ => costs_storeOp_put h)

theorem costs_recordChange {event : Nat → Event} (hthere : There guid server.state)
    (h : ∀ changeId disk, Q () (server.applied (event changeId) disk)) :
    Costs (storeOp (recordChange guid event)) 1 Q server := by
  rw [recordChange, storeOp_bind]
  refine Pays.bind (costs_existing hthere fun _ => ?_)
  rw [storeOp_bind]
  exact Pays.bind (costs_storeOp_get (costs_storeOp_put (h _)))

end Operations

/-! ### Layers that are known -/

def State.layerUids (state : State) (guid : String) : List String :=
  (state.data.layersOf guid).map (·.uid)

/-- The mission is there, and these are the uids of its layers. -/
structure Known (guid : String) (known : List String) (state : State) : Prop where
  there : There guid state
  uids : state.layerUids guid = known

variable {state : State}

theorem Known.layer_isSome (h : Known guid known state) :
    (state.data.layer guid uid).isSome = true ↔ uid ∈ known := by
  rw [layer_isSome_iff, ← h.uids, MissionData.edges, map_map]
  rfl

theorem Known.layer_eq_none (h : Known guid known state) (huid : uid ∉ known) :
    state.data.layer guid uid = none := by
  rw [← Option.not_isSome_iff_eq_none, h.layer_isSome]
  exact huid

theorem Known.all_isSome (h : Known guid known state) :
    parent.all (fun p => (state.data.layer guid p).isSome) = true ↔ ∀ p ∈ parent, p ∈ known := by
  cases parent with
  | none => simp
  | some p => simp [h.layer_isSome]

def KeepsUids (guid : String) (event : Event) : Prop := ∀ state :
    State, (state.apply event).layerUids guid = state.layerUids guid

theorem Known.apply (h : Known guid known state) (hevent : KeepsUids guid event) :
    Known guid known (state.apply event) :=
  ⟨lasting_there _ _ h.there, (hevent state).trans h.uids⟩

theorem layerUids_data (state : State) (event : DataEvent) :
    (state.apply (.data event)).layerUids guid =
    (event.onLayers guid (state.data.layersOf guid)).map (·.uid) :=
  congrArg (List.map _) (MissionData.layersOf_apply _ event guid)

theorem keepsUids_layerAfterSet : KeepsUids guid (.data (.layerAfterSet guid uid after)) := by
  intro state
  rw [layerUids_data, DataEvent.onLayers, if_pos rfl]
  exact map_updateLayer fun _ => rfl

theorem keepsUids_layerParentSet : KeepsUids guid (.data (.layerParentSet guid uid parent)) := by
  intro state
  rw [layerUids_data, DataEvent.onLayers, if_pos rfl]
  exact map_updateLayer fun _ => rfl

theorem keepsUids_contentAdded {atMs : Int} {changeId : Nat} {serverMs : Option Int} :
    KeepsUids guid (.contentAdded guid content creatorUid atMs changeId serverMs) := by
  intro state
  show List.map _ (((State.apply state _).data.layers[guid]?).getD []) = _
  rw [show (state.apply
    (.contentAdded guid content creatorUid atMs changeId serverMs)).data.layers =
      state.data.layers from State.layers_noteChange _]
  rfl

theorem only_fixupAfter_keepsUids {uid : Option String} :
    (fixupAfter guid uid parent after).Only (KeepsUids guid) := by
  refine only_get.bind fun state => only_putAll fun event hevent => ?_
  obtain ⟨layer, -, rfl⟩ := mem_map.1 hevent
  exact keepsUids_layerAfterSet

section Moves

private theorem layer_parent_eq {data : MissionData} :
    (data.layer guid uid).bind (·.parent) = ((data.edges guid).find? (·.1 = uid)).bind (·.2) := by
  rw [MissionData.edges, find?_map, Option.bind_map]
  rfl

private theorem costs_fixupAfter {layerUid before : Option String}
    (h : Known guid known server.state ∧
      (server.state.data.layer guid uid).bind (·.parent) = parent) :
    Costs (storeOp (fixupAfter guid layerUid before after)) 0
      (fun _ next => Known guid known next.state ∧
        (next.state.data.layer guid uid).bind (·.parent) = parent) server := by
  have hkeep : ∀ (state : State) (event : Event),
      (∃ other after, event = .data (.layerAfterSet guid other after)) →
        (Known guid known state ∧ (state.data.layer guid uid).bind (·.parent) = parent) →
      Known guid known (state.apply event) ∧ ((state.apply event).data.layer guid uid).bind
        (·.parent) = parent := by
    rintro state _ ⟨other, after, rfl⟩ ⟨hknown, hparent⟩
    have hedges : (state.apply (.data (.layerAfterSet guid other after))).data.edges guid =
        state.data.edges guid :=
      @edges_layerAfterSet { store := { state } } guid other none after guid
    refine ⟨hknown.apply keepsUids_layerAfterSet, ?_⟩
    rw [layer_parent_eq, hedges, ← layer_parent_eq]
    exact hparent
  refine costs_storeOp hkeep ?_ accepts_fixupAfter h
  refine only_get.bind fun state => only_putAll fun event hevent => ?_
  obtain ⟨layer, -, rfl⟩ := mem_map.1 hevent
  exact ⟨_, _, rfl⟩

variable (h : Known mission.guid known server.state)

include h

/-- A known layer is moved under no parent or a known one, and the move is recorded: a new parent,
or else the place under the old one. -/
theorem costs_moveLayer (huid : uid ∈ known) (hparent : ∀ p ∈ parent, p ∈ known) :
    Costs (moveLayer mission uid parent after) 1 (fun _ next =>
      Known mission.guid known next.state) server := by
  obtain ⟨layer, hlayer⟩ := Option.isSome_iff_exists.1 (h.layer_isSome.2 huid)
  have hall := h.all_isSome.2 hparent
  have hunder : (server.state.data.layer mission.guid uid).bind (·.parent) = layer.parent := by
    rw [hlayer]
    rfl
  refine pays_get_bind (fun _ => rfl)
    (Pays.bind (pays_orThrow hlayer (Pays.bind (pays_ensure hall ?_))))
  simp only [MissionStore.moveLayer, storeOp_bind]
  refine Pays.bind (costs_storeOp_get (Pays.bind (costs_storeOp_orRefuse hlayer ?_)))
  refine Pays.bind ((costs_fixupAfter ⟨h, hunder⟩).mono (Nat.le_refl 0) fun _ next hnext => ?_)
  refine Pays.bind ((costs_fixupAfter hnext).mono (Nat.le_refl 0) fun _ next hnext => ?_)
  have hplace : ∀ last : Server, Known mission.guid known last.state →
      Costs (storeOp get >>= fun state => storeOp (putIf
          ((state.data.layer mission.guid uid).bind (·.parent) = parent)
            (.data (.layerAfterSet mission.guid uid after))))
        (if (last.state.data.layer mission.guid uid).bind (·.parent) = parent then 1 else 0)
        (fun _ next => Known mission.guid known next.state) last := by
    intro last hlast
    refine Pays.bind (costs_storeOp_get ?_)
    rw [putIf]
    split
    · exact costs_storeOp_put fun _ => hlast.apply keepsUids_layerAfterSet
    · exact pays_pure hlast
  by_cases hmoves : layer.parent ≠ parent ∨ layer.parent = none
  · rw [putIf, if_pos hmoves]
    refine Pays.bind_first (costs_storeOp_put fun _ => ?_)
    exact (hplace _ (hnext.1.apply keepsUids_layerParentSet)).mono (Nat.zero_le _) fun _ _ h => h
  · rw [putIf, if_neg hmoves]
    refine Pays.bind (pays_pure ?_)
    have hsame : layer.parent = parent := not_not.1 fun hne => hmoves (.inl hne)
    have hone := hplace next hnext.1
    rwa [if_pos (hnext.2.trans hsame)] at hone

theorem refused_moveLayer (hnot : uid ∈ known → ¬ ∀ p ∈ parent, p ∈ known) :
    RefusedAt (moveLayer mission uid parent after) 0 server := by
  refine refused_get_bind (fun _ => rfl) ?_
  by_cases huid : uid ∈ known
  · obtain ⟨layer, hlayer⟩ := Option.isSome_iff_exists.1 (h.layer_isSome.2 huid)
    refine Pays.refused (pays_orThrow hlayer (Refused.bind (refused_ensure ?_ rfl)))
    exact fun hall => hnot huid (h.all_isSome.1 hall)
  · exact Refused.bind (refused_orThrow (h.layer_eq_none huid) rfl)

theorem told_moveLayers (hparent : ∀ p ∈ parent, p ∈ known) :
    Told P (moveLayers mission parent after uids) 0 (¬ ∀ u ∈ uids, u ∈ known) server := by
  induction uids generalizing after server with
  | nil => exact .of_clean trivial (not_not.2 (forall_mem_nil _))
  | cons uid rest ih =>
    by_cases huid : uid ∈ known
    · refine Pays.decided ((costs_moveLayer h huid hparent).mono (Nat.zero_le 1) fun _ next hnext =>
        (ih hnext).congr ?_)
      simp [huid]
    · exact .of_refused (refused_moveLayer h fun hmem => absurd hmem huid).bind fun hall =>
        huid (hall uid mem_cons_self)

end Moves

/-! ### Content filed under paths -/

section Filing

structure Filing where
  path : String
  after : Option String
  content : Content

def fileOne (env : Env) (inputs : Inputs) (mission : MissionRecord) (creatorUid : String)
    (filing : Filing) : Api Unit := do
  storeOp (addContent mission.guid filing.content creatorUid inputs.now)
  let _ ← addLayer env mission (some filing.content.key) none .item (some filing.path) filing.after

/-- Each item comes after the one before it. -/
def inOrder (path : String) : Option String → List Content → List Filing
  | _, [] => []
  | after, content :: rest => { path, after, content } :: inOrder path (some content.key) rest

def allFilings (inputs : Inputs) (paths : List (String × List Filed)) : List Filing :=
  paths.flatMap fun (path, items) => items.flatMap fun item =>
    inOrder path item.after (knownContent inputs item.hashes item.uids)

theorem fileContents_eq (path : String) (after : Option String) (contents : List Content) :
    fileContents env inputs mission creatorUid path after contents =
      (inOrder path after contents).forM (fileOne env inputs mission creatorUid) := by
  induction contents generalizing after with
  | nil => rfl
  | cons content rest ih =>
    show _ = (fileOne env inputs mission creatorUid _ >>= fun _ => (inOrder path _ rest).forM _)
    rw [fileContents, fileOne, ih]
    simp

private theorem forM_flatMap {α β : Type} (xs : List α) (g : α → List β) (f : β → Api Unit) :
    (xs.flatMap g).forM f = xs.forM fun x => (g x).forM f := by
  induction xs with
  | nil => rfl
  | cons x rest ih =>
    refine forM_append.trans ?_
    show ((g x).forM f >>= fun _ => (rest.flatMap g).forM f) = _
    rw [ih]
    rfl

theorem forM_fileContents (paths : List (String × List Filed)) :
    (paths.forM fun (path, items) => items.forM fun item =>
        fileContents env inputs mission creatorUid path item.after
        (knownContent inputs item.hashes item.uids)) =
      (allFilings inputs paths).forM (fileOne env inputs mission creatorUid) := by
  simp [allFilings, forM_flatMap, fileContents_eq]

/-- A layer of the uid is moved, so its path has to be a layer; else one is made. -/
def filesCleanly : List String → List (String × String) → Bool
  | _, [] => true
  | known, (path, key) :: rest =>
      if key ∈ known then decide (path ∈ known) && filesCleanly known rest
        else filesCleanly (known ++ [key]) rest

theorem filings_eq (inputs : Inputs) (paths : List (String × List Filed)) :
    filings inputs paths = (allFilings inputs paths).map fun filing =>
    (filing.path, filing.content.key) := by
  have horder : ∀ path after contents, (inOrder path after contents).map (fun filing =>
      (filing.path, filing.content.key)) = contents.map fun content => (path, content.key) := by
    intro path after contents
    induction contents generalizing after with
    | nil => rfl
    | cons content rest ih => rw [inOrder, map_cons, map_cons, ih]
  simp [filings, allFilings, map_flatMap, horder]

/-! One item -/

theorem costs_addLayerOp {layer : LayerRecord} (h : Known guid known server.state) :
    Costs (storeOp (MissionStore.addLayer guid layer)) 1 (fun _ next =>
      Known guid (known ++ [layer.uid]) next.state) server := by
  simp only [MissionStore.addLayer, storeOp_bind]
  refine Pays.bind (costs_existing h.there fun _ =>
    Pays.bind ((costs_storeOp (fun _ _ hevent hknown =>
      hknown.apply hevent) only_fixupAfter_keepsUids accepts_fixupAfter h).mono (Nat.le_refl 0)
        fun _ next hnext => ?_))
  refine costs_storeOp_put fun _ => ⟨lasting_there _ _ hnext.there, ?_⟩
  rw [Server.applied, layerUids_data, DataEvent.onLayers, if_pos rfl, map_append, ← hnext.uids]
  rfl

def withKey (known : List String) (key : String) : List String := if key ∈ known then known
    else known ++ [key]

variable {path key : String} {name : Option String} {layerType : LayerType}

theorem Known.layer_bind (h : Known guid known state) (hkey : key ∈ known) :
    ∃ found, (some key).bind (state.data.layer guid) = some found ∧ found.uid = key := by
  obtain ⟨found, hfound⟩ := Option.isSome_iff_exists.1 (h.layer_isSome.2 hkey)
  have huid := find?_some hfound
  exact ⟨found, hfound, of_decide_eq_true huid⟩

variable (h : Known mission.guid known server.state)

include h

theorem costs_addLayer (hpath : key ∈ known → path ∈ known) :
    Costs (addLayer env mission (some key) name layerType (some path) after) 1
      (fun _ next => Known mission.guid (withKey known key) next.state) server := by
  refine pays_get_bind (fun _ => rfl) ?_
  rw [withKey]
  by_cases hkey : key ∈ known
  · obtain ⟨found, hfound, huid⟩ := h.layer_bind hkey
    rw [hfound, if_pos hkey]
    refine Pays.bind_first ((costs_moveLayer h (huid ▸ hkey) fun p hp => ?_).mono (Nat.le_refl 1)
      fun _ next hnext => ?_)
    · cases hp
      exact hpath hkey
    · exact pays_get_bind (fun _ => rfl) (pays_pure hnext)
  · rw [Option.bind_some, h.layer_eq_none hkey, if_neg hkey]
    refine Pays.bind
      (pays_pure (Pays.bind_first ((costs_addLayerOp h).mono (Nat.le_refl 1) fun _ next hnext =>
        ?_)))
    exact pays_get_bind (fun _ => rfl) (pays_pure hnext)

theorem refused_addLayer (hkey : key ∈ known) (hpath : path ∉ known) :
    RefusedAt (addLayer env mission (some key) name layerType (some path) after) 0 server := by
  refine refused_get_bind (fun _ => rfl) ?_
  obtain ⟨found, hfound, huid⟩ := h.layer_bind hkey
  rw [hfound]
  exact (refused_moveLayer h fun _ hall => hpath (hall path rfl)).bind

/-! All of them -/

omit h in
theorem filesCleanly_cons {rest : List (String × String)} :
    filesCleanly known ((path, key) :: rest) = true ↔
      (key ∈ known → path ∈ known) ∧ filesCleanly (withKey known key) rest = true := by
  rw [filesCleanly, withKey]
  by_cases hkey : key ∈ known <;> simp [hkey]

omit h in
theorem costs_addContent (h : Known guid known server.state) :
    Costs (storeOp (addContent guid content creatorUid inputs.now)) 1
      (fun _ next => Known guid known next.state) server := by
  rw [addContent]
  exact costs_recordChange h.there fun _ _ => h.apply keepsUids_contentAdded

theorem costs_addContents {contents : List Content} :
    Costs (addContents inputs mission creatorUid contents) 0 (fun _ next =>
      Known mission.guid known next.state) server := by
  induction contents generalizing server with
  | nil => exact pays_pure h
  | cons content rest ih =>
    exact Pays.bind ((costs_addContent h).mono (Nat.zero_le 1) fun _ _ hnext => ih hnext)

variable {filings : List Filing}

theorem told_forM_fileOne : Told P (filings.forM (fileOne env inputs mission creatorUid)) 1
      (¬ filesCleanly known (filings.map fun filing => (filing.path, filing.content.key)) =
        true) server := by
  induction filings generalizing known server with
  | nil => exact .of_clean trivial (not_not.2 rfl)
  | cons filing rest ih =>
    rw [map_cons, filesCleanly_cons]
    by_cases hpath : filing.content.key ∈ known → filing.path ∈ known
    · refine Pays.decided (Pays.bind ((costs_addContent h).mono (Nat.zero_le 1) fun _ next hnext =>
        Pays.bind ((costs_addLayer hnext hpath).mono (Nat.zero_le 1) fun _ _ hlast =>
          pays_pure ((ih hlast).congr ?_))))
      rw [and_iff_right hpath]
    · obtain ⟨hkey, hnone⟩ := Classical.not_imp.1 hpath
      refine .of_refused (Refused.bind (Pays.refused_first ?_)) fun hclean => hpath hclean.1
      exact (costs_addContent h).mono (Nat.le_refl 1) fun _ next hnext =>
        (refused_addLayer hnext hkey hnone).bind

end Filing

/-! ### Packages -/

section Packages

def PackageItem.readable : PackageItem → Bool
  | .unreadableEntry => false
  | _ => true

variable {item : PackageItem} {items : List PackageItem}

private theorem costs_importContent {atMs : Option Int} (h : There mission.guid server.state) :
    Costs (importContent inputs mission creatorUid content atMs) 1 (fun _ next =>
      There mission.guid next.state) server := by
  exact costs_recordChange h fun _ _ => lasting_there _ _ h

theorem costs_importItem (hitem : item.readable = true) (h : There mission.guid server.state) :
    Costs (importItem env inputs mission creatorUid item) 1 (fun _ next =>
      There mission.guid next.state) server := by
  cases item with
  | cot uid xml atMs => exact Pays.bind (pays_modify (fun _ => rfl) (costs_importContent h))
  | file hash atMs => exact costs_importContent h
  | removed content atMs =>
    exact costs_recordChange h fun _ _ => lasting_there _ _ h
  | logEntry id content entryCreator missionNames =>
    have hsave : ∀ {entry : LogEntryRecord} {next : Server}, There mission.guid next.state →
        Costs (do let _ ← storeOp (saveLogEntry entry)) 1 (fun _ next =>
          There mission.guid next.state) next := by
      intro entry next hnext
      rw [saveLogEntry, storeOp_bind]
      refine Pays.bind_first (Pays.bind_first (costs_storeOp_put fun _ => ?_))
      exact pays_pure (pays_pure (lasting_there _ _ hnext))
    cases id with
    | some id => exact Pays.bind (pays_pure (hsave h))
    | none =>
      have hdraw : Costs env.draw 0 (fun _ next => There mission.guid next.state) server :=
        ⟨⟨0, env.randomUuid server.drawn, server.drew, Nat.le_refl 0, h,
          fun k => by rw [Nat.zero_add]; rfl⟩, h⟩
      exact Pays.bind (hdraw.mono (Nat.le_refl 0) fun _ _ hnext => hsave hnext)
  | unreadableEntry => cases hitem
  | logEntryRemoved id => exact costs_storeOp_put fun _ => lasting_there _ _ h

theorem told_forM_importItem (h : There mission.guid server.state) :
    Told P (items.forM (importItem env inputs mission creatorUid)) 0 (¬ ∀ item ∈ items,
      item.readable = true) server := by
  induction items generalizing server with
  | nil => exact .of_clean trivial (not_not.2 (forall_mem_nil _))
  | cons item rest ih =>
    by_cases hitem : item.readable = true
    · refine Pays.decided ((costs_importItem hitem h).mono (Nat.zero_le 1) fun _ next hnext =>
        (ih hnext).congr ?_)
      simp [hitem]
    · cases item with
      | unreadableEntry =>
        exact .of_refused (Refused.bind (refused_throw rfl)) fun hall =>
          hitem (hall _ mem_cons_self)
      | _ => exact absurd rfl hitem

end Packages

/-! ### Requests about one mission -/

def Env.mayWrite (env : Env) (state : State) (mission : MissionRecord) (caller : Caller) : Bool :=
  (env.roleFor state mission caller).any (·.has .write)

/-- Some layers are moved, and then comes one that is not there. -/
def movesLate (known : List String) (parent : Option String) : List String → Bool
  | [] => false
  | uid :: rest =>
    decide (uid ∈ known) && parent.all (decide <| · ∈ known) && !rest.all (decide <| · ∈ known)

/-- Of a request that may write, whether it is refused when it has stored something. -/
def MissionRequest.stopsLate (inputs : Inputs) (state : State) (mission : MissionRecord) :
    MissionRequest → Bool
  | .setKeywords keywords => keywords.isSome && inputs.badQuery.isSome
  | .clearKeywords | .clearContentKeywords _ => inputs.badQuery.isSome
  | .removeKeyword _ keyword => decide (keyword ∈ mission.keywords) && inputs.badQuery.isSome
  | .setContentKeywords _ keywords => keywords.any (· ≠ []) && inputs.badQuery.isSome
  | .setLayerParent uids params =>
      params.creatorUid.isSome && movesLate (state.layerUids mission.guid)
        (params.parentUid.filter (· ≠ "")) uids
  | .addContents _ _ paths _ => !filesCleanly (state.layerUids mission.guid) (filings inputs paths)
  | .package _ items =>
      match items with
      | [] => false
      | item :: rest => item.readable && !rest.all (·.readable)
  | _ => false

section About

variable {rest : Api Reply} {late : Prop} {store : MissionStore} {about : MissionRequest}

theorem told_check {role : Option Role} {permission : Permission} {error : ApiError}
    (hstore : server.store = store) (h : role.any (·.has permission) = true →
      Told (·.store = store) rest 1 late (server.note caller.username mission.guid permission)) :
    Told (·.store = store) (check caller mission role permission error >>= fun _ => rest) 1
      (role.any (·.has permission) = true ∧ late) server := by
  rw [check, bind_assoc]
  exact decided_ensure hstore fun hrole => Pays.decided (pays_modify (fun _ => rfl) (h hrole))

theorem told_requireWrite (hstore : server.store = store)
    (h : Told (·.store = store) rest 1 late (server.note caller.username mission.guid .write)) :
    Told (·.store = store) (requireWrite env caller mission >>= fun _ => rest) 1
      (env.mayWrite server.state mission caller = true ∧ late) server := by
  rw [requireWrite, bind_assoc]
  exact decided_get_bind (fun _ => rfl) (told_check hstore fun _ => h)

theorem told_query {op : Api Unit} (hop : Costs op 1 (fun _ next => There guid next.state) server)
    (hrest : Stores (There guid) rest) :
    Told P (op >>= fun _ => readQuery inputs >>= fun _ => rest) 1 (inputs.badQuery.isSome =
      true) server := by
  refine Pays.decided_first (hop.mono (Nat.le_refl 1) fun _ next hthere => ?_)
  by_cases hquery : inputs.badQuery = none
  · have hread : Stores (There guid) (readQuery inputs) :=
      ⟨fun _ h => wp_ensure.2 ⟨fun _ => h, fun hnot => absurd hquery hnot⟩⟩
    refine .of_clean (((hread.bind fun _ => hrest).run next hthere).mono (fun _ _ _ => trivial)
      fun _ _ he => he) ?_
    simp [hquery]
  · exact .of_refused (Refused.bind (refused_ensure hquery rfl))
      (Option.isSome_iff_ne_none.2 hquery)

private theorem movesLate_cons {others : List String} : movesLate known parent
    (uid :: others) = true ↔
      uid ∈ known ∧ (∀ p ∈ parent, p ∈ known) ∧ ¬ ∀ u ∈ others, u ∈ known := by
  cases parent <;> simp [movesLate, and_assoc]

theorem told_setLayerParent (h : Known mission.guid known server.state)
    (hstore : server.store = store) :
    Told (·.store = store) (moveLayers mission parent after uids) 1 (movesLate known parent uids =
      true) server := by
  cases uids with
  | nil => exact .of_clean trivial Bool.false_ne_true
  | cons uid others =>
    rw [movesLate_cons]
    by_cases hfirst : uid ∈ known ∧ ∀ p ∈ parent, p ∈ known
    · refine Pays.decided_first ((costs_moveLayer h hfirst.1 hfirst.2).mono (Nat.le_refl 1)
        fun _ _ hnext => ?_)
      refine (told_moveLayers hnext hfirst.2).congr ?_
      rw [and_iff_right hfirst.1, and_iff_right hfirst.2]
    · refine .of_clean ?_ fun hlate => hfirst ⟨hlate.1, hlate.2.1⟩
      simp only [moveLayers, moveLayer, wp_bind, wp_orThrow, wp_ensure]
      refine ⟨fun layer hlayer => ⟨fun hall => absurd ?_ hfirst, fun _ _ => hstore⟩,
        fun _ _ => hstore⟩
      exact ⟨h.layer_isSome.1 (Option.isSome_iff_exists.2 ⟨layer, hlayer⟩), h.all_isSome.1 hall⟩

theorem told_addContents {hashes : List String} {paths : List (String × List Filed)}
    (hthere : There mission.guid server.state) :
    Told (·.store = server.store)
    (addContentsImpl env caller inputs mission hashes uids paths creatorUid) 1
      (env.mayWrite server.state mission caller = true ∧
        ¬ filesCleanly (server.state.layerUids mission.guid) (filings inputs paths) =
        true) server := by
  rw [addContentsImpl, filings_eq]
  simp only [forM_fileContents]
  have hnoted : Known mission.guid (server.state.layerUids mission.guid)
      (server.note caller.username mission.guid .write).state := ⟨hthere, rfl⟩
  refine Decided.congr (told_requireWrite rfl (decided_ensure rfl fun _ =>
    Pays.decided ((costs_addContents hnoted).mono (Nat.le_refl 0) fun _ next hnext =>
      (told_forM_fileOne hnext).bind_firm fun _ last => ?_))) ?_
  · have hreply : Stores (fun _ => True) (missionResponse mission) := stores_missionResponse
    exact hreply.run last trivial
  · refine and_congr_right fun _ => and_iff_right_of_imp fun hlate => ?_
    rintro ⟨-, -, rfl⟩
    exact hlate rfl

private theorem told_package {items : List PackageItem} (hthere : There mission.guid server.state)
    (hstore : server.store = store) :
    Told (·.store = store) (items.forM (importItem env inputs mission creatorUid)) 1
      ((package creatorUid items).stopsLate inputs server.state mission = true) server := by
  cases items with
  | nil => exact .of_clean trivial Bool.false_ne_true
  | cons item others =>
    by_cases hitem : item.readable = true
    · refine Pays.decided_first ((costs_importItem hitem hthere).mono (Nat.le_refl 1)
        fun _ _ hnext => ?_)
      refine (told_forM_importItem hnext).congr ?_
      simp [stopsLate, hitem]
    · cases item with
      | unreadableEntry => exact .of_clean (fun _ => hstore) Bool.false_ne_true
      | _ => exact absurd rfl hitem

/-- A request about a mission that may write and stops late is refused with a record left in the
log, if there is room; any other that is refused leaves the store alone. -/
theorem told_handleAbout (hthere : There mission.guid server.state) :
    Told (·.store = server.store) (handleAbout env caller inputs mission about) 1
      (env.mayWrite server.state mission caller = true ∧
        about.stopsLate inputs server.state mission = true) server := by
  cases hlate : about.checksLate with
  | false =>
    refine .of_clean (handleAbout_untouched hlate hthere) fun h => ?_
    cases about <;> first | exact Bool.false_ne_true h.2 | cases hlate
  | true =>
  have hnoted : Known mission.guid (server.state.layerUids mission.guid)
      (server.note caller.username mission.guid .write).state := ⟨hthere, rfl⟩
  have hset : ∀ event, Costs (storeOp (recordExisting mission.guid event)) 1
      (fun _ next => There mission.guid next.state)
        (server.note caller.username mission.guid .write) := fun event =>
    costs_recordExisting hthere fun _ => lasting_there _ _ hthere
  cases about with
  | setKeywords keywords =>
    refine (told_requireWrite rfl (decided_orThrow rfl fun list _ =>
      told_query (hset _) stores_missionResponse)).congr ?_
    simp [stopsLate, Option.isSome_iff_exists]
  | clearKeywords => exact told_requireWrite rfl (told_query (hset _) stores_missionResponse)
  | removeKeyword name keyword =>
    refine (told_requireWrite rfl (decided_ensure rfl fun _ =>
      told_query (hset _) stores_missionResponse)).congr ?_
    simp [stopsLate]
  | setContentKeywords content keywords =>
    refine (told_requireWrite rfl (decided_orThrow rfl fun list _ => decided_ensure rfl fun _ =>
      told_query (hset _) firm_pure)).congr ?_
    cases keywords <;> simp [stopsLate]
  | clearContentKeywords content => exact told_requireWrite rfl (told_query (hset _) firm_pure)
  | setLayerParent uids params =>
    refine (told_requireWrite rfl (decided_orThrow rfl fun creator _ => decided_ensure rfl fun _ =>
      (told_setLayerParent hnoted rfl).bind_firm fun _ _ => wp_pure.2 trivial)).congr ?_
    cases uids <;> simp [stopsLate, movesLate, Option.isSome_iff_exists]
  | addContents hashes uids paths creatorUid =>
    refine (told_addContents hthere).congr ?_
    simp [stopsLate]
  | package creatorUid items =>
    exact told_requireWrite rfl ((told_package hnoted.there rfl).bind_firm fun _ _ =>
      wp_pure.2 trivial)
  | _ => cases hlate

end About

end MicroTak.Missions
