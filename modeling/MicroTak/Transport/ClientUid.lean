import MicroTak.Transport.Session

/-!
# The uid a connection goes by

Directed traffic is matched against the uid a TLS connection took from its first event with a
contact endpoint.  That assignment precedes the identity checks, so what the checks say of that one
event decides whether the connection can pass for somebody else.
-/

namespace MicroTak.Transport

open Cot Registry Groups Session

variable {event : Event} {uid : String}

namespace Session

variable {wire : Wire} {registry : RegistryState} {session : Session} {item : Decoded}

/-! ### What one event does to the uid -/

/-- The event is one a connection without a uid takes its uid from. -/
def names (event : Event) : Bool :=
  !event.isControl && event.hasEndpoint

/-- The first event of a connection that gives it a uid. -/
def firstContact (items : List Decoded) : Option Decoded :=
  items.find? fun item => names item.event

theorem isControl_of_negotiates (h : session.negotiates event = true) : event.isControl = true := by
  simp only [negotiates, Bool.and_eq_true, Text.eqIgnoreAsciiCase_iff] at h
  rw [Event.isControl, h.2]
  decide

@[simp] theorem bindUid_closed (event : Event) :
    (session.bindUid event).closed = session.closed := by
  unfold bindUid
  split <;> rfl

/-- What an event does to the uid of a connection, whatever the checks make of it. -/
theorem onEvent_clientUid : (session.onEvent wire registry item).1.clientUid =
      if session.clientUid.isNone && names item.event then some item.event.uid
      else session.clientUid := by
  have hbind : item.event.isControl = false → (session.bindUid item.event).clientUid =
      if session.clientUid.isNone && names item.event then some item.event.uid
        else session.clientUid := by
    intro hcontrol
    simp only [bindUid, names, hcontrol, Bool.not_false, Bool.true_and]
    split <;> rfl
  have hsame : item.event.isControl = true → session.clientUid =
      if session.clientUid.isNone && names item.event then some item.event.uid
        else session.clientUid := by
    intro hcontrol
    simp [names, hcontrol]
  unfold onEvent
  split
  · unfold onTlsEvent
    split
    · rename_i hneg
      exact hsame (isControl_of_negotiates hneg)
    · split
      · rename_i hcontrol
        exact hsame hcontrol
      · rename_i hcontrol
        split <;> exact hbind (by simpa using hcontrol)
  · unfold onTcpEvent
    split
    · rename_i hcontrol
      exact hsame hcontrol
    · rename_i hcontrol
      exact hbind (by simpa using hcontrol)

private theorem bindUid_frame (event : Event) :
    ∃ uid, session.bindUid event = { session with clientUid := uid } := by
  unfold bindUid
  split
  · exact ⟨_, rfl⟩
  · exact ⟨session.clientUid, rfl⟩

theorem onEvent_frame (wire : Wire) (registry : RegistryState) (session : Session)
    (item : Decoded) : ∃ uid protobuf closed, (session.onEvent wire registry item).1 =
      { session with clientUid := uid, protobuf := protobuf, closed := closed } := by
  obtain ⟨uid, hbind⟩ := session.bindUid_frame item.event
  unfold onEvent
  split
  · unfold onTlsEvent
    split
    · exact ⟨_, _, _, rfl⟩
    · split
      · exact ⟨_, _, _, rfl⟩
      · rw [hbind]
        split <;> exact ⟨_, _, _, rfl⟩
  · unfold onTcpEvent
    split
    · exact ⟨_, _, _, rfl⟩
    · rw [hbind]
      exact ⟨_, _, _, rfl⟩

@[simp] theorem onEvent_identity :
    (session.onEvent wire registry item).1.identity = session.identity := by
  obtain ⟨uid, protobuf, closed, heq⟩ := onEvent_frame wire registry session item
  rw [heq]

@[simp] theorem onEvent_peer : (session.onEvent wire registry item).1.peer = session.peer := by
  obtain ⟨uid, protobuf, closed, heq⟩ := onEvent_frame wire registry session item
  rw [heq]

@[simp] theorem onEvent_listener :
    (session.onEvent wire registry item).1.listener = session.listener := by
  obtain ⟨uid, protobuf, closed, heq⟩ := onEvent_frame wire registry session item
  rw [heq]

/-- Only a position report ends a connection, and such a report carries an endpoint. -/
theorem names_of_onEvent_closed (hopen : session.closed = false)
    (h : (session.onEvent wire registry item).1.closed = true) : names item.event = true := by
  unfold onEvent at h
  split at h
  · unfold onTlsEvent at h
    split at h
    · simp [hopen] at h
    · split at h
      · simp [hopen] at h
      · rename_i hcontrol
        split at h
        · simp [hopen] at h
        · rename_i reason hverdict
          have hsa := isSituationalAwareness_of_disconnect hverdict
          simp [names, hcontrol, Event.hasEndpoint_of_isSituationalAwareness hsa]
        · simp [hopen] at h
  · unfold onTcpEvent at h
    split at h <;> simp [hopen] at h

/-! ### What a run of events does to it -/

@[simp] theorem serve_nil : session.serve wire registry [] = session := rfl

theorem serve_cons {rest : List Decoded} (hopen : session.closed = false) :
    session.serve wire registry (item :: rest) =
      (session.onEvent wire registry item).1.serve wire registry rest := by
  simp [serve, hopen]

variable {items : List Decoded}

private theorem serve_closed (h : session.closed = true) :
    session.serve wire registry items = session := by
  cases items <;> simp [serve, h]

private theorem serve_clientUid_of_some (h : session.clientUid = some uid) :
    (session.serve wire registry items).clientUid = some uid := by
  induction items generalizing session with
  | nil => exact h
  | cons item rest ih =>
    cases hclosed : session.closed with
    | true => rw [serve_closed hclosed, h]
    | false =>
      rw [serve_cons hclosed]
      apply ih
      rw [onEvent_clientUid, h]
      rfl

theorem serve_clientUid (hfresh : session.clientUid = none) (hopen : session.closed = false) :
    (session.serve wire registry items).clientUid = (firstContact items).map (·.event.uid) := by
  induction items generalizing session with
  | nil => simp [firstContact, hfresh]
  | cons item rest ih =>
    rw [serve_cons hopen, firstContact, List.find?_cons]
    cases hnames : names item.event with
    | true =>
      apply serve_clientUid_of_some
      rw [onEvent_clientUid, hfresh, hnames]
      rfl
    | false =>
      have hstill : (session.onEvent wire registry item).1.closed = false := by
        by_contra hclosed
        rw [names_of_onEvent_closed hopen (by simpa using hclosed)] at hnames
        cases hnames
      apply ih _ hstill
      rw [onEvent_clientUid, hfresh, hnames]
      rfl

end Session

/-! ### Directed traffic -/

/-- The event is directed to `uid` and to nobody else: no other recipient, and no mission. -/
def DirectedTo (event : Event) (uid : String) : Prop :=
  event.destMissions = ([], []) ∧ ∃ uids, event.addressedUids = some uids ∧ ∀ u ∈ uids, u = uid

/-- An event without mission destinations is published to the uids it names; the mission side is not
asked. -/
theorem recipients_of_directedTo (sender : Session) (h : DirectedTo event uid) :
    sender.routeRequest event = none ∧ ∃ uids, sender.recipients event [] = some uids ∧ ∀ u ∈ uids,
    u = uid := by
  obtain ⟨hmissions, uids, huids, hall⟩ := h
  constructor
  · unfold routeRequest
    split <;> simp [hmissions]
  · refine ⟨uids, ?_, hall⟩
    unfold recipients
    split
    · exact huids
    · have hne := Event.addressedUids_ne_nil huids
      simp [huids, addRecipients, hne]

/-- Nothing directed to `uid` reaches the connection at any point of the event sequence, and no
event the impersonation rule drops changes the uid the connection goes by. -/
def Unhijacked (wire : Wire) (registry : RegistryState) (session : Session) (uid : String)
    (items : List Decoded) : Prop :=
  (∀ pre post, items = pre ++ post → ∀ (sender : Session) (groups : Groups.State)
    (out : Finset String)
      (item : Decoded), DirectedTo item.event uid →
    (session.serve wire registry pre).accepts out (sender.outbound wire groups [] item) = false) ∧
  (∀ pre item post, items = pre ++ item :: post →
    Impersonates registry session.identity.mine item.event →
      (session.serve wire registry (pre ++ [item])).clientUid =
        (session.serve wire registry pre).clientUid)

private theorem accepts_directed_eq_false {wire : Wire} {session sender : Session}
    (huid : session.clientUid ≠ some uid) (groups : Groups.State) (out : Finset String)
    (item : Decoded) (hdirected : DirectedTo item.event uid) :
    session.accepts out (sender.outbound wire groups [] item) = false := by
  obtain ⟨-, uids, hdest, hall⟩ := recipients_of_directedTo sender hdirected
  rw [Bool.eq_false_iff]
  intro haccepts
  simp only [accepts, Bool.and_eq_true] at haccepts
  obtain ⟨u, hu, hmine⟩ := Outbound.mem_of_isDeliverableTo hdest haccepts.1.2
  rw [hall u hu] at hmine
  unfold deliveryUid at hmine
  split at hmine
  · cases hmine
  · exact huid hmine

/-- **Directed traffic**: on a TLS connection whose certificate was not enrolled for `uid`, while
`uid` is enrolled to an identity that is not blocked, the connection is never delivered an event
directed to `uid` and no dropped event renames it, exactly when the first event that names the
connection is not one the impersonation rule drops. -/
theorem unhijacked_iff_firstContact (wire : Wire) (pki : Pki) (registry : RegistryState)
    (listener : Listener) (peer : SocketAddr) (cn : String) (peerCert : Der) (uid : String)
    (cert : CertRecord) (hcert : cert ∈ registry.certificates) (huid : cert.clientUid = some uid)
    (hopen : registry.isRevoked cert.commonName = false)
    (hmine : registry.enrolledClientUid pki peerCert ≠ some (some uid)) (items : List Decoded) :
    Unhijacked wire registry (openTls pki registry listener peer cn peerCert) uid items ↔
      ∀ item ∈ firstContact items,
        ¬ Impersonates registry (registry.enrolledClientUid pki peerCert).join item.event := by
  set session := openTls pki registry listener peer cn peerCert with hsession
  have hserve : ∀ pre : List Decoded,
      (session.serve wire registry pre).clientUid = (firstContact pre).map (·.event.uid) :=
    fun pre => serve_clientUid rfl rfl
  have hmine' : session.identity.mine ≠ some uid := by
    simpa [hsession, openTls, Identity.mine, Option.join_eq_some_iff] using hmine
  constructor
  · rintro ⟨-, hkeeps⟩ item hfirst himp
    -- The dropped event is the one the connection takes its uid from.
    obtain ⟨hnames, pre, post, rfl, hbefore⟩ := List.find?_eq_some_iff_append.1 hfirst
    have hnone : firstContact pre = none := List.find?_eq_none.2 fun x hx => by
      simpa using hbefore x hx
    have hsome : firstContact (pre ++ [item]) = some item := by
      simp only [firstContact] at hnone ⊢
      rw [List.find?_append, hnone, Option.none_or, List.find?_cons, hnames]
    have hsame := hkeeps pre item post rfl himp
    rw [hserve, hserve, hnone, hsome] at hsame
    cases hsame
  · intro hfirst
    -- A connection that went by `uid` would have been named by an event the rule drops.
    have hnot : ∀ pre post, items = pre ++ post → (session.serve wire registry pre).clientUid ≠
        some uid := by
      rintro pre post rfl hnamed
      rw [hserve, Option.map_eq_some_iff] at hnamed
      obtain ⟨item, hitem, hitemUid⟩ := hnamed
      refine hfirst item ?_ ?_
      · rw [firstContact] at hitem ⊢
        rw [List.find?_append, hitem]
        rfl
      · have howner :
            (registry.otherOwnerOfEnrolledUid item.event.uid session.identity.mine).isSome := by
          rw [RegistryState.otherOwnerOfEnrolledUid, if_neg (hitemUid ▸ hmine'), Option.isSome_map,
            List.find?_isSome]
          exact ⟨cert, hcert, by simp [hitemUid, huid, hopen]⟩
        obtain ⟨owner, howner⟩ := Option.isSome_iff_exists.1 howner
        change impersonation registry session.identity.mine item.event ≠ .relay
        simp [impersonation, howner]
    refine ⟨fun pre post hsplit sender groups out item hdirected =>
      accepts_directed_eq_false (hnot pre post hsplit) groups out item hdirected, ?_⟩
    rintro pre item post rfl himp
    rw [hserve, hserve, firstContact, firstContact, List.find?_append]
    cases hpre : pre.find? (fun item => names item.event) with
    | some first => rfl
    | none =>
      cases hnames : names item.event with
      | false => simp [hnames]
      | true =>
        refine absurd himp (hfirst item ?_)
        simp [firstContact, hpre, hnames]

/-! ### A dropped report that renames its connection -/

namespace Spoof

/-- Two devices, each with a certificate enrolled for its own uid. -/
def registry : RegistryState :=
  [RegistryEvent.enrolled "alpha" "CERT-A" 0 (some "ANDROID-1"),
    RegistryEvent.enrolled "mallory" "CERT-M" 0 (some "ANDROID-2")].foldl applyEvent {}

def malloryCert : Der := (Pki.sample.certPemToDer "CERT-M").getD []

/-- The connection of `mallory`, with the uid check switched off as it is by default. -/
def session : Session :=
  Session.openTls Pki.sample registry {} "10.0.0.2:5000" "mallory" malloryCert

def report (uid : String) : Decoded :=
  { event :=
      { uid, cotType := "a-f-G-U-C"
        detail := some { contact := some { callsign := some "M", endpoint := some "*:-1:stcp" } } }
    xml := "<event/>" }

def secret : Decoded :=
  { event :=
      { uid := "GeoChat.1", cotType := "b-t-f"
        detail := some { marti := some { dest := [{ uid := some "ANDROID-1" }] } } }
    xml := "<secret/>" }

end Spoof

/-- `mallory` reports under the uid of `alpha`: the report is dropped, the connection goes by that
uid from then on, and it is delivered what is directed to `alpha`. -/
theorem spoofed_report_hijacks :
    Impersonates Spoof.registry Spoof.session.identity.mine (Spoof.report "ANDROID-1").event ∧
      (Spoof.session.serve Wire.plain Spoof.registry [Spoof.report "ANDROID-1"]).accepts {anonGroup}
        ((openTcp {} "10.0.0.3:6000").outbound Wire.plain freshState [] Spoof.secret) = true ∧
      ¬ Unhijacked Wire.plain Spoof.registry Spoof.session "ANDROID-1"
      [Spoof.report "ANDROID-1"] := by
  have hdelivered :
      (Spoof.session.serve Wire.plain Spoof.registry [Spoof.report "ANDROID-1"]).accepts {anonGroup}
        ((openTcp {} "10.0.0.3:6000").outbound Wire.plain freshState [] Spoof.secret) = true := by
    decide
  refine ⟨by decide, hdelivered, fun h => ?_⟩
  have hrefused := h.1 [Spoof.report "ANDROID-1"] [] rfl (openTcp {} "10.0.0.3:6000") freshState
    {anonGroup} Spoof.secret ⟨by decide, ["ANDROID-1"], by decide, by simp⟩
  cases hrefused

theorem own_report_first_unhijacked :
    Unhijacked Wire.plain Spoof.registry Spoof.session "ANDROID-1"
      [Spoof.report "ANDROID-2", Spoof.report "ANDROID-1"] := by
  refine (unhijacked_iff_firstContact Wire.plain Pki.sample Spoof.registry {}
    "10.0.0.2:5000" "mallory" Spoof.malloryCert "ANDROID-1" ⟨1, "alpha", "CERT-A", some "ANDROID-1",
      0⟩ (by decide) rfl (by decide)
    (by decide) _).2 ?_
  intro item hitem
  have hfirst : firstContact [Spoof.report "ANDROID-2", Spoof.report "ANDROID-1"] =
      some (Spoof.report "ANDROID-2") := by decide
  cases hitem
  decide

end MicroTak.Transport
