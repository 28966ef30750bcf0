import MicroTak.Enrollment.Takeover
import MicroTak.Transport.OwnUid
import MicroTak.Transport.RelayInvariant

/-!
# Who speaks under an enrolled uid

The enrollment endpoint and the TLS listeners of one server, around one registry.  A request may
name any `clientUid`, also one that another identity is enrolled for: that is how a phone goes on
after it was enrolled again under a new name.  What the impersonation rule guarantees over every run
is that an enrolled uid is spoken under only by connections whose certificate was enrolled for it.
-/

namespace MicroTak.Enrollment

open Std Registry Transport Transition Lines Transport.Server Transport.Env

/-- One server: what enrolls devices, and what their connections go through. -/
structure Site (M : Type) where
  enrollment : Enrollment.Server := {}
  relay : Transport.Server M

inductive Site.Action (M : Type) where
  | enrollment (action : Enrollment.Action)
  | relay (action : Transport.Action M)

def EnrolledFor (pki : Pki) (log : List RegistryEvent) (cert : Der) (uid : String) : Prop :=
  ∃ commonName certPem atUnix, .enrolled commonName certPem atUnix (some uid) ∈ log ∧
    pki.fingerprintSha256ColonHex certPem = some (pki.fingerprintSha256ColonHexDer cert)

def firstEnrolled (log : List RegistryEvent) (commonName uid : String) : Option Nat :=
  log.findIdx? fun event =>
    match event with
    | .enrolled name _ _ clientUid => name = commonName && clientUid = some uid
    | _ => false

namespace Site

variable {M : Type} (env : Enrollment.Env) (relayEnv : Transport.Env M) (site : Site M)

/-- The registry and the groups as the enrollment side left them; a crash ends every connection. -/
def share (next : Enrollment.Server) : Enrollment.Action → Site M
  | .crash =>
    { enrollment := next, relay := .start next.groups next.registry.state site.relay.missions }
  | _ =>
    { enrollment := next,
      relay := { site.relay with groups := next.groups, registry := next.registry.state } }

def step : Site.Action M → Option (Site M)
  | .enrollment action => (site.enrollment.step env action).map (site.share · action)
  | .relay action =>
      match site.enrollment.running, action with
      | none, _ => none
      -- Both change through the enrollment side.
      | some _, .changeGroups _ | some _, .changeRegistry _ => none
      | some _, action => (site.relay.step relayEnv action).map ({ site with relay := · })

def start (missions : M) : Site M :=
  { relay := .start {} {} missions }

def Relays (peer : SocketAddr) (conn : Conn) (session : Session) (decoded : Decoded) : Prop :=
  site.relay.running peer = some (conn, session) ∧
    (session.onEvent relayEnv.wire site.relay.registry decoded).2 = .relayed

end Site

/-! ### What a connection may speak under -/

variable {M : Type} {env : Enrollment.Env} {relayEnv : Transport.Env M}

/-- A session that takes a uid for its own has a certificate enrolled for it. -/
def Enrolled (pki : Pki) (log : List RegistryEvent) (conn : Conn) : Prop :=
  ∀ session ∈ conn.session, ∀ cn uid, session.identity = .tls cn (some (some uid)) →
    ∃ cert, conn.credentials = .tls cn cert ∧ EnrolledFor pki log cert uid

variable {pki : Pki} {conn : Conn} {registry before after : DeviceRegistry} {session : Session}
  {action : Transport.Action M} {server : Transport.Server M}

private theorem enrolledFor_of_enrolledClientUid (h : registry.Faithful) {cert : Der}
    {uid : String} (huid : registry.state.enrolledClientUid pki cert = some (some uid)) :
    EnrolledFor pki registry.log cert uid := by
  obtain ⟨row, hfound, hrow⟩ := Option.map_eq_some_iff.1 huid
  have hmem := List.mem_reverse.1 (List.mem_of_find?_eq_some hfound)
  have hfingerprint := List.find?_some hfound
  exact ⟨row.commonName, row.certPem, row.issuedAtUnix,
    hrow ▸ h.enrolled_of_mem hmem, by simpa using hfingerprint⟩

private theorem enrolled_openSession (h : registry.Faithful)
    (hshared : server.registry = registry.state) {peer : SocketAddr}
    (hopen : server.openSession relayEnv peer conn = some session) :
    Enrolled relayEnv.pki registry.log { conn with session := some session } := by
  intro opened hopened cn uid hidentity
  cases hopened
  unfold openSession at hopen
  split at hopen
  · cases hopen
    cases hidentity
  · next name cert hcredentials =>
    split at hopen
    · cases hopen
      obtain ⟨rfl, huid⟩ := Identity.tls.inj hidentity
      rw [hshared] at huid
      exact ⟨cert, hcredentials, enrolledFor_of_enrolledClientUid h huid⟩
    · cases hopen

theorem enrolled_step {next : Transport.Server M} (h : registry.Faithful)
    (hshared : server.registry = registry.state)
    (hconns : ∀ (peer : SocketAddr) (conn : Conn), server.conns[peer]? = some conn →
      Enrolled relayEnv.pki registry.log conn) (hstep : server.step relayEnv action = some next)
      (peer : SocketAddr) (conn : Conn)
    (hconn : next.conns[peer]? = some conn) : Enrolled relayEnv.pki registry.log conn := by
  -- Replacing one connection is enough to look at that one.
  have hinsert : ∀ (at' : SocketAddr) (conn' : Conn), next.conns = server.conns.insert at' conn' →
      Enrolled relayEnv.pki registry.log conn' → Enrolled relayEnv.pki registry.log conn := by
    intro at' conn' heq hnew
    rw [heq] at hconn
    rcases Dict.of_insert hconn with ⟨-, rfl⟩ | ⟨-, hold⟩
    · exact hnew
    · exact hconns peer conn hold
  cases took_of_step hstep with
  | accepted => exact hinsert _ _ rfl fun session hsession => by cases hsession
  | entered hfound hnone hopen => exact hinsert _ _ rfl (enrolled_openSession h hshared hopen)
  | @noted at' found session _ hrunning | @relayed at' found session _ hrunning =>
    obtain ⟨hfound, hsession, -⟩ := running_eq_some.1 hrunning
    refine hinsert at' _ rfl fun moved hmoved cn uid hidentity => ?_
    cases hmoved
    rw [Session.onEvent_identity] at hidentity
    exact hconns at' found hfound session hsession cn uid hidentity
  | @delivered at' found _ _ hrunning =>
    refine hinsert at' _ rfl fun s hs cn uid hidentity => ?_
    exact hconns at' found (running_eq_some.1 hrunning).1 s hs cn uid hidentity
  | left => exact hconns peer conn (Dict.of_erase hconn).2
  | _ => exact hconns peer conn hconn

theorem step_registry {next : Transport.Server M}
    (hstep : server.step relayEnv action = some next)
    (hkeeps : ∀ event, action ≠ .changeRegistry event) : next.registry = server.registry := by
  cases took_of_step hstep with
  | registryChanged => exact absurd rfl (hkeeps _)
  | _ => rfl

theorem QuietChange.log_subset (h : QuietChange before after) : before.log ⊆ after.log := by
  rcases h with rfl | ⟨event, -, hrecord⟩
  · exact List.Subset.refl _
  · obtain ⟨-, rfl⟩ := DeviceRegistry.record_eq_ok.1 hrecord
    exact List.subset_append_left _ _

theorem RegistryEffect.log_subset {request : SignRequest} {stage : Stage}
    (h : RegistryEffect before after request stage) : before.log ⊆ after.log := by
  rcases h with rfl | ⟨signed, rfl, -⟩
  · exact List.Subset.refl _
  · exact List.subset_append_left _ _

namespace Site

variable {site next : Site M}

structure Inv (env : Enrollment.Env) (relayEnv : Transport.Env M) (site : Site M) : Prop where
  enrollment : Enrollment.Server.Inv env site.enrollment
  shared : site.relay.registry = site.enrollment.registry.state
  enrolled : ∀ (peer : SocketAddr) (conn : Conn), site.relay.conns[peer]? = some conn →
    Enrolled relayEnv.pki site.enrollment.registry.log conn

theorem inv_start (missions : M) : Inv env relayEnv (start missions) where
  enrollment := Enrollment.Server.inv_start
  shared := rfl
  enrolled _ _ h := by simp [start, Transport.Server.start] at h

private theorem Inv.share (h : Inv env relayEnv site) {after : Enrollment.Server}
    {action : Enrollment.Action} (hstep : site.enrollment.step env action = some after) :
    Inv env relayEnv (site.share after action) := by
  obtain ⟨hinv, heffect⟩ := h.enrollment.step hstep
  have hlog : site.enrollment.registry.log ⊆ after.registry.log := by
    rcases heffect with hquiet | ⟨id, input, running, request, stage, -, -, heffect⟩
    · exact hquiet.log_subset
    · exact heffect.log_subset
  have hkept : ∀ (peer : SocketAddr) (conn : Conn), site.relay.conns[peer]? = some conn →
      Enrolled relayEnv.pki after.registry.log conn := by
    intro peer conn hconn session hsession cn uid hidentity
    obtain ⟨cert, hcert, commonName, certPem, atUnix, hmem, hfingerprint⟩ :=
      h.enrolled peer conn hconn session hsession cn uid hidentity
    exact ⟨cert, hcert, commonName, certPem, atUnix, hlog hmem, hfingerprint⟩
  cases action with
  | crash =>
    exact ⟨hinv, rfl, fun _ _ hconn => by simp [Site.share, Transport.Server.start] at hconn⟩
  | boot random | receive id request | advance id input | drop id | admin call =>
    exact ⟨hinv, rfl, hkept⟩

theorem Inv.step {action : Site.Action M} (h : Inv env relayEnv site)
    (hstep : site.step env relayEnv action = some next) : Inv env relayEnv next := by
  cases action with
  | enrollment action =>
    obtain ⟨after, hafter, rfl⟩ := Option.map_eq_some_iff.1 hstep
    exact h.share hafter
  | relay action =>
    have hrelay : ∃ after, site.relay.step relayEnv action = some after ∧
        next = { site with relay := after } ∧ ∀ event, action ≠ .changeRegistry event := by
      simp only [Site.step] at hstep
      split at hstep
      · cases hstep
      · cases hstep
      · cases hstep
      · next hgroups hregistry =>
        obtain ⟨after, hafter, rfl⟩ := Option.map_eq_some_iff.1 hstep
        exact ⟨after, hafter, rfl, hregistry⟩
    obtain ⟨after, hafter, rfl, hkeeps⟩ := hrelay
    refine ⟨h.enrollment, (step_registry hafter hkeeps).trans h.shared, ?_⟩
    exact enrolled_step h.enrollment.registry.faithful h.shared h.enrolled hafter

end Site

private theorem not_impersonates_of_relayed {wire : Wire} {registry : RegistryState}
    {decoded : Decoded} {cn : String} {enrolled : Option (Option String)}
    (hidentity : session.identity = .tls cn enrolled)
    (h : (session.onEvent wire registry decoded).2 = .relayed) :
    ¬ Impersonates registry enrolled.join decoded.event := by
  have hrelay : identityVerdict registry session.listener.validateClientUid enrolled decoded.event =
      .relay := by
    unfold Session.onEvent at h
    split at h
    · next name found hfound =>
      obtain ⟨-, rfl⟩ := Identity.tls.inj (hidentity.symm.trans hfound)
      unfold Session.onTlsEvent at h
      split at h
      · cases h
      · split at h
        · cases h
        · split at h
          · cases h
          · cases h
          · next hverdict => exact hverdict
    · next htcp => cases hidentity.symm.trans htcp
  rw [Impersonates, not_not]
  unfold identityVerdict at hrelay
  split at hrelay
  · exact hrelay
  · next hother => exact absurd hrelay hother

/-- In every run from an empty data directory, while a certificate row of an identity that is not
blocked names a uid, an event under that uid is relayed from a TLS connection only if the
connection's own certificate was enrolled for it. -/
theorem enrolled_uid_spoken_by_enrollees (env : Enrollment.Env) (relayEnv : Transport.Env M)
    (missions : M) {actions : List (Site.Action M)} {site : Site M}
    (hrun : run (Site.step env relayEnv) (Site.start missions) actions = some site)
    {peer : SocketAddr} {conn : Conn} {session : Session} {decoded : Decoded}
    (hrelays : site.Relays relayEnv peer conn session decoded) {cn : String}
    {enrolled : Option (Option String)} (hidentity : session.identity = .tls cn enrolled)
    {uid : String} (hclaims : uid ∈ claimedUids decoded.event) {row : CertRecord}
    (hrow : row ∈ site.enrollment.registry.state.certificates) (huid : row.clientUid = some uid)
    (hopen : site.enrollment.registry.state.isRevoked row.commonName = false) :
    ∃ cert, conn.credentials = .tls cn cert ∧
    EnrolledFor relayEnv.pki site.enrollment.registry.log cert uid := by
  have hinv : site.Inv env relayEnv :=
    run_preserves (Site.Inv env relayEnv) hrun (Site.inv_start missions) fun _ _ _ hs hstep =>
      hs.step hstep
  obtain ⟨hrunning, hrelayed⟩ := hrelays
  have hpass := not_impersonates_of_relayed hidentity hrelayed
  rw [hinv.shared] at hpass
  -- The uid has an owner, so it must be the connection's own.
  have hown : site.enrollment.registry.state.otherOwnerOfEnrolledUid uid enrolled.join = none := by
    by_contra howned
    exact hpass (impersonates_iff.2 ⟨uid, hclaims, Option.ne_none_iff_isSome.1 howned⟩)
  have hmine : enrolled = some (some uid) := by
    rcases otherOwnerOfEnrolledUid_eq_none_iff.1 hown with hmine | hblocked
    · exact Option.join_eq_some_iff.1 hmine
    · have hrevoked := hblocked row hrow huid
      rw [hopen] at hrevoked
      cases hrevoked
  obtain ⟨hconn, hsession, -⟩ := running_eq_some.1 hrunning
  exact hinv.enrolled peer conn hconn session hsession cn uid (hmine ▸ hidentity)

/-! ### Two identities with one uid -/

namespace Shared

/-- A locked-down server whose certificate requests name their identity by their number. -/
def lockedEnv : Enrollment.Env :=
  .signing fun serial _ => .ok (if serial = 0 then ("alpha", "CERT-A") else ("mallory", "CERT-M"))

/-- An invite token is minted and spent on a request with this `clientUid`. -/
def enroll (id : Nat) (token clientUid : String) : List (Site.Action Unit) :=
  .enrollment (.admin (.mintToken token none none none [] 0)) ::
    .enrollment (.receive id
      { ipKey := "ip", token := some token, clientUid := some clientUid, body := utf8 "CSR" }) ::
    List.replicate 9 (.enrollment (.advance id {}))

def actions : List (Site.Action Unit) :=
  .enrollment (.boot "0") :: enroll 0 "T0" "ANDROID-1" ++ enroll 1 "T1" "ANDROID-1" ++
    [.relay (.accept "10.0.0.2:5000" (.tls "mallory" ((Pki.sample.certPemToDer "CERT-M").getD []))
      {}), .relay (.enter "10.0.0.2:5000")]

def site : Site Unit := (run (Site.step lockedEnv sample) (Site.start ()) actions).get (by decide)

def running : Conn × Session := (site.relay.running "10.0.0.2:5000").get (by decide)

theorem running_eq : site.relay.running "10.0.0.2:5000" = some running := (Option.some_get _).symm

def report : Decoded :=
  { event := { uid := "ANDROID-1", cotType := "a-f-G-U-C" }, xml := "<event/>" }

end Shared

open Shared in
/-- `alpha` is on record for the uid, is not blocked and was enrolled for it first, and what
`mallory` says under that uid is relayed. -/
theorem later_enrollee_relayed :
    run (Site.step lockedEnv sample) (Site.start ()) actions = some site ∧
      (∃ row ∈ site.enrollment.registry.state.certificates, row.commonName = "alpha" ∧
        row.clientUid = some "ANDROID-1") ∧
      site.enrollment.registry.state.isRevoked "alpha" = false ∧
      firstEnrolled site.enrollment.registry.log "alpha" "ANDROID-1" = some 0 ∧
      firstEnrolled site.enrollment.registry.log "mallory" "ANDROID-1" = some 1 ∧
      running.2.identity.commonName = some "mallory" ∧ "ANDROID-1" ∈ claimedUids report.event ∧
      site.Relays sample "10.0.0.2:5000" running.1 running.2 report := by
  refine ⟨(Option.some_get
    _).symm, by decide, by decide, by decide, by decide, by decide, by decide, ?_, by decide⟩
  exact running_eq

open Shared in
theorem later_enrollee_is_enrolled :
    ∃ cert, running.1.credentials = .tls "mallory" cert ∧
      EnrolledFor Pki.sample site.enrollment.registry.log cert "ANDROID-1" := by
  have hrun : run (Site.step lockedEnv sample) (Site.start ()) actions = some site :=
    (Option.some_get _).symm
  have hrelays : site.Relays sample "10.0.0.2:5000" running.1 running.2 report :=
    ⟨running_eq, by decide⟩
  have hidentity : running.2.identity = .tls "mallory" (some (some "ANDROID-1")) := by decide
  have hrow : ⟨1, "alpha", "CERT-A", some "ANDROID-1", 0⟩ ∈
      site.enrollment.registry.state.certificates := by decide
  exact enrolled_uid_spoken_by_enrollees lockedEnv sample () hrun hrelays hidentity
    (by decide) hrow rfl (by decide)

end MicroTak.Enrollment
