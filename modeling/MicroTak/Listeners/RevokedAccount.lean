import MicroTak.Listeners.Host

/-!
# Revoking an account

`revoke_user` revokes the account, and then the certificate that its name holds at that moment.  A
certificate that was replaced before stays good, and a request whose password was accepted before
the account was revoked enrolls its certificate afterwards.
-/

namespace MicroTak.Listeners

open Std Registry Users Enrollment Transition Lines Option
open Transport.Revocation (System Call Target)

/-- The password of the account is proved, and the certificate is not enrolled yet. -/
def passedPassword (username : String) : Stage → Bool
  | .readsAccount _ name => name = username
  | .checksGroups signed _ | .checksBlock signed _ | .rotates signed _ =>
    signed.commonName = username
  | _ => false

/-- The registry has the certificate as revoked, if it is a certificate at all. -/
def revokedPem (pki : Pki) (registry : RegistryState) (certPem : String) : Bool :=
  (pki.fingerprintSha256ColonHex certPem).all fun fingerprint =>
    (registry.revokedCerts[fingerprint]?).isSome

namespace Host

variable (pki : Pki) (host : Host)

/-- No request has proved the password of the account without having enrolled its certificate. -/
def noneUnderWay (username : String) : Bool :=
  host.port.server.running.all fun running =>
    running.requests.toList.all fun (_, _, stage) => !passedPassword username stage

/-- Of the certificates enrolled with the password of the account, only the current one is not
revoked. -/
def onlyCurrent (username : String) : Bool :=
  host.onPassword.all fun signed =>
    signed.commonName ≠ username || revokedPem pki host.port.server.registry.state signed.certPem ||
      host.port.server.registry.currentCert username = some signed.certPem

/-- The condition on a step: the account is revoked, and `revoke_user` goes on to the
certificates. -/
def cleared : HostAction → Bool
  | .desk (.advance id _ _) =>
      match host.desk.calls[id]? with
      | some (.revokeDevice username) => host.noneUnderWay username && host.onlyCurrent pki username
      | _ => true
  | _ => true

/-- The account is revoked, nothing is under way for it, and every certificate enrolled with its
password is revoked but the one that is spared, which is the current one. -/
structure Barred (username : String) (spared : Option String) : Prop where
  revoked : host.port.server.users.Revoked username
  quiet : ∀ id request stage, host.At id request stage → passedPassword username stage = false
  current : ∀ certPem ∈ spared, host.port.server.registry.currentCert username = some certPem
  others : ∀ signed ∈ host.onPassword, signed.commonName = username →
    revokedPem pki host.port.server.registry.state signed.certPem = true ∨
      spared = some signed.certPem

end Host

/-! ### What stays revoked -/

variable {pki : Pki} {registry : RegistryState} {certPem : String} {appended : Bool}
  {now : Int} {id : Nat}

theorem revokedPem_eq_true : revokedPem pki registry certPem = true ↔
      ∀ fingerprint, pki.fingerprintSha256ColonHex certPem = some fingerprint →
      (Target.certificate fingerprint).Holds registry := by
  unfold revokedPem
  cases pki.fingerprintSha256ColonHex certPem with
  | none => simp
  | some fingerprint => simp [Target.Holds]

theorem revokedPem_applyEvent {event : RegistryEvent}
    (h : revokedPem pki registry certPem = true) :
    revokedPem pki (applyEvent registry event) certPem = true := by
  rw [revokedPem_eq_true] at h ⊢
  exact fun fingerprint hfingerprint => (h fingerprint hfingerprint).applyEvent (by simp)

theorem revokedPem_of_quietChange {before after : DeviceRegistry}
    (hquiet : QuietChange before after) (h : revokedPem pki before.state certPem = true) :
    revokedPem pki after.state certPem = true := by
  rcases hquiet with rfl | ⟨event, -, hrecord⟩
  · exact h
  · obtain ⟨-, rfl⟩ := DeviceRegistry.record_eq_ok.1 hrecord
    exact revokedPem_applyEvent h

private theorem passedPassword_take {env : Env} {server : Server} {request : SignRequest}
    {input : Input} {stage stage' : Stage} {registry : DeviceRegistry}
    {tokens : EnrollmentTokenStore} {groups : Groups.GroupStore} {username : String}
    (hrevoked : server.users.Revoked username)
    (htake : Take env server id request input stage registry tokens groups stage')
    (hbefore : passedPassword username stage = false) : passedPassword username stage' = false := by
  cases htake with
  | goes hgoes =>
    cases hgoes with
    | noPassword =>
      unfold Server.withoutPassword
      split <;> rfl
    | verified hverified =>
      refine decide_eq_false ?_
      rintro rfl
      rw [hrevoked.authenticate] at hverified
      cases hverified
    | account | groupsThere | notBlocked => exact hbefore
    | _ => rfl
  | _ => rfl

namespace Host

variable {env : Env} {host next : Host} {username : String} {spared : Option String}

private theorem Barred.takes {request : SignRequest} {stage stage' : Stage}
    (h : host.Barred pki username spared) (htakes : Takes env host next id request stage stage') :
    next.Barred pki username spared := by
  obtain ⟨hat, -, hmoved, ⟨input, htake⟩, husers, -, hnext⟩ := htakes
  have hissued : next.onPassword = host.onPassword ++ rotation stage stage' := by rw [hnext]
  have hstage := h.quiet id request stage hat
  have hquiet : ∀ id request stage, next.At id request stage →
      passedPassword username stage = false := by
    intro other request' after hafter
    rcases hmoved other request' after hafter with ⟨-, -, rfl⟩ | hbefore
    · exact passedPassword_take h.revoked htake hstage
    · exact h.quiet other request' after hbefore
  have hsame (hregistry : next.port.server.registry = host.port.server.registry)
      (hnone : rotation stage stage' = []) : next.Barred pki username spared := by
    rw [hnone, List.append_nil] at hissued
    refine ⟨husers ▸ h.revoked, hquiet, hregistry ▸ h.current, ?_⟩
    rw [hissued, hregistry]
    exact h.others
  -- A certificate is enrolled under another name, or under a new one.
  have henrolled {signed : Signed} (hregistry : next.port.server.registry =
      enrolledRegistry host.port.server.registry request signed) (hname :
        signed.commonName = username → host.port.server.registry.state.find username = none)
      (hrotation : ∀ new ∈ rotation stage stage', new.commonName ≠ username) :
        next.Barred pki username spared := by
    refine ⟨husers ▸ h.revoked, hquiet, fun certPem hspared => ?_, fun other hother hcommonName =>
      ?_⟩
    · have hcurrent := h.current certPem hspared
      rw [hregistry, currentCert_enrolledRegistry, if_neg, hcurrent]
      intro hsigned
      rw [DeviceRegistry.currentCert, hname hsigned] at hcurrent
      cases hcurrent
    · rw [hissued] at hother
      rcases List.mem_append.1 hother with hold | hnew
      · rcases h.others other hold hcommonName with hrevoked | hspared
        · rw [hregistry]
          exact .inl (revokedPem_applyEvent hrevoked)
        · exact .inr hspared
      · exact absurd hcommonName (hrotation other hnew)
  generalize hregistry : next.port.server.registry = registry at htake
  generalize next.port.server.tokens = tokens at htake
  generalize next.port.server.groups = groups at htake
  cases htake with
  | goes hgoes =>
    refine hsame hregistry ?_
    cases hgoes with
    | refused => cases stage <;> rfl
    | noPassword =>
      unfold Server.withoutPassword
      split <;> rfl
    | _ => rfl
  | rotated =>
    have hother := of_decide_eq_false hstage
    refine henrolled hregistry (fun hsigned => absurd hsigned hother) fun new hnew => ?_
    rwa [List.mem_singleton.1 hnew]
  | adminEnrolled hnew | enrolledNew hnew =>
    refine henrolled hregistry (fun hsigned => hsigned ▸ hnew) fun new hrotation => ?_
    cases hrotation
  | inviteConsumed | notEnrolled | granted => exact hsame hregistry rfl

variable {action : HostAction}

theorem Barred.effect (h : host.Barred pki username spared)
    (heffect : Effect env pki host next action) : next.Barred pki username spared := by
  cases heffect with
  | port heffect =>
    cases heffect with
    | takes htakes => exact h.takes htakes
    | rests hmoved hregistry husers hnext =>
      have hissued : next.onPassword = host.onPassword := by
        rcases hnext with hnext | ⟨hnext, -⟩ <;> rw [hnext]
      refine ⟨husers.revoked _ h.revoked, fun id request stage hat => ?_, hregistry ▸ h.current, ?_⟩
      · rcases hmoved id request stage hat with rfl | hbefore
        · rfl
        · exact h.quiet id request stage hbefore
      · rw [hissued, hregistry]
        exact h.others
  | desk hdesk heffect =>
    obtain ⟨hquiet, hlater⟩ := heffect.stores
    refine ⟨hlater.revoked _ h.revoked, fun id request stage hat => ?_, fun certPem hspared =>
      ?_, fun signed hsigned hname => ?_⟩
    · obtain ⟨running, hrunning, hfound⟩ := hat
      exact h.quiet id request stage ⟨running, heffect.running ▸ hrunning, hfound⟩
    · rw [hquiet.currentCert]
      exact h.current certPem hspared
    · rw [heffect.onPassword] at hsigned
      exact (h.others signed hsigned hname).imp_left (revokedPem_of_quietChange hquiet)
  | api api hnext =>
    subst hnext
    exact ⟨h.revoked, h.quiet, h.current, h.others⟩

/-! ### The calls -/

/-- How far a call of `revoke_user` has come. -/
def CallOk (pki : Pki) (host : Host) (username : String) : Call → Prop
  | .revokeUser name => name = username
  | .revokeDevice name => name = username ∧ host.port.server.users.Revoked username
  | .revokeCurrentCert name => name = username ∧ ∃ certPem, host.Barred pki username (some certPem)
  | .revokeCert fingerprint =>
      ∃ certPem, host.Barred pki username (some certPem) ∧ pki.fingerprintSha256ColonHex certPem =
        some fingerprint
  | .signalling _ | .signalled _ | .returned => host.Barred pki username none
  | .failed => True
  | .revoke _ | .unblock _ => False

theorem CallOk.mono {call : Call} (h : CallOk pki host username call)
    (hbarred : ∀ spared, host.Barred pki username spared → next.Barred pki username spared)
    (hrevoked : host.port.server.users.Revoked username → next.port.server.users.Revoked username) :
    CallOk pki next username call := by
  cases call with
  | revokeUser name => exact h
  | revokeDevice name => exact ⟨h.1, hrevoked h.2⟩
  | revokeCurrentCert name =>
    obtain ⟨hname, certPem, hspared⟩ := h
    exact ⟨hname, certPem, hbarred _ hspared⟩
  | revokeCert fingerprint =>
    obtain ⟨certPem, hspared, hfingerprint⟩ := h
    exact ⟨certPem, hbarred _ hspared, hfingerprint⟩
  | signalling target | signalled target | returned => exact hbarred _ h
  | failed => trivial
  | revoke name | unblock name => exact h.elim

theorem Effect.revoked (h : Effect env pki host next action)
    (hrevoked : host.port.server.users.Revoked username) :
    next.port.server.users.Revoked username := by
  cases h with
  | port heffect =>
    cases heffect with
    | takes htakes => exact htakes.users ▸ hrevoked
    | rests hmoved hregistry husers hnext => exact husers.revoked _ hrevoked
  | desk hdesk heffect => exact heffect.stores.2.revoked _ hrevoked
  | api api hnext =>
    subst hnext
    exact hrevoked

/-- Where `revoke_user` turns to the certificates, the condition bars the account. -/
theorem barred_of_cleared (hcleared : host.cleared pki (.desk (.advance id appended now)) = true)
    (hcall : host.desk.calls[id]? = some (.revokeDevice username))
    (hrevoked : host.port.server.users.Revoked username) :
    host.Barred pki username (host.port.server.registry.currentCert username) := by
  simp only [cleared, hcall, Bool.and_eq_true] at hcleared
  obtain ⟨hnone, honly⟩ := hcleared
  refine ⟨hrevoked, fun id request stage hat => ?_, fun certPem h => h, fun signed hsigned hname =>
    ?_⟩
  · obtain ⟨running, hrunning, hfound⟩ := hat
    rw [noneUnderWay, hrunning, all_some, List.all_eq_true] at hnone
    have hstage := hnone (id, request, stage) (TreeMap.mem_toList_iff_getElem?_eq_some.2 hfound)
    simpa using hstage
  · have hsafe := List.all_eq_true.1 honly signed hsigned
    simpa [hname] using hsafe

theorem callOk_advance (username : String) {call : Call}
    (hcleared : host.cleared pki (.desk (.advance id appended now)) = true)
    (hcall : host.desk.calls[id]? = some call)
    (heffect : Effect env pki host next (.desk (.advance id appended now)))
    (hstep : System.CallStep pki host.office id appended now call next.office) :
    ∃ call', next.desk.calls = host.desk.calls.insert id call' ∧
      (CallOk pki host username call → CallOk pki next username call') := by
  have hbarred : ∀ spared, host.Barred pki username spared → next.Barred pki username spared :=
    fun _ h => h.effect heffect
  generalize hnext : next.office = office at hstep
  cases hstep with
  | revoked | unblocked => exact ⟨_, congrArg System.calls hnext, False.elim⟩
  | failed => exact ⟨_, congrArg System.calls hnext, fun _ => trivial⟩
  | @accountRevoked name users hok =>
    refine ⟨_, congrArg System.calls hnext, ?_⟩
    rintro rfl
    refine ⟨rfl, ?_⟩
    have hsame : next.port.server.users = users := congrArg System.users hnext
    exact hsame ▸ (UserStore.revoked_of_revoke hok).1
  | @deviceFound name hfound =>
    refine ⟨_, congrArg System.calls hnext, ?_⟩
    rintro ⟨rfl, hrevoked⟩
    obtain ⟨device, hdevice⟩ := isSome_iff_exists.1 hfound
    have hcurrent : host.port.server.registry.currentCert name = some device.certPem :=
      congrArg (Option.map DeviceRecord.certPem) hdevice
    exact ⟨rfl, device.certPem, hbarred _ (hcurrent ▸ barred_of_cleared hcleared hcall hrevoked)⟩
  | @noDevice name hnone =>
    refine ⟨_, congrArg System.calls hnext, ?_⟩
    rintro ⟨rfl, hrevoked⟩
    have hcurrent : host.port.server.registry.currentCert name = none :=
      congrArg (Option.map DeviceRecord.certPem) hnone
    exact hbarred none (hcurrent ▸ barred_of_cleared hcleared hcall hrevoked)
  | @certFound name fingerprint hfingerprint =>
    refine ⟨_, congrArg System.calls hnext, ?_⟩
    rintro ⟨rfl, certPem, hspared⟩
    obtain ⟨device, hdevice, hprint⟩ := bind_eq_some_iff.1 hfingerprint
    have hcurrent := hspared.current certPem rfl
    have hdevice : host.port.server.registry.state.find name = some device := hdevice
    rw [DeviceRegistry.currentCert, hdevice] at hcurrent
    cases hcurrent
    exact ⟨device.certPem, hbarred _ hspared, hprint⟩
  | @certRevoked fingerprint registry hok =>
    refine ⟨_, congrArg System.calls hnext, ?_⟩
    rintro ⟨certPem, hspared, hprint⟩
    obtain ⟨hrevoked, hquiet, -, hothers⟩ := hbarred _ hspared
    have hsame : next.port.server.registry = registry := congrArg System.registry hnext
    refine ⟨hrevoked, hquiet, fun certPem h => absurd h (not_mem_none certPem),
      fun signed hsigned hname => .inl ?_⟩
    rcases hothers signed hsigned hname with hdone | hself
    · exact hdone
    · cases hself
      rw [hsame, revokedPem_eq_true]
      intro other hother
      cases hprint.symm.trans hother
      obtain ⟨der, -, rfl⟩ := map_eq_some_iff.1 hprint
      have hholds := Target.holds_of_revokeCert hok
      rwa [Pki.fingerprintSha256ColonHexDer, normalizeFingerprint_colonHex] at hholds
  | signals | returns => exact ⟨_, congrArg System.calls hnext, hbarred none⟩

/-! ### Runs -/

structure AccountInv (pki : Pki) (host : Host) : Prop where
  sound : host.Sound
  calls : ∀ (id : Nat) username call, host.asked[id]? = some (.revokeUser username) →
    host.desk.calls[id]? = some call → CallOk pki host username call
  closed : ∀ username ∈ host.closed, host.Barred pki username none

theorem accountInv_start : AccountInv pki {} where
  sound := sound_start
  calls id username call hasked := by simp at hasked
  closed username h := absurd h List.not_mem_nil

section

variable (h : AccountInv pki host)

include h

theorem AccountInv.frame (hstep : host.step env pki action = some next)
    (hcalls : next.asked = host.asked ∧ next.desk.calls = host.desk.calls ∨ next.asked = ∅)
    (hclosed : next.closed = host.closed) : AccountInv pki next := by
  have heffect := h.sound.effect hstep
  refine ⟨h.sound.step hstep, fun id username call hasked hcall => ?_, fun username hmem => ?_⟩
  · rcases hcalls with ⟨hsame, hsameCalls⟩ | hnone
    · rw [hsame] at hasked
      rw [hsameCalls] at hcall
      exact (h.calls id username call hasked hcall).mono (fun _ hbarred =>
        hbarred.effect heffect) heffect.revoked
    · simp [hnone] at hasked
  · rw [hclosed] at hmem
    exact (h.closed username hmem).effect heffect

theorem AccountInv.call {request : Transport.Revocation.Request}
    (hstep : host.step env pki (.desk (.call id request)) = some next)
    (hdesk : host.stepDesk pki (.call id request) = some next) : AccountInv pki next := by
  have heffect := h.sound.effect hstep
  have hkept := fun name call (hok : CallOk pki host name call) =>
    hok.mono (fun _ hbarred => hbarred.effect heffect) heffect.revoked
  have hsound := h.sound.step hstep
  have hclosed := fun name hname => (h.closed name hname).effect heffect
  obtain ⟨desk, hoffice, rfl⟩ := map_eq_some_iff.1 hdesk
  cases System.step_cases hoffice
  refine ⟨hsound, fun other username call hasked hcall => ?_, hclosed⟩
  rcases Dict.of_insert hasked with ⟨rfl, rfl⟩ | ⟨hid, hasked⟩
  · cases (Dict.getElem?_insert_self ..).symm.trans hcall
    exact rfl
  · exact hkept _ _
      (h.calls other username call hasked ((Dict.getElem?_insert_of_ne hid).symm.trans hcall))

private theorem AccountInv.advance
    (hcleared : host.cleared pki (.desk (.advance id appended now)) = true)
    (hstep : host.step env pki (.desk (.advance id appended now)) = some next)
    (hdesk : host.stepDesk pki (.advance id appended now) = some next) : AccountInv pki next := by
  have heffect := h.sound.effect hstep
  have hasked : next.asked = host.asked := by
    obtain ⟨desk, -, rfl⟩ := map_eq_some_iff.1 hdesk
    rfl
  have hclosed : next.closed = host.closed ++ host.returned id next.desk := by
    obtain ⟨desk, -, rfl⟩ := map_eq_some_iff.1 hdesk
    rfl
  obtain ⟨call, hcall, hoffice⟩ := System.callStep_of_step (effect_of_stepDesk hdesk).office
  have hcalls : ∀ (other : Nat) username current, next.asked[other]? = some (.revokeUser username) →
      next.desk.calls[other]? = some current → CallOk pki next username current := by
    intro other username current hother hcurrent
    obtain ⟨call', hinsert, hok⟩ := callOk_advance username hcleared hcall heffect hoffice
    rw [hasked] at hother
    rw [hinsert] at hcurrent
    rcases Dict.of_insert hcurrent with ⟨rfl, rfl⟩ | ⟨-, hcurrent⟩
    · exact hok (h.calls id username call hother hcall)
    · exact (h.calls other username current hother hcurrent).mono (fun _ hbarred =>
        hbarred.effect heffect) heffect.revoked
  refine ⟨h.sound.step hstep, hcalls, fun username hmem => ?_⟩
  rw [hclosed] at hmem
  rcases List.mem_append.1 hmem with hold | hnew
  · exact (h.closed username hold).effect heffect
  · unfold returned at hnew
    split at hnew
    · next name hname hreturned =>
      obtain rfl := List.mem_singleton.1 hnew
      exact hcalls id username .returned (hasked ▸ hname) hreturned
    · cases hnew

private theorem AccountInv.step (hcleared : host.cleared pki action = true)
    (hstep : host.step env pki action = some next) : AccountInv pki next := by
  cases h.sound.effect hstep with
  | port heffect =>
    cases heffect with
    | takes htakes =>
      have hnext := htakes.next_eq
      exact h.frame hstep (.inl ⟨by rw [hnext], by rw [hnext]⟩) (by rw [hnext])
    | rests hmoved hregistry husers hnext =>
      rcases hnext with hnext | ⟨hnext, -⟩
      · exact h.frame hstep (.inl ⟨by rw [hnext], by rw [hnext]⟩) (by rw [hnext])
      · exact h.frame hstep (.inr (by rw [hnext])) (by rw [hnext])
  | @desk action hdesk heffect =>
    cases action with
    | call id request => exact h.call hstep hdesk
    | advance id appended now => exact h.advance hcleared hstep hdesk
    | enroll => cases hdesk
    | connect | move | deleteCert =>
      obtain ⟨desk, hoffice, rfl⟩ := map_eq_some_iff.1 hdesk
      cases System.step_cases hoffice <;> exact h.frame hstep (.inl ⟨rfl, rfl⟩) rfl
  | api api hnext =>
    subst hnext
    exact h.frame hstep (.inl ⟨rfl, rfl⟩) rfl

end

/-- In every run in which each `revoke_user`, when it comes to the certificates, finds no enrollment
of its account under way and no certificate of it but the current one unrevoked: once it has
returned, no certificate ever enrolled with the password of the account is let in by the
registry. -/
theorem revoked_account_has_no_access (env : Env) (pki : Pki) {actions : List HostAction}
    {host : Host} (hrun : run (step env pki) {} actions = some host)
    (hcleared : Along (step env pki) (fun host action => host.cleared pki action = true) {} actions)
    : ∀ username ∈ host.closed, ∀ signed ∈ host.onPassword, signed.commonName = username →
      ∀ der, pki.certPemToDer signed.certPem = some der →
        host.port.server.registry.state.access pki username der ≠ .allowed := by
  have hinv : AccountInv pki host :=
    run_invariant (AccountInv pki) hrun hcleared accountInv_start fun _ _ _ h hcleared hstep =>
      h.step hcleared hstep
  intro username hclosed signed hsigned hname der hder
  rcases (hinv.closed username hclosed).others signed hsigned hname with hrevoked | hspared
  · intro hallowed
    have hnone := (RegistryState.access_eq_allowed_iff.1 hallowed).2
    have hfingerprint : pki.fingerprintSha256ColonHex signed.certPem =
        some (pki.fingerprintSha256ColonHexDer der) := by
      rw [Pki.fingerprintSha256ColonHex, hder]
      rfl
    have hholds := revokedPem_eq_true.1 hrevoked _ hfingerprint
    rw [Target.Holds, hnone] at hholds
    cases hholds
  · cases hspared

end Host

/-- A call of `revoke_user`; it returns after two steps if there is no device, and else after
six. -/
def revokeUser (steps : Nat) : List HostAction :=
  .desk (.call 0 (.revokeUser "jz")) :: List.replicate steps (.desk (.advance 0 true 0))

open Sample in
/-- `revoke_user` has returned, and the registry lets in a certificate that was replaced before the
call, or one that was enrolled after it on a password accepted before it. -/
theorem revoked_account_keeps_access :
    (∃ host, run (Host.step env .sample) {} (minted ++ enroll 0 9 ++ enroll 1 9 ++ revokeUser 6) =
      some host ∧ "jz" ∈ host.closed ∧ { commonName := "jz", certPem := "A-CERT", now := 0 } ∈
      host.onPassword ∧ ∃ der, Pki.sample.certPemToDer "A-CERT" = some der ∧
        host.port.server.registry.state.access .sample "jz" der = .allowed) ∧
    (∃ host, run (Host.step env .sample) {}
        (minted ++ enroll 0 5 ++ revokeUser 2 ++
          List.replicate 4 (.port (.enroll (.advance 0 {})))) = some host ∧
      "jz" ∈ host.closed ∧ { commonName := "jz", certPem := "A-CERT", now := 0 } ∈ host.onPassword ∧
      ∃ der, Pki.sample.certPemToDer "A-CERT" = some der ∧
        host.port.server.registry.state.access .sample "jz" der = .allowed) := by
  decide +kernel

open Sample in
theorem revoked_account_locked_out :
    ∃ host, run (Host.step env .sample) {} (minted ++ enroll 0 9 ++ revokeUser 6) = some host ∧
    "jz" ∈ host.closed ∧
      ∃ der, Pki.sample.certPemToDer "A-CERT" = some der ∧
        host.port.server.registry.state.access .sample "jz" der ≠ .allowed := by
  refine exists_end_and (fun host => { commonName := "jz", certPem := "A-CERT", now := 0 } ∈
    host.onPassword) (by decide +kernel) fun host hrun hclosed hissued => ?_
  have hder : ∃ der, Pki.sample.certPemToDer "A-CERT" = some der := ⟨_, rfl⟩
  obtain ⟨der, hder⟩ := hder
  exact ⟨der, hder,
    Host.revoked_account_has_no_access env .sample hrun (by decide +kernel) "jz" hclosed _ hissued
      rfl der hder⟩

end MicroTak.Listeners
