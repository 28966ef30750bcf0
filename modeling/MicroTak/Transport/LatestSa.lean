import MicroTak.Transport.Delivery

/-!
# The latest reports a newcomer is shown

A connection that enters its loop is written the latest position report of every client whose
current IN groups meet its OUT groups.  The record of a report is its text alone, so the groups the
report was published into and the uids it was for play no part.  Two conditions make up for that: no
report on record had recipients, and nobody has gained a group to send into since its report was
published.
-/

namespace MicroTak.Transport

open Std Registry Groups Cot Transition ConnectedClients

/-- The relay would deliver the replayed message to the newcomer: the groups it was published into
meet the newcomer's OUT groups, and it was for everyone or for the newcomer's uid. -/
def Replay.Allowed {M : Type} (server : Server M) (replay : Replay) : Prop :=
  ∃ msg, server.sent[replay.index]? = some msg ∧ msg.sender = replay.source ∧ msg.xml = replay.xml ∧
    (msg.groups ∩ replay.out).Nonempty ∧ ∀ uids ∈ msg.destUids, ∃ uid ∈ replay.uid, uid ∈ uids

theorem Replay.Allowed.mono {M : Type} {server next : Server M} {replay : Replay}
    (h : replay.Allowed server) (hsent : server.sent <+: next.sent) : replay.Allowed next := by
  obtain ⟨msg, hmsg, hrest⟩ := h
  exact ⟨msg, Server.getElem?_of_mono hsent hmsg, hrest⟩

namespace Server

variable {M : Type} {env : Env M} {server next : Server M} {peer : SocketAddr}

/-- A relayed event that is kept as the latest report has no recipients. -/
abbrev KeptForAll (server : Server M) (env : Env M) (session : Session)
    (decoded : Decoded) : Prop :=
  (session.onEvent env.wire server.registry decoded).2 = .relayed →
    (session.onEvent env.wire server.registry decoded).1.keepsSa decoded.event = true →
      session.resolved decoded.event (server.routedUids env session decoded) = []

/-- No sender of a report on record has an active IN group that the report was not published
into. -/
abbrev NoneWidened (server : Server M) (peer : SocketAddr) : Prop :=
  ∀ entry ∈ server.clients.latestSasExcept peer, ∀ index ∈ server.saIndex[entry.1.remoteAddr]?,
    ∀ msg ∈ server.sent[index]?, server.groups.state.activeGroups entry.1.commonName .incoming ⊆
      msg.groups

/-- The condition on a step, at the events that may be kept and at the connections that enter their
loop. -/
def ReplaySafe (env : Env M) (server : Server M) : Action M → Prop
  | .item peer decoded => ∀ found ∈ server.running peer, server.KeptForAll env found.2 decoded
  | .enter peer => server.NoneWidened peer
  | _ => True

instance (env : Env M) (server : Server M) : ∀ action, Decidable (ReplaySafe env server action)
  | .item peer decoded =>
      inferInstanceAs
        (Decidable (∀ found ∈ server.running peer, server.KeptForAll env found.2 decoded))
  | .enter peer => inferInstanceAs (Decidable (server.NoneWidened peer))
  | .accept _ _ _ | .deliver _ | .leave _ | .changeGroups _ | .changeRegistry _ | .changeMissions _
  | .serverSend _ => isTrue trivial

/-! ### The report on record and its message -/

/-- Every report on record is the text of a message of that connection, sent without recipients. -/
structure SaInv (server : Server M) : Prop where
  filed : ∀ (addr : SocketAddr) (endpoint : ClientEndpoint), server.clients.clients[addr]? =
    some endpoint → endpoint.remoteAddr = addr
  published : ∀ (addr : SocketAddr) (xml : String), server.clients.latestSa[addr]? = some xml →
    ∃ (index : Nat) (msg : Outbound),
      server.saIndex[addr]? = some index ∧ server.sent[index]? = some msg ∧ msg.sender = addr ∧
        msg.xml = xml ∧ msg.destUids = none
  allowed : ∀ replay ∈ server.replayed, replay.Allowed server

theorem saInv_start (groups : GroupStore) (registry : RegistryState) (missions : M) :
    SaInv (start groups registry missions) where
  filed addr endpoint h := by simp [start] at h
  published addr xml h := by simp [start] at h
  allowed replay h := by simp [start] at h

theorem SaInv.frame (h : SaInv server) (hsent : server.sent <+: next.sent)
    (hclients : next.clients = server.clients) (hindex : next.saIndex = server.saIndex)
    (hreplayed : next.replayed = server.replayed) : SaInv next where
  filed := by rw [hclients]; exact h.filed
  published addr xml hxml := by
    rw [hclients] at hxml
    obtain ⟨index, msg, hi, hmsg, hrest⟩ := h.published addr xml hxml
    exact ⟨index, msg, by rw [hindex]; exact hi, getElem?_of_mono hsent hmsg, hrest⟩
  allowed replay hreplay := by
    rw [hreplayed] at hreplay
    exact (h.allowed replay hreplay).mono hsent

end Server

variable {endpoint : ClientEndpoint}

namespace ConnectedClients

variable {connected : ConnectedClients} {addr other : SocketAddr}

@[simp] theorem setUid_latestSa (uid : String) :
    (connected.setUid addr uid).latestSa = connected.latestSa := by
  unfold setUid
  split <;> rfl

theorem setUid_clients {uid : String}
    (h : (connected.setUid addr uid).clients[other]? = some endpoint) :
    ∃ before, connected.clients[other]? = some before ∧
    endpoint.remoteAddr = before.remoteAddr := by
  unfold setUid at h
  split at h
  · rename_i held hheld
    rcases Dict.of_insert h with ⟨rfl, rfl⟩ | ⟨-, hold⟩
    · exact ⟨held, hheld, rfl⟩
    · exact ⟨endpoint, hold, rfl⟩
  · exact ⟨endpoint, h, rfl⟩

theorem setLatestSa_latestSa (xml : String) :
    (connected.setLatestSa addr xml).latestSa[other]? =
      if addr = other ∧ (connected.clients[addr]?).isSome then some xml
      else connected.latestSa[other]? := by
  unfold setLatestSa
  cases connected.clients[addr]? <;> simp

end ConnectedClients

namespace Session

variable {sender : Session} {event : Event} {routed : List String}

theorem recipients_eq_none : sender.recipients event routed = none ↔
    sender.resolved event routed = [] := by
  rcases sender.recipients_spec event routed with ⟨hnone, hnil⟩ | ⟨uids, hsome, hne, -⟩
  · exact ⟨fun _ => hnil, fun _ => hnone⟩
  · simp [hsome, hne]

end Session

namespace Server

variable {M : Type} {env : Env M} {server next : Server M} {peer : SocketAddr}

theorem bindClient_latestSa (clients : ConnectedClients) (before after : Session) :
    (bindClient clients before after).latestSa = clients.latestSa := by
  unfold bindClient
  split
  · rfl
  · split
    · simp
    · rfl

variable {addr : SocketAddr} {decoded : Decoded}

theorem filed_bindClient {clients : ConnectedClients} {before after : Session} (h : clients.Filed) :
    (bindClient clients before after).Filed := by
  unfold bindClient
  split
  · exact h
  · split
    · intro addr endpoint hendpoint
      obtain ⟨held, hheld, haddr⟩ := setUid_clients hendpoint
      exact haddr.trans (h addr held hheld)
    · exact h

theorem publish_clients (sender : Session) (decoded : Decoded) :
    (server.publish env sender decoded).clients.clients = server.clients.clients := by
  simp only [publish]
  split
  · exact setLatestSa_clients _
  · rfl

theorem publish_latestSa {sender : Session} {xml : String}
    (h : (server.publish env sender decoded).clients.latestSa[addr]? = some xml) :
    (sender.keepsSa decoded.event = true ∧ addr = sender.peer ∧ ∃ index,
      (server.publish env sender decoded).saIndex[addr]? = some index ∧
      (server.publish env sender decoded).sent[index]? =
        some (sender.outbound env.wire server.groups.state
          (server.routed env sender decoded.event).1 decoded) ∧
      xml = sender.relayedXml env.wire decoded) ∨
    server.clients.latestSa[addr]? = some xml ∧
      (server.publish env sender decoded).saIndex[addr]? = server.saIndex[addr]? := by
  cases hkept : sender.keepsSa decoded.event with
  | false => exact .inr ⟨by simpa [publish, hkept] using h, by simp [publish, hkept]⟩
  | true =>
    by_cases hpeer : sender.peer = addr ∧ (server.clients.clients[sender.peer]?).isSome
    · obtain ⟨rfl, hsome⟩ := hpeer
      refine .inl ⟨rfl, rfl,
        server.sent.length + (server.routed env sender decoded.event).2.2.length, ?_, ?_, ?_⟩
      · simp [publish, hkept, hsome]
      · rw [publish_sent]
        simp
      · simp only [publish, hkept, if_true, setLatestSa_latestSa, hsome, and_self,
          Option.some.injEq] at h
        exact h.symm
    · refine .inr ⟨?_, ?_⟩
      · simpa only [publish, hkept, if_true, setLatestSa_latestSa, if_neg hpeer] using h
      · simp only [publish, hkept]
        split
        · rename_i hsome
          rw [Dict.getElem?_insert_of_ne fun haddr => hpeer ⟨haddr, hsome⟩]
        · rfl

section

variable (h : SaInv server) {session : Session} {conn : Conn}

include h

theorem SaInv.enter (hsafe : ReplaySafe env server (.enter peer))
    (hopen : server.openSession env peer conn = some session) :
    SaInv { server.registered peer conn session with
      replayed := server.replayed ++ (server.registered peer conn session).replaysTo session } := by
  have hpeer := congrArg Session.peer (openSession_eq hopen)
  have hother : ∀ addr, addr ≠ peer →
      (server.registered peer conn session).clients.clients[addr]? =
        server.clients.clients[addr]? := by
    intro addr haddr
    simp [registered, register, Ne.symm haddr]
  refine ⟨fun addr endpoint hendpoint => ?_, h.published, fun replay hreplay => ?_⟩
  · by_cases haddr : addr = peer
    · subst haddr
      simp only [registered, register, Dict.getElem?_insert_self, Option.some.injEq] at hendpoint
      rw [← hendpoint]
    · exact h.filed addr endpoint (hother addr haddr ▸ hendpoint)
  · rcases List.mem_append.1 hreplay with hold | hnew
    · exact h.allowed replay hold
    · unfold replaysTo at hnew
      split at hnew
      · obtain ⟨⟨endpoint, xml⟩, hentry, hmeets⟩ := List.mem_filterMap.1 hnew
        simp only [Option.ite_none_right_eq_some, Option.some.injEq] at hmeets
        obtain ⟨⟨group, hgroup⟩, rfl⟩ := hmeets
        obtain ⟨addr, haddr, hxml, hendpoint⟩ := mem_latestSasExcept.1 hentry
        rw [hpeer] at haddr
        rw [hother addr haddr] at hendpoint
        have hfiled := h.filed addr endpoint hendpoint
        obtain ⟨index, msg, hi, hmsg, hsender, htext, hdest⟩ := h.published addr xml hxml
        have hentry' : (endpoint, xml) ∈ server.clients.latestSasExcept peer :=
          mem_latestSasExcept.2 ⟨addr, haddr, hxml, hendpoint⟩
        have hsubset := hsafe (endpoint, xml) hentry' index (by rw [hfiled]; exact hi) msg hmsg
        rw [Finset.mem_inter] at hgroup
        refine ⟨msg, ?_, ?_, htext, ⟨group, ?_⟩, ?_⟩
        · rw [hfiled]
          exact (congrArg (fun i => server.sent[i.getD 0]?) hi).trans hmsg
        · rw [hsender, hfiled]
        · exact Finset.mem_inter.2 ⟨hsubset hgroup.1, hgroup.2⟩
        · simp [hdest]
      · cases hnew

theorem SaInv.moved :
    SaInv (server.moved peer conn session (session.onEvent env.wire server.registry decoded).1)
    where
  filed := filed_bindClient h.filed
  published addr xml hxml := by
    rw [Server.moved, bindClient_latestSa] at hxml
    exact h.published addr xml hxml
  allowed := h.allowed

theorem SaInv.publish {sender : Session}
    (hsent : server.sent <+: (server.publish env sender decoded).sent)
    (hforAll : sender.keepsSa decoded.event = true →
      sender.resolved decoded.event (server.routed env sender decoded.event).1 = []) :
    SaInv (server.publish env sender decoded) := by
  refine ⟨fun addr endpoint hendpoint => h.filed addr endpoint ?_, fun addr xml hxml => ?_,
    fun replay hreplay => (h.allowed replay hreplay).mono hsent⟩
  · rwa [publish_clients] at hendpoint
  · rcases publish_latestSa hxml with ⟨hkept, rfl, index, hi, hmsg, rfl⟩ | ⟨hxml, hindex⟩
    · exact ⟨index, _, hi, hmsg, rfl, rfl, Session.recipients_eq_none.2 (hforAll hkept)⟩
    · obtain ⟨index, msg, hi, hmsg, hrest⟩ := h.published addr xml hxml
      exact ⟨index, msg, hindex.trans hi, getElem?_of_mono hsent hmsg, hrest⟩

private theorem SaInv.leave {missions : M} :
    SaInv { server with
      conns := server.conns.erase peer
      clients := server.clients.unregister peer
      saIndex := server.saIndex.erase peer
      missions } := by
  refine ⟨fun addr endpoint hendpoint => h.filed addr endpoint (Dict.of_erase hendpoint).2,
    fun addr xml hxml => ?_, h.allowed⟩
  obtain ⟨hother, hxml⟩ := Dict.of_erase hxml
  obtain ⟨index, msg, hi, hrest⟩ := h.published addr xml hxml
  exact ⟨index, msg, by simpa [hother] using hi, hrest⟩

private theorem SaInv.step {action : Action M} (hsafe : ReplaySafe env server action)
    (hstep : server.step env action = some next) : SaInv next := by
  have hsent := sent_mono hstep
  cases took_of_step hstep with
  | entered hconn hnone hopen => exact h.enter hsafe hopen
  | noted => exact h.moved
  | relayed hrunning hrelayed =>
    refine h.moved.publish hsent fun hkept => ?_
    have hforAll := hsafe _ hrunning hrelayed hkept
    rw [Session.resolved, Session.onEvent_identity]
    exact hforAll
  | @left peer conn =>
    cases conn.session.isSome with
    | false => exact h.frame hsent rfl rfl rfl
    | true => exact h.leave
  | _ => exact h.frame hsent rfl rfl rfl

end

/-- In a run whose steps all meet the condition, every report written to a connection as it entered
its loop is one the relay would deliver to it. -/
theorem replayed_allowed (env : Env M) (groups : GroupStore) (registry : RegistryState)
    (missions : M) {actions : List (Action M)}
    (hrun : run (step env) (start groups registry missions) actions = some server)
    (hsafe : Along (step env) (ReplaySafe env) (start groups registry missions) actions) :
    ∀ replay ∈ server.replayed, replay.Allowed server := by
  have hinv : SaInv server := run_invariant SaInv hrun hsafe (saInv_start ..) fun _ _ _ hs =>
    hs.step
  exact hinv.allowed

end Server

/-! ### Three runs -/

namespace Newcomer

open Server

/-- A plain connection reports its position, then another one, which is shown the latest reports,
connects. -/
def actions (listener : Listener) (report : Decoded) : List (Action Unit) :=
  [.accept "a" .tcp listener, .enter "a", .item "a" report, .accept "b" .tcp { latestSa := true },
    .enter "b"]

def secretFeed : Listener :=
  { feed := some { uuid := "f0", name := "sensor", tags := [], groups := {"Secret"} } }

def directedReport : Decoded :=
  { event :=
      { uid := "A", cotType := "a-f-G-U-C"
        detail := some
          { contact := some { callsign := some "A", endpoint := some "*:-1:stcp" }
            marti := some { dest := [{ uid := some "BRAVO" }] } } }
    xml := "<event/>" }

def viaFeed : Server Unit :=
  (run (step Env.sample) (start {} {} ()) (actions secretFeed (Spoof.report "A"))).get (by decide)

def directed : Server Unit :=
  (run (step Env.sample) (start {} {} ()) (actions {} directedReport)).get (by decide)

def ordinary : Server Unit :=
  (run (step Env.sample) (start {} {} ()) (actions {} (Spoof.report "A"))).get (by decide)

def shown : Replay :=
  { receiver := "b", source := "a", xml := "<event/>", index := 0, out := {anonGroup}, uid := none }

end Newcomer

open Newcomer Server in
/-- A newcomer outside the groups of a feed is shown the latest report that came in through it, and
a newcomer a report was not directed to is shown that report. -/
theorem newcomer_shown_undeliverable :
    (run (step Env.sample) (start {} {} ()) (actions secretFeed (Spoof.report "A")) = some viaFeed ∧
      shown ∈ viaFeed.replayed ∧ ¬ shown.Allowed viaFeed) ∧
    run (step Env.sample) (start {} {} ()) (actions {} directedReport) = some directed ∧
      shown ∈ directed.replayed ∧ ¬ shown.Allowed directed := by
  refine ⟨⟨(Option.some_get _).symm, by decide, ?_⟩, (Option.some_get _).symm, by decide, ?_⟩
  · rintro ⟨msg, hmsg, -, -, hgroups, -⟩
    have hsent : viaFeed.sent[shown.index]? = some
        ((Session.openTcp secretFeed "a").outbound Wire.plain freshState []
          (Spoof.report "A")) := by decide
    cases hmsg
    exact absurd hgroups (by decide)
  · rintro ⟨msg, hmsg, -, -, -, haudience⟩
    have hsent : directed.sent[shown.index]? = some
        ((Session.openTcp {} "a").outbound Wire.plain freshState [] directedReport) := by decide
    cases hmsg
    obtain ⟨uid, huid, -⟩ := haudience ["BRAVO"] (by decide)
    cases huid

open Newcomer Server in
theorem newcomer_shown_ordinary_report : shown ∈ ordinary.replayed ∧ shown.Allowed ordinary := by
  have hrun : run (step Env.sample) (start {} {} ()) (actions {} (Spoof.report "A")) =
      some ordinary :=
    (Option.some_get _).symm
  have hshown : shown ∈ ordinary.replayed := by decide
  exact ⟨hshown, replayed_allowed Env.sample {} {} () hrun (by decide) shown hshown⟩

end MicroTak.Transport
