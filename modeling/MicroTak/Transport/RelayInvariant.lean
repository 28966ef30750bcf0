import MicroTak.Transport.ClientUid
import MicroTak.Transport.Relay

/-!
# What every step of the relay keeps

The facts about a connection that delivery rests on: it is filed under its own address, its read
position is within what was sent, the groups it has cached are current as long as the version has
not moved, and nothing it will still read is recorded as delivered.  Each step is inverted once; the
invariant and the later results are read off the inversions.
-/

namespace MicroTak.Transport

open Std Registry Groups Cot

namespace Server

variable {M : Type} {env : Env M} {server next : Server M} {peer : SocketAddr}

/-! ### What a step does -/

variable {conn : Conn} {session : Session} {action : Action M}

theorem running_eq_some : server.running peer = some (conn, session) ↔
      server.conns[peer]? = some conn ∧ conn.session = some session ∧ session.closed = false := by
  constructor
  · intro h
    unfold running at h
    split at h
    · cases h
    · rename_i found hfound
      split at h
      · cases h
      · rename_i held hheld
        split at h
        · cases h
        · rename_i hopen
          obtain ⟨rfl, rfl⟩ := Prod.mk.inj (Option.some.inj h)
          exact ⟨hfound, hheld, by simpa using hopen⟩
  · rintro ⟨hconn, hsession, hclosed⟩
    simp [running, hconn, hsession, hclosed]

def registered (server : Server M) (peer : SocketAddr) (conn : Conn)
    (session : Session) : Server M :=
  { server with
    clients := server.clients.register
      { remoteAddr := peer, identity := session.identity, uid := none }
    conns := server.conns.insert peer { conn with session := some session } }

def moved (server : Server M) (peer : SocketAddr) (conn : Conn) (session after : Session) :
    Server M :=
  { server with
    conns := server.conns.insert peer { conn with session := some after }
    clients := bindClient server.clients session after }

/-- What a step does: of an event, the session moves on, and the event is published if it is
relayed. -/
inductive Took (env : Env M) (server : Server M) : Action M → Server M → Prop where
  | accepted {peer : SocketAddr} {credentials : Credentials} {listener : Listener}
    (hfree : server.conns[peer]? = none) :
      Took env server (.accept peer credentials listener)
        { server with
          conns := server.conns.insert peer { credentials, listener, pos := server.sent.length } }
  | entered {peer : SocketAddr} {conn : Conn} {session : Session}
    (hconn : server.conns[peer]? = some conn)
      (hnone : conn.session = none) (hopen : server.openSession env peer conn = some session) :
      Took env server (.enter peer) { server.registered peer conn session with
        replayed := server.replayed ++ (server.registered peer conn session).replaysTo session }
  | noted {peer : SocketAddr} {conn : Conn} {session : Session} {decoded : Decoded}
      (hrunning : server.running peer = some (conn, session))
      (hother : (session.onEvent env.wire server.registry decoded).2 ≠ .relayed) :
      Took env server (.item peer decoded)
        (server.moved peer conn session (session.onEvent env.wire server.registry decoded).1)
  | relayed {peer : SocketAddr} {conn : Conn} {session : Session} {decoded : Decoded}
      (hrunning : server.running peer = some (conn, session))
      (hrelayed : (session.onEvent env.wire server.registry decoded).2 = .relayed) :
      Took env server (.item peer decoded)
        ((server.moved peer conn session
          (session.onEvent env.wire server.registry decoded).1).publish env
            (session.onEvent env.wire server.registry decoded).1 decoded)
  | delivered {peer : SocketAddr} {conn : Conn} {session : Session} {msg : Outbound}
      (hrunning : server.running peer = some (conn, session))
        (hmsg : server.sent[conn.pos]? = some msg) :
      Took env server (.deliver peer) { server with
        conns := server.conns.insert peer
          { conn with pos := conn.pos + 1, outGroups := (server.receive env conn session msg).1 }
        delivered :=
          if (server.receive env conn session msg).2 then server.delivered ++ [(peer, conn.pos)]
            else server.delivered }
  | left {peer : SocketAddr} {conn : Conn} {missions : M} (hconn : server.conns[peer]? = some conn)
      (hmissions : missions = server.missions ∨ ∃ session uid, conn.session = some session ∧
        session.listener.missions = true ∧ session.deliveryUid = some uid ∧
        missions = env.missions.clientDisconnected server.missions uid) :
      Took env server (.leave peer) { server with
        conns := server.conns.erase peer
        clients := if conn.session.isSome then server.clients.unregister peer else server.clients
        saIndex := if conn.session.isSome then server.saIndex.erase peer else server.saIndex
        missions }
  | groupsChanged {event : GroupEvent} : Took env server (.changeGroups event) { server with
      groups :=
        { state := applyEvent server.groups.state event, version := server.groups.version + 1 } }
  | registryChanged {event : RegistryEvent} :
      Took env server (.changeRegistry event) { server with
        registry := Registry.applyEvent server.registry event }
  | missionsChanged {missions : M} :
    Took env server (.changeMissions missions) { server with missions }
  | announced {msg : ServerMessage} :
      Took env server (.serverSend msg) { server with sent := server.sent ++ [msg.outbound] }

theorem took_of_step (h : server.step env action = some next) : Took env server action next := by
  cases action with
  | accept peer credentials listener =>
    simp only [step, accept] at h
    split at h
    · cases h
    · next hfree =>
      cases h
      exact .accepted hfree
  | enter peer =>
    simp only [step, enter] at h
    split at h
    · cases h
    · next conn hconn =>
      split at h
      · cases h
      · next hnone =>
        obtain ⟨session, hopen, rfl⟩ := Option.map_eq_some_iff.1 h
        exact .entered hconn hnone hopen
  | item peer decoded =>
    simp only [step, item] at h
    split at h
    · cases h
    · next conn session hrunning =>
      split at h
      · next hrelayed =>
        cases h
        exact .relayed hrunning hrelayed
      · next hother =>
        cases h
        exact .noted hrunning hother
  | deliver peer =>
    simp only [step, deliver] at h
    split at h
    · cases h
    · next conn session hrunning =>
      obtain ⟨msg, hmsg, rfl⟩ := Option.map_eq_some_iff.1 h
      exact .delivered hrunning hmsg
  | leave peer =>
    simp only [step, leave] at h
    split at h
    · cases h
    · next conn hconn =>
      cases h
      refine .left hconn ?_
      split
      · next uid huid =>
        obtain ⟨session, hfiltered, huid⟩ := Option.bind_eq_some_iff.1 huid
        obtain ⟨hsession, hmissions⟩ := Option.filter_eq_some_iff.1 hfiltered
        exact .inr ⟨session, uid, hsession, hmissions, huid, rfl⟩
      · exact .inl rfl
  | changeGroups event =>
    cases h
    exact .groupsChanged
  | changeRegistry event =>
    cases h
    exact .registryChanged
  | changeMissions missions =>
    cases h
    exact .missionsChanged
  | serverSend msg =>
    cases h
    exact .announced

theorem openSession_eq (h : server.openSession env peer conn = some session) :
    session = { peer, listener := conn.listener, identity := session.identity } := by
  unfold openSession at h
  split at h
  · cases h
    rfl
  · split at h
    · cases h
      rfl
    · cases h

/-- What a step may do to the missions: nothing, route an event, or let a client uid leave that its
connection went by. -/
theorem missions_step (I : M → Prop) (h : server.step env action = some next)
    (hsame : I server.missions) (hroute : ∀ clientUid username names guids eventUid,
      I (env.missions.route server.missions clientUid username names guids eventUid).2.1)
    (hleave : ∀ peer conn session uid, action = .leave peer → server.conns[peer]? = some conn →
      conn.session = some session → session.listener.missions = true →
      session.deliveryUid = some uid → I (env.missions.clientDisconnected server.missions uid))
    (hchange : ∀ missions, action = .changeMissions missions → I missions) : I next.missions := by
  cases took_of_step h with
  | relayed =>
    simp only [publish, routed]
    split
    · exact hsame
    · exact hroute _ _ _ _ _
  | left hconn hmissions =>
    rcases hmissions with rfl | ⟨session, uid, hsession, hlistener, huid, rfl⟩
    · exact hsame
    · exact hleave _ _ session uid rfl hconn hsession hlistener huid
  | missionsChanged => exact hchange _ rfl
  | _ => exact hsame

/-! ### What is sent stays sent -/

theorem publish_sent (session : Session) (decoded : Decoded) :
    (server.publish env session decoded).sent =
      server.sent ++ (server.routed env session decoded.event).2.2.map ServerMessage.outbound ++
        [session.outbound env.wire server.groups.state (server.routed env session decoded.event).1
          decoded] := rfl

theorem sent_mono (h : server.step env action = some next) : server.sent <+: next.sent := by
  cases took_of_step h with
  | relayed =>
    rw [publish_sent, List.append_assoc]
    exact List.prefix_append _ _
  | announced => exact List.prefix_append _ _
  | _ => exact List.prefix_refl _

theorem conn_step (hconn : server.conns[peer]? = some conn) (hsession : conn.session = some session)
    (hstep : server.step env action = some next) (hstay : action ≠ .leave peer) :
    ∃ conn' session', next.conns[peer]? = some conn' ∧ conn'.session = some session' ∧
      (session' = session ∨ ∃ decoded,
        session' = (session.onEvent env.wire server.registry decoded).1) ∧
      (action = .deliver peer ∧ conn'.pos = conn.pos + 1 ∨ action ≠ .deliver peer ∧
        conn'.pos = conn.pos) := by
  have hother {p : SocketAddr} {c : Conn} (hp : p ≠ peer) : (server.conns.insert p c)[peer]? =
      some conn := by
    simp [hp, hconn]
  cases took_of_step hstep with
  | @accepted p _ _ hfree =>
    have hp : p ≠ peer := by
      rintro rfl
      cases hfree.symm.trans hconn
    exact ⟨conn, session, hother hp, hsession, .inl rfl, .inr ⟨by simp, rfl⟩⟩
  | @entered p held _ hheld hnone hopen =>
    have hp : p ≠ peer := by
      rintro rfl
      cases hheld.symm.trans hconn
      cases hnone.symm.trans hsession
    exact ⟨conn, session, hother hp, hsession, .inl rfl, .inr ⟨by simp, rfl⟩⟩
  | @noted p held current decoded hrunning | @relayed p held current decoded hrunning =>
    obtain ⟨hheld, hcurrent, -⟩ := running_eq_some.1 hrunning
    by_cases hp : p = peer
    · subst hp
      cases hheld.symm.trans hconn
      cases hcurrent.symm.trans hsession
      exact ⟨_, _, Dict.getElem?_insert_self .., rfl, .inr ⟨decoded, rfl⟩, .inr ⟨by simp, rfl⟩⟩
    · exact ⟨conn, session, hother hp, hsession, .inl rfl, .inr ⟨by simp, rfl⟩⟩
  | @delivered p held current msg hrunning =>
    obtain ⟨hheld, -⟩ := running_eq_some.1 hrunning
    by_cases hp : p = peer
    · subst hp
      cases hheld.symm.trans hconn
      exact ⟨_, session, Dict.getElem?_insert_self .., hsession, .inl rfl, .inl ⟨rfl, rfl⟩⟩
    · exact ⟨conn, session, hother hp, hsession, .inl rfl, .inr ⟨by simpa using hp, rfl⟩⟩
  | @left p held =>
    have hp : p ≠ peer := fun h => hstay (by rw [h])
    exact ⟨conn, session, by simp [hp, hconn], hsession, .inl rfl, .inr ⟨by simp, rfl⟩⟩
  | _ => exact ⟨conn, session, hconn, hsession, .inl rfl, .inr ⟨by simp, rfl⟩⟩

/-! ### The invariant -/

structure ConnOk (server : Server M) (peer : SocketAddr) (conn : Conn) : Prop where
  filed : ∀ session ∈ conn.session, session.peer = peer
  pos_le : conn.pos ≤ server.sent.length
  uncached : conn.session = none → conn.outGroups = none
  cached : ∀ session ∈ conn.session, ∀ cn enrolled, session.identity = .tls cn enrolled →
    ∀ version out, conn.outGroups = some (version, out) → version ≤ server.groups.version ∧
      (version = server.groups.version → out = server.groups.state.activeGroups (some cn) .outgoing)
  unread : ∀ n, (peer, n) ∈ server.delivered → n < conn.pos

structure Inv (server : Server M) : Prop where
  conns : ∀ peer conn, server.conns[peer]? = some conn → ConnOk server peer conn
  delivered_lt : ∀ peer n, (peer, n) ∈ server.delivered → n < server.sent.length

theorem inv_start (groups : GroupStore) (registry : RegistryState) (missions : M) :
    Inv (start groups registry missions) where
  conns peer conn h := by simp [start] at h
  delivered_lt peer n h := by simp [start] at h

theorem ConnOk.frame (h : ConnOk server peer conn) (hsent : server.sent <+: next.sent)
    (hgroups : next.groups = server.groups) (hdelivered : next.delivered = server.delivered) :
    ConnOk next peer conn where
  __ := h
  pos_le := h.pos_le.trans hsent.length_le
  cached := by rw [hgroups]; exact h.cached
  unread := by rw [hdelivered]; exact h.unread

theorem ConnOk.setSession {after : Session} (h : ConnOk server peer conn)
    (hsession : conn.session = some session) (hpeer : after.peer = session.peer)
    (hidentity : after.identity = session.identity) : ConnOk server peer
    { conn with session := some after } where
  filed s hs := by
    cases hs
    exact hpeer.trans (h.filed session hsession)
  __ := h
  uncached hnone := by cases hnone
  cached s hs cn enrolled hid := by
    cases hs
    exact h.cached session hsession cn enrolled (hidentity ▸ hid)

theorem Inv.insert (h : Inv server) (hconns : next.conns = server.conns.insert peer conn)
    (hsent : server.sent <+: next.sent) (hgroups : next.groups = server.groups)
    (hdelivered : next.delivered = server.delivered) (hconn : ConnOk next peer conn) :
    Inv next where
  conns p c hc := by
    rw [hconns] at hc
    rcases Dict.of_insert hc with ⟨rfl, rfl⟩ | ⟨-, hold⟩
    · exact hconn
    · exact (h.conns p c hold).frame hsent hgroups hdelivered
  delivered_lt p n hn := by
    rw [hdelivered] at hn
    exact (h.delivered_lt p n hn).trans_le hsent.length_le

theorem Inv.frame (h : Inv server) (hconns : next.conns = server.conns)
    (hsent : server.sent <+: next.sent) (hgroups : next.groups = server.groups)
    (hdelivered : next.delivered = server.delivered) : Inv next where
  conns p c hc := (h.conns p c (hconns ▸ hc)).frame hsent hgroups hdelivered
  delivered_lt p n hn := by
    rw [hdelivered] at hn
    exact (h.delivered_lt p n hn).trans_le hsent.length_le

theorem ConnOk.lookupOut_eq {cn : String} {enrolled : Option (Option String)}
    (h : ConnOk server peer conn) (hsession : conn.session = some session)
    (hidentity : session.identity = .tls cn enrolled) :
    server.lookupOut conn cn =
    (server.groups.version, server.groups.state.activeGroups (some cn) .outgoing) := by
  unfold lookupOut
  cases hcache : conn.outGroups with
  | none => rfl
  | some cache =>
    obtain ⟨version, out⟩ := cache
    have hcurrent := (h.cached session hsession cn enrolled hidentity version out hcache).2
    by_cases hversion : version = server.groups.version
    · simp [hcurrent hversion]
    · simp [hversion]

private theorem ConnOk.received {msg : Outbound} (env : Env M) (wrote : Bool)
    (h : ConnOk server peer conn) (hsession : conn.session = some session)
    (hmsg : server.sent[conn.pos]? = some msg) : ConnOk
    { server with
      delivered := if wrote then server.delivered ++ [(peer, conn.pos)] else server.delivered }
      peer { conn with pos := conn.pos + 1, outGroups := (server.receive env conn session msg).1 }
        where
  filed := h.filed
  pos_le := by
    have hlt := (List.getElem?_eq_some_iff.1 hmsg).1
    exact hlt
  uncached hnone := by rw [hsession] at hnone; cases hnone
  cached s hs cn enrolled hid version out hcache := by
    have hold := h.cached s hs cn enrolled hid version out
    rw [hsession] at hs
    cases hs
    unfold receive at hcache
    split at hcache
    · exact hold hcache
    · simp only [hid] at hcache
      split at hcache
      · rw [h.lookupOut_eq hsession hid] at hcache
        obtain ⟨rfl, rfl⟩ := Prod.mk.inj (Option.some.inj hcache)
        exact ⟨le_rfl, fun _ => rfl⟩
      · exact hold hcache
  unread n hn := by
    have hold : (peer, n) ∈ server.delivered ∨ n = conn.pos := by
      cases wrote <;> simp_all
    rcases hold with hold | rfl
    · exact (h.unread n hold).trans (Nat.lt_succ_self _)
    · exact Nat.lt_succ_self _

theorem Inv.step (h : Inv server) (hstep : server.step env action = some next) : Inv next := by
  have hsent := sent_mono hstep
  cases took_of_step hstep with
  | @accepted peer credentials listener hfree =>
    refine h.insert rfl hsent rfl rfl ⟨?_, le_rfl, fun _ => rfl, ?_, ?_⟩
    · simp
    · simp
    · exact fun n hn => h.delivered_lt peer n hn
  | @entered peer conn session hconn hnone hopen =>
    have hok := h.conns peer conn hconn
    refine h.insert rfl hsent rfl rfl ⟨?_, hok.pos_le, by simp, ?_, hok.unread⟩
    · intro s hs
      cases hs
      exact congrArg Session.peer (openSession_eq hopen)
    · intro s hs cn enrolled hid version out hcache
      rw [show conn.outGroups = none from hok.uncached hnone] at hcache
      cases hcache
  | @noted peer conn session decoded hrunning | @relayed peer conn session decoded hrunning =>
    obtain ⟨hconn, hsession, -⟩ := running_eq_some.1 hrunning
    refine h.insert rfl hsent rfl rfl (ConnOk.frame ?_ hsent rfl rfl)
    exact (h.conns peer conn hconn).setSession hsession Session.onEvent_peer
      Session.onEvent_identity
  | @delivered peer conn session msg hrunning hmsg =>
    obtain ⟨hconn, hsession, -⟩ := running_eq_some.1 hrunning
    have hok := h.conns peer conn hconn
    have hreceived := hok.received env (server.receive env conn session msg).2 hsession hmsg
    refine ⟨fun p c hc => ?_, fun p n hn => ?_⟩
    · rcases Dict.of_insert hc with ⟨rfl, rfl⟩ | ⟨hp, hold⟩
      · exact ⟨hreceived.filed, hreceived.pos_le, hreceived.uncached, hreceived.cached,
          hreceived.unread⟩
      · have hother := h.conns p c hold
        refine ⟨hother.filed, hother.pos_le, hother.uncached, hother.cached, fun n hn =>
          hother.unread n ?_⟩
        by_cases hwrote : (server.receive env conn session msg).2 = true
        · simpa [hwrote, Ne.symm hp] using hn
        · simpa [hwrote] using hn
    · have hlt := (List.getElem?_eq_some_iff.1 hmsg).1
      by_cases hwrote : (server.receive env conn session msg).2 = true
      · rw [if_pos hwrote] at hn
        rcases List.mem_append.1 hn with hold | hnew
        · exact h.delivered_lt p n hold
        · obtain ⟨rfl, rfl⟩ := Prod.mk.inj (List.mem_singleton.1 hnew)
          exact hlt
      · rw [if_neg hwrote] at hn
        exact h.delivered_lt p n hn
  | left =>
    refine ⟨fun p c hc => ?_, h.delivered_lt⟩
    exact (h.conns p c (Dict.of_erase hc).2).frame hsent rfl rfl
  | groupsChanged =>
    refine ⟨fun p c hc => ?_, h.delivered_lt⟩
    have hok := h.conns p c hc
    refine ⟨hok.filed, hok.pos_le, hok.uncached, ?_, hok.unread⟩
    -- The version has moved, so no cached lookup claims to be current.
    intro s hs cn enrolled hid version out hcache
    have hle := (hok.cached s hs cn enrolled hid version out hcache).1
    constructor
    · exact hle.trans (Nat.le_succ _)
    · intro hversion
      exact absurd hversion (by simp only; omega)
  | _ => exact h.frame rfl hsent rfl rfl

end Server

end MicroTak.Transport
