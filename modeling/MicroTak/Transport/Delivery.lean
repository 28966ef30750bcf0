import MicroTak.Transport.RelayInvariant

/-!
# Who receives an event

The delivery rule of the relay as one relation between the moment an event is published and the
moment a connection reads it from the hub, and the proof that the relay follows it exactly.  A
message sits at one index of the hub; a connection that stays reads every index once, in order, so
the question comes down to what it does at that one step.
-/

namespace MicroTak.Transport

open Std Registry Groups Cot Transition Session List

/-! ### The rule -/

variable {routed : List String}

namespace Session

/-- The recipients of an event: the uids it is addressed to and, for a TLS sender, the live mission
subscribers the mission side returned. -/
def resolved (sender : Session) (event : Event) (routed : List String) : List String :=
  event.addressedUids.getD [] ++
    match sender.identity with
    | .tcp => []
    | .tls _ _ => routed

variable {session : Session} {wire : Wire} {registry : RegistryState} {item : Decoded}

/-- An event is relayed unless it is a control message or, on TLS, fails the identity checks. -/
theorem onEvent_relayed_iff : (session.onEvent wire registry item).2 = .relayed ↔
      item.event.isControl = false ∧ ∀ cn enrolled, session.identity = .tls cn enrolled →
        identityVerdict registry session.listener.validateClientUid enrolled item.event =
        .relay := by
  unfold onEvent
  cases hidentity : session.identity with
  | tcp =>
    simp only [onTcpEvent]
    cases item.event.isControl <;> simp
  | tls cn enrolled =>
    simp only [onTlsEvent]
    cases hneg : session.negotiates item.event with
    | true => simp [isControl_of_negotiates hneg]
    | false =>
      cases item.event.isControl with
      | true => simp
      | false =>
        simp only [Bool.false_eq_true, if_false, Identity.tls.injEq, true_and]
        constructor
        · rintro h cn' enrolled' ⟨-, rfl⟩
          split at h <;> simp_all
        · intro h
          simp [h cn enrolled ⟨rfl, rfl⟩]

private theorem mem_addRecipients {uid : String} {dest : List String} :
    uid ∈ addRecipients dest routed ↔ uid ∈ dest ∨ uid ∈ routed := by
  induction routed generalizing dest with
  | nil => simp [addRecipients]
  | cons first rest ih =>
    rw [addRecipients, ih]
    by_cases hmem : first ∈ dest
    · rw [if_pos hmem, mem_cons]
      constructor
      · rintro (h | h)
        · exact .inl h
        · exact .inr (.inr h)
      · rintro (h | rfl | h)
        · exact .inl h
        · exact .inl hmem
        · exact .inr h
    · rw [if_neg hmem, mem_append, mem_singleton, mem_cons, or_assoc]

/-- The recipients a message carries are the resolved ones, and `none` exactly when there are
none. -/
theorem recipients_spec (sender : Session) (event : Event) (routed : List String) :
    (sender.recipients event routed = none ∧ sender.resolved event routed = []) ∨
      ∃ uids, sender.recipients event routed = some uids ∧ sender.resolved event routed ≠ [] ∧
        ∀ uid, uid ∈ uids ↔ uid ∈ sender.resolved event routed := by
  unfold recipients resolved
  cases sender.identity with
  | tcp =>
    cases haddressed : event.addressedUids with
    | none => simp
    | some uids =>
      have hne := Event.addressedUids_ne_nil haddressed
      simp [hne]
  | tls cn enrolled =>
    have hmem : ∀ uid, uid ∈ addRecipients (event.addressedUids.getD []) routed ↔
        uid ∈ event.addressedUids.getD [] ++ routed := by
      intro uid
      rw [mem_addRecipients, mem_append]
    cases hdest : addRecipients (event.addressedUids.getD []) routed with
    | nil =>
      have hnil : event.addressedUids.getD [] ++ routed = [] := by
        rw [eq_nil_iff_forall_not_mem]
        intro uid huid
        rw [← hmem, hdest] at huid
        cases huid
      exact .inl ⟨rfl, hnil⟩
    | cons first rest =>
      refine .inr ⟨first :: rest, rfl, ?_, fun uid => by rw [← hdest]; exact hmem uid⟩
      intro hnil
      have hfirst : first ∈ event.addressedUids.getD [] ++ routed := by
        rw [← hmem, hdest]; exact mem_cons_self
      rw [hnil] at hfirst
      cases hfirst

end Session

namespace Server

variable {M : Type} {env : Env M} {server next : Server M} {peer : SocketAddr}

/-- What the mission side answers about an event of this connection, the uid it takes from the event
included. -/
def routedUids (env : Env M) (server : Server M) (sender : Session) (decoded : Decoded) :
    List String :=
  (server.routed env (sender.onEvent env.wire server.registry decoded).1 decoded.event).1

def message (env : Env M) (server : Server M) (sender : Session) (decoded : Decoded) : Outbound :=
  (sender.onEvent env.wire server.registry decoded).1.outbound env.wire server.groups.state
    (server.routedUids env sender decoded) decoded

/-- The delivery rule: an event `sender` published in `atSend` is written to `receiver`, which reads
it in `atRead`. -/
structure Delivers (env : Env M) (atSend : Server M) (sender : Session) (decoded : Decoded)
    (atRead : Server M) (receiver : Session) : Prop where
  other : receiver.peer ≠ sender.peer
  content : decoded.event.isControl = false
  checked : ∀ cn enrolled, sender.identity = .tls cn enrolled →
    identityVerdict atSend.registry sender.listener.validateClientUid enrolled decoded.event =
      .relay
  addressed : sender.resolved decoded.event (atSend.routedUids env sender decoded) = [] ∨
    ∃ cn enrolled uid, receiver.identity = .tls cn enrolled ∧ receiver.clientUid = some uid ∧
      uid ∈ sender.resolved decoded.event (atSend.routedUids env sender decoded)
  reachable : (sender.sendGroups atSend.groups.state ∩
    atRead.groups.state.activeGroups receiver.identity.commonName .outgoing).Nonempty

/-! ### One message read -/

variable {conn : Conn} {session sender : Session} {msg : Outbound} {decoded : Decoded} {n : Nat}
  {post rest : List (Action M)}

/-- A connection in order writes what its session accepts, its OUT groups being the current ones, as
long as the message can be framed. -/
theorem receive_iff_accepts (h : ConnOk server peer conn)
    (hsession : conn.session = some session) (hopen : session.closed = false)
    (hencode : session.protobuf = true → (env.wire.encodeOutbound msg.xml).isSome = true) :
    (server.receive env conn session msg).2 = true ↔
      session.accepts (server.groups.state.activeGroups session.identity.commonName .outgoing) msg =
      true := by
  unfold receive accepts deliveryUid
  by_cases hsender : msg.sender = session.peer
  · simp [hsender]
  · cases hidentity : session.identity with
    | tcp => simp [hsender, hopen, Identity.commonName]
    | tls cn enrolled =>
      simp only [hopen, Identity.commonName, h.lookupOut_eq hsession hidentity]
      have hframed : (!session.protobuf || (env.wire.encodeOutbound msg.xml).isSome) = true := by
        rwa [Bool.or_eq_true, Bool.not_eq_true', ← Bool.not_eq_true, ← imp_iff_not_or]
      cases msg.isDeliverableTo session.clientUid <;> simp [hsender, hframed]

theorem accepts_outbound_iff {receiver : Session} {groups : Groups.State} {out : Finset String}
    (hopen : receiver.closed = false) :
    receiver.accepts out (sender.outbound env.wire groups routed decoded) = true ↔
    receiver.peer ≠ sender.peer ∧
        (sender.resolved decoded.event routed = [] ∨ ∃ cn enrolled uid,
          receiver.identity = .tls cn enrolled ∧ receiver.clientUid = some uid ∧
          uid ∈ sender.resolved decoded.event routed) ∧
        (sender.sendGroups groups ∩ out).Nonempty := by
  set msg := sender.outbound env.wire groups routed decoded with hmsg
  have hother : decide (msg.sender ≠ receiver.peer) = true ↔ receiver.peer ≠ sender.peer := by
    rw [decide_eq_true_iff]
    exact ne_comm
  have hreach : msg.reaches out = true ↔ (sender.sendGroups groups ∩ out).Nonempty := by
    simp [Outbound.reaches, hmsg, outbound]
  have hdeliver : msg.isDeliverableTo receiver.deliveryUid = true ↔ _ :=
    Outbound.isDeliverableTo_client rfl receiver.deliveryUid
  have haudience : msg.isDeliverableTo receiver.deliveryUid = true ↔
      (sender.resolved decoded.event routed = [] ∨ ∃ cn enrolled uid,
        receiver.identity = .tls cn enrolled ∧ receiver.clientUid = some uid ∧
          uid ∈ sender.resolved decoded.event routed) := by
    rw [hdeliver]
    change (∀ uids ∈ sender.recipients decoded.event routed, _) ↔ _
    rcases sender.recipients_spec decoded.event routed with ⟨hnone, hnil⟩ | ⟨uids, hsome, hne, hmem⟩
    · simp [hnone, hnil]
    · rw [hsome]
      unfold deliveryUid
      cases hidentity : receiver.identity with
      | tcp => simp [hne]
      | tls cn enrolled => simp [hne, hmem]
  unfold accepts
  simp only [hopen, Bool.not_false, Bool.true_and, Bool.and_eq_true, hother, haudience,
    hreach, and_assoc]

/-! ### A connection that stays reads every message once -/

theorem delivered_step {action : Action M} (hstep : server.step env action = some next)
    (hother : ∀ conn, action = .deliver peer → server.conns[peer]? = some conn → conn.pos ≠ n) :
    (peer, n) ∈ next.delivered ↔ (peer, n) ∈ server.delivered := by
  cases took_of_step hstep with
  | @delivered p conn session msg hrunning =>
    by_cases hwrote : (server.receive env conn session msg).2 = true
    · rw [if_pos hwrote, mem_append, mem_singleton]
      refine ⟨fun h => h.resolve_right ?_, .inl⟩
      rintro heq
      obtain ⟨rfl, rfl⟩ := Prod.mk.inj heq
      exact hother conn rfl (running_eq_some.1 hrunning).1 rfl
    · rw [if_neg hwrote]
  | _ => rfl

theorem getElem?_of_mono {earlier later : List Outbound} (h : earlier <+: later)
    (hmsg : earlier[n]? = some msg) : later[n]? = some msg := by
  obtain ⟨hlt, rfl⟩ := List.getElem?_eq_some_iff.1 hmsg
  exact prefix_iff_getElem?.1 h n hlt

theorem run_sent_mono {actions : List (Action M)} (h : run (step env) server actions = some next) :
    server.sent <+: next.sent :=
  run_preserves (fun s => server.sent <+: s.sent) h (prefix_refl _)
    fun _ _ _ hmono hstep => hmono.trans (sent_mono hstep)

/-- A connection that has read past an index read it at some step of the run. -/
theorem exists_reading_point (hconn : server.conns[peer]? = some conn)
    (hsession : conn.session = some session) (hrun : run (step env) server post = some next)
    (hstay : Action.leave peer ∉ post) (hle : conn.pos ≤ n)
    (hread : ∃ conn', next.conns[peer]? = some conn' ∧ n < conn'.pos) : ∃ mid rest atRead conn',
    post = mid ++ .deliver peer :: rest ∧ run (step env) server mid = some atRead ∧
      atRead.conns[peer]? = some conn' ∧ conn'.pos = n := by
  induction post generalizing server conn session with
  | nil =>
    cases hrun
    obtain ⟨conn', hconn', hlt⟩ := hread
    rw [hconn] at hconn'
    cases hconn'
    omega
  | cons action rest ih =>
    obtain ⟨mid, hstep, hrest⟩ := run_cons_eq_some.1 hrun
    have hstays : action ≠ .leave peer := fun h => hstay (by simp [h])
    obtain ⟨conn', session', hconn', hsession', -, hpos⟩ := conn_step hconn hsession hstep hstays
    by_cases hhere : action = .deliver peer ∧ conn.pos = n
    · obtain ⟨rfl, hn⟩ := hhere
      exact ⟨[], rest, server, conn, rfl, rfl, hconn, hn⟩
    · have hle' : conn'.pos ≤ n := by
        rcases hpos with ⟨hdeliver, hpos⟩ | ⟨-, hpos⟩
        · have hne : conn.pos ≠ n := fun hn => hhere ⟨hdeliver, hn⟩
          omega
        · omega
      obtain ⟨before, after, atRead, found, rfl, hbefore, hfound, hn⟩ :=
        ih hconn' hsession' hrest (fun h => hstay (mem_cons_of_mem _ h)) hle'
      exact ⟨action :: before, after, atRead, found, rfl, run_cons_eq_some.2 ⟨mid, hstep, hbefore⟩,
        hfound, hn⟩

private theorem delivered_settled (hconn : server.conns[peer]? = some conn)
    (hsession : conn.session = some session) (hrun : run (step env) server post = some next)
    (hstay : Action.leave peer ∉ post) (hlt : n < conn.pos) : (peer, n) ∈ next.delivered ↔
    (peer, n) ∈ server.delivered := by
  induction post generalizing server conn session with
  | nil =>
    cases hrun
    rfl
  | cons action rest ih =>
    obtain ⟨mid, hstep, hrest⟩ := run_cons_eq_some.1 hrun
    have hstays : action ≠ .leave peer := fun h => hstay (by simp [h])
    obtain ⟨conn', session', hconn', hsession', -, hpos⟩ := conn_step hconn hsession hstep hstays
    have hlt' : n < conn'.pos := by
      rcases hpos with ⟨-, hpos⟩ | ⟨-, hpos⟩ <;> omega
    rw [ih hconn' hsession' hrest (fun h => hstay (mem_cons_of_mem _ h)) hlt']
    apply delivered_step hstep
    intro c _ hc
    rw [hconn] at hc
    cases hc
    omega

/-- What the one step at which a connection reads an index decides about it for good. -/
theorem delivered_iff_receive {atRead : Server M} (hinv : Inv atRead)
    (hconn : atRead.conns[peer]? = some conn)
    (hrun : run (step env) atRead (.deliver peer :: rest) = some next)
    (hstay : Action.leave peer ∉ rest) : ∃ session msg, conn.session = some session ∧
    session.closed = false ∧ atRead.sent[conn.pos]? = some msg ∧
      ((peer, conn.pos) ∈ next.delivered ↔ (atRead.receive env conn session msg).2 = true) := by
  obtain ⟨after, hstep, hrest⟩ := run_cons_eq_some.1 hrun
  cases took_of_step hstep with
  | @delivered _ held session msg hrunning hmsg =>
    obtain ⟨hheld, hsession, hopen⟩ := running_eq_some.1 hrunning
    rw [hconn] at hheld
    cases hheld
    refine ⟨session, msg, hsession, hopen, hmsg, ?_⟩
    have hnext := Dict.getElem?_insert_self atRead.conns peer
      { conn with pos := conn.pos + 1, outGroups := (atRead.receive env conn session msg).1 }
    have hsession' : ({ conn with
        pos := conn.pos + 1, outGroups := (atRead.receive env conn session msg).1 } :
          Conn).session = some session :=
      hsession
    rw [delivered_settled hnext hsession' hrest hstay (Nat.lt_succ_self _)]
    have hfresh : (peer, conn.pos) ∉ atRead.delivered := fun h =>
      lt_irrefl _ ((hinv.conns peer conn hconn).unread _ h)
    by_cases hwrote : (atRead.receive env conn session msg).2 = true
    · simp [hwrote]
    · simp [hwrote, hfresh]

/-! ### The relay follows the rule -/

theorem item_sent (hconn : server.conns[peer]? = some conn) (hsession : conn.session = some sender)
    (h : server.step env (.item peer decoded) = some next) :
    ((sender.onEvent env.wire server.registry decoded).2 = .relayed ∧
      ∃ announcements : List ServerMessage,
      next.sent = server.sent ++ announcements.map ServerMessage.outbound ++
        [server.message env sender decoded]) ∨
    (sender.onEvent env.wire server.registry decoded).2 ≠ .relayed ∧ next.sent = server.sent := by
  cases took_of_step h with
  | noted hrunning hother =>
    obtain ⟨hheld, hcurrent, -⟩ := running_eq_some.1 hrunning
    cases hheld.symm.trans hconn
    cases hcurrent.symm.trans hsession
    exact .inr ⟨hother, rfl⟩
  | relayed hrunning hrelayed =>
    obtain ⟨hheld, hcurrent, -⟩ := running_eq_some.1 hrunning
    cases hheld.symm.trans hconn
    cases hcurrent.symm.trans hsession
    exact .inl ⟨hrelayed, _, publish_sent _ _⟩

/-- At the step at which a connection reads a relayed event, what is written is what the rule
says. -/
theorem delivered_iff_delivers_at {atSend atRead atEnd : Server M} (hinv : Inv atRead)
    (hconn : atRead.conns[peer]? = some conn)
    (hrun : run (step env) atRead (.deliver peer :: rest) = some atEnd)
    (hstay : Action.leave peer ∉ rest)
    (hmsg : atRead.sent[conn.pos]? = some (atSend.message env sender decoded))
    (hrelayed : (sender.onEvent env.wire atSend.registry decoded).2 = .relayed)
    (hencode : ∀ session, conn.session = some session → session.protobuf = true →
      (env.wire.encodeOutbound (sender.relayedXml env.wire decoded)).isSome = true) :
    ∃ session, conn.session = some session ∧
      ((peer, conn.pos) ∈ atEnd.delivered ↔ Delivers env atSend sender decoded atRead session) := by
  obtain ⟨session, msg, hsession, hopen, hfound, hiff⟩ :=
    delivered_iff_receive hinv hconn hrun hstay
  rw [hmsg] at hfound
  cases hfound
  refine ⟨session, hsession, hiff.trans ?_⟩
  have hframed : session.protobuf = true →
      (env.wire.encodeOutbound (atSend.message env sender decoded).xml).isSome = true := by
    simpa [message, outbound, relayedXml] using hencode session hsession
  rw [receive_iff_accepts (hinv.conns peer conn hconn) hsession hopen hframed, message,
    accepts_outbound_iff hopen]
  -- The event changed none of what the rule reads of its sender.
  have hresolved : ∀ routed,
      (sender.onEvent env.wire atSend.registry decoded).1.resolved decoded.event routed =
        sender.resolved decoded.event routed := fun routed => by simp [resolved]
  have hgroups :
      (sender.onEvent env.wire atSend.registry decoded).1.sendGroups atSend.groups.state =
        sender.sendGroups atSend.groups.state := by simp [sendGroups]
  have hcheck := onEvent_relayed_iff.1 hrelayed
  rw [hresolved, hgroups, onEvent_peer]
  exact ⟨fun ⟨hother, haudience, hreach⟩ => ⟨hother, hcheck.1, hcheck.2, haudience, hreach⟩,
    fun h => ⟨h.other, h.addressed, h.reachable⟩⟩

/-- **Exact delivery**: an event decoded on `s` while `r` is in its loop is written to `r`, which
stays until it has read everything that step sent, if and only if `r` reads it at a moment at which
the delivery rule holds.  The event must have a frame only where `r` reads it as protobuf. -/
theorem delivered_iff_delivers (env : Env M) (groups : GroupStore) (registry : RegistryState)
    (missions : M) {pre post : List (Action M)} {atSend afterSend atEnd : Server M}
    {s r : SocketAddr} {decoded : Decoded} {connS connR : Conn} {sender receiver : Session}
    (hpre : run (step env) (start groups registry missions) pre = some atSend)
    (hs : atSend.conns[s]? = some connS ∧ connS.session = some sender)
    (hr : atSend.conns[r]? = some connR ∧ connR.session = some receiver)
    (hitem : atSend.step env (.item s decoded) = some afterSend)
    (hpost : run (step env) afterSend post = some atEnd) (hstay : Action.leave r ∉ post)
    (hdrained : ∃ conn, atEnd.conns[r]? = some conn ∧ afterSend.sent.length ≤ conn.pos)
    (hencode : ∀ mid rest atRead conn session, post = mid ++ .deliver r :: rest →
      run (step env) afterSend mid = some atRead → atRead.conns[r]? = some conn →
      conn.session = some session → session.protobuf = true →
      (env.wire.encodeOutbound (sender.relayedXml env.wire decoded)).isSome = true) :
    (∃ n msg, atSend.sent.length ≤ n ∧ afterSend.sent[n]? = some msg ∧ msg.origin = .client ∧
        (r, n) ∈ atEnd.delivered) ↔
      ∃ mid rest atRead conn session, post = mid ++ .deliver r :: rest ∧
        run (step env) afterSend mid = some atRead ∧ atRead.conns[r]? = some conn ∧
        conn.session = some session ∧ conn.pos + 1 = afterSend.sent.length ∧
        Delivers env atSend sender decoded atRead session := by
  have hinvSend : Inv atSend := run_preserves Inv hpre (inv_start groups registry missions)
    fun _ _ _ h hstep => h.step hstep
  have hinvSent : Inv afterSend := hinvSend.step hitem
  have hinvAt : ∀ {mid atRead}, run (step env) afterSend mid = some atRead → Inv atRead :=
    fun hmid =>
    run_preserves Inv hmid hinvSent fun _ _ _ h hstep => h.step hstep
  obtain ⟨connR', receiver', hconnR, hsessionR, -, hposR⟩ := conn_step hr.1 hr.2 hitem nofun
  have hread : ∀ {mid rest atRead conn}, post = mid ++ .deliver r :: rest →
      run (step env) afterSend mid = some atRead → atRead.conns[r]? = some conn →
      afterSend.sent[conn.pos]? = some (atSend.message env sender decoded) →
      (sender.onEvent env.wire atSend.registry decoded).2 = .relayed →
      ∃ session, conn.session = some session ∧
        ((r, conn.pos) ∈ atEnd.delivered ↔ Delivers env atSend sender decoded atRead session) := by
    intro mid rest atRead conn hsplit hmid hconn hmsg hrelayed
    rw [hsplit, run_append_eq_some] at hpost
    obtain ⟨reached, hreached, hrest⟩ := hpost
    rw [hmid] at hreached
    cases hreached
    exact delivered_iff_delivers_at (hinvAt hmid) hconn hrest (fun h => hstay (by simp [hsplit, h]))
      (getElem?_of_mono (run_sent_mono hmid) hmsg) hrelayed
      fun session => hencode mid rest atRead conn session hsplit hmid hconn
  constructor
  · rintro ⟨n, msg, hle, hmsg, hclient, hmem⟩
    rcases item_sent hs.1 hs.2 hitem with ⟨hrelayed, announcements, hsent⟩ | ⟨-, hsent⟩
    · have hn : n = atSend.sent.length + announcements.length := by
        rw [hsent, append_assoc, getElem?_append_right hle] at hmsg
        by_contra hne
        rcases lt_or_gt_of_ne hne with hlt | hgt
        · rw [getElem?_append_left (by simp; omega), getElem?_map, Option.map_eq_some_iff] at hmsg
          obtain ⟨announcement, -, rfl⟩ := hmsg
          cases hclient
        · rw [getElem?_eq_none (by simp; omega)] at hmsg
          cases hmsg
      have hlength : afterSend.sent.length = n + 1 := by
        simp only [hsent, hn, length_append, length_map, length_cons, length_nil]
      have hout : msg = atSend.message env sender decoded := by
        rw [hsent] at hmsg
        simpa [hn, eq_comm] using hmsg
      obtain ⟨connEnd, hconnEnd, hdone⟩ := hdrained
      have hposle : connR'.pos ≤ n := by
        have hbound := (hinvSend.conns r connR hr.1).pos_le
        rcases hposR with ⟨hdeliver, -⟩ | ⟨-, hpos⟩
        · cases hdeliver
        · omega
      obtain ⟨mid, rest, atRead, conn, hsplit, hmid, hconn, rfl⟩ :=
        exists_reading_point hconnR hsessionR hpost hstay hposle ⟨connEnd, hconnEnd, by omega⟩
      obtain ⟨session, hsession, hiff⟩ := hread hsplit hmid hconn (hout ▸ hmsg) hrelayed
      exact ⟨mid, rest, atRead, conn, session, hsplit, hmid, hconn, hsession,
        hlength.symm, hiff.1 hmem⟩
    · rw [hsent, getElem?_eq_none hle] at hmsg
      cases hmsg
  · rintro ⟨mid, rest, atRead, conn, session, hsplit, hmid, hconn, hsession, hlast, hdelivers⟩
    have hrelayed : (sender.onEvent env.wire atSend.registry decoded).2 = .relayed :=
      onEvent_relayed_iff.2 ⟨hdelivers.content, hdelivers.checked⟩
    rcases item_sent hs.1 hs.2 hitem with ⟨-, announcements, hsent⟩ | ⟨hother, -⟩
    · have hpos : conn.pos = atSend.sent.length + announcements.length := by
        simp only [hsent, length_append, length_map, length_cons, length_nil] at hlast
        omega
      have hmsg : afterSend.sent[conn.pos]? = some (atSend.message env sender decoded) := by
        rw [hsent]
        simp [hpos]
      obtain ⟨session', hsession', hiff⟩ := hread hsplit hmid hconn hmsg hrelayed
      rw [hsession] at hsession'
      cases hsession'
      exact ⟨conn.pos, _, by omega, hmsg, rfl, hiff.2 hdelivers⟩
    · exact absurd hrelayed hother

end Server

/-! ### Two plain connections -/

namespace TwoClients

open Server

def atSend : Server Unit :=
  (run (step Env.sample) (start {} {} ())
    [.accept "a" .tcp {}, .accept "b" .tcp {}, .enter "a", .enter "b"]).get (by decide)

def afterSend : Server Unit :=
  (atSend.step Env.sample (.item "a" (Spoof.report "A"))).get (by decide)

def atEnd : Server Unit := (run (step Env.sample) afterSend [.deliver "b"]).get (by decide)

end TwoClients

open TwoClients in
theorem delivers_between_two_clients :
    ∃ mid rest atRead conn session, [Action.deliver "b"] = mid ++ .deliver "b" :: rest ∧
      run (Server.step Env.sample) afterSend mid = some atRead ∧ atRead.conns["b"]? = some conn ∧
      conn.session = some session ∧ conn.pos + 1 = afterSend.sent.length ∧
      Server.Delivers Env.sample atSend (openTcp {} "a") (Spoof.report "A") atRead session := by
  have hpre : run (Server.step Env.sample) (Server.start {} {} ())
      [.accept "a" .tcp {}, .accept "b" .tcp {}, .enter "a", .enter "b"] = some atSend :=
        (Option.some_get _).symm
  have hitem : atSend.step Env.sample (.item "a" (Spoof.report "A")) = some afterSend :=
    (Option.some_get _).symm
  have hpost : run (Server.step Env.sample) afterSend [.deliver "b"] = some atEnd :=
    (Option.some_get _).symm
  have hs : atSend.conns["a"]? = some ⟨.tcp, {}, 0, none, some (openTcp {} "a")⟩ := by decide
  have hr : atSend.conns["b"]? = some ⟨.tcp, {}, 0, none, some (openTcp {} "b")⟩ := by decide
  have hend : atEnd.conns["b"]? = some ⟨.tcp, {}, 1, none, some (openTcp {} "b")⟩ := by decide
  have hmsg : afterSend.sent[0]? = some
      ((openTcp {} "a").outbound Wire.plain freshState [] (Spoof.report "A")) := by decide
  exact (Server.delivered_iff_delivers Env.sample {} {} () hpre ⟨hs, rfl⟩
    ⟨hr, rfl⟩ hitem hpost (by simp) ⟨_, hend, by decide⟩ fun _ _ _ _ _ _ _ _ _ _ => by decide).1
      ⟨0, _, by decide, hmsg, rfl, by decide⟩

end MicroTak.Transport
