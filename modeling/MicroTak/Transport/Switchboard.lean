import MicroTak.Transport.ClientUid
import MicroTak.Transport.Relay

/-!
# One registry for every listener

Connections of all listeners by number, and the list of connected clients, which is kept by peer
address.  The address is that of the peer, or the one a trusted proxy writes into its header, so two
connections open at once can have the same: from one client port to two ports of the server, or by
the word of a proxy.
-/

namespace MicroTak.Transport

open Std Registry Transition Option

/-- The address a connection goes by, from a trusted proxy's header or its own; a malformed header
drops it. -/
def admitStream (trusted : SocketAddr → Bool) (peer : SocketAddr)
    (header : Except Unit (Option SocketAddr)) :
    Option SocketAddr :=
  if trusted peer then
    match header with
    | .ok (some client) => some client
    | .ok none => some peer
    | .error _ => none
  else some peer

/-- An open connection: its place in the hub since it was accepted, the address it was admitted
with, and its session once it is in its loop. -/
structure Line where
  pos : Nat
  addr : Option SocketAddr := none
  session : Option Session := none

structure Switchboard where
  clients : ConnectedClients := {}
  lines : TreeMap Nat Line := ∅
  nextLine : Nat := 0
  /-- What the hub was sent, each with the connection it came from. -/
  sent : List (Option Nat × Outbound) := []
  /-- What was kept from a connection as its own: the connection and the place in the hub. -/
  withheld : List (Nat × Nat) := []

/-- The registry, the groups and the subscribers of missions are taken as they are at the moment of
an event. -/
inductive LineAction where
  | accept
  | admitAs (line : Nat) (peer : SocketAddr) (header : Except Unit (Option SocketAddr))
  /-- The handshake is done and the certificate admitted. -/
  | enter (line : Nat) (identity : Identity) (listener : Listener)
  | item (line : Nat) (registry : RegistryState) (groups : Groups.State) (routed : List String)
    (decoded : Decoded)
  | serverSend (msg : ServerMessage)
  | deliver (line : Nat)
  /-- A slow connection misses what comes before this place. -/
  | lag (line pos : Nat)
  | leave (line : Nat)

def Session.endpoint (session : Session) : ClientEndpoint :=
  { remoteAddr := session.peer, identity := session.identity, uid := session.clientUid }

namespace Switchboard

variable (trusted : SocketAddr → Bool) (wire : Wire) (board : Switchboard)

def running (line : Nat) : Option (Line × Session) :=
  (board.lines[line]?).bind fun found => (found.session.filter (!·.closed)).map (found, ·)

def admitAs (line : Nat) (peer : SocketAddr) (header : Except Unit (Option SocketAddr)) :
    Option Switchboard :=
  match board.lines[line]?, admitStream trusted peer header with
  | some found, some addr =>
      if found.addr.isNone then some { board with
        lines := board.lines.insert line { found with addr := some addr } }
      else none
  | _, _ => none

def enter (line : Nat) (identity : Identity) (listener : Listener) : Option Switchboard :=
  match board.lines[line]? with
  | some { pos, addr := some addr, session := none } =>
      let session : Session := { peer := addr, listener, identity }
      some { board with
        lines := board.lines.insert line { pos, addr := some addr, session := some session }
        clients := board.clients.register session.endpoint }
  | _ => none

def item (line : Nat) (registry : RegistryState) (groups : Groups.State) (routed : List String)
    (decoded : Decoded) :
    Option Switchboard :=
  (board.running line).map fun (found, session) =>
    let (next, reaction) := session.onEvent wire registry decoded
    let bound := { board with
      lines := board.lines.insert line { found with session := some next }
      clients := Server.bindClient board.clients session next }
    match reaction with
    | .relayed =>
        let msg := next.outbound wire groups routed decoded
        { bound with
          sent := board.sent ++ [(some line, msg)]
          clients := if next.keepsSa decoded.event then bound.clients.setLatestSa next.peer msg.xml
            else bound.clients }
    | _ => bound

/-- The next message of the hub; one from the connection's own address is kept from it. -/
def deliver (line : Nat) : Option Switchboard :=
  (board.running line).bind fun (found, session) =>
    (board.sent[found.pos]?).map fun (_, msg) =>
      { board with
        lines := board.lines.insert line { found with pos := found.pos + 1 }
        withheld := if msg.sender = session.peer then (line, found.pos) :: board.withheld
          else board.withheld }

def lag (line pos : Nat) : Option Switchboard :=
  match board.lines[line]? with
  | some found =>
      if found.pos ≤
        pos then some { board with lines := board.lines.insert line { found with pos } } else none
  | none => none

def leave (line : Nat) : Option Switchboard :=
  (board.lines[line]?).map fun found =>
    { board with
      lines := board.lines.erase line
      clients := match found.session with
        | some session => board.clients.unregister session.peer
        | none => board.clients }

def step : LineAction → Option Switchboard
  | .accept => some { board with
      lines := board.lines.insert board.nextLine { pos := board.sent.length }
      nextLine := board.nextLine + 1 }
  | .admitAs line peer header => board.admitAs trusted line peer header
  | .enter line identity listener => board.enter line identity listener
  | .item line registry groups routed decoded => board.item wire line registry groups routed decoded
  | .serverSend msg => some { board with sent := board.sent ++ [(none, msg.outbound)] }
  | .deliver line => board.deliver line
  | .lag line pos => board.lag line pos
  | .leave line => board.leave line

/-- The address is the server's, or that of an open connection, or of a message this connection has
yet to take from the hub. -/
def inUse (line : Line) (addr : SocketAddr) : Bool :=
  addr = serverAddr || board.lines.toList.any (·.2.addr = some addr) ||
    (board.sent.drop line.pos).any (·.2.sender = addr)

/-- A connection is admitted with an address that is not in use. -/
def distinct (board : Switchboard) : LineAction → Bool
  | .admitAs line peer header =>
      ((board.lines[line]?).bind fun found =>
        (admitStream trusted peer header).map (board.inUse found)).all (!·)
  | _ => true

/-- The list of connected clients is that of the open connections. -/
structure Listed : Prop where
  own : ∀ (line : Nat) (found : Line) (session : Session), board.lines[line]? = some found →
    found.session = some session → board.clients.clients[session.peer]? = some session.endpoint
  opened : ∀ (addr : SocketAddr) (endpoint : ClientEndpoint), board.clients.clients[addr]? =
    some endpoint → ∃ (line : Nat) (found : Line) (session : Session),
      board.lines[line]? = some found ∧ found.session = some session ∧ session.peer = addr

/-- Nothing is kept from a connection but what it sent itself. -/
def Echoless : Prop :=
  ∀ (line pos : Nat), (line, pos) ∈ board.withheld → ∃ msg, board.sent[pos]? = some (some line, msg)

/-- Addresses tell the connections apart, also in what they have yet to take from the hub. -/
structure Wired : Prop where
  fresh : ∀ (line : Nat) (found : Line), board.lines[line]? = some found → line < board.nextLine
  admitted : ∀ (line : Nat) (found : Line) (session : Session), board.lines[line]? = some found →
    found.session = some session → found.addr = some session.peer
  apart : ∀ (i j : Nat) (a b : Line) (addr : SocketAddr), board.lines[i]? = some a →
    board.lines[j]? = some b → a.addr = some addr → b.addr = some addr → i = j
  outside : ∀ (line : Nat) (found : Line) (addr : SocketAddr), board.lines[line]? = some found →
    found.addr = some addr → addr ≠ serverAddr
  pending : ∀ (line : Nat) (found : Line) (addr : SocketAddr), board.lines[line]? = some found →
    found.addr = some addr → ∀ (pos : Nat) (source : Option Nat) (msg : Outbound), found.pos ≤ pos →
      board.sent[pos]? = some (source, msg) → msg.sender = addr → source = some line

structure Inv : Prop where
  wired : board.Wired
  listed : board.Listed
  echoless : board.Echoless

variable {trusted wire board} {next : Switchboard} {line : Nat} {found after : Line}

/-! ### Addresses -/

/-- Neither the server nor a connection has the address, nor anything that the connection has yet to
take. -/
def Free (board : Switchboard) (found : Line) (addr : SocketAddr) : Prop :=
  addr ≠ serverAddr ∧ (∀ (other : Nat) (there : Line), board.lines[other]? = some there →
    there.addr ≠ some addr) ∧ ∀ (pos : Nat) (source : Option Nat) (msg : Outbound),
      found.pos ≤ pos → board.sent[pos]? = some (source, msg) → msg.sender ≠ addr

/-- A connection with the address it had, or one that is free. -/
theorem Wired.insert (h : board.Wired) (hlines : next.lines = board.lines.insert line after)
    (hcount : board.nextLine ≤ next.nextLine) (hline : line < next.nextLine)
    (hsent : next.sent = board.sent)
    (hsession : ∀ session, after.session = some session → after.addr = some session.peer)
    (haddr : ∀ addr, after.addr = some addr →
      (∃ before, board.lines[line]? = some before ∧ before.addr = some addr ∧
        before.pos ≤ after.pos) ∨ board.Free after addr) :
    next.Wired := by
  have hlines' {other : Nat} {there : Line} (hthere : next.lines[other]? = some there) :
      line = other ∧ after = there ∨ line ≠ other ∧ board.lines[other]? = some there := by
    rw [hlines] at hthere
    exact Dict.of_insert hthere
  have hown {other : Nat} {there : Line} {addr : SocketAddr}
      (hthere : board.lines[other]? = some there) (hsame : there.addr = some addr)
        (hafter : after.addr = some addr) : line = other := by
    rcases haddr addr hafter with ⟨before, hbefore, hold, -⟩ | ⟨-, hfree, -⟩
    · exact h.apart line other before there addr hbefore hthere hold hsame
    · exact absurd hsame (hfree other there hthere)
  constructor
  · intro other there hthere
    rcases hlines' hthere with ⟨rfl, -⟩ | ⟨-, hold⟩
    · exact hline
    · exact Nat.lt_of_lt_of_le (h.fresh other there hold) hcount
  · intro other there session hthere hs
    rcases hlines' hthere with ⟨-, rfl⟩ | ⟨-, hold⟩
    · exact hsession session hs
    · exact h.admitted other there session hold hs
  · intro i j a b addr ha hb hia hjb
    rcases hlines' ha with ⟨rfl, rfl⟩ | ⟨-, hi⟩ <;> rcases hlines' hb with ⟨rfl, rfl⟩ | ⟨-, hj⟩
    · rfl
    · exact hown hj hjb hia
    · exact (hown hi hia hjb).symm
    · exact h.apart i j a b addr hi hj hia hjb
  · intro other there addr hthere hs
    rcases hlines' hthere with ⟨-, rfl⟩ | ⟨-, hold⟩
    · rcases haddr addr hs with ⟨before, hbefore, hold, -⟩ | hfree
      · exact h.outside line before addr hbefore hold
      · exact hfree.1
    · exact h.outside other there addr hold hs
  · intro other there addr hthere hs pos source msg hle hmsg hsender
    rw [hsent] at hmsg
    rcases hlines' hthere with ⟨rfl, rfl⟩ | ⟨-, hold⟩
    · rcases haddr addr hs with ⟨before, hbefore, hold, hpos⟩ | hfree
      · exact h.pending line before addr hbefore hold pos source msg
          (Nat.le_trans hpos hle) hmsg hsender
      · exact absurd hsender (hfree.2.2 pos source msg hle hmsg)
    · exact h.pending other there addr hold hs pos source msg hle hmsg hsender

theorem Wired.update (h : board.Wired) (hfound : board.lines[line]? = some found)
    (hlines : next.lines = board.lines.insert line after) (hnext : next.nextLine = board.nextLine)
    (hsent : next.sent = board.sent) (haddr : after.addr = found.addr)
    (hpos : found.pos ≤ after.pos)
    (hsession : ∀ session, after.session = some session → found.addr = some session.peer) :
    next.Wired :=
  h.insert hlines hnext.ge (hnext ▸ h.fresh line found hfound) hsent (haddr ▸ hsession) fun _ hs =>
    .inl ⟨found, hfound, haddr ▸ hs, hpos⟩

variable {source : Option Nat} {msg : Outbound} {addr : SocketAddr} {session : Session}

/-- A message from a connection, or from the server, whose address is not that of another. -/
theorem Wired.send (h : board.Wired) (hlines : next.lines = board.lines)
    (hnext : next.nextLine = board.nextLine) (hsent : next.sent = board.sent ++ [(source, msg)])
    (hsource : ∀ (other : Nat) (there : Line), board.lines[other]? = some there →
      there.addr = some msg.sender → source = some other) : next.Wired := by
  obtain ⟨hfresh, hadmitted, hapart, houtside, hpending⟩ := h
  rw [← hlines] at hfresh hadmitted hapart houtside hpending hsource
  refine ⟨hnext ▸ hfresh, hadmitted, hapart, houtside, ?_⟩
  intro other there addr hthere haddr pos source' msg' hle hmsg hsender
  rw [hsent] at hmsg
  by_cases hlt : pos < board.sent.length
  · rw [List.getElem?_append_left hlt] at hmsg
    exact hpending other there addr hthere haddr pos source' msg' hle hmsg hsender
  · have hlast : (source', msg') = (source, msg) := by
      rw [List.getElem?_append_right (Nat.not_lt.1 hlt)] at hmsg
      have hmem := List.mem_of_getElem? hmsg
      simpa using hmem
    obtain ⟨rfl, rfl⟩ := Prod.mk.inj hlast
    exact hsource other there hthere (hsender ▸ haddr)

private theorem free_of_inUse (h : board.inUse found addr = false) : board.Free found addr := by
  simp only [inUse, Bool.or_eq_false_iff, decide_eq_false_iff_not, List.any_eq_false,
    decide_eq_true_eq] at h
  obtain ⟨⟨hserver, hlines⟩, hsent⟩ := h
  refine ⟨hserver, fun other there hthere => hlines (other, there) ?_,
    fun pos source msg hle hmsg => hsent (source, msg) ?_⟩
  · exact TreeMap.mem_toList_iff_getElem?_eq_some.2 hthere
  · refine List.mem_of_getElem? (i := pos - found.pos) ?_
    rw [List.getElem?_drop, Nat.add_sub_cancel' hle, hmsg]

theorem Wired.admitAs (h : board.Wired) (hfound : board.lines[line]? = some found)
    (hnone : found.addr = none) (hfree : board.inUse found addr = false) :
    { board with lines := board.lines.insert line { found with addr := some addr } }.Wired := by
  refine h.insert rfl (Nat.le_refl _) (h.fresh line found hfound) rfl (fun session hs => ?_)
    fun addr' hs => ?_
  · cases hnone.symm.trans (h.admitted line found session hfound hs)
  · cases hs
    exact .inr (free_of_inUse hfree)

theorem Wired.leave (h : board.Wired) (hlines : next.lines = board.lines.erase line)
    (hnext : next.nextLine = board.nextLine) (hsent : next.sent = board.sent) : next.Wired := by
  have hold : ∀ (other : Nat) (there : Line), next.lines[other]? = some there →
      board.lines[other]? = some there := by
    intro other there hthere
    rw [hlines] at hthere
    exact (Dict.of_erase hthere).2
  exact
    { fresh := fun other there hthere => hnext ▸ h.fresh other there (hold other there hthere)
      admitted := fun other there session hthere =>
        h.admitted other there session (hold other there hthere)
      apart := fun i j a b addr ha hb => h.apart i j a b addr (hold i a ha) (hold j b hb)
      outside := fun other there addr hthere => h.outside other there addr (hold other there hthere)
      pending := fun other there addr hthere =>
        hsent ▸ h.pending other there addr (hold other there hthere) }

/-! ### The list of connected clients -/

theorem Listed.set (hwired : board.Wired) (h : board.Listed)
    (hfound : board.lines[line]? = some found) (haddr : found.addr = some session.peer)
    (hsession : after.session = some session) (hlines : next.lines = board.lines.insert line after)
    (hclients : ∀ addr : SocketAddr, next.clients.clients[addr]? =
      if session.peer = addr then some session.endpoint else board.clients.clients[addr]?) :
      next.Listed := by
  constructor
  · intro other there session' hthere hsession'
    rw [hlines, Dict.getElem?_insert] at hthere
    rw [hclients]
    split at hthere
    · cases hthere
      cases hsession.symm.trans hsession'
      rw [if_pos rfl]
    · next hother =>
      have hne : session.peer ≠ session'.peer := by
        intro heq
        have haddr' := hwired.admitted other there session' hthere hsession'
        exact hother (hwired.apart line other found there session.peer hfound hthere haddr
          (heq ▸ haddr'))
      rw [if_neg hne]
      exact h.own other there session' hthere hsession'
  · intro addr endpoint hendpoint
    rw [hclients] at hendpoint
    by_cases hpeer : session.peer = addr
    · exact ⟨line, after, session, by rw [hlines, Dict.getElem?_insert_self], hsession, hpeer⟩
    · rw [if_neg hpeer] at hendpoint
      obtain ⟨other, there, session', hthere, hsession', rfl⟩ := h.opened addr endpoint hendpoint
      have hother : line ≠ other := by
        rintro rfl
        cases hfound.symm.trans hthere
        have haddr' := hwired.admitted line found session' hfound hsession'
        exact hpeer (Option.some.inj (haddr.symm.trans haddr'))
      exact ⟨other, there,
        session', by rw [hlines, Dict.getElem?_insert_of_ne hother, hthere], hsession', rfl⟩

theorem Listed.keep (h : board.Listed) (hlines : next.lines = board.lines.insert line after)
    (hclients : next.clients = board.clients)
    (hsession : after.session = (board.lines[line]?).bind (·.session)) :
    next.Listed := by
  constructor
  · intro other there session hthere hs
    rw [hclients]
    rw [hlines] at hthere
    rcases Dict.of_insert hthere with ⟨-, rfl⟩ | ⟨-, hold⟩
    · obtain ⟨found, hfound, hs⟩ := bind_eq_some_iff.1 (hsession ▸ hs)
      exact h.own line found session hfound hs
    · exact h.own other there session hold hs
  · intro addr endpoint hendpoint
    rw [hclients] at hendpoint
    obtain ⟨other, there, session, hthere, hs, hpeer⟩ := h.opened addr endpoint hendpoint
    by_cases hother : line = other
    · subst hother
      rw [hthere, bind_some, hs] at hsession
      exact ⟨line, after, session, by rw [hlines, Dict.getElem?_insert_self], hsession, hpeer⟩
    · exact ⟨other, there,
        session, by rw [hlines, Dict.getElem?_insert_of_ne hother, hthere], hs, hpeer⟩

theorem clients_bindClient {connected : ConnectedClients} {before after : Session}
    (addr : SocketAddr) (hlisted : connected.clients[before.peer]? = some before.endpoint)
    (hpeer : after.peer = before.peer) (hidentity : after.identity = before.identity)
    (huid : after.clientUid = none → before.clientUid = none) :
    (Server.bindClient connected before after).clients[addr]? =
      if after.peer = addr then some after.endpoint else connected.clients[addr]? := by
  have hsame (h : before.clientUid = after.clientUid) : after.endpoint = before.endpoint := by
    simp [Session.endpoint, hpeer, hidentity, h]
  unfold Server.bindClient
  split
  · next heq =>
    split
    · next haddr => rw [← haddr, hpeer, hlisted, hsame heq]
    · rfl
  · next hne =>
    split
    · next uid hafter =>
      rw [ConnectedClients.setUid, hpeer, hlisted]
      rw [Dict.getElem?_insert]
      split
      · simp [Session.endpoint, hpeer, hidentity, hafter]
      · rfl
    · next hafter => exact absurd (by rw [hafter, huid hafter]) hne

theorem Listed.leave (hwired : board.Wired) (h : board.Listed)
    (hfound : board.lines[line]? = some found) (hlines : next.lines = board.lines.erase line)
    (hclients : ∀ addr : SocketAddr, next.clients.clients[addr]? =
      if found.session.map (·.peer) = some addr then none else board.clients.clients[addr]?) :
      next.Listed := by
  constructor
  · intro other there session hthere hsession
    rw [hlines] at hthere
    obtain ⟨hother, hthere⟩ := Dict.of_erase hthere
    have haddr := hwired.admitted other there session hthere hsession
    have hne : found.session.map (·.peer) ≠ some session.peer := by
      intro heq
      obtain ⟨left, hleft, hpeer⟩ := map_eq_some_iff.1 heq
      have hleftAddr := hwired.admitted line found left hfound hleft
      exact hother (hwired.apart line other found there session.peer hfound hthere
        (hpeer ▸ hleftAddr) haddr)
    rw [hclients, if_neg hne]
    exact h.own other there session hthere hsession
  · intro addr endpoint hendpoint
    rw [hclients] at hendpoint
    split at hendpoint
    · cases hendpoint
    · next hne =>
      obtain ⟨other, there, session, hthere, hsession, hpeer⟩ := h.opened addr endpoint hendpoint
      have hother : line ≠ other := by
        rintro rfl
        cases hfound.symm.trans hthere
        exact hne (by rw [hsession, map_some, hpeer])
      exact ⟨other, there,
        session, by rw [hlines, Dict.getElem?_erase_of_ne hother, hthere], hsession, hpeer⟩

/-! ### Steps and runs -/

theorem running_eq_some (h : board.running line = some (found, session)) :
    board.lines[line]? = some found ∧ found.session = some session ∧ session.closed = false := by
  obtain ⟨there, hthere, hmap⟩ := bind_eq_some_iff.1 h
  obtain ⟨kept, hkept, heq⟩ := map_eq_some_iff.1 hmap
  obtain ⟨rfl, rfl⟩ := Prod.mk.inj heq
  obtain ⟨hsession, hopen⟩ := filter_eq_some_iff.1 hkept
  exact ⟨hthere, hsession, by simpa using hopen⟩

theorem Echoless.mono (h : board.Echoless) (hsent : board.sent <+: next.sent)
    (hwithheld : next.withheld = board.withheld) :
    next.Echoless := by
  intro line pos hmem
  rw [hwithheld] at hmem
  obtain ⟨msg, hmsg⟩ := h line pos hmem
  obtain ⟨more, hmore⟩ := hsent
  exact ⟨msg, by rw [← hmore, List.getElem?_append_left (List.getElem?_eq_some_iff.1 hmsg).1, hmsg]⟩

section

variable (h : board.Inv)

include h

theorem Inv.enter {identity : Identity} {listener : Listener}
    (hstep : board.enter line identity listener = some next) : next.Inv := by
  unfold Switchboard.enter at hstep
  split at hstep
  · next pos addr hfound =>
    cases hstep
    exact
      { wired := h.wired.update hfound rfl rfl rfl rfl (Nat.le_refl _) (by simp)
        listed := h.listed.set h.wired hfound rfl rfl rfl fun addr => Dict.getElem?_insert ..
        echoless := h.echoless.mono List.prefix_rfl rfl }
  · cases hstep

/-- A session goes on under its address, and is listed with its uid. -/
theorem Inv.bound (wire : Wire) (registry : RegistryState) (decoded : Decoded)
    (hfound : board.lines[line]? = some found) (hsession : found.session = some session) :
    { board with
      lines := board.lines.insert line { found with
        session := some (session.onEvent wire registry decoded).1 }
      clients := Server.bindClient board.clients session
        (session.onEvent wire registry decoded).1 }.Inv := by
  have haddr := h.wired.admitted line found session hfound hsession
  have huid : (session.onEvent wire registry decoded).1.clientUid = none →
      session.clientUid = none := by
    rw [Session.onEvent_clientUid]
    split <;> simp
  exact
    { wired := h.wired.update hfound rfl rfl rfl rfl (Nat.le_refl _) (by simp [haddr])
      listed := h.listed.set h.wired hfound (by simp [haddr]) rfl rfl fun addr =>
        clients_bindClient addr (h.listed.own line found session hfound hsession)
          Session.onEvent_peer Session.onEvent_identity huid
      echoless := h.echoless.mono List.prefix_rfl rfl }

theorem Inv.send (hlines : next.lines = board.lines)
    (hnext : next.nextLine = board.nextLine) (hsent : next.sent = board.sent ++ [(source, msg)])
    (hclients : next.clients.clients = board.clients.clients)
    (hwithheld : next.withheld = board.withheld)
    (hsource : ∀ (other : Nat) (there : Line), board.lines[other]? = some there →
      there.addr = some msg.sender → source = some other) : next.Inv where
  wired := h.wired.send hlines hnext hsent hsource
  listed := ⟨hlines ▸ hclients ▸ h.listed.own, hlines ▸ hclients ▸ h.listed.opened⟩
  echoless := h.echoless.mono (hsent ▸ List.prefix_append ..) hwithheld

theorem Inv.item {registry : RegistryState} {groups : Groups.State} {routed : List String}
    {decoded : Decoded} (hstep : board.item wire line registry groups routed decoded = some next) :
    next.Inv := by
  obtain ⟨⟨found, session⟩, hrunning, hnext⟩ := map_eq_some_iff.1 hstep
  obtain ⟨hfound, hsession, -⟩ := running_eq_some hrunning
  have hbound : Inv _ := h.bound wire registry decoded hfound hsession
  simp only at hnext
  split at hnext
  · subst hnext
    refine hbound.send rfl rfl rfl ?_ rfl fun other there hthere haddr => ?_
    · split
      · exact ConnectedClients.setLatestSa_clients _
      · rfl
    · -- The message carries the address of its own connection.
      have hself := hbound.wired.admitted line _ _ (Dict.getElem?_insert_self ..) rfl
      exact congrArg some
        (hbound.wired.apart line other _ there _ (Dict.getElem?_insert_self ..) hthere hself haddr)
  · subst hnext
    exact hbound

theorem Inv.deliver (hstep : board.deliver line = some next) : next.Inv := by
  obtain ⟨⟨found, session⟩, hrunning, hnext⟩ := bind_eq_some_iff.1 hstep
  obtain ⟨hfound, hsession, -⟩ := running_eq_some hrunning
  obtain ⟨⟨source, msg⟩, hmsg, rfl⟩ := map_eq_some_iff.1 hnext
  have haddr := h.wired.admitted line found session hfound hsession
  refine
    { wired := h.wired.update hfound rfl rfl rfl rfl (Nat.le_succ _) fun session' hs => ?_
      listed := h.listed.keep rfl rfl (by rw [hfound]; rfl)
      echoless := ?_ }
  · cases hsession.symm.trans hs
    exact haddr
  · intro line' pos hmem
    simp only at hmem
    split at hmem
    · next hsender =>
      rcases List.mem_cons.1 hmem with heq | hold
      · obtain ⟨rfl, rfl⟩ := Prod.mk.inj heq
        obtain rfl := h.wired.pending line' found session.peer hfound haddr found.pos source msg
          (Nat.le_refl _) hmsg hsender
        exact ⟨msg, hmsg⟩
      · exact h.echoless line' pos hold
    · exact h.echoless line' pos hmem

theorem Inv.lag {pos : Nat} (hstep : board.lag line pos = some next) : next.Inv := by
  unfold Switchboard.lag at hstep
  split at hstep
  · next found hfound =>
    split at hstep
    · next hle =>
      cases hstep
      exact
        { wired := h.wired.update hfound rfl rfl rfl rfl hle fun session hs =>
            h.wired.admitted line found session hfound hs
          listed := h.listed.keep rfl rfl (by rw [hfound]; rfl)
          echoless := h.echoless.mono List.prefix_rfl rfl }
    · cases hstep
  · cases hstep

theorem Inv.leave (hstep : board.leave line = some next) : next.Inv := by
  obtain ⟨found, hfound, rfl⟩ := map_eq_some_iff.1 hstep
  refine
    { wired := h.wired.leave rfl rfl rfl
      listed := h.listed.leave h.wired hfound rfl fun addr => ?_
      echoless := h.echoless.mono List.prefix_rfl rfl }
  cases found.session with
  | none => rfl
  | some session => simp [ConnectedClients.unregister]

theorem Inv.admitAs {peer : SocketAddr} {header : Except Unit (Option SocketAddr)}
    (hdistinct : board.distinct trusted (.admitAs line peer header) = true)
    (hstep : board.admitAs trusted line peer header = some next) : next.Inv := by
  unfold Switchboard.admitAs at hstep
  split at hstep
  · next found addr hfound haddr =>
    split at hstep
    · next hnone =>
      cases hstep
      have hfree : board.inUse found addr = false := by
        simpa [distinct, hfound, haddr] using hdistinct
      exact
        { wired := h.wired.admitAs hfound (isNone_iff_eq_none.1 hnone) hfree
          listed := h.listed.keep rfl rfl (by rw [hfound]; rfl)
          echoless := h.echoless.mono List.prefix_rfl rfl }
    · cases hstep
  · cases hstep

private theorem Inv.accept (hstep : board.step trusted wire .accept = some next) : next.Inv := by
  cases hstep
  have hnew : board.lines[board.nextLine]? = none := by
    cases hfound : board.lines[board.nextLine]? with
    | none => rfl
    | some found => exact absurd (h.wired.fresh _ found hfound) (Nat.lt_irrefl _)
  exact
    { wired := h.wired.insert rfl (Nat.le_succ _) (Nat.lt_succ_self
        _) rfl (fun _ hs => by cases hs) fun _ hs => by cases hs
      listed := h.listed.keep rfl rfl (by rw [hnew]; rfl)
      echoless := h.echoless.mono List.prefix_rfl rfl }

theorem Inv.step {action : LineAction} (hdistinct : board.distinct trusted action = true)
    (hstep : board.step trusted wire action = some next) : next.Inv := by
  cases action with
  | accept => exact h.accept hstep
  | admitAs line peer header => exact h.admitAs hdistinct hstep
  | enter line identity listener => exact h.enter hstep
  | item line registry groups routed decoded => exact h.item hstep
  | serverSend msg =>
    cases hstep
    refine h.send rfl rfl rfl rfl rfl fun other there hthere haddr => ?_
    exact absurd rfl (h.wired.outside other there _ hthere haddr)
  | deliver line => exact h.deliver hstep
  | lag line pos => exact h.lag hstep
  | leave line => exact h.leave hstep

end

private theorem inv_init : ({} : Switchboard).Inv where
  wired := by constructor <;> simp
  listed := by constructor <;> simp
  echoless := by simp [Echoless]

end Switchboard

/-- While no address is taken that is in use, the list of connected clients holds each connection in
its loop with its own name and uid and no other, and an event is kept only from its sender. -/
theorem clients_mirror_connections (trusted : SocketAddr → Bool) (wire : Wire)
    (actions : List LineAction) (board : Switchboard)
    (hrun : run (Switchboard.step trusted wire) {} actions = some board)
    (hdistinct : Along (Switchboard.step trusted wire) (fun board action =>
      board.distinct trusted action = true) {} actions) :
      (∀ (line : Nat) (found : Line) (session : Session), board.lines[line]? = some found →
        found.session = some session → board.clients.clients[session.peer]? =
        some session.endpoint) ∧
    (∀ (addr : SocketAddr) (endpoint : ClientEndpoint), board.clients.clients[addr]? =
      some endpoint → ∃ (line : Nat) (found : Line) (session : Session),
        board.lines[line]? = some found ∧ found.session = some session ∧
        endpoint = session.endpoint) ∧
    (∀ (line pos : Nat), (line, pos) ∈ board.withheld → ∃ msg,
      board.sent[pos]? = some (some line, msg)) := by
  have hinv : board.Inv := run_invariant Switchboard.Inv hrun hdistinct Switchboard.inv_init
    fun _ _ _ h => h.step
  refine ⟨hinv.listed.own, fun addr endpoint hendpoint => ?_, hinv.echoless⟩
  obtain ⟨line, found, session, hfound, hsession, rfl⟩ := hinv.listed.opened addr endpoint hendpoint
  have hown := hinv.listed.own line found session hfound hsession
  exact ⟨line, found, session, hfound, hsession, Option.some.inj (hendpoint.symm.trans hown)⟩

namespace TwoPorts

def nobody : SocketAddr → Bool := fun _ => false

/-- A client connects to the TLS port and to the TCP port of the server, from the ports given. -/
def connected (tlsFrom tcpFrom : SocketAddr) : List LineAction :=
  [.accept, .admitAs 0 tlsFrom (.ok none), .enter 0 (.tls "alpha" none) {},
   .accept, .admitAs 1 tcpFrom (.ok none), .enter 1 .tcp {},
   .item 0 {} Groups.freshState [] (Spoof.report "A"), .deliver 1]

end TwoPorts

open TwoPorts in
/-- From one port of the client, which the system allows towards two ports of the server: the event
of one connection is kept from the other, and when the one closes the other is not listed any
more. -/
theorem shared_address_unlists :
    ∃ board, run (Switchboard.step nobody Wire.plain) {}
    (connected "10.0.0.5:4000" "10.0.0.5:4000" ++ [.leave 1]) =
        some board ∧
      (∃ found, board.lines[0]? = some found ∧ found.session.map (·.peer) = some "10.0.0.5:4000" ∧
        found.session.map (·.closed) = some false) ∧
      board.clients.clients["10.0.0.5:4000"]? = none ∧
      board.withheld = [(1, 0)] ∧ (board.sent[0]?).map Prod.fst = some (some 0) := by
  decide +kernel

open TwoPorts in
theorem own_addresses_listed :
    ∃ board, run (Switchboard.step nobody Wire.plain) {}
    (connected "10.0.0.5:4000" "10.0.0.5:4001") = some board ∧
      ∀ (line : Nat) (found : Line) (session : Session), board.lines[line]? = some found →
      found.session = some session →
        board.clients.clients[session.peer]? = some session.endpoint := by
  refine exists_end (fun _ => True) (by decide +kernel) fun board hrun _ => ?_
  exact (clients_mirror_connections nobody Wire.plain _ board hrun (by decide +kernel)).1

end MicroTak.Transport
