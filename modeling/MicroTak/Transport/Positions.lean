import MicroTak.Transport.LatestSa

/-!
# The order in which positions are seen

A connection subscribes to the hub when it is accepted and is shown the latest reports once its
handshake is done, so what was reported in between is shown to it and is still to come from the hub.
And a report goes on record before it is sent, so one that is shown may not have reached the hub.
As long as every report that is shown was sent before the newcomer was accepted, nothing is written
to it twice, and nothing of a sender after something that sender published later.
-/

namespace MicroTak.Transport

open Std Registry Transition Option List

/-- A connection and what it published, counted over all connections. -/
abbrev Publication := Nat × Nat

/-- A connection.  Between the record and the hub its event is `pending`.  What was written to it is
kept in order. -/
structure Link where
  pos : Nat
  session : Option Session := none
  /-- The latest reports have been shown to it. -/
  looping : Bool := false
  pending : Option (Decoded × Nat) := none
  written : List Publication := []

structure Broadcast where
  clients : ConnectedClients := {}
  links : TreeMap Nat Link := ∅
  nextLink : Nat := 0
  /-- What the hub was sent, the clients' events with their publication. -/
  sent : List (Option Publication × Outbound) := []
  published : Nat := 0
  /-- Which publication is on record for an address. -/
  onRecord : TreeMap SocketAddr Publication := ∅

/-- The registry, the groups and the subscribers of missions are taken as they are at the moment. -/
inductive BroadcastAction where
  | accept
  /-- The connection is admitted with an address, and registered. -/
  | register (link : Nat) (addr : SocketAddr) (identity : Identity) (listener : Listener)
  | showLatest (link : Nat) (groups : Groups.State)
  /-- An event, up to the record of the latest report. -/
  | read (link : Nat) (registry : RegistryState) (decoded : Decoded)
  | send (link : Nat) (groups : Groups.State) (routed : List String)
  | serverSend (msg : ServerMessage)
  | deliver (link : Nat) (groups : Groups.State)
  | leave (link : Nat)

theorem ConnectedClients.pairwise_latestSasExcept {connected : ConnectedClients} (addr : SocketAddr)
    (hfiled : connected.Filed) :
    (connected.latestSasExcept addr).Pairwise fun a b => a.1.remoteAddr ≠ b.1.remoteAddr := by
  rw [latestSasExcept, pairwise_map, (perm_insertionSort _ _).pairwise_iff fun h =>
    h.symm, pairwise_filterMap]
  refine TreeMap.distinct_keys_toList.imp fun {a b} hkeys => ?_
  have hentry : ∀ (entry : SocketAddr × String) (made : Nat × ClientEndpoint × String),
      (if entry.1 = addr then none
        else (connected.clients[entry.1]?).map fun endpoint =>
          ((connected.numbers[entry.1]?).getD 0, endpoint, entry.2)) =
        some made → made.2.1.remoteAddr = entry.1 := by
    intro entry made hmade
    split at hmade
    · cases hmade
    · obtain ⟨endpoint, hendpoint, rfl⟩ := map_eq_some_iff.1 hmade
      exact hfiled entry.1 endpoint hendpoint
  intro made hmade made' hmade'
  rw [hentry a made hmade, hentry b made' hmade']
  exact fun heq => hkeys (LawfulEqOrd.compare_eq_iff_eq.2 heq)

namespace Broadcast

variable (wire : Wire) (bus : Broadcast)

/-- A connection whose task waits for its next event or message. -/
def idle (link : Nat) : Option (Link × Session) :=
  (bus.links[link]?).bind fun found =>
    if found.looping && found.pending.isNone then (found.session.filter (!·.closed)).map (found, ·)
      else none

def register (link : Nat) (addr : SocketAddr) (identity : Identity) (listener : Listener) :
    Option Broadcast :=
  (bus.links[link]?).bind fun found =>
    match found.session with
    | some _ => none
    | none => some { bus with
        links := bus.links.insert link { found with
          session := some { peer := addr, listener, identity } }
        clients := bus.clients.register { remoteAddr := addr, identity, uid := none } }

/-- The reports a newcomer is shown: of every other client whose IN groups meet its OUT groups. -/
def shown (session : Session) (groups : Groups.State) : List Publication :=
  if session.listener.latestSa then
    (bus.clients.latestSasExcept session.peer).filterMap fun (endpoint, _) =>
      if (groups.activeGroups endpoint.commonName .incoming ∩
          groups.activeGroups session.identity.commonName .outgoing).Nonempty then
        bus.onRecord[endpoint.remoteAddr]?
      else none
  else []

def showLatest (link : Nat) (groups : Groups.State) : Option Broadcast :=
  (bus.links[link]?).bind fun found =>
    if found.looping then none
    else found.session.map fun session =>
      { bus with
        links := bus.links.insert link { found with
          looping := true, written := bus.shown session groups } }

/-- A relayed event goes on record where it is the connection's own report. -/
def read (link : Nat) (registry : RegistryState) (decoded : Decoded) : Option Broadcast :=
  (bus.idle link).map fun (found, session) =>
    let (next, reaction) := session.onEvent wire registry decoded
    let clients := Server.bindClient bus.clients session next
    match reaction with
    | .relayed =>
        let kept := next.keepsSa decoded.event && (clients.clients[next.peer]?).isSome
        { bus with
          links := bus.links.insert link { found with
            session := some next, pending := some (decoded, bus.published) }
          published := bus.published + 1
          clients := if kept then clients.setLatestSa next.peer (next.relayedXml wire decoded)
            else clients
          onRecord := if kept then bus.onRecord.insert next.peer (link, bus.published)
            else bus.onRecord }
    | _ => { bus with links := bus.links.insert link { found with session := some next }, clients }

def send (link : Nat) (groups : Groups.State) (routed : List String) : Option Broadcast :=
  (bus.links[link]?).bind fun found =>
    match found.session, found.pending with
    | some session, some (decoded, number) => some { bus with
        links := bus.links.insert link { found with pending := none }
        sent := bus.sent ++ [(some (link, number), session.outbound wire groups routed decoded)] }
    | _, _ => none

/-- Whether a hub message is written to the connection. -/
def writes (session : Session) (groups : Groups.State) (msg : Outbound) : Bool :=
  session.accepts (groups.activeGroups session.identity.commonName .outgoing) msg &&
    (!session.protobuf || (wire.encodeOutbound msg.xml).isSome)

def deliver (link : Nat) (groups : Groups.State) : Option Broadcast :=
  (bus.idle link).bind fun (found, session) =>
    (bus.sent[found.pos]?).map fun (publication, msg) =>
      { bus with
        links := bus.links.insert link { found with
          pos := found.pos + 1
          written := if writes wire session groups msg then found.written ++ publication.toList
            else found.written } }

/-- The report of its address goes with a connection. -/
def leave (link : Nat) : Option Broadcast :=
  (bus.links[link]?).bind fun found =>
    if found.pending.isSome then none
    else match found.session with
      | none => some { bus with links := bus.links.erase link }
      | some session => some { bus with
          links := bus.links.erase link
          clients := bus.clients.unregister session.peer
          onRecord := bus.onRecord.erase session.peer }

def step : BroadcastAction → Option Broadcast
  | .accept => some { bus with
      links := bus.links.insert bus.nextLink { pos := bus.sent.length }
      nextLink := bus.nextLink + 1 }
  | .register link addr identity listener => bus.register link addr identity listener
  | .showLatest link groups => bus.showLatest link groups
  | .read link registry decoded => bus.read wire link registry decoded
  | .send link groups routed => bus.send wire link groups routed
  | .serverSend msg => some { bus with sent := bus.sent ++ [(none, msg.outbound)] }
  | .deliver link groups => bus.deliver wire link groups
  | .leave link => bus.leave link

/-- Every report that is shown to a newcomer was sent before the newcomer was accepted. -/
def settled (bus : Broadcast) : BroadcastAction → Bool
  | .showLatest link groups =>
      (bus.links[link]?).all fun found => found.session.all fun session =>
        (bus.shown session groups).all fun publication =>
          (bus.sent.take found.pos).any (·.1 = some publication)
  | _ => true

variable {wire bus} {next : Broadcast} {link : Nat} {found after : Link}

/-- The publication is yet to be taken from the hub at this place, or yet to be sent. -/
def ToCome (bus : Broadcast) (pos link number : Nat) : Prop :=
  (∃ (i : Nat) (msg : Outbound), pos ≤ i ∧ bus.sent[i]? = some (some (link, number), msg)) ∨
    ∃ (found : Link) (decoded : Decoded), bus.links[link]? = some found ∧
      found.pending = some (decoded, number)

variable {pos number other : Nat} {groups : Groups.State} {routed : List String}
  {registry : RegistryState} {decoded : Decoded}

theorem ToCome.of_le {pos' : Nat} (h : bus.ToCome pos link number) (hle : pos' ≤ pos) :
    bus.ToCome pos' link number := by
  rcases h with ⟨i, msg, hi, hsent⟩ | hpending
  · exact .inl ⟨i, msg, Nat.le_trans hle hi, hsent⟩
  · exact .inr hpending

/-- What was written to a connection is in order, and before whatever is to come to it. -/
structure InOrder (bus : Broadcast) (found : Link) : Prop where
  sorted : found.written.Pairwise fun a b => a.1 = b.1 → a.2 < b.2
  counted : ∀ publication ∈ found.written, publication.2 < bus.published
  later : ∀ publication ∈ found.written, ∀ number, bus.ToCome found.pos publication.1 number →
    publication.2 < number

structure Ordered (bus : Broadcast) : Prop where
  fresh : ∀ (link : Nat) (found : Link), bus.links[link]? = some found → link < bus.nextLink
  pending : ∀ (link : Nat) (found : Link) (decoded : Decoded) (number : Nat),
    bus.links[link]? = some found → found.pending = some (decoded, number) → number < bus.published
  hub : ∀ (i link number : Nat) (msg : Outbound), bus.sent[i]? = some (some (link, number), msg) →
    number < bus.published ∧ ∀ other, bus.ToCome (i + 1) link other → number < other
  filed : ∀ (addr : SocketAddr) (endpoint : ClientEndpoint), bus.clients.clients[addr]? =
    some endpoint → endpoint.remoteAddr = addr
  recorded : ∀ (addr : SocketAddr) (publication : Publication), bus.onRecord[addr]? =
    some publication → ∃ (found : Link) (session : Session),
      bus.links[publication.1]? = some found ∧ found.session = some session ∧ session.peer = addr
  written : ∀ (link : Nat) (found : Link), bus.links[link]? = some found → bus.InOrder found

theorem Ordered.init : Ordered {} where
  fresh := fun link found h => by simp at h
  pending := fun link found decoded number h => by simp at h
  hub := fun i link number msg h => by simp at h
  filed := fun addr endpoint h => by simp at h
  recorded := fun addr publication h => by simp at h
  written := fun link found h => by simp at h

/-- Nothing is to come but what was to come, and what is published from now on. -/
def Follows (bus next : Broadcast) : Prop :=
  ∀ pos link number, next.ToCome pos link number → bus.ToCome pos link number ∨
    bus.published ≤ number

theorem InOrder.keep (h : bus.InOrder found) (hcome : bus.Follows next)
    (hpublished : bus.published ≤ next.published) (hwritten : after.written = found.written)
    (hpos : found.pos ≤ after.pos) : next.InOrder after where
  sorted := hwritten ▸ h.sorted
  counted := by
    rw [hwritten]
    exact fun publication hmem => Nat.lt_of_lt_of_le (h.counted publication hmem) hpublished
  later := by
    rw [hwritten]
    intro publication hmem number hnumber
    rcases hcome _ _ _ hnumber with hold | hnew
    · exact h.later publication hmem number (hold.of_le hpos)
    · exact Nat.lt_of_lt_of_le (h.counted publication hmem) hnew

theorem Ordered.hub_keep (h : bus.Ordered) (hcome : bus.Follows next)
    (hpublished : bus.published ≤ next.published) {i : Nat} {msg : Outbound}
    (hsent : bus.sent[i]? = some (some (link, number), msg)) : number < next.published ∧ ∀ other,
    next.ToCome (i + 1) link other → number < other := by
  obtain ⟨hcounted, hlater⟩ := h.hub i link number msg hsent
  refine ⟨Nat.lt_of_lt_of_le hcounted hpublished, fun other hother => ?_⟩
  rcases hcome _ _ _ hother with hold | hnew
  · exact hlater other hold
  · exact Nat.lt_of_lt_of_le hcounted hnew

/-! ### One connection changes -/

theorem follows_of
    (hsent : ∀ (i link number : Nat) (msg : Outbound), next.sent[i]? =
      some (some (link, number), msg) → bus.sent[i]? = some (some (link, number), msg) ∨ ∀ pos,
      bus.ToCome pos link number)
    (hpending : ∀ (link number : Nat) (found : Link) (decoded : Decoded),
      next.links[link]? = some found → found.pending = some (decoded, number) →
      (∀ pos, bus.ToCome pos link number) ∨ bus.published ≤ number) :
    bus.Follows next := by
  rintro pos link number (⟨i, msg, hi, hmsg⟩ | ⟨found, decoded, hfound, hdecoded⟩)
  · rcases hsent i link number msg hmsg with hold | hcome
    · exact .inl (.inl ⟨i, msg, hi, hold⟩)
    · exact .inl (hcome pos)
  · exact (hpending link number found decoded hfound hdecoded).imp_left fun hcome => hcome pos

theorem toCome_of_pending (hfound : bus.links[link]? = some found)
    (hpending : found.pending = some (decoded, number)) (pos : Nat) : bus.ToCome pos link number :=
  .inr ⟨found, decoded, hfound, hpending⟩

section

variable (h : bus.Ordered)

include h

/-- A connection that is new, or goes on under its address: what it has pending it had before or has
just published, and what is sent it had pending. -/
theorem Ordered.insert (hlinks : next.links = bus.links.insert link after)
    (hcount : bus.nextLink ≤ next.nextLink) (hlink : link < next.nextLink)
    (hpublished : bus.published ≤ next.published)
    (hpending : ∀ decoded number, after.pending = some (decoded, number) →
      number < next.published ∧ ((∀ pos, bus.ToCome pos link number) ∨ bus.published ≤ number))
    (hsent : ∀ (i link number : Nat) (msg : Outbound), next.sent[i]? =
      some (some (link, number), msg) → bus.sent[i]? = some (some (link, number), msg) ∨
      (∀ pos, bus.ToCome pos link number) ∧ number < next.published ∧
        ∀ other, next.ToCome (i + 1) link other → number < other) (hfiled : next.clients.Filed)
    (hrecord : ∀ (addr : SocketAddr) (publication : Publication), next.onRecord[addr]? =
      some publication → bus.onRecord[addr]? = some publication ∨
        publication.1 = link ∧ ∃ session, after.session = some session ∧ session.peer = addr)
    (hsession : ∀ (found : Link) (session : Session), bus.links[link]? = some found →
      found.session = some session → ∃ session', after.session = some session' ∧
      session'.peer = session.peer)
    (hwritten : bus.InOrder after) : next.Ordered := by
  have hlinks' {other : Nat} {there : Link} (hthere : next.links[other]? = some there) :
      link = other ∧ after = there ∨ link ≠ other ∧ bus.links[other]? = some there := by
    rw [hlinks] at hthere
    exact Dict.of_insert hthere
  have hcome : bus.Follows next :=
    follows_of (fun i link number msg hmsg => (hsent i link number msg hmsg).imp_right And.left)
      fun other number there decoded hthere hdecoded => by
      rcases hlinks' hthere with ⟨rfl, rfl⟩ | ⟨-, hold⟩
      · exact (hpending decoded number hdecoded).2
      · exact .inl (toCome_of_pending hold hdecoded)
  constructor
  case fresh =>
    intro other there hthere
    rcases hlinks' hthere with ⟨rfl, -⟩ | ⟨-, hold⟩
    · exact hlink
    · exact Nat.lt_of_lt_of_le (h.fresh other there hold) hcount
  case pending =>
    intro other there decoded number hthere hdecoded
    rcases hlinks' hthere with ⟨rfl, rfl⟩ | ⟨-, hold⟩
    · exact (hpending decoded number hdecoded).1
    · exact Nat.lt_of_lt_of_le (h.pending other there decoded number hold hdecoded) hpublished
  case hub =>
    intro i other number msg hmsg
    rcases hsent i other number msg hmsg with hold | ⟨-, hnew⟩
    · exact h.hub_keep hcome hpublished hold
    · exact hnew
  case filed => exact hfiled
  case recorded =>
    intro addr publication hpublication
    rw [hlinks, Dict.getElem?_insert]
    rcases hrecord addr publication hpublication with hold | ⟨rfl, hown⟩
    · obtain ⟨there, session, hthere, hsame, hpeer⟩ := h.recorded addr publication hold
      split
      · next heq =>
        obtain ⟨session', hsession', hpeer'⟩ := hsession there session (heq ▸ hthere) hsame
        exact ⟨after, session', rfl, hsession', hpeer'.trans hpeer⟩
      · exact ⟨there, session, hthere, hsame, hpeer⟩
    · obtain ⟨session, hown⟩ := hown
      rw [if_pos rfl]
      exact ⟨after, session, rfl, hown⟩
  case written =>
    intro other there hthere
    rcases hlinks' hthere with ⟨-, rfl⟩ | ⟨-, hold⟩
    · exact hwritten.keep hcome hpublished rfl (Nat.le_refl _)
    · exact (h.written other there hold).keep hcome hpublished rfl (Nat.le_refl _)

theorem Ordered.update (hfound : bus.links[link]? = some found)
    (hlinks : next.links = bus.links.insert link after) (hsent : next.sent = bus.sent)
    (hnext : next.nextLink = bus.nextLink) (hpublished : next.published = bus.published)
    (hrecord : next.onRecord = bus.onRecord) (hpending : after.pending = found.pending)
    (hsession : ∀ session, found.session = some session → ∃ session',
      after.session = some session' ∧ session'.peer = session.peer)
    (hfiled : next.clients.Filed) (hwritten : bus.InOrder after) : next.Ordered := by
  refine h.insert hlinks hnext.ge (hnext ▸ h.fresh link found hfound) hpublished.ge
    (fun decoded number hdecoded => ?_) (fun i other number msg hmsg => .inl (hsent ▸ hmsg)) hfiled
      (fun addr publication h => .inl (hrecord ▸ h))
    (fun there session hthere => ?_) hwritten
  · rw [hpending] at hdecoded
    exact ⟨hpublished ▸ h.pending link found decoded number hfound hdecoded,
      .inl (toCome_of_pending hfound hdecoded)⟩
  · cases hfound.symm.trans hthere
    exact hsession session

theorem Ordered.accept (hstep : bus.step wire .accept = some next) : next.Ordered := by
  cases hstep
  refine h.insert rfl (Nat.le_succ _) (Nat.lt_succ_self _) (Nat.le_refl _)
    (fun _ _ hnone => by cases hnone) (fun _ _ _ _ hmsg => .inl hmsg) h.filed (fun _ _ h => .inl h)
      (fun found _ hfound => ?_)
    ⟨List.Pairwise.nil, fun _ hmem => (by cases hmem), fun _ hmem => by cases hmem⟩
  exact absurd (h.fresh _ found hfound) (Nat.lt_irrefl _)

theorem Ordered.fewer (hlinks : ∀ (other : Nat) (there : Link), next.links[other]? = some there →
      bus.links[other]? = some there)
    (hsent : ∀ (i other number : Nat) (msg : Outbound), next.sent[i]? =
      some (some (other, number), msg) → bus.sent[i]? = some (some (other, number), msg))
    (hnext : next.nextLink = bus.nextLink) (hpublished : next.published = bus.published)
    (hfiled : next.clients.Filed)
    (hrecorded : ∀ (addr : SocketAddr) (publication : Publication), next.onRecord[addr]? =
      some publication → ∃ (found : Link) (session : Session), next.links[publication.1]? =
      some found ∧ found.session = some session ∧
        session.peer = addr) : next.Ordered := by
  have hcome : bus.Follows next :=
    follows_of (fun i other number msg hmsg => .inl (hsent i other number msg hmsg))
      fun other number there decoded hthere hdecoded =>
        .inl (toCome_of_pending (hlinks other there hthere) hdecoded)
  constructor
  case fresh => exact fun other there hthere =>
    hnext ▸ h.fresh other there (hlinks other there hthere)
  case pending =>
    intro other there decoded number hthere hdecoded
    exact hpublished ▸ h.pending other there decoded number (hlinks other there hthere) hdecoded
  case hub => exact fun i other number msg hmsg =>
    h.hub_keep hcome hpublished.ge (hsent i other number msg hmsg)
  case filed => exact hfiled
  case recorded => exact hrecorded
  case written =>
    intro other there hthere
    exact (h.written other there (hlinks other there hthere)).keep hcome hpublished.ge rfl
      (Nat.le_refl _)

theorem Ordered.leave (hstep : bus.leave link = some next) : next.Ordered := by
  obtain ⟨found, hfound, hstep⟩ := bind_eq_some_iff.1 hstep
  have hlinks (other : Nat) (there : Link) (hthere : (bus.links.erase link)[other]? = some there) :
      bus.links[other]? = some there := (Dict.of_erase hthere).2
  -- What is on record is of a connection with another address.
  have hrecorded (addr : SocketAddr) (publication : Publication)
      (hpublication : bus.onRecord[addr]? = some publication) (hother : ∀ session, found.session =
        some session → session.peer ≠ addr) :
      ∃ (there : Link) (session : Session), (bus.links.erase link)[publication.1]? = some there ∧
        there.session = some session ∧ session.peer = addr := by
    obtain ⟨there, session, hthere, hsession, hpeer⟩ := h.recorded addr publication hpublication
    have hne : link ≠ publication.1 := by
      rintro rfl
      cases hfound.symm.trans hthere
      exact hother session hsession hpeer
    exact ⟨there, session, by rw [Dict.getElem?_erase_of_ne hne, hthere], hsession, hpeer⟩
  split at hstep
  · cases hstep
  · split at hstep
    · next hnone =>
      cases hstep
      refine h.fewer hlinks (fun _ _ _ _ hmsg => hmsg) rfl rfl h.filed
        fun addr publication hpublication => ?_
      exact hrecorded addr publication hpublication fun session hsession => by
        simp [hnone] at hsession
    · next session hsession =>
      cases hstep
      refine h.fewer hlinks (fun _ _ _ _ hmsg => hmsg) rfl rfl (fun addr endpoint hendpoint => ?_)
        fun addr publication hpublication => ?_
      · exact h.filed addr endpoint (Dict.of_erase hendpoint).2
      · obtain ⟨hne, hold⟩ := Dict.of_erase hpublication
        exact hrecorded addr publication hold fun other hother =>
          Option.some.inj (hsession.symm.trans hother) ▸ hne

theorem Ordered.serverSend {msg : ServerMessage}
    (hstep : bus.step wire (.serverSend msg) = some next) : next.Ordered := by
  cases hstep
  refine h.fewer (fun _ _ hthere => hthere) (fun i other number out hout =>
    ?_) rfl rfl h.filed h.recorded
  rw [getElem?_append] at hout
  split at hout
  · exact hout
  · have hlast := mem_of_getElem? hout
    simp at hlast

/-- What was pending is sent: it was to come to everyone before, and nothing of its sender comes
after it. -/
theorem Ordered.send (hstep : bus.send wire link groups routed = some next) : next.Ordered := by
  obtain ⟨found, hfound, hstep⟩ := bind_eq_some_iff.1 hstep
  split at hstep
  · next session decoded number hsession hpending =>
    cases hstep
    have hbefore := h.written link found hfound
    refine h.insert rfl (Nat.le_refl _) (h.fresh link found hfound) (Nat.le_refl _)
      (fun _ _ hnone => by cases hnone) (fun i other n out hout => ?_) h.filed (fun _ _ h => .inl h)
        (fun there own hthere hown => ⟨own, ?_, rfl⟩)
      ⟨hbefore.sorted, hbefore.counted, hbefore.later⟩
    · rw [getElem?_append] at hout
      split at hout
      · exact .inl hout
      · next hge =>
        obtain ⟨hlt, hlast⟩ := List.getElem?_eq_some_iff.1 hout
        simp only [getElem_singleton] at hlast
        obtain ⟨⟨rfl, rfl⟩, -⟩ := hlast
        refine .inr ⟨toCome_of_pending hfound hpending,
          h.pending link found decoded number hfound hpending, ?_⟩
        rintro later (⟨j, out', hj, hout'⟩ | ⟨there, seen, hthere, hseen⟩)
        · have hbound := (List.getElem?_eq_some_iff.1 hout').1
          simp only [length_append, length_singleton] at hbound
          omega
        · rw [Dict.getElem?_insert_self] at hthere
          cases hthere
          cases hseen
    · cases hfound.symm.trans hthere
      exact hown
  · cases hstep

end

theorem idle_eq_some {session : Session} (h : bus.idle link = some (found, session)) :
    bus.links[link]? = some found ∧ found.pending = none ∧ found.session = some session ∧
      session.closed = false := by
  obtain ⟨there, hthere, h⟩ := bind_eq_some_iff.1 h
  split at h
  · next hidle =>
    obtain ⟨kept, hkept, heq⟩ := map_eq_some_iff.1 h
    obtain ⟨rfl, rfl⟩ := Prod.mk.inj heq
    rw [Bool.and_eq_true, isNone_iff_eq_none] at hidle
    obtain ⟨hsession, hopen⟩ := filter_eq_some_iff.1 hkept
    exact ⟨hthere, hidle.2, hsession, by simpa using hopen⟩
  · cases h

theorem Ordered.register {addr : SocketAddr} {identity : Identity} {listener : Listener}
    (h : bus.Ordered) (hstep : bus.register link addr identity listener = some next) :
    next.Ordered := by
  obtain ⟨found, hfound, hstep⟩ := bind_eq_some_iff.1 hstep
  split at hstep
  · cases hstep
  · next hnone =>
    cases hstep
    refine h.update hfound rfl rfl rfl rfl rfl rfl
      (fun session hsession => by simp [hnone] at hsession) ?_ ?_
    · intro other endpoint hendpoint
      rcases Dict.of_insert hendpoint with ⟨heq, rfl⟩ | ⟨-, hold⟩
      · exact heq
      · exact h.filed other endpoint hold
    · have hbefore := h.written link found hfound
      exact ⟨hbefore.sorted, hbefore.counted, hbefore.later⟩

private theorem Ordered.pairwise_shown (h : bus.Ordered) (session : Session)
    (groups : Groups.State) : (bus.shown session groups).Pairwise fun a b => a.1 ≠ b.1 := by
  unfold shown
  split
  · rw [pairwise_filterMap]
    refine (ConnectedClients.pairwise_latestSasExcept session.peer h.filed).imp fun {a b} haddr =>
      ?_
    intro p hp q hq hsame
    rw [ite_none_right_eq_some] at hp hq
    obtain ⟨there, own, hthere, hown, hpeer⟩ := h.recorded _ p hp.2
    obtain ⟨there', own', hthere', hown', hpeer'⟩ := h.recorded _ q hq.2
    rw [hsame, hthere'] at hthere
    cases hthere
    cases hown.symm.trans hown'
    exact haddr (hpeer.symm.trans hpeer')
  · exact List.Pairwise.nil

theorem Ordered.showLatest (h : bus.Ordered)
    (hsettled : bus.settled (.showLatest link groups) = true)
    (hstep : bus.showLatest link groups = some next) : next.Ordered := by
  obtain ⟨found, hfound, hstep⟩ := bind_eq_some_iff.1 hstep
  split at hstep
  · cases hstep
  · obtain ⟨session, hsession, rfl⟩ := map_eq_some_iff.1 hstep
    refine h.update hfound rfl rfl rfl rfl rfl rfl (fun other hother =>
      ⟨other, hother, rfl⟩) h.filed ?_
    have hsent : ∀ publication ∈ bus.shown session groups, ∃ (i : Nat) (msg : Outbound),
        i < found.pos ∧ bus.sent[i]? = some (some (publication.1, publication.2), msg) := by
      intro publication hshown
      simp only [settled, hfound, hsession, all_some] at hsettled
      obtain ⟨⟨source, msg⟩, hmem, hsource⟩ :=
        any_eq_true.1 (all_eq_true.1 hsettled publication hshown)
      obtain ⟨i, hi, hget⟩ := getElem_of_mem hmem
      rw [decide_eq_true_eq] at hsource
      rw [length_take] at hi
      refine ⟨i, msg, Nat.lt_of_lt_of_le hi (Nat.min_le_left ..), ?_⟩
      rw [getElem_take] at hget
      rw [getElem?_eq_getElem (Nat.lt_of_lt_of_le hi (Nat.min_le_right ..)), hget, ← hsource]
    constructor
    · exact (h.pairwise_shown session groups).imp fun hne heq => absurd heq hne
    · intro publication hshown
      obtain ⟨i, msg, -, hmsg⟩ := hsent publication hshown
      exact (h.hub i _ _ msg hmsg).1
    · intro publication hshown number hnumber
      obtain ⟨i, msg, hi, hmsg⟩ := hsent publication hshown
      exact (h.hub i _ _ msg hmsg).2 number (hnumber.of_le hi)

theorem Ordered.deliver (h : bus.Ordered) (hstep : bus.deliver wire link groups = some next) :
    next.Ordered := by
  obtain ⟨⟨found, session⟩, hidle, hstep⟩ := bind_eq_some_iff.1 hstep
  obtain ⟨⟨publication, msg⟩, hmsg, rfl⟩ := map_eq_some_iff.1 hstep
  obtain ⟨hfound, -, -, -⟩ := idle_eq_some hidle
  have hbefore := h.written link found hfound
  have hpast : bus.InOrder { found with pos := found.pos + 1 } :=
    hbefore.keep (fun _ _ _ hcome => .inl hcome) (Nat.le_refl _) rfl (Nat.le_succ _)
  refine h.update hfound rfl rfl rfl rfl rfl rfl (fun other hother =>
    ⟨other, hother, rfl⟩) h.filed ?_
  split
  · cases publication with
    | none => rw [toList_none, append_nil]; exact hpast
    | some publication =>
      obtain ⟨hcounted, hlater⟩ := h.hub found.pos publication.1 publication.2 msg hmsg
      constructor
      · refine pairwise_append.2 ⟨hbefore.sorted, pairwise_singleton _ _, ?_⟩
        intro a ha b hb hsame
        rw [toList_some, mem_singleton] at hb
        rw [hb] at hsame ⊢
        exact hbefore.later a ha publication.2 (.inl ⟨found.pos, msg, Nat.le_refl _, hsame ▸ hmsg⟩)
      · intro a ha
        rcases mem_append.1 ha with hold | hnew
        · exact hpast.counted a hold
        · rw [toList_some, mem_singleton] at hnew
          exact hnew ▸ hcounted
      · intro a ha number hnumber
        rcases mem_append.1 ha with hold | hnew
        · exact hpast.later a hold number hnumber
        · rw [toList_some, mem_singleton] at hnew
          rw [hnew] at hnumber ⊢
          exact hlater number hnumber
  · exact hpast

/-- What reading an event does: it may bind the connection's uid; a relayed one is pending with a
new number, and may go on record. -/
theorem read_eq_some (hstep : bus.read wire link registry decoded = some next) :
    ∃ (found : Link) (session after : Session), bus.links[link]? = some found ∧
    found.session = some session ∧
      found.pending = none ∧ after.peer = session.peer ∧
      next.clients.clients = (Server.bindClient bus.clients session after).clients ∧
      next.sent = bus.sent ∧ next.nextLink = bus.nextLink ∧
      ((next.links = bus.links.insert link { found with session := some after } ∧
        next.published = bus.published ∧
          next.onRecord = bus.onRecord) ∨
        next.links = bus.links.insert link
        { found with session := some after, pending := some (decoded, bus.published) } ∧
          next.published = bus.published + 1 ∧
          (next.onRecord = bus.onRecord ∨ next.onRecord = bus.onRecord.insert after.peer
            (link, bus.published))) := by
  obtain ⟨⟨found, session⟩, hidle, rfl⟩ := map_eq_some_iff.1 hstep
  obtain ⟨hfound, hpending, hsession, -⟩ := idle_eq_some hidle
  refine ⟨found, session, (session.onEvent wire registry decoded).1, hfound, hsession, hpending,
    Session.onEvent_peer, ?_⟩
  dsimp only
  split
  · refine ⟨?_, rfl, rfl, .inr ⟨rfl, rfl, ?_⟩⟩
    · split
      · exact ConnectedClients.setLatestSa_clients _
      · rfl
    · split
      · exact .inr rfl
      · exact .inl rfl
  · exact ⟨rfl, rfl, rfl, .inl ⟨rfl, rfl, rfl⟩⟩

private theorem Ordered.read (h : bus.Ordered)
    (hstep : bus.read wire link registry decoded = some next) : next.Ordered := by
  obtain ⟨found, session, after, hfound, hsession, hpending, hpeer, hclients, hsent, hnext,
    hcases⟩ := read_eq_some hstep
  have hfiled : next.clients.Filed := by
    rw [ConnectedClients.Filed, hclients]
    exact Server.filed_bindClient h.filed
  have hkept : bus.InOrder { found with session := some after } :=
    (h.written link found hfound).keep (fun _ _ _ hcome => .inl hcome) (Nat.le_refl _) rfl
      (Nat.le_refl _)
  rcases hcases with ⟨hlinks, hpublished, hrecord⟩ | ⟨hlinks, hpublished, hrecord⟩
  · refine h.update hfound hlinks hsent hnext hpublished hrecord rfl (fun other hother =>
      ⟨after, rfl, ?_⟩) hfiled hkept
    rw [hpeer, Option.some.inj (hsession.symm.trans hother)]
  · refine h.insert hlinks hnext.ge (hnext ▸ h.fresh link found hfound) (hpublished ▸ Nat.le_succ _)
      (fun seen number hseen => ?_) (fun i other number msg hmsg => .inl (hsent ▸ hmsg)) hfiled
        (fun addr publication hrecorded => ?_)
      (fun there own hthere hown => ⟨after, rfl, ?_⟩) ⟨hkept.sorted, hkept.counted, hkept.later⟩
    · cases hseen
      exact ⟨hpublished ▸ Nat.lt_succ_self _, .inr (Nat.le_refl _)⟩
    · rcases hrecord with hsame | hinsert
      · exact .inl (hsame ▸ hrecorded)
      · rw [hinsert] at hrecorded
        rcases Dict.of_insert hrecorded with ⟨hpeer, rfl⟩ | ⟨-, hold⟩
        · exact .inr ⟨rfl, after, rfl, hpeer⟩
        · exact .inl hold
    · cases hfound.symm.trans hthere
      rw [hpeer, Option.some.inj (hsession.symm.trans hown)]

private theorem Ordered.step {action : BroadcastAction} (h : bus.Ordered)
    (hsettled : bus.settled action = true) (hstep : bus.step wire action = some next) :
    next.Ordered := by
  cases action with
  | accept => exact h.accept hstep
  | register link addr identity listener => exact h.register hstep
  | showLatest link groups => exact h.showLatest hsettled hstep
  | read link registry decoded => exact h.read hstep
  | send link groups routed => exact h.send hstep
  | serverSend msg => exact h.serverSend hstep
  | deliver link groups => exact h.deliver hstep
  | leave link => exact h.leave hstep

theorem positions_in_order (wire : Wire) (actions : List BroadcastAction) (bus : Broadcast)
    (hrun : run (step wire) {} actions = some bus)
    (hsettled : Along (step wire) (fun bus action => bus.settled action = true) {} actions)
    (link : Nat) (found : Link) (hfound : bus.links[link]? = some found) :
    (∀ (i j : Nat) (publication : Publication), found.written[i]? = some publication →
        found.written[j]? = some publication → i = j) ∧
      ∀ (i j sender first second : Nat), first < second →
      found.written[i]? = some (sender, second) →
        found.written[j]? = some (sender, first) → j < i := by
  have hordered : bus.Ordered := run_invariant Ordered hrun hsettled Ordered.init fun _ _ _ h =>
    h.step
  have hsorted := (hordered.written link found hfound).sorted
  -- two places of one sender are in the order of publication
  have hplaces : ∀ (i j : Nat) (a b : Publication), found.written[i]? = some a →
      found.written[j]? = some b → i < j → a.1 = b.1 → a.2 < b.2 := by
    intro i j a b ha hb hlt
    obtain ⟨hi, rfl⟩ := List.getElem?_eq_some_iff.1 ha
    obtain ⟨hj, rfl⟩ := List.getElem?_eq_some_iff.1 hb
    exact pairwise_iff_getElem.1 hsorted i j hi hj hlt
  constructor
  · intro i j publication hi hj
    rcases Nat.lt_trichotomy i j with hlt | heq | hgt
    · exact absurd (hplaces i j _ _ hi hj hlt rfl) (Nat.lt_irrefl _)
    · exact heq
    · exact absurd (hplaces j i _ _ hj hi hgt rfl) (Nat.lt_irrefl _)
  · intro i j sender first second hlt hi hj
    rcases Nat.lt_trichotomy i j with hbefore | heq | hafter
    · exact absurd (hplaces i j _ _ hi hj hbefore rfl) (Nat.lt_asymm hlt)
    · rw [heq, hj] at hi
      cases hi
      exact absurd hlt (Nat.lt_irrefl _)
    · exact hafter

namespace Moving

open Groups (freshState)

def listener : Listener := { latestSa := true }

def enters (link : Nat) (addr : SocketAddr) : List BroadcastAction :=
  [.register link addr .tcp listener, .showLatest link freshState]

def reports (link : Nat) : List BroadcastAction :=
  [.read link {} (Spoof.report "A"), .send link freshState []]

/-- The newcomer is accepted after the first report, and the second comes to it from the hub. -/
def reportedTwice : List BroadcastAction :=
  [.accept] ++ enters 0 "a" ++ reports 0 ++ [.accept] ++ enters 1 "b" ++ reports 0 ++
    [.deliver 1 freshState]

/-- The newcomer is accepted before both reports, and shown the second one. -/
def overtaken : List BroadcastAction :=
  [.accept] ++ enters 0 "a" ++ [.accept] ++ reports 0 ++ reports 0 ++ enters 1 "b" ++
    [.deliver 1 freshState, .deliver 1 freshState]

end Moving

open Moving in
theorem positions_in_order_in_turn :
    ∃ bus, run (step Wire.plain) {} reportedTwice = some bus ∧ ∃ found :
    Link, bus.links[1]? = some found ∧
      found.written = [(0, 0), (0, 1)] ∧
      ∀ (i j : Nat) (publication : Publication), found.written[i]? = some publication →
        found.written[j]? = some publication → i = j := by
  refine exists_end (fun bus => ∃ found : Link, bus.links[1]? = some found ∧
    found.written = [(0, 0), (0, 1)]) (by decide +kernel) fun bus hrun hend => ?_
  obtain ⟨found, hfound, hwritten⟩ := hend
  exact ⟨found, hfound, hwritten,
    (positions_in_order Wire.plain reportedTwice bus hrun (by decide +kernel) 1 found hfound).1⟩

open Moving in
/-- The newcomer sees the second report, then the first, then the second again. -/
theorem position_runs_backwards :
    ∃ bus, run (step Wire.plain) {} overtaken = some bus ∧ ∃ found :
    Link, bus.links[1]? = some found ∧
      found.written = [(0, 1), (0, 0), (0, 1)] := by
  decide +kernel

end Broadcast

end MicroTak.Transport
