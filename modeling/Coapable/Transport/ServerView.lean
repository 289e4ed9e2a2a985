import Coapable.Transport.ClientView

/-!
# The loop refines the server tables

The other half of a session.  `CoapStack.server` is what the stack keeps of a
peer as a server: the deduplication table with the answers cached in it, and
the MIDs of the CON requests that wait for their answer.  As for the
exchanges, a peer without a session has empty tables.

`ServerTable.apply` says what each of five events does to the tables and
which ACK it sends, and `server_step` that every step of the loop applies
exactly the event that `CoapStack.serverEvent` names.
-/

namespace Coapable.Transport

open Coapable.CoapLite
open Coapable.Foundation.FiniteMap
open Coapable.MessageTypes

/-! ## The machine -/

/-- What can happen to the tables that a session keeps as a server. -/
inductive ServerEvent where
  | idle
  /-- A CON or NON arrived whose MID is in the table. -/
  | duplicated (mid : UInt16) (confirmable : Bool)
  /-- Any other CON or NON arrived: the token if it is a CON request, and the
  encoded ACK if it is another CON. -/
  | accepted (mid : UInt16) (now : Nat) (request : Option Token)
      (ack : Option Bytes)
  /-- The server answered: the answer as an ACK under any MID. -/
  | responded (token : Token) (encode : UInt16 → Option Bytes)
  /-- The retransmission timer ran. -/
  | ticked (now : Nat)

/-- An ACK that is sent to the peer. -/
structure SentAck where
  mid : UInt16
  bytes : Bytes
  deriving DecidableEq

namespace ServerTable

/-- Nothing was received. -/
def empty : ServerTable := ⟨∅, ∅⟩

/-- The answer that is cached for a MID. -/
def cachedResponse (table : ServerTable) (mid : UInt16) : Option Bytes :=
  (table.inboundDedup.lookup mid).bind DedupEntry.cachedResponse

/-- Cache an answer with the entry of a MID, if there is one. -/
def cache (table : ServerTable) (mid : UInt16) (bytes : Bytes) :
    ServerTable :=
  { table with
    inboundDedup :=
      modify mid
        (fun entry => { entry with cachedResponse := some bytes })
        table.inboundDedup }

/-- The answer under a token is for a CON request that waits. -/
def piggyback (table : ServerTable) (token : Token)
    (encode : UInt16 → Option Bytes) : Option SentAck :=
  (table.inboundConMids.lookup token).bind fun mid =>
    (encode mid).map (SentAck.mk mid)

/-- One event: the tables afterwards and the ACK that is sent. -/
def apply (table : ServerTable) :
    ServerEvent → ServerTable × Option SentAck
  | .idle => (table, none)
  | .duplicated mid confirmable =>
      (table,
        if confirmable then
          (table.cachedResponse mid).map (SentAck.mk mid)
        else none)
  | .accepted mid now request ack =>
      ({ inboundDedup := table.inboundDedup.insert mid ⟨ack, now⟩
         inboundConMids :=
          match request with
          | some token => table.inboundConMids.insert token mid
          | none => table.inboundConMids },
        ack.map (SentAck.mk mid))
  | .responded token encode =>
      let taken : ServerTable :=
        { table with inboundConMids := table.inboundConMids.erase token }
      match table.piggyback token encode with
      | some ack => (taken.cache ack.mid ack.bytes, some ack)
      | none => (taken, none)
  | .ticked now =>
      ({ table with
          inboundDedup :=
            retain (fun _ entry => now - entry.created < exchangeLifetime)
              table.inboundDedup },
        none)

/-! ## The tables after an event -/

theorem ext_lookup {left right : ServerTable}
    (dedup : ∀ mid,
      left.inboundDedup.lookup mid = right.inboundDedup.lookup mid)
    (conMids : ∀ token,
      left.inboundConMids.lookup token =
        right.inboundConMids.lookup token) :
    left = right := by
  rcases left with ⟨leftDedup, leftConMids⟩
  rcases right with ⟨rightDedup, rightConMids⟩
  rw [mk.injEq]
  exact ⟨Finmap.ext_lookup dedup, Finmap.ext_lookup conMids⟩

theorem cache_entry
    (table : ServerTable) (mid other : UInt16) (bytes : Bytes) :
    (table.cache mid bytes).inboundDedup.lookup other =
      if other = mid then
        (table.inboundDedup.lookup other).map fun entry =>
          { entry with cachedResponse := some bytes }
      else table.inboundDedup.lookup other :=
  lookup_modify _ _ _ _

theorem cachedResponse_cache
    (table : ServerTable) (mid other : UInt16) (bytes : Bytes) :
    (table.cache mid bytes).cachedResponse other =
      if other = mid then
        (table.inboundDedup.lookup other).map fun _ => bytes
      else table.cachedResponse other := by
  rw [cachedResponse, cache_entry]
  split
  · cases table.inboundDedup.lookup other <;> rfl
  · rfl

theorem ticked_entry
    (table : ServerTable) (now : Nat) (mid : UInt16) :
    (table.apply (.ticked now)).1.inboundDedup.lookup mid =
      (table.inboundDedup.lookup mid).filter fun entry =>
        now - entry.created < exchangeLifetime :=
  lookup_retain _ _ _

/-- An answer under a token is sent as the ACK of the request that waits. -/
theorem responded_ack_iff
    (table : ServerTable) (token : Token)
    (encode : UInt16 → Option Bytes) (mid : UInt16) (bytes : Bytes) :
    (table.apply (.responded token encode)).2 = some ⟨mid, bytes⟩ ↔
      table.inboundConMids.lookup token = some mid ∧
        encode mid = some bytes := by
  have sent : (table.apply (.responded token encode)).2 =
      table.piggyback token encode := by
    simp only [apply]
    cases table.piggyback token encode <;> rfl
  rw [sent, piggyback, Option.bind_eq_some_iff]
  constructor
  · rintro ⟨waiting, found, made⟩
    rcases Option.map_eq_some_iff.mp made with ⟨_, encoded, equal⟩
    cases equal
    exact ⟨found, encoded⟩
  · rintro ⟨found, encoded⟩
    exact ⟨mid, found, by rw [encoded]; rfl⟩

/-- When the entry for the MID was created, after an event. -/
theorem created_apply
    (table : ServerTable) (event : ServerEvent) (mid : UInt16) :
    ((table.apply event).1.inboundDedup.lookup mid).map
        DedupEntry.created =
      match event with
      | .accepted recorded now _ _ =>
          if mid = recorded then some now
          else (table.inboundDedup.lookup mid).map DedupEntry.created
      | .ticked now =>
          ((table.inboundDedup.lookup mid).map
            DedupEntry.created).filter fun created =>
              now - created < exchangeLifetime
      | _ => (table.inboundDedup.lookup mid).map DedupEntry.created := by
  cases event with
  | idle => rfl
  | duplicated => rfl
  | accepted recorded now request ack =>
      simp only [apply, lookup_insert_eq]
      split <;> rfl
  | responded token encode =>
      simp only [apply]
      split
      · rw [cache_entry]
        split
        · rw [Option.map_map]
          rfl
        · rfl
      · rfl
  | ticked now =>
      rw [ticked_entry]
      cases table.inboundDedup.lookup mid with
      | none => rfl
      | some entry =>
          simp only [Option.filter, Option.map_some]
          split <;> rfl

/-- What is cached after an event was cached before, or it is the ACK that
the event sends. -/
theorem cachedResponse_apply_cases
    {table : ServerTable} {event : ServerEvent} {mid : UInt16}
    {bytes : Bytes}
    (cached : (table.apply event).1.cachedResponse mid = some bytes) :
    table.cachedResponse mid = some bytes ∨
      (table.apply event).2 = some ⟨mid, bytes⟩ := by
  cases event with
  | idle => exact Or.inl cached
  | duplicated => exact Or.inl cached
  | accepted recorded now request ack =>
      simp only [apply, cachedResponse, lookup_insert_eq] at cached ⊢
      split at cached
      · next equal =>
          rw [Option.bind_some] at cached
          change ack = some bytes at cached
          rw [cached, equal]
          exact Or.inr rfl
      · exact Or.inl cached
  | responded token encode =>
      simp only [apply] at cached ⊢
      split at cached
      · next ack sent =>
          rw [cachedResponse_cache] at cached
          split at cached
          · next equal =>
              rcases Option.map_eq_some_iff.mp cached with ⟨_, _, rfl⟩
              rw [equal]
              exact Or.inr rfl
          · exact Or.inl cached
      · exact Or.inl cached
  | ticked now =>
      rw [cachedResponse, ticked_entry] at cached
      rcases Option.bind_eq_some_iff.mp cached with
        ⟨entry, kept, isBytes⟩
      rw [cachedResponse, (Option.filter_eq_some_iff.mp kept).1]
      exact Or.inl isBytes

/-- The MID that waits for its answer under a token, after an event. -/
theorem conMid_apply
    (table : ServerTable) (event : ServerEvent) (token : Token) :
    (table.apply event).1.inboundConMids.lookup token =
      match event with
      | .accepted mid _ (some recorded) _ =>
          if token = recorded then some mid
          else table.inboundConMids.lookup token
      | .responded taken _ =>
          if token = taken then none
          else table.inboundConMids.lookup token
      | _ => table.inboundConMids.lookup token := by
  cases event with
  | idle => rfl
  | duplicated => rfl
  | accepted mid now request ack =>
      cases request with
      | none => rfl
      | some recorded => exact lookup_insert_eq _ _ _ _
  | responded taken encode =>
      simp only [apply]
      split <;> exact lookup_erase_eq _ _ _
  | ticked now => rfl

end ServerTable

/-! ## The events of the loop -/

/-- The event an inbound packet is for the server tables of its sender. -/
def packetServerEvent (codec : Codec) (duplicate : Bool) (now : Nat)
    (parsed : Packet) : ServerEvent :=
  match parsed.header.messageType with
  | .confirmable =>
      if duplicate then .duplicated parsed.header.messageId true
      else
        match parsed.header.code with
        | .request _ =>
            .accepted parsed.header.messageId now (some parsed.token) none
        | _ =>
            .accepted parsed.header.messageId now none
              (codec.toBytes (emptyAck parsed.header.messageId))
  | .nonConfirmable =>
      if duplicate then .duplicated parsed.header.messageId false
      else .accepted parsed.header.messageId now none none
  | _ => .idle

/-- Only a CON or NON that is no duplicate is accepted. -/
theorem packetServerEvent_accepted
    {codec : Codec} {duplicate : Bool} {now recorded : Nat} {parsed : Packet}
    {mid : UInt16} {request : Option Token} {ack : Option Bytes}
    (event : packetServerEvent codec duplicate now parsed =
      .accepted mid recorded request ack) :
    (parsed.header.messageType = .confirmable ∨
        parsed.header.messageType = .nonConfirmable) ∧
      parsed.header.messageId = mid ∧ duplicate = false ∧ recorded = now := by
  simp only [packetServerEvent] at event
  split at event
  · next kind =>
      split at event
      · cases event
      · next fresh =>
          have facts : parsed.header.messageId = mid ∧ now = recorded := by
            split at event <;> cases event <;> exact ⟨rfl, rfl⟩
          exact ⟨Or.inl kind, facts.1,
            Bool.eq_false_of_not_eq_true fresh, facts.2.symm⟩
  · next kind =>
      split at event
      · cases event
      · next fresh =>
          cases event
          exact ⟨Or.inr kind, rfl, Bool.eq_false_of_not_eq_true fresh, rfl⟩
  · cases event

theorem packetServerEvent_ne_ticked
    (codec : Codec) (duplicate : Bool) (now recorded : Nat)
    (parsed : Packet) :
    packetServerEvent codec duplicate now parsed ≠ .ticked recorded := by
  simp only [packetServerEvent]
  split
  · split
    · simp
    · split <;> simp
  · split <;> simp
  · simp

theorem packetServerEvent_ne_responded
    (codec : Codec) (duplicate : Bool) (now : Nat) (parsed : Packet)
    (token : Token) (encode : UInt16 → Option Bytes) :
    packetServerEvent codec duplicate now parsed ≠
      .responded token encode := by
  simp only [packetServerEvent]
  split
  · split
    · simp
    · split <;> simp
  · split <;> simp
  · simp

/-- A server response as the ACK of a CON request. -/
def ServerResponse.piggybacked (codec : Codec)
    (outbound : ServerResponse) (mid : UInt16) : Packet :=
  outbound.response.toPacket codec outbound.token mid .acknowledgement

namespace CoapStack

/-- What was received from the peer, nothing where it has no session. -/
def server (stack : CoapStack) (peer : SocketAddr) : ServerTable :=
  match stack.sessions.lookup peer with
  | some session => session.server
  | none => .empty

/-- The event an iteration is for the server tables of a peer. -/
def serverEvent (codec : Codec) (stack : CoapStack)
    (iteration : Iteration) (peer : SocketAddr) : ServerEvent :=
  match iteration.branch with
  | .inbound raw source =>
      if source = peer then
        match codec.fromBytes raw with
        | some parsed =>
            packetServerEvent codec
              (stack.isDuplicate peer parsed.header.messageId)
              iteration.now parsed
        | none => .idle
      else .idle
  | .outboundResponse (some outbound) =>
      if outbound.peer = peer then
        .responded outbound.token fun mid =>
          codec.toBytes (outbound.piggybacked codec mid)
      else .idle
  | .retransmissionTimer _ => .ticked iteration.now
  | _ => .idle

end CoapStack

/-! ## Sessions -/

@[simp]
theorem sessionFor_server
    (stack : CoapStack) (iteration : Iteration) (peer : SocketAddr) :
    (stack.sessionFor iteration peer).server = stack.server peer := by
  rw [CoapStack.sessionFor, CoapStack.server]
  cases stack.sessions.lookup peer <;> rfl

theorem putSession_server
    (stack : CoapStack) (peer other : SocketAddr)
    (session : PeerSession) :
    (stack.putSession peer session).server other =
      if other = peer then session.server else stack.server other := by
  rw [CoapStack.server, lookup_putSession]
  by_cases equal : other = peer <;> simp [equal, CoapStack.server]

theorem isDuplicate_eq_entry
    (stack : CoapStack) (peer : SocketAddr) (mid : UInt16) :
    stack.isDuplicate peer mid =
      ((stack.server peer).inboundDedup.lookup mid).isSome := by
  rw [CoapStack.isDuplicate, CoapStack.server]
  cases stack.sessions.lookup peer <;> rfl

/-- What accepting a CON or NON records. -/
theorem recordMessage_server
    {codec : Codec} (session : PeerSession) (now : Nat)
    (peer : SocketAddr) {parsed : Packet}
    (kind : parsed.header.messageType = .confirmable ∨
      parsed.header.messageType = .nonConfirmable) :
    (recordMessage codec session now peer parsed).1.server =
      (session.server.apply
        (packetServerEvent codec false now parsed)).1 := by
  simp only [recordMessage, acknowledgeCon]
  rcases kind with kind | kind
  · rw [if_pos kind, packetServerEvent, kind]
    simp only [Bool.false_eq_true, if_false]
    have acknowledged (bytes : Bytes) :
        ((session.recordInboundMid parsed.header.messageId
            now).cacheResponseForMid parsed.header.messageId
              bytes).server =
          (session.server.apply
            (.accepted parsed.header.messageId now none
              (some bytes))).1 := by
      simp only [PeerSession.server, PeerSession.cacheResponseForMid,
        PeerSession.recordInboundMid, ServerTable.apply,
        modify_insert_self]
    cases encoded : codec.toBytes (emptyAck parsed.header.messageId) with
    | none => cases parsed.header.code <;> rfl
    | some bytes =>
        cases parsed.header.code with
        | request method => rfl
        | empty | response | reserved => exact acknowledged bytes
  · rw [if_neg (by simp [kind]), packetServerEvent, kind]
    rfl

/-- One parsed packet is one event for the server tables of its sender. -/
theorem receivePacket_server
    {codec : Codec} {session after : PeerSession} {now : Nat}
    {peer : SocketAddr} {parsed : Packet} {effects : List Effect}
    (received :
      receivePacket codec session now peer parsed =
        .ok (after, effects)) :
    after.server =
      (session.server.apply
        (packetServerEvent codec
          (session.isDuplicate parsed.header.messageId) now
          parsed)).1 := by
  rcases receivePacket_cases received with
    ⟨kind, finished⟩ | ⟨kind, isAfter, _⟩ | ⟨kind, isAfter, _⟩
  · rcases receiveMessage_cases finished with
      ⟨duplicate, isAfter, _⟩ | ⟨fresh, dispatched, dispatches, _⟩
    · rw [isAfter, duplicate]
      rcases kind with kind | kind <;> rw [packetServerEvent, kind] <;>
        rfl
    · rw [dispatchMessage_frame dispatches,
        PeerSession.withClient_server, fresh]
      exact recordMessage_server session now peer kind
  · rw [isAfter, receiveAck_frame, PeerSession.withClient_server,
      packetServerEvent, kind]
    rfl
  · rw [isAfter, PeerSession.handleRst_frame,
      PeerSession.withClient_server, packetServerEvent, kind]
    rfl

/-- A server response takes the CON request it answers, if there is one, and
is cached for its MID. -/
theorem sendOutboundResponse_server
    (codec : Codec) (session : PeerSession) (outbound : ServerResponse) :
    (sendOutboundResponse codec session outbound).1.server =
      (session.server.apply
        (.responded outbound.token fun mid =>
          codec.toBytes (outbound.piggybacked codec mid))).1 := by
  simp only [sendOutboundResponse, PeerSession.takeInboundConMid,
    ServerTable.apply, ServerTable.piggyback, PeerSession.server]
  cases session.inboundConMids.lookup outbound.token with
  | none =>
      simp only [Option.bind_none]
      split <;> rfl
  | some mid =>
      simp only [Option.bind_some]
      rw [ServerResponse.piggybacked]
      cases codec.toBytes (outbound.response.toPacket codec
          outbound.token mid .acknowledgement) <;> rfl

theorem tick_server
    (session : PeerSession) (now : Nat) (order : List Token) :
    (session.tick now order).1.server =
      (session.server.apply (.ticked now)).1 := by
  have frame := collectRetransmissions_frame session now order
  change (ServerTable.apply
    (session.collectRetransmissions now order).1.server
      (.ticked now)).1 = _
  have same : (session.collectRetransmissions now order).1.server =
      session.server := by
    rw [PeerSession.server, frame.2.1, frame.2.2.1]
    rfl
  rw [same]

/-! ## The loop -/

theorem retransmit_server
    {stack : CoapStack} {order : List (SocketAddr × List Token)}
    (now : Nat) (enumerates : stack.EnumeratesSessions order)
    (peer : SocketAddr) :
    (stack.retransmit now order).1.server peer =
      ((stack.server peer).apply (.ticked now)).1 := by
  have visited := lookup_retransmit now enumerates peer
  rw [CoapStack.server, CoapStack.server]
  cases found : stack.sessions.lookup peer with
  | none =>
      rw [found] at visited
      rw [visited]
      rfl
  | some session =>
      rw [found] at visited
      rcases visited with ⟨exchangeOrder, _, _, ticked⟩
      rw [ticked]
      exact tick_server session now exchangeOrder

/-- A session that is dropped has nothing to lose. -/
theorem cleanup_server
    (stack : CoapStack) (now : Nat) (peer : SocketAddr) :
    (stack.cleanup now).server peer = stack.server peer := by
  rw [CoapStack.server, CoapStack.server, lookup_cleanup]
  cases found : stack.sessions.lookup peer with
  | none => rfl
  | some session =>
      by_cases idle : session.isIdle = true
      · have absent := (isIdle_iff session).mp idle
        simp only [Option.filter, idle, Bool.not_true,
          Bool.false_eq_true, if_false]
        exact ServerTable.ext_lookup (fun mid => (absent.2.2.1 mid).symm)
          fun token => (absent.2.2.2 token).symm
      · simp [Option.filter, idle]

/-- Every step applies to the server tables of every peer exactly its
event. -/
theorem server_step
    {codec : Codec} {stack after : CoapStack} {iteration : Iteration}
    {effects : List Effect}
    (branch : BranchStep codec stack iteration after effects)
    (peer : SocketAddr) :
    after.server peer =
      ((stack.server peer).apply
        (stack.serverEvent codec iteration peer)).1 := by
  cases branch with
  | unparsed taken unparseable =>
      rw [CoapStack.serverEvent, taken]
      simp only [unparseable, ite_self]
      rfl
  | @inbound raw source parsed session effects taken parses received =>
      rw [putSession_server, CoapStack.serverEvent, taken]
      simp only [parses]
      split
      · next equal =>
          subst equal
          have refined := receivePacket_server received
          rw [sessionFor_server, sessionFor_isDuplicate] at refined
          rw [if_pos rfl]
          exact refined
      · next other =>
          rw [if_neg fun same => other same.symm]
          rfl
  | @request outbound taken =>
      rw [putSession_server, CoapStack.serverEvent, taken]
      split
      · next equal =>
          subst equal
          rw [sendOutboundRequest_server, sessionFor_server]
          rfl
      · rfl
  | @response outbound taken =>
      rw [putSession_server, CoapStack.serverEvent, taken]
      by_cases equal : peer = outbound.peer
      · subst equal
        simp only [if_true]
        rw [sendOutboundResponse_server, sessionFor_server]
      · rw [if_neg equal]
        simp only
        rw [if_neg fun same => equal same.symm]
        rfl
  | timer taken due enumerates =>
      rw [retransmit_server _ enumerates, CoapStack.serverEvent, taken]
  | cleanup taken due =>
      rw [cleanup_server, CoapStack.serverEvent, taken]
      rfl

end Coapable.Transport
