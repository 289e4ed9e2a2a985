import Coapable.Transport.DedupView
import Coapable.Transport.Openings

/-!
# Where the effects of a step come from

Every request dispatched to the server was decoded from an accepted CON or
NON of this very iteration, and every datagram sent is one of five: an empty
ACK, a cached answer, a client request, a server response or the unchanged
copy of an earlier client request.
-/

namespace Coapable.Transport

open Coapable.CoapLite
open Coapable.Foundation.FiniteMap
open Coapable.MessageTypes

/-! ## Dispatched requests -/

/-- The iteration accepts a packet that decodes to this server request. -/
def Dispatches (codec : Codec) (stack : CoapStack)
    (iteration : Iteration) (request : ServerRequest) : Prop :=
  ∃ raw parsed, iteration.branch = .inbound raw request.peer ∧
    codec.fromBytes raw = some parsed ∧
      (parsed.header.messageType = .confirmable ∨
        parsed.header.messageType = .nonConfirmable) ∧
        stack.isDuplicate request.peer parsed.header.messageId = false ∧
          CoapRequest.fromPacket codec parsed =
              .ok (.ok request.request) ∧
            request.token = parsed.token

/-- The ACK that a server event sends, as an effect. -/
def SentAck.effect (peer : SocketAddr) (ack : SentAck) : Effect :=
  .sendPacket ack.bytes peer

theorem replayCached_eq
    (session : PeerSession) (peer : SocketAddr) (parsed : Packet) :
    replayCached session peer parsed =
      (session.server.apply
        (.duplicated parsed.header.messageId
          (decide (parsed.header.messageType = .confirmable)))).2.toList.map
            (SentAck.effect peer) := by
  simp only [replayCached, ServerTable.apply, decide_eq_true_eq]
  split
  · have same : session.server.cachedResponse parsed.header.messageId =
        session.getCachedResponse parsed.header.messageId :=
      rfl
    rw [same]
    cases session.getCachedResponse parsed.header.messageId <;> rfl
  · rfl

theorem recordMessage_effects
    {codec : Codec} (session : PeerSession) (now : Nat)
    (peer : SocketAddr) {parsed : Packet}
    (kind : parsed.header.messageType = .confirmable ∨
      parsed.header.messageType = .nonConfirmable) :
    (recordMessage codec session now peer parsed).2 =
      (session.server.apply
        (packetServerEvent codec false now parsed)).2.toList.map
          (SentAck.effect peer) := by
  simp only [recordMessage, acknowledgeCon]
  rcases kind with kind | kind
  · rw [if_pos kind, packetServerEvent, kind]
    simp only [Bool.false_eq_true, if_false]
    cases parsed.header.code with
    | request method => rfl
    | empty | response | reserved =>
        simp only
        cases codec.toBytes (emptyAck parsed.header.messageId) <;> rfl
  · rw [if_neg (by simp [kind]), packetServerEvent, kind]
    rfl

/-- Dispatching sends no datagram; it dispatches what was decoded. -/
theorem dispatchMessage_effects
    {codec : Codec} {session after : PeerSession} {peer : SocketAddr}
    {parsed : Packet} {effects : List Effect}
    (dispatched :
      dispatchMessage codec session peer parsed = .ok (after, effects))
    {effect : Effect} (member : effect ∈ effects) :
    (∃ request, CoapRequest.fromPacket codec parsed = .ok (.ok request) ∧
        effect = .sendRequest ⟨request, peer, parsed.token⟩) ∨
      ∃ delivery, effect = .deliver delivery := by
  simp only [dispatchMessage] at dispatched
  split at dispatched
  · split at dispatched
    · cases dispatched
    · next request decoded =>
        injection dispatched with equal
        injection equal with _ effectsEqual
        subst effectsEqual
        exact Or.inl ⟨request, decoded, List.mem_singleton.mp member⟩
    · injection dispatched with equal
      injection equal with _ effectsEqual
      subst effectsEqual
      cases member
  · split at dispatched
    · injection dispatched with equal
      have effectsEqual := congrArg Prod.snd equal
      subst effectsEqual
      rcases List.mem_map.mp member with ⟨delivery, _, rfl⟩
      exact Or.inr ⟨delivery, rfl⟩
    · injection dispatched with equal
      injection equal with _ effectsEqual
      subst effectsEqual
      cases member
  · injection dispatched with equal
    injection equal with _ effectsEqual
    subst effectsEqual
    cases member

theorem receiveAck_effects
    (codec : Codec) (session : PeerSession) (parsed : Packet)
    {effect : Effect}
    (member : effect ∈ (receiveAck codec session parsed).2) :
    ∃ delivery, effect = .deliver delivery := by
  simp only [receiveAck] at member
  split at member
  · cases member
  · split at member
    · split at member
      · rcases List.mem_map.mp member with ⟨delivery, _, rfl⟩
        exact ⟨delivery, rfl⟩
      · cases member
    · cases member
  · cases member

/-- An effect that sends no datagram: the dispatch of a packet that is no
duplicate, or a result. -/
inductive InboundEffect (codec : Codec) (duplicate : Bool)
    (peer : SocketAddr) (parsed : Packet) : Effect → Prop where
  | dispatch (request : CoapRequest)
      (kind : parsed.header.messageType = .confirmable ∨
        parsed.header.messageType = .nonConfirmable)
      (fresh : duplicate = false)
      (decoded : CoapRequest.fromPacket codec parsed = .ok (.ok request)) :
      InboundEffect codec duplicate peer parsed
        (.sendRequest ⟨request, peer, parsed.token⟩)
  | deliver (delivery : Delivery) :
      InboundEffect codec duplicate peer parsed (.deliver delivery)

/-- An inbound packet sends the ACK that its server event calls for, then it
dispatches or delivers. -/
theorem receivePacket_effects
    {codec : Codec} {session after : PeerSession} {now : Nat}
    {peer : SocketAddr} {parsed : Packet} {effects : List Effect}
    (received :
      receivePacket codec session now peer parsed =
        .ok (after, effects)) :
    ∃ rest,
      effects =
        (session.server.apply
          (packetServerEvent codec
            (session.isDuplicate parsed.header.messageId) now
            parsed)).2.toList.map (SentAck.effect peer) ++ rest ∧
        ∀ effect ∈ rest,
          InboundEffect codec
            (session.isDuplicate parsed.header.messageId) peer parsed
            effect := by
  rcases receivePacket_cases received with
    ⟨kind, finished⟩ | ⟨kind, _, rfl⟩ | ⟨kind, _, rfl⟩
  · rcases receiveMessage_cases finished with
      ⟨duplicate, _, rfl⟩ | ⟨fresh, dispatched, dispatches, rfl⟩
    · refine ⟨[], ?_, by simp⟩
      rw [replayCached_eq, duplicate, List.append_nil]
      rcases kind with kind | kind <;> rw [packetServerEvent, kind] <;> rfl
    · rw [fresh]
      refine ⟨dispatched, ?_, ?_⟩
      · rw [recordMessage_effects session now peer kind]
      · intro effect member
        rcases dispatchMessage_effects dispatches member with
          ⟨request, decoded, rfl⟩ | ⟨delivery, rfl⟩
        · exact .dispatch request kind rfl decoded
        · exact .deliver delivery
  · refine ⟨_, by rw [packetServerEvent, kind]; rfl, ?_⟩
    intro effect member
    rcases receiveAck_effects codec session parsed member with
      ⟨delivery, rfl⟩
    exact .deliver delivery
  · refine ⟨_, by rw [packetServerEvent, kind]; rfl, ?_⟩
    intro effect member
    rcases List.mem_map.mp member with ⟨delivery, _, rfl⟩
    exact .deliver delivery

theorem sendRequest_dispatches
    {codec : Codec} {stack after : CoapStack} {iteration : Iteration}
    {effects : List Effect}
    (branch : BranchStep codec stack iteration after effects)
    {request : ServerRequest}
    (member : .sendRequest request ∈ effects) :
    Dispatches codec stack iteration request := by
  cases branch with
  | unparsed taken unparseable => cases member
  | @inbound raw source parsed session effects taken parses received =>
      rcases receivePacket_effects received with ⟨rest, rfl, inRest⟩
      rcases List.mem_append.mp member with isAck | isRest
      · rcases List.mem_map.mp isAck with ⟨ack, _, impossible⟩
        cases impossible
      · cases inRest _ isRest with
        | dispatch decodedRequest kind fresh decoded =>
            rw [sessionFor_isDuplicate] at fresh
            exact ⟨raw, parsed, taken, parses, kind, fresh, decoded, rfl⟩
  | @request outbound taken =>
      unfold sendOutboundRequest at member
      simp only at member
      split at member <;> simp at member
  | @response outbound taken =>
      unfold sendOutboundResponse at member
      split at member <;> simp only at member <;> split at member <;>
        simp at member
  | @timer order taken due enumerates =>
      simp [CoapStack.retransmit] at member
  | cleanup taken due => cases member

/-- A request that is no duplicate is dispatched. -/
theorem exists_dispatched
    {codec : Codec} {stack after : CoapStack} {iteration : Iteration}
    {effects : List Effect}
    (branch : BranchStep codec stack iteration after effects)
    {raw : Bytes} {peer : SocketAddr} {parsed : Packet}
    (taken : iteration.branch = .inbound raw peer)
    (parses : codec.fromBytes raw = some parsed)
    (kind : parsed.header.messageType = .confirmable ∨
      parsed.header.messageType = .nonConfirmable)
    (isRequest : parsed.header.code.isRequest = true)
    (fresh : stack.isDuplicate peer parsed.header.messageId = false) :
    ∃ request, CoapRequest.fromPacket codec parsed = .ok (.ok request) ∧
      .sendRequest ⟨request, peer, parsed.token⟩ ∈ effects := by
  rcases branch.of_inbound taken parses with
    ⟨session, isAfter, received⟩
  rw [← sessionFor_isDuplicate stack iteration] at fresh
  rcases receivePacket_cases received with
    ⟨_, finished⟩ | ⟨other, _⟩ | ⟨other, _⟩
  · rcases receiveMessage_cases finished with
      ⟨duplicate, _⟩ | ⟨_, dispatched, dispatches, rfl⟩
    · rw [fresh] at duplicate
      cases duplicate
    · simp only [dispatchMessage] at dispatches
      cases code : parsed.header.code with
      | request method =>
          simp only [code] at dispatches
          split at dispatches
          · cases dispatches
          · next request decoded =>
              cases dispatches
              exact ⟨request, decoded, List.mem_append_right _
                (List.mem_singleton.mpr rfl)⟩
          · next problem decoded =>
              rcases CoapRequest.exists_of_request_code isRequest decoded
                with ⟨request, impossible⟩
              cases impossible
      | empty | response | reserved =>
          rw [code] at isRequest
          cases isRequest
  · simp [other] at kind
  · simp [other] at kind

/-! ## Sent datagrams -/

/-- The answer that is cached for a MID of the peer. -/
def CoapStack.cachedResponse (stack : CoapStack) (peer : SocketAddr)
    (mid : UInt16) : Option Bytes :=
  (stack.sessions.lookup peer).bind fun session =>
    session.getCachedResponse mid

@[simp]
theorem sessionFor_getCachedResponse
    (stack : CoapStack) (iteration : Iteration) (peer : SocketAddr)
    (mid : UInt16) :
    (stack.sessionFor iteration peer).getCachedResponse mid =
      stack.cachedResponse peer mid := by
  rw [CoapStack.sessionFor, CoapStack.cachedResponse]
  cases stack.sessions.lookup peer <;> rfl

/-- The iteration encodes a server response to the peer. -/
def Responds (codec : Codec) (iteration : Iteration) (peer : SocketAddr)
    (bytes : Bytes) : Prop :=
  ∃ outbound mid messageType,
    iteration.branch = .outboundResponse (some outbound) ∧
      outbound.peer = peer ∧
      codec.toBytes (outbound.response.toPacket codec outbound.token mid
        messageType) = some bytes

/-- The datagram that an effect sends, with its destination. -/
def Effect.packet? : Effect → Option (Bytes × SocketAddr)
  | .sendPacket packet peer => some (packet, peer)
  | _ => none

/-- The datagrams that a list of effects sends, with their destinations. -/
def packetsOf (effects : List Effect) : List (Bytes × SocketAddr) :=
  effects.filterMap Effect.packet?

theorem mem_packetsOf
    (effects : List Effect) (bytes : Bytes) (peer : SocketAddr) :
    (bytes, peer) ∈ packetsOf effects ↔
      .sendPacket bytes peer ∈ effects := by
  rw [packetsOf, List.mem_filterMap]
  constructor
  · rintro ⟨effect, member, made⟩
    cases effect with
    | sendPacket packet destination =>
        rw [Effect.packet?, Option.some.injEq, Prod.mk.injEq] at made
        rw [← made.1, ← made.2]
        exact member
    | sendRequest _ => cases made
    | deliver _ => cases made
  · intro member
    exact ⟨_, member, rfl⟩

/-- The copies the timer re-sends for one session. -/
def PeerSession.resends (session : PeerSession) (now : Nat) :
    Multiset (Bytes × SocketAddr) :=
  ((values session.exchanges).filterMap (Exchange.resend now)).map
    fun bytes => (bytes, session.peer)

theorem tick_packets
    {session : PeerSession} {order : List Token} (now : Nat)
    (enumerates : Enumerates order session.exchanges) :
    (((session.tick now order).2.1.map Prod.swap :
        List (Bytes × SocketAddr)) : Multiset (Bytes × SocketAddr)) =
      session.resends now := by
  have samePeer := (collectRetransmissions_frame session now order).1
  change ((((session.collectRetransmissions now order).2.1.map fun bytes =>
    ((session.collectRetransmissions now order).1.peer, bytes)).map
      Prod.swap : List (Bytes × SocketAddr)) :
        Multiset (Bytes × SocketAddr)) = _
  rw [collectRetransmissions_retransmits now enumerates, samePeer,
    PeerSession.resends, enumerates.values_eq, Multiset.filterMap_coe,
    Multiset.map_coe, List.filterMap_filterMap, List.map_map]
  rfl

theorem packetsOf_retransmit_list
    (stack : CoapStack) (now : Nat)
    (order : List (SocketAddr × List Token)) :
    packetsOf (stack.retransmit now order).2 =
      (tickSessions now order stack.sessions).2.1.map Prod.swap := by
  simp only [CoapStack.retransmit, packetsOf, List.filterMap_append,
    List.filterMap_map]
  have noPacket : (tickSessions now order stack.sessions).2.2.filterMap
      (Effect.packet? ∘ Effect.deliver) = [] :=
    List.filterMap_eq_nil_iff.mpr fun _ _ => rfl
  rw [noPacket, List.nil_append, ← List.filterMap_eq_map]
  rfl

/-- The timer sends one copy for each exchange that is due for it, and
nothing else. -/
theorem packetsOf_retransmit
    {stack : CoapStack} {order : List (SocketAddr × List Token)}
    (now : Nat) (enumerates : stack.EnumeratesSessions order) :
    (packetsOf (stack.retransmit now order).2 :
        Multiset (Bytes × SocketAddr)) =
      (values stack.sessions).bind fun session => session.resends now := by
  rw [packetsOf_retransmit_list,
    tickSessions_output _ _ _ enumerates.1.nodup, enumerates.1.values_eq]
  have visited := enumerates.2
  clear enumerates
  simp only
  induction order with
  | nil => rfl
  | cons visit rest induction =>
      have later := induction fun other member =>
        visited other (List.mem_cons_of_mem _ member)
      rw [List.flatMap_cons, List.map_append, ← Multiset.coe_add, later,
        List.map_cons]
      cases found : stack.sessions.lookup visit.1 with
      | none =>
          simp only [List.filterMap_cons, found]
          exact Multiset.zero_add _
      | some session =>
          have ticked := tick_packets now
            (visited visit List.mem_cons_self session found)
          simp only [List.filterMap_cons, found]
          rw [ticked, ← Multiset.cons_coe, Multiset.cons_bind]

/-! ## Messages under a MID of the stack -/

/-- A client request, or a server response that is no ACK. -/
structure NewMessage where
  peer : SocketAddr
  mid : UInt16
  bytes : Bytes
  deriving DecidableEq

/-- A server response as a message of its own. -/
def ServerResponse.separate (codec : Codec) (outbound : ServerResponse)
    (mid : UInt16) : Packet :=
  outbound.response.toPacket codec outbound.token mid .nonConfirmable

/-- The message that the iteration sends under a newly allocated MID. -/
def CoapStack.newMessage (codec : Codec) (stack : CoapStack)
    (iteration : Iteration) : Option NewMessage :=
  match iteration.branch with
  | .outboundRequest _ =>
      (stack.opening codec iteration).map fun opening =>
        ⟨opening.outbound.peer, opening.mid, opening.bytes⟩
  | .outboundResponse (some outbound) =>
      let session := stack.sessionFor iteration outbound.peer
      let mid := session.midAllocator.allocate.1
      match session.inboundConMids.lookup outbound.token with
      | some _ => none
      | none =>
          (codec.toBytes (outbound.separate codec mid)).map
            (NewMessage.mk outbound.peer mid)
  | _ => none

theorem sendOutboundRequest_effects
    {codec : Codec} {stack : CoapStack} {iteration : Iteration}
    {outbound : OutboundRequest}
    (taken : iteration.branch = .outboundRequest (some outbound)) :
    (sendOutboundRequest codec (stack.sessionFor iteration outbound.peer)
        iteration outbound).2 =
      (stack.newMessage codec iteration).toList.map
        fun message => .sendPacket message.bytes message.peer := by
  simp only [CoapStack.newMessage, CoapStack.opening, taken,
    sendOutboundRequest, PeerSession.allocateToken,
    PeerSession.allocateMid]
  split
  · next refused =>
      rw [refused]
      rfl
  · next bytes encoded =>
      rw [encoded]
      rfl

/-- A server response is sent as the ACK its event calls for, or as a new
message. -/
theorem sendOutboundResponse_effects
    {codec : Codec} {stack : CoapStack} {iteration : Iteration}
    {outbound : ServerResponse}
    (taken : iteration.branch = .outboundResponse (some outbound)) :
    (sendOutboundResponse codec
        (stack.sessionFor iteration outbound.peer) outbound).2 =
      ((stack.server outbound.peer).apply
          (.responded outbound.token fun mid =>
            codec.toBytes (outbound.piggybacked codec mid))).2.toList.map
          (SentAck.effect outbound.peer) ++
        (stack.newMessage codec iteration).toList.map
          fun message => .sendPacket message.bytes message.peer := by
  rw [← sessionFor_server stack iteration]
  simp only [CoapStack.newMessage, taken, sendOutboundResponse,
    PeerSession.takeInboundConMid, PeerSession.allocateMid,
    ServerTable.apply, ServerTable.piggyback, PeerSession.server]
  cases (stack.sessionFor iteration
      outbound.peer).inboundConMids.lookup outbound.token with
  | none =>
      simp only [Option.bind_none]
      rw [ServerResponse.separate]
      cases codec.toBytes _ <;> rfl
  | some mid =>
      simp only [Option.bind_some]
      rw [ServerResponse.piggybacked]
      cases codec.toBytes (outbound.response.toPacket codec outbound.token
        mid .acknowledgement) <;> rfl

/-! ## All datagrams of a step -/

theorem mem_sendPacket_acks
    (ack : Option SentAck) (bytes : Bytes) (source peer : SocketAddr) :
    .sendPacket bytes peer ∈ ack.toList.map (SentAck.effect source) ↔
      source = peer ∧ ∃ mid, ack = some ⟨mid, bytes⟩ := by
  cases ack with
  | none => simp
  | some ack =>
      rcases ack with ⟨mid, ackBytes⟩
      simp only [Option.toList_some, List.map_cons, List.map_nil,
        List.mem_singleton, SentAck.effect, Effect.sendPacket.injEq,
        Option.some.injEq, SentAck.mk.injEq]
      constructor
      · rintro ⟨rfl, rfl⟩
        exact ⟨rfl, mid, rfl, rfl⟩
      · rintro ⟨rfl, _, _, rfl⟩
        exact ⟨rfl, rfl⟩

theorem mem_sendPacket_messages
    (message : Option NewMessage) (bytes : Bytes) (peer : SocketAddr) :
    .sendPacket bytes peer ∈
        (message.toList.map fun message =>
          Effect.sendPacket message.bytes message.peer) ↔
      ∃ mid, message = some ⟨peer, mid, bytes⟩ := by
  cases message with
  | none => simp
  | some message =>
      rcases message with ⟨messagePeer, mid, messageBytes⟩
      simp only [Option.toList_some, List.map_cons, List.map_nil,
        List.mem_singleton, Effect.sendPacket.injEq, Option.some.injEq,
        NewMessage.mk.injEq]
      constructor
      · rintro ⟨rfl, rfl⟩
        exact ⟨mid, rfl, rfl, rfl⟩
      · rintro ⟨_, rfl, _, rfl⟩
        exact ⟨rfl, rfl⟩

/-- The copies that the iteration re-sends. -/
def CoapStack.resends (stack : CoapStack) (iteration : Iteration) :
    Multiset (Bytes × SocketAddr) :=
  match iteration.branch with
  | .retransmissionTimer _ =>
      (values stack.sessions).bind fun session =>
        session.resends iteration.now
  | _ => 0

/-- What a step sends to a peer: the ACK of its server event, a message under
a new MID, or the copies of the timer. -/
theorem sendPacket_iff
    {codec : Codec} {stack after : CoapStack} {iteration : Iteration}
    {effects : List Effect}
    (branch : BranchStep codec stack iteration after effects)
    (bytes : Bytes) (peer : SocketAddr) :
    .sendPacket bytes peer ∈ effects ↔
      (∃ mid, ((stack.server peer).apply
        (stack.serverEvent codec iteration peer)).2 =
          some ⟨mid, bytes⟩) ∨
      (∃ mid, stack.newMessage codec iteration =
        some ⟨peer, mid, bytes⟩) ∨
      (bytes, peer) ∈ stack.resends iteration := by
  cases branch with
  | unparsed taken unparseable =>
      simp [CoapStack.serverEvent, CoapStack.newMessage,
        CoapStack.resends, taken, unparseable, ServerTable.apply]
  | @inbound raw source parsed session effects taken parses received =>
      rcases receivePacket_effects received with ⟨rest, rfl, inRest⟩
      have noPacket : .sendPacket bytes peer ∉ rest := by
        intro member
        cases inRest _ member
      rw [List.mem_append, mem_sendPacket_acks, sessionFor_server,
        sessionFor_isDuplicate]
      simp only [CoapStack.serverEvent, CoapStack.newMessage,
        CoapStack.resends, taken, parses, noPacket, or_false,
        Multiset.notMem_zero, reduceCtorEq, exists_false]
      by_cases equal : source = peer
      · subst equal
        simp
      · simp [equal, ServerTable.apply]
  | @request outbound taken =>
      rw [sendOutboundRequest_effects taken, mem_sendPacket_messages]
      simp [CoapStack.serverEvent, CoapStack.resends, taken,
        ServerTable.apply]
  | @response outbound taken =>
      rw [sendOutboundResponse_effects taken, List.mem_append,
        mem_sendPacket_acks, mem_sendPacket_messages]
      simp only [CoapStack.serverEvent, CoapStack.resends, taken,
        Multiset.notMem_zero, or_false]
      by_cases equal : outbound.peer = peer
      · subst equal
        simp
      · simp [equal, ServerTable.apply]
  | @timer order taken due enumerates =>
      rw [← mem_packetsOf, ← Multiset.mem_coe,
        packetsOf_retransmit _ enumerates]
      simp only [CoapStack.serverEvent, CoapStack.newMessage,
        CoapStack.resends, taken, ServerTable.apply, reduceCtorEq,
        exists_false, false_or]
  | cleanup taken due =>
      simp [CoapStack.serverEvent, CoapStack.newMessage,
        CoapStack.resends, taken, ServerTable.apply]

/-! ## Where the bytes come from -/

theorem cachedResponse_eq (stack : CoapStack) (peer : SocketAddr)
    (mid : UInt16) :
    stack.cachedResponse peer mid =
      (stack.server peer).cachedResponse mid := by
  rw [CoapStack.cachedResponse, CoapStack.server]
  cases stack.sessions.lookup peer <;> rfl

/-- The ACK of a packet is the empty one, or the cached one. -/
theorem packetServerEvent_ack
    {codec : Codec} {table : ServerTable} {duplicate : Bool} {now : Nat}
    {parsed : Packet} {ack : SentAck}
    (sent : (table.apply
      (packetServerEvent codec duplicate now parsed)).2 = some ack) :
    table.cachedResponse ack.mid = some ack.bytes ∨
      codec.toBytes (emptyAck ack.mid) = some ack.bytes := by
  simp only [packetServerEvent] at sent
  split at sent
  · split at sent
    · simp only [ServerTable.apply, if_true] at sent
      rcases Option.map_eq_some_iff.mp sent with ⟨bytes, cached, rfl⟩
      exact Or.inl cached
    · split at sent
      · cases sent
      · rcases Option.map_eq_some_iff.mp sent with ⟨bytes, encoded, rfl⟩
        exact Or.inr encoded
  · split at sent <;> cases sent
  · cases sent

/-- An ACK repeats a cached answer, is empty, or carries a response. -/
theorem serverEvent_ack
    {codec : Codec} {stack : CoapStack} {iteration : Iteration}
    {peer : SocketAddr} {ack : SentAck}
    (sent : ((stack.server peer).apply
      (stack.serverEvent codec iteration peer)).2 = some ack) :
    stack.cachedResponse peer ack.mid = some ack.bytes ∨
      codec.toBytes (emptyAck ack.mid) = some ack.bytes ∨
      ∃ outbound, iteration.branch = .outboundResponse (some outbound) ∧
        outbound.peer = peer ∧
        codec.toBytes (outbound.piggybacked codec ack.mid) =
          some ack.bytes := by
  rw [cachedResponse_eq]
  simp only [CoapStack.serverEvent] at sent
  split at sent
  · split at sent
    · split at sent
      · rcases packetServerEvent_ack sent with cached | encoded
        · exact Or.inl cached
        · exact Or.inr (Or.inl encoded)
      · cases sent
    · cases sent
  · next outbound taken =>
      split at sent
      · next isPeer =>
          simp only [ServerTable.apply] at sent
          split at sent
          · next piggybacked found =>
              cases sent
              rcases Option.bind_eq_some_iff.mp found with
                ⟨mid, _, made⟩
              rcases Option.map_eq_some_iff.mp made with
                ⟨bytes, encoded, rfl⟩
              exact Or.inr (Or.inr ⟨outbound, taken, isPeer, encoded⟩)
          · cases sent
      · cases sent
  · cases sent
  · cases sent

/-- A new message is a request that was opened, or the response to no CON
request that waits. -/
theorem newMessage_cases
    {codec : Codec} {stack : CoapStack} {iteration : Iteration}
    {message : NewMessage}
    (sent : stack.newMessage codec iteration = some message) :
    message.mid =
        (stack.sessionFor iteration message.peer).midAllocator.next ∧
      ((∃ opening, stack.opening codec iteration = some opening ∧
          opening.outbound.peer = message.peer ∧
            opening.bytes = message.bytes) ∨
        ∃ outbound, iteration.branch = .outboundResponse (some outbound) ∧
          outbound.peer = message.peer ∧
          (stack.server message.peer).inboundConMids.lookup
            outbound.token = none ∧
          codec.toBytes (outbound.separate codec message.mid) =
            some message.bytes) := by
  simp only [CoapStack.newMessage] at sent
  split at sent
  · rcases Option.map_eq_some_iff.mp sent with ⟨opening, opens, rfl⟩
    refine ⟨?_, Or.inl ⟨opening, opens, rfl, rfl⟩⟩
    simp only [CoapStack.opening] at opens
    split at opens
    · rcases Option.map_eq_some_iff.mp opens with ⟨bytes, _, rfl⟩
      rfl
    · cases opens
  · next outbound taken =>
      split at sent
      · cases sent
      · next unanswered =>
          rcases Option.map_eq_some_iff.mp sent with ⟨bytes, encoded, rfl⟩
          refine ⟨rfl, Or.inr ⟨outbound, taken, rfl, ?_, encoded⟩⟩
          rw [← sessionFor_server stack iteration]
          exact unanswered
  · cases sent

/-- The datagram of a server response: the ACK of the CON request that waits
under its token, or a NON with the next MID if none does. -/
theorem response_sendPacket_iff
    {codec : Codec} {stack after : CoapStack} {iteration : Iteration}
    {effects : List Effect}
    (branch : BranchStep codec stack iteration after effects)
    {outbound : ServerResponse}
    (taken : iteration.branch = .outboundResponse (some outbound))
    (bytes : Bytes) (peer : SocketAddr) :
    .sendPacket bytes peer ∈ effects ↔
      outbound.peer = peer ∧
        match (stack.server peer).inboundConMids.lookup outbound.token with
        | some mid =>
            codec.toBytes (outbound.piggybacked codec mid) = some bytes
        | none =>
            codec.toBytes (outbound.separate codec
              (stack.sessionFor iteration peer).midAllocator.next) =
                some bytes := by
  rw [sendPacket_iff branch]
  simp only [CoapStack.serverEvent, CoapStack.resends, taken,
    Multiset.notMem_zero, or_false]
  by_cases isPeer : outbound.peer = peer
  · subst isPeer
    simp only [if_true, ServerTable.responded_ack_iff, true_and,
      CoapStack.newMessage, taken]
    have sameConMids : (stack.sessionFor iteration
        outbound.peer).inboundConMids =
          (stack.server outbound.peer).inboundConMids := by
      rw [← sessionFor_server stack iteration]
      rfl
    rw [sameConMids]
    cases (stack.server outbound.peer).inboundConMids.lookup
        outbound.token with
    | some mid => simp
    | none =>
        simp [MessageIdAllocator.allocate]
  · have otherPeer (mid : UInt16) :
        stack.newMessage codec iteration ≠ some ⟨peer, mid, bytes⟩ := by
      intro sent
      rcases (newMessage_cases sent).2 with
        ⟨opening, opens, _⟩ | ⟨other, isResponse, isOther, _⟩
      · rw [opening_eq_none codec stack (by simp [taken])] at opens
        cases opens
      · rw [taken] at isResponse
        cases isResponse
        exact isPeer isOther
    simp [isPeer, otherPeer, ServerTable.apply]

/-- How an iteration comes to send a datagram to a peer. -/
inductive Sends (codec : Codec) (stack : CoapStack)
    (iteration : Iteration) (peer : SocketAddr) (bytes : Bytes) :
    Prop where
  | acknowledges (mid : UInt16)
      (encoded : codec.toBytes (emptyAck mid) = some bytes)
  | replays (mid : UInt16)
      (cached : stack.cachedResponse peer mid = some bytes)
  | requests (opening : Opening)
      (opens : stack.opening codec iteration = some opening)
      (isPeer : opening.outbound.peer = peer)
      (isBytes : opening.bytes = bytes)
  | responds (responds : Responds codec iteration peer bytes)
  | retransmits (visited : SocketAddr) (session : PeerSession)
      (found : stack.sessions.lookup visited = some session)
      (isPeer : session.peer = peer)
      (token : Token) (exchange : Exchange)
      (isOpen : session.exchanges.lookup token = some exchange)
      (stored : exchange.storedPacket = some bytes)

/-- The timer sends stored packets to the peers of their sessions. -/
theorem mem_resends
    {stack : CoapStack} {iteration : Iteration}
    {bytes : Bytes} {peer : SocketAddr}
    (member : (bytes, peer) ∈ stack.resends iteration) :
    ∃ visited session, stack.sessions.lookup visited = some session ∧
      session.peer = peer ∧
      ∃ token exchange,
        session.exchanges.lookup token = some exchange ∧
          exchange.storedPacket = some bytes := by
  simp only [CoapStack.resends] at member
  split at member
  · rcases Multiset.mem_bind.mp member with ⟨session, isSession, sent⟩
    rcases (mem_values_iff _ _).mp isSession with ⟨visited, found⟩
    rcases Multiset.mem_map.mp sent with ⟨copied, resent, equal⟩
    injection equal with isBytes isPeer
    subst isBytes
    rcases (Multiset.mem_filterMap _ _).mp resent with
      ⟨exchange, isExchange, resends⟩
    rcases (mem_values_iff _ _).mp isExchange with ⟨token, isOpen⟩
    exact ⟨visited, session, found, isPeer, token, exchange, isOpen,
      Exchange.storedPacket_of_resend resends⟩
  · simp at member

/-- Every datagram that a step sends is one of five. -/
theorem sendPacket_sends
    {codec : Codec} {stack after : CoapStack} {iteration : Iteration}
    {effects : List Effect}
    (branch : BranchStep codec stack iteration after effects)
    {bytes : Bytes} {peer : SocketAddr}
    (member : .sendPacket bytes peer ∈ effects) :
    Sends codec stack iteration peer bytes := by
  rcases (sendPacket_iff branch bytes peer).mp member with
    ⟨mid, isAck⟩ | ⟨mid, isNew⟩ | isCopy
  · rcases serverEvent_ack isAck with
      cached | encoded | ⟨outbound, taken, isPeer, encoded⟩
    · exact .replays mid cached
    · exact .acknowledges mid encoded
    · exact .responds ⟨outbound, _, _, taken, isPeer, encoded⟩
  · rcases (newMessage_cases isNew).2 with
      ⟨opening, opens, isPeer, isBytes⟩ |
        ⟨outbound, taken, isPeer, _, encoded⟩
    · exact .requests opening opens isPeer isBytes
    · exact .responds ⟨outbound, _, _, taken, isPeer, encoded⟩
  · rcases mem_resends isCopy with
      ⟨visited, session, found, isPeer, token, exchange, isOpen, stored⟩
    exact .retransmits visited session found isPeer token exchange isOpen
      stored

end Coapable.Transport
