import Coapable.Transport.SessionFrames
import Coapable.Transport.SessionMap

/-!
# The loop refines the exchange tables

`CoapStack.client` is the exchange table of a peer; a peer without a session
has the empty one, so that creating a session and dropping an idle one are no
changes at all.  `CoapStack.clientEvent` says which event an iteration is for
a peer, from the state before it and its input.

`client_step` and `mem_deliveriesOf_iff` are the refinement: every step of
the loop applies exactly that event to the table of every peer and delivers
exactly the results that it calls for.
-/

namespace Coapable.Transport

open Coapable.CoapLite
open Coapable.Foundation.FiniteMap
open Coapable.MessageTypes

/-! ## The view -/

/-- The exchanges with the peer, none where it has no session. -/
def CoapStack.client (stack : CoapStack) (peer : SocketAddr) :
    ExchangeTable :=
  match stack.sessions.lookup peer with
  | some session => session.client
  | none => .empty

/-- The result that an effect sends to a caller. -/
def Effect.delivery? : Effect → Option Delivery
  | .deliver delivery => some delivery
  | _ => none

/-- The results a list of effects delivers. -/
def deliveriesOf (effects : List Effect) : List Delivery :=
  effects.filterMap Effect.delivery?

@[simp]
theorem mem_deliveriesOf (effects : List Effect) (delivery : Delivery) :
    delivery ∈ deliveriesOf effects ↔ .deliver delivery ∈ effects := by
  rw [deliveriesOf, List.mem_filterMap]
  constructor
  · rintro ⟨effect, member, made⟩
    cases effect with
    | deliver other =>
        rw [Effect.delivery?, Option.some.injEq] at made
        subst made
        exact member
    | sendPacket _ _ => cases made
    | sendRequest _ => cases made
  · intro member
    exact ⟨_, member, rfl⟩

@[simp]
theorem deliveriesOf_append (left right : List Effect) :
    deliveriesOf (left ++ right) =
      deliveriesOf left ++ deliveriesOf right :=
  List.filterMap_append

@[simp]
theorem deliveriesOf_map_deliver (deliveries : List Delivery) :
    deliveriesOf (deliveries.map .deliver) = deliveries := by
  rw [deliveriesOf, List.filterMap_map]
  exact List.filterMap_some

/-! ## The events -/

/-- The event an inbound packet is for the exchanges of its sender. -/
def packetEvent (codec : Codec) (duplicate : Bool) (parsed : Packet) :
    ClientEvent :=
  match parsed.header.messageType with
  | .confirmable | .nonConfirmable =>
      if duplicate then .idle
      else
        match CoapResponse.fromPacket codec parsed with
        | .ok response => .answered parsed.token response
        | .error _ => .idle
  | .acknowledgement =>
      match parsed.header.code with
      | .empty => .acknowledged parsed.header.messageId
      | _ =>
          match CoapResponse.fromPacket codec parsed with
          | .ok response =>
              .piggybacked parsed.header.messageId response
          | .error _ => .idle
  | .reset => .reset parsed.header.messageId

/-- A client request that was encoded: the token and the MID allocated for
it, and its datagram. -/
structure Opening where
  outbound : OutboundRequest
  token : Token
  mid : UInt16
  bytes : Bytes

/-- The exchange that is opened for the request. -/
def Opening.exchange (opening : Opening) (iteration : Iteration) :
    Exchange :=
  if opening.outbound.request.confirmable then
    Exchange.newCon opening.outbound.responseTx opening.mid opening.bytes
      iteration.ackTimeout iteration.now
  else Exchange.newNon opening.outbound.responseTx iteration.now

namespace CoapStack

/-- The client request that the iteration takes and encodes. -/
def opening (codec : Codec) (stack : CoapStack)
    (iteration : Iteration) : Option Opening :=
  match iteration.branch with
  | .outboundRequest (some outbound) =>
      let session := stack.sessionFor iteration outbound.peer
      let token := session.tokenAllocator.allocate.1
      let mid := session.midAllocator.allocate.1
      (codec.toBytes (outbound.request.toPacket codec token mid)).map
        fun bytes => ⟨outbound, token, mid, bytes⟩
  | _ => none

/-- The MID is in the deduplication table of the peer. -/
def isDuplicate (stack : CoapStack) (peer : SocketAddr)
    (mid : UInt16) : Bool :=
  (stack.sessions.lookup peer).any fun session =>
    session.isDuplicate mid

/-- The event an iteration is for the exchanges of a peer. -/
def clientEvent (codec : Codec) (stack : CoapStack)
    (iteration : Iteration) (peer : SocketAddr) : ClientEvent :=
  match iteration.branch with
  | .inbound raw source =>
      if source = peer then
        match codec.fromBytes raw with
        | some parsed =>
            packetEvent codec
              (stack.isDuplicate peer parsed.header.messageId) parsed
        | none => .idle
      else .idle
  | .outboundRequest _ =>
      match stack.opening codec iteration with
      | some opening =>
          if opening.outbound.peer = peer then
            .opened opening.token (opening.exchange iteration)
          else .idle
      | none => .idle
  | .retransmissionTimer _ => .ticked iteration.now
  | _ => .idle

end CoapStack

/-- Where an event comes from, one constructor for each event. -/
inductive EventOrigin (codec : Codec) (stack : CoapStack)
    (iteration : Iteration) (peer : SocketAddr) : ClientEvent → Prop where
  | idle : EventOrigin codec stack iteration peer .idle
  | opened {opening : Opening}
      (opens : stack.opening codec iteration = some opening)
      (isPeer : opening.outbound.peer = peer) :
      EventOrigin codec stack iteration peer
        (.opened opening.token (opening.exchange iteration))
  | answered {raw : Bytes} {parsed : Packet} {response : CoapResponse}
      (taken : iteration.branch = .inbound raw peer)
      (parses : codec.fromBytes raw = some parsed)
      (kind : parsed.header.messageType = .confirmable ∨
        parsed.header.messageType = .nonConfirmable)
      (fresh : stack.isDuplicate peer parsed.header.messageId = false)
      (decoded : CoapResponse.fromPacket codec parsed = .ok response) :
      EventOrigin codec stack iteration peer
        (.answered parsed.token response)
  | acknowledged {raw : Bytes} {parsed : Packet}
      (taken : iteration.branch = .inbound raw peer)
      (parses : codec.fromBytes raw = some parsed)
      (kind : parsed.header.messageType = .acknowledgement)
      (code : parsed.header.code = .empty) :
      EventOrigin codec stack iteration peer
        (.acknowledged parsed.header.messageId)
  | piggybacked {raw : Bytes} {parsed : Packet} {response : CoapResponse}
      (taken : iteration.branch = .inbound raw peer)
      (parses : codec.fromBytes raw = some parsed)
      (kind : parsed.header.messageType = .acknowledgement)
      (decoded : CoapResponse.fromPacket codec parsed = .ok response) :
      EventOrigin codec stack iteration peer
        (.piggybacked parsed.header.messageId response)
  | reset {raw : Bytes} {parsed : Packet}
      (taken : iteration.branch = .inbound raw peer)
      (parses : codec.fromBytes raw = some parsed)
      (kind : parsed.header.messageType = .reset) :
      EventOrigin codec stack iteration peer
        (.reset parsed.header.messageId)
  | ticked {order : List (SocketAddr × List Token)}
      (taken : iteration.branch = .retransmissionTimer order) :
      EventOrigin codec stack iteration peer (.ticked iteration.now)

theorem message_origin
    {codec : Codec} {stack : CoapStack} {iteration : Iteration}
    {peer : SocketAddr} {raw : Bytes} {parsed : Packet}
    (taken : iteration.branch = .inbound raw peer)
    (parses : codec.fromBytes raw = some parsed)
    (kind : parsed.header.messageType = .confirmable ∨
      parsed.header.messageType = .nonConfirmable) :
    EventOrigin codec stack iteration peer
      (packetEvent codec
        (stack.isDuplicate peer parsed.header.messageId) parsed) := by
  have event : packetEvent codec
      (stack.isDuplicate peer parsed.header.messageId) parsed =
        if stack.isDuplicate peer parsed.header.messageId then .idle
        else
          match CoapResponse.fromPacket codec parsed with
          | .ok response => .answered parsed.token response
          | .error _ => .idle := by
    rcases kind with kind | kind <;> rw [packetEvent, kind]
  rw [event]
  split
  · exact .idle
  · next fresh =>
      split
      · next response decoded =>
          exact .answered taken parses kind
            (Bool.eq_false_of_not_eq_true fresh) decoded
      · exact .idle

theorem clientEvent_origin
    (codec : Codec) (stack : CoapStack) (iteration : Iteration)
    (peer : SocketAddr) :
    EventOrigin codec stack iteration peer
      (stack.clientEvent codec iteration peer) := by
  simp only [CoapStack.clientEvent]
  split
  · next raw source taken =>
      split
      · next isPeer =>
          subst isPeer
          split
          · next parsed parses =>
              cases kind : parsed.header.messageType with
              | confirmable =>
                  exact message_origin taken parses (Or.inl kind)
              | nonConfirmable =>
                  exact message_origin taken parses (Or.inr kind)
              | acknowledgement =>
                  rw [packetEvent, kind]
                  simp only
                  split
                  · next code => exact .acknowledged taken parses kind code
                  · split
                    · next response decoded =>
                        exact .piggybacked taken parses kind decoded
                    · exact .idle
              | reset =>
                  rw [packetEvent, kind]
                  exact .reset taken parses kind
          · exact .idle
      · exact .idle
  · split
    · next opening opens =>
        split
        · next isPeer => exact .opened opens isPeer
        · exact .idle
    · exact .idle
  · next taken => exact .ticked taken
  · exact .idle

/-! ## Sessions -/

@[simp]
theorem sessionFor_client
    (stack : CoapStack) (iteration : Iteration) (peer : SocketAddr) :
    (stack.sessionFor iteration peer).client = stack.client peer := by
  rw [CoapStack.sessionFor, CoapStack.client]
  cases stack.sessions.lookup peer <;> rfl

theorem exists_session_of_open
    {stack : CoapStack} {peer : SocketAddr} {token : Token}
    {exchange : Exchange}
    (found : (stack.client peer).exchanges.lookup token =
      some exchange) :
    ∃ session, stack.sessions.lookup peer = some session ∧
      session.exchanges.lookup token = some exchange := by
  rw [CoapStack.client] at found
  cases stored : stack.sessions.lookup peer with
  | none =>
      rw [stored] at found
      cases found
  | some session =>
      rw [stored] at found
      exact ⟨session, rfl, found⟩

@[simp]
theorem sessionFor_isDuplicate
    (stack : CoapStack) (iteration : Iteration) (peer : SocketAddr)
    (mid : UInt16) :
    (stack.sessionFor iteration peer).isDuplicate mid =
      stack.isDuplicate peer mid := by
  rw [CoapStack.sessionFor, CoapStack.isDuplicate]
  cases stack.sessions.lookup peer with
  | none => rfl
  | some session => rfl

theorem putSession_client
    (stack : CoapStack) (peer other : SocketAddr)
    (session : PeerSession) :
    (stack.putSession peer session).client other =
      if other = peer then session.client else stack.client other := by
  rw [CoapStack.client, lookup_putSession]
  by_cases equal : other = peer <;> simp [equal, CoapStack.client]

theorem completeExchange_refines
    (session : PeerSession) (token : Token) (response : CoapResponse) :
    (session.completeExchange token response).2.1.client =
        (session.client.answer token response).1 ∧
      ((session.completeExchange token response).2.2 :
          Multiset Delivery) =
        (session.client.answer token response).2 := by
  simp only [PeerSession.completeExchange, ExchangeTable.answer]
  simp only [PeerSession.client]
  cases session.exchanges.lookup token with
  | none => exact ⟨rfl, rfl⟩
  | some exchange => exact ⟨rfl, rfl⟩

/-- A CON or NON that is not a duplicate answers the exchange under its
token if it carries a response, and else leaves the exchanges alone. -/
theorem dispatchMessage_refines
    {codec : Codec} {session after : PeerSession} {peer : SocketAddr}
    {parsed : Packet} {effects : List Effect}
    (dispatched :
      dispatchMessage codec session peer parsed = .ok (after, effects)) :
    match CoapResponse.fromPacket codec parsed with
    | .ok response =>
        after.client =
            (session.client.answer parsed.token response).1 ∧
          (deliveriesOf effects : Multiset Delivery) =
            (session.client.answer parsed.token response).2
    | .error _ => after.client = session.client ∧
        deliveriesOf effects = [] := by
  simp only [dispatchMessage] at dispatched
  simp only [CoapResponse.fromPacket] at dispatched ⊢
  cases code : parsed.header.code with
  | request method =>
      simp only [code] at dispatched
      split at dispatched
      · cases dispatched
      · injection dispatched with equal
        injection equal with sessionEqual effectsEqual
        subst sessionEqual
        subst effectsEqual
        exact ⟨rfl, rfl⟩
      · injection dispatched with equal
        injection equal with sessionEqual effectsEqual
        subst sessionEqual
        subst effectsEqual
        exact ⟨rfl, rfl⟩
  | response responseType =>
      simp only [code] at dispatched
      injection dispatched with equal
      have completed := completeExchange_refines session parsed.token
        ⟨responseType, codec.getContentFormat parsed, parsed.payload⟩
      have sessionEqual := congrArg Prod.fst equal
      have effectsEqual := congrArg Prod.snd equal
      subst sessionEqual
      subst effectsEqual
      simp only [deliveriesOf_map_deliver]
      exact completed
  | empty =>
      simp only [code] at dispatched
      injection dispatched with equal
      injection equal with sessionEqual effectsEqual
      subst sessionEqual
      subst effectsEqual
      exact ⟨rfl, rfl⟩
  | reserved number =>
      simp only [code] at dispatched
      injection dispatched with equal
      injection equal with sessionEqual effectsEqual
      subst sessionEqual
      subst effectsEqual
      exact ⟨rfl, rfl⟩

theorem recordMessage_deliveries
    (codec : Codec) (session : PeerSession) (now : Nat)
    (peer : SocketAddr) (parsed : Packet) :
    deliveriesOf (recordMessage codec session now peer parsed).2 =
      [] := by
  unfold recordMessage acknowledgeCon
  simp only
  split
  · split
    · rfl
    · split <;> rfl
  · rfl

theorem replayCached_deliveries
    (session : PeerSession) (peer : SocketAddr) (parsed : Packet) :
    deliveriesOf (replayCached session peer parsed) = [] := by
  simp only [replayCached]
  split
  · split <;> rfl
  · rfl

theorem receiveMessage_refines
    {codec : Codec} {session after : PeerSession} {now : Nat}
    {peer : SocketAddr} {parsed : Packet} {effects : List Effect}
    (received :
      receiveMessage codec session now peer parsed =
        .ok (after, effects))
    (event : ClientEvent)
    (isEvent : event =
      if session.isDuplicate parsed.header.messageId then .idle
      else
        match CoapResponse.fromPacket codec parsed with
        | .ok response => .answered parsed.token response
        | .error _ => .idle) :
    after.client = (session.client.apply event).1 ∧
      (deliveriesOf effects : Multiset Delivery) =
        (session.client.apply event).2 := by
  rcases receiveMessage_cases received with
    ⟨duplicate, rfl, rfl⟩ | ⟨fresh, dispatched, dispatches, rfl⟩
  · rw [if_pos duplicate] at isEvent
    subst isEvent
    rw [replayCached_deliveries]
    exact ⟨rfl, rfl⟩
  · rw [fresh] at isEvent
    have refined := dispatchMessage_refines dispatches
    rw [recordMessage_frame, PeerSession.withServer_client] at refined
    rw [deliveriesOf_append, recordMessage_deliveries, List.nil_append]
    cases decoded : CoapResponse.fromPacket codec parsed with
    | ok response =>
        simp only [decoded, Bool.false_eq_true, if_false]
          at refined isEvent
        subst isEvent
        exact refined
    | error problem =>
        simp only [decoded, Bool.false_eq_true, if_false]
          at refined isEvent
        subst isEvent
        rw [refined.2]
        exact ⟨refined.1, rfl⟩

theorem receiveAck_refines
    (codec : Codec) (session : PeerSession) (parsed : Packet)
    (event : ClientEvent)
    (isEvent : event =
      match parsed.header.code with
      | .empty => .acknowledged parsed.header.messageId
      | _ =>
          match CoapResponse.fromPacket codec parsed with
          | .ok response =>
              .piggybacked parsed.header.messageId response
          | .error _ => .idle) :
    (receiveAck codec session parsed).1.client =
        (session.client.apply event).1 ∧
      (deliveriesOf (receiveAck codec session parsed).2 :
          Multiset Delivery) =
        (session.client.apply event).2 := by
  subst isEvent
  simp only [receiveAck, CoapResponse.fromPacket, PeerSession.handleAck]
  cases code : parsed.header.code with
  | empty =>
      simp only [ExchangeTable.apply, PeerSession.client]
      cases session.midToToken.lookup parsed.header.messageId <;>
        exact ⟨rfl, rfl⟩
  | response responseType =>
      simp only [ExchangeTable.apply]
      cases indexed :
          session.midToToken.lookup parsed.header.messageId with
      | none =>
          have notIndexed :
              session.client.midToToken.lookup
                parsed.header.messageId = none := indexed
          rw [notIndexed]
          exact ⟨rfl, rfl⟩
      | some token =>
          have indexedClient :
              session.client.midToToken.lookup
                parsed.header.messageId = some token := indexed
          rw [indexedClient]
          simp only [deliveriesOf_map_deliver]
          exact completeExchange_refines
            { session with
              midToToken :=
                session.midToToken.erase parsed.header.messageId }
            token _
  | request method => exact ⟨rfl, rfl⟩
  | reserved number => exact ⟨rfl, rfl⟩

theorem handleRst_refines (session : PeerSession) (mid : UInt16) :
    (session.handleRst mid).2.1.client =
        (session.client.apply (.reset mid)).1 ∧
      ((session.handleRst mid).2.2 : Multiset Delivery) =
        (session.client.apply (.reset mid)).2 := by
  simp only [PeerSession.handleRst]
  simp only [ExchangeTable.apply, PeerSession.client]
  cases session.midToToken.lookup mid with
  | none => exact ⟨rfl, rfl⟩
  | some token =>
      simp only
      cases session.exchanges.lookup token <;> exact ⟨rfl, rfl⟩

/-- One parsed packet is one event for the exchanges of its sender. -/
theorem receivePacket_refines
    {codec : Codec} {session after : PeerSession} {now : Nat}
    {peer : SocketAddr} {parsed : Packet} {effects : List Effect}
    (received :
      receivePacket codec session now peer parsed =
        .ok (after, effects)) :
    after.client =
        (session.client.apply
          (packetEvent codec
            (session.isDuplicate parsed.header.messageId) parsed)).1 ∧
      (deliveriesOf effects : Multiset Delivery) =
        (session.client.apply
          (packetEvent codec
            (session.isDuplicate parsed.header.messageId) parsed)).2 := by
  rcases receivePacket_cases received with
    ⟨kind, finished⟩ | ⟨kind, rfl, rfl⟩ | ⟨kind, rfl, rfl⟩
  · apply receiveMessage_refines finished
    rcases kind with kind | kind <;> rw [packetEvent, kind]
  · exact receiveAck_refines codec session parsed _
      (by rw [packetEvent, kind])
  · rw [packetEvent, kind, deliveriesOf_map_deliver]
    exact handleRst_refines session _

theorem sendOutboundResponse_deliveries
    (codec : Codec) (session : PeerSession) (outbound : ServerResponse) :
    deliveriesOf (sendOutboundResponse codec session outbound).2 =
      [] := by
  unfold sendOutboundResponse
  split <;> simp only <;> split <;> rfl

/-- One tick of a session is the timer event, in any order. -/
theorem tick_client
    {session : PeerSession} {order : List Token} (now : Nat)
    (enumerates : Enumerates order session.exchanges) :
    (session.tick now order).1.client = session.client.tick now := by
  apply ExchangeTable.ext_lookup
  · intro token
    rw [ExchangeTable.tick_exchanges_lookup]
    exact collectRetransmissions_lookup now enumerates token
  · intro mid
    rw [ExchangeTable.tick_midToToken_lookup]
    rcases collectRetransmissions_index now enumerates mid with
      ⟨dropped, kept⟩
    split
    · next ranOut =>
        exact dropped ((session.client.midRunsOut_iff now mid).mp ranOut)
    · next unbound =>
        apply kept
        intro token exchange found ranOut bound
        exact unbound ((session.client.midRunsOut_iff now mid).mpr
          ⟨token, exchange, found, ranOut, bound⟩)

theorem tick_deliveries
    {session : PeerSession} {order : List Token} (now : Nat)
    (enumerates : Enumerates order session.exchanges) :
    ((session.tick now order).2.2 : Multiset Delivery) =
      (session.client.apply (.ticked now)).2 :=
  collectRetransmissions_deliveries now enumerates

/-! ## The loop -/

theorem request_client
    (codec : Codec) (stack : CoapStack) (iteration : Iteration)
    {outbound : OutboundRequest}
    (taken : iteration.branch = .outboundRequest (some outbound)) :
    (sendOutboundRequest codec
        (stack.sessionFor iteration outbound.peer)
        iteration outbound).1.client =
      ((stack.client outbound.peer).apply
        (stack.clientEvent codec iteration outbound.peer)).1 := by
  rw [← sessionFor_client stack iteration outbound.peer,
    CoapStack.clientEvent, taken]
  simp only [CoapStack.opening, taken]
  simp only [sendOutboundRequest]
  simp only [PeerSession.allocateToken, PeerSession.allocateMid]
  cases encoded :
      codec.toBytes (outbound.request.toPacket codec
        (stack.sessionFor iteration
          outbound.peer).tokenAllocator.allocate.1
        (stack.sessionFor iteration
          outbound.peer).midAllocator.allocate.1) with
  | none => rfl
  | some bytes =>
      simp only [Option.map_some, if_true, ExchangeTable.apply]
      simp only [openExchange, Opening.exchange]
      by_cases confirmable : outbound.request.confirmable = true
      · simp only [confirmable, if_true]
        rfl
      · simp only [confirmable]
        rfl

theorem request_deliveries
    (codec : Codec) (session : PeerSession) (iteration : Iteration)
    (outbound : OutboundRequest) :
    deliveriesOf
        (sendOutboundRequest codec session iteration outbound).2 = [] := by
  unfold sendOutboundRequest
  simp only
  split <;> rfl

/-- A request is no event for any peer but its own. -/
theorem clientEvent_request_of_ne
    (codec : Codec) (stack : CoapStack) (iteration : Iteration)
    {outbound : OutboundRequest} {peer : SocketAddr}
    (taken : iteration.branch = .outboundRequest (some outbound))
    (other : peer ≠ outbound.peer) :
    stack.clientEvent codec iteration peer = .idle := by
  rw [CoapStack.clientEvent, taken]
  simp only [CoapStack.opening, taken]
  cases codec.toBytes (outbound.request.toPacket codec
      (stack.sessionFor iteration
        outbound.peer).tokenAllocator.allocate.1
      (stack.sessionFor iteration
        outbound.peer).midAllocator.allocate.1) with
  | none => rfl
  | some bytes =>
      simp only [Option.map_some]
      rw [if_neg fun equal => other equal.symm]

theorem retransmit_client
    {stack : CoapStack} {order : List (SocketAddr × List Token)}
    (now : Nat)
    (enumerates : stack.EnumeratesSessions order) (peer : SocketAddr) :
    (stack.retransmit now order).1.client peer =
      (stack.client peer).tick now := by
  have visited := lookup_retransmit now enumerates peer
  rw [CoapStack.client, CoapStack.client]
  cases found : stack.sessions.lookup peer with
  | none =>
      rw [found] at visited
      rw [visited]
      apply (ExchangeTable.tick_eq_self _).symm
      intro token exchange absent
      cases absent
  | some session =>
      rw [found] at visited
      rcases visited with ⟨exchangeOrder, _, visits, ticked⟩
      rw [ticked]
      exact tick_client now visits

theorem cleanup_client
    (stack : CoapStack) (now : Nat) (peer : SocketAddr) :
    (stack.cleanup now).client peer = stack.client peer := by
  rw [CoapStack.client, CoapStack.client, lookup_cleanup]
  cases found : stack.sessions.lookup peer with
  | none => rfl
  | some session =>
      by_cases idle : session.isIdle = true
      · have absent := (isIdle_iff session).mp idle
        simp only [Option.filter, idle, Bool.not_true,
          Bool.false_eq_true, if_false]
        apply ExchangeTable.ext_lookup
        · intro token
          exact (absent.1 token).symm
        · intro mid
          exact (absent.2.1 mid).symm
      · simp [Option.filter, idle]

theorem clientEvent_timer
    {codec : Codec} {stack : CoapStack} {iteration : Iteration}
    {order : List (SocketAddr × List Token)}
    (taken : iteration.branch = .retransmissionTimer order)
    (peer : SocketAddr) :
    stack.clientEvent codec iteration peer = .ticked iteration.now := by
  rw [CoapStack.clientEvent, taken]

section Inbound

variable {codec : Codec} {stack : CoapStack} {iteration : Iteration}
  {raw : Bytes} {source : SocketAddr} {parsed : Packet}

theorem clientEvent_inbound
    (taken : iteration.branch = .inbound raw source)
    (parses : codec.fromBytes raw = some parsed) (peer : SocketAddr) :
    stack.clientEvent codec iteration peer =
      if source = peer then
        packetEvent codec
          (stack.isDuplicate peer parsed.header.messageId) parsed
      else .idle := by
  rw [CoapStack.clientEvent, taken]
  simp only [parses]

/-- A received packet is an event for the peer it comes from. -/
theorem inbound_refines
    {session : PeerSession} {effects : List Effect}
    (taken : iteration.branch = .inbound raw source)
    (parses : codec.fromBytes raw = some parsed)
    (received :
      receivePacket codec (stack.sessionFor iteration source)
        iteration.now source parsed = .ok (session, effects)) :
    session.client =
        ((stack.client source).apply
          (stack.clientEvent codec iteration source)).1 ∧
      (deliveriesOf effects : Multiset Delivery) =
        ((stack.client source).apply
          (stack.clientEvent codec iteration source)).2 := by
  have refined := receivePacket_refines received
  rw [sessionFor_client, sessionFor_isDuplicate] at refined
  rw [clientEvent_inbound taken parses, if_pos rfl]
  exact refined

end Inbound

/-- Every step applies to the table of every peer exactly its event. -/
theorem client_step
    {codec : Codec} {stack after : CoapStack} {iteration : Iteration}
    {effects : List Effect}
    (branch : BranchStep codec stack iteration after effects)
    (peer : SocketAddr) :
    after.client peer =
      ((stack.client peer).apply
        (stack.clientEvent codec iteration peer)).1 := by
  cases branch with
  | unparsed taken unparseable =>
      rw [CoapStack.clientEvent, taken]
      simp only [unparseable, ite_self]
      rfl
  | @inbound raw source parsed session effects taken parses received =>
      rw [putSession_client]
      split
      · next equal =>
          subst equal
          exact (inbound_refines taken parses received).1
      · next other =>
          rw [clientEvent_inbound taken parses,
            if_neg fun same => other same.symm]
          rfl
  | request taken =>
      rw [putSession_client]
      split
      · next equal =>
          subst equal
          exact request_client codec stack iteration taken
      · next other =>
          rw [clientEvent_request_of_ne codec stack iteration taken other]
          rfl
  | response taken =>
      rw [putSession_client, CoapStack.clientEvent, taken]
      split
      · next equal =>
          subst equal
          rw [sendOutboundResponse_client, sessionFor_client]
          rfl
      · rfl
  | timer taken due enumerates =>
      rw [retransmit_client _ enumerates, clientEvent_timer taken]
      rfl
  | cleanup taken due =>
      rw [cleanup_client, CoapStack.clientEvent, taken]
      rfl

theorem retransmit_deliveries
    (stack : CoapStack) (now : Nat)
    (order : List (SocketAddr × List Token)) :
    deliveriesOf (stack.retransmit now order).2 =
      (tickSessions now order stack.sessions).2.2 := by
  simp only [CoapStack.retransmit]
  simp only [deliveriesOf_append, deliveriesOf_map_deliver]
  rw [List.append_right_eq_self, deliveriesOf, List.filterMap_map]
  apply List.filterMap_eq_nil_iff.mpr
  intro packet _
  rfl

theorem mem_retransmit_deliveries_iff
    {stack : CoapStack} {order : List (SocketAddr × List Token)}
    (now : Nat) (enumerates : stack.EnumeratesSessions order)
    (delivery : Delivery) :
    delivery ∈ deliveriesOf (stack.retransmit now order).2 ↔
      ∃ peer, delivery ∈
        ((stack.client peer).apply (.ticked now)).2 := by
  rw [retransmit_deliveries,
    tickSessions_output _ _ _ enumerates.1.nodup]
  simp only [List.mem_flatMap]
  constructor
  · rintro ⟨⟨peer, exchangeOrder⟩, member, delivered⟩
    refine ⟨peer, ?_⟩
    cases found : stack.sessions.lookup peer with
    | none => simp [found] at delivered
    | some session =>
        simp only [found] at delivered
        rw [CoapStack.client, found]
        change delivery ∈ (session.client.apply _).2
        rw [← tick_deliveries _ (enumerates.2 _ member session found)]
        exact delivered
  · rintro ⟨peer, delivered⟩
    cases found : stack.sessions.lookup peer with
    | none =>
        rw [CoapStack.client, found] at delivered
        change delivery ∈ (0 : Multiset Delivery) at delivered
        simp at delivered
    | some session =>
        rcases exists_visit enumerates found with
          ⟨exchangeOrder, member, visits⟩
        refine ⟨(peer, exchangeOrder), member, ?_⟩
        simp only [found]
        rw [CoapStack.client, found] at delivered
        change delivery ∈ (session.client.apply _).2 at delivered
        rw [← tick_deliveries _ visits] at delivered
        exact delivered

/-- A step delivers exactly the results its events call for. -/
theorem mem_deliveriesOf_iff
    {codec : Codec} {stack after : CoapStack} {iteration : Iteration}
    {effects : List Effect}
    (branch : BranchStep codec stack iteration after effects)
    (delivery : Delivery) :
    delivery ∈ deliveriesOf effects ↔
      ∃ peer, delivery ∈
        ((stack.client peer).apply
          (stack.clientEvent codec iteration peer)).2 := by
  cases branch with
  | unparsed taken unparseable =>
      simp [CoapStack.clientEvent, taken, unparseable, deliveriesOf,
        ExchangeTable.apply]
  | @inbound raw source parsed session effects taken parses received =>
      rw [← Multiset.mem_coe, (inbound_refines taken parses received).2]
      constructor
      · intro member
        exact ⟨source, member⟩
      · rintro ⟨peer, member⟩
        by_cases equal : source = peer
        · exact equal ▸ member
        · rw [clientEvent_inbound taken parses, if_neg equal] at member
          simp [ExchangeTable.apply] at member
  | request taken =>
      rw [request_deliveries]
      simp only [List.not_mem_nil, false_iff, not_exists]
      intro peer
      simp only [CoapStack.clientEvent, taken]
      split
      · split <;> simp [ExchangeTable.apply]
      · simp [ExchangeTable.apply]
  | response taken =>
      rw [sendOutboundResponse_deliveries]
      simp [CoapStack.clientEvent, taken, ExchangeTable.apply]
  | timer taken due enumerates =>
      rw [mem_retransmit_deliveries_iff _ enumerates]
      simp only [clientEvent_timer taken]
  | cleanup taken due =>
      simp [CoapStack.clientEvent, taken, deliveriesOf,
        ExchangeTable.apply]

end Coapable.Transport
