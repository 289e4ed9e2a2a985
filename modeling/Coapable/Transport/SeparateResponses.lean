import Coapable.BareCodec
import Coapable.Transport.InboundSafety
import Coapable.Transport.ServerView

/-!
# An empty ACK and the separate response it announces

A CON request may be answered in two packets, an empty ACK and a response of
its own, and the network may deliver them in either order, lose the ACK and
repeat both.  On the exchange table the ACK is absorbed by the response, before
it and after it, and each is absorbed by itself.  A packet that is no request
does to a session what its two events do to the two views, so the same holds
of sessions.
-/

namespace Coapable.Transport

open Coapable.BareCodec
open Coapable.CoapLite
open Coapable.Foundation.FiniteMap
open Coapable.MessageTypes

/-! ## The exchange table -/

namespace ExchangeTable

variable {table : ExchangeTable} {token : Token} {mid : UInt16}
  {exchange : Exchange}

/-- The exchange of a CON request is open under its token, and its MID leads
to it. -/
structure Waits (table : ExchangeTable) (token : Token) (mid : UInt16)
    (exchange : Exchange) : Prop where
  isOpen : table.exchanges.lookup token = some exchange
  messageId : exchange.messageId = some mid
  indexed : table.midToToken.lookup mid = some token

theorem acknowledged_of_absent
    (absent : table.midToToken.lookup mid = none) :
    table.apply (.acknowledged mid) = (table, 0) := by
  simp only [apply, absent]

theorem Waits.acknowledged
    (waits : table.Waits token mid exchange) :
    (table.apply (.acknowledged mid)).1 =
      ⟨modify token Exchange.cancelRetransmission table.exchanges,
        table.midToToken.erase mid⟩ := by
  simp only [apply, waits.indexed]

theorem acknowledged_deliveries (table : ExchangeTable) (mid : UInt16) :
    (table.apply (.acknowledged mid)).2 = 0 := by
  simp only [apply]
  split <;> rfl

/-- An ACK takes its MID out of the index. -/
theorem acknowledged_unindexed (table : ExchangeTable) (mid : UInt16) :
    (table.apply (.acknowledged mid)).1.midToToken.lookup mid = none := by
  simp only [apply]
  split
  · exact Finmap.lookup_erase mid _
  · next absent => exact absent

theorem acknowledged_twice (table : ExchangeTable) (mid : UInt16) :
    ((table.apply (.acknowledged mid)).1.apply (.acknowledged mid)).1 =
      (table.apply (.acknowledged mid)).1 := by
  rw [acknowledged_of_absent (acknowledged_unindexed table mid)]

theorem Waits.answered
    (waits : table.Waits token mid exchange) (response : CoapResponse) :
    table.apply (.answered token response) =
      (⟨table.exchanges.erase token, table.midToToken.erase mid⟩,
        {exchange.complete response}) := by
  simp only [apply, answer, waits.isOpen, remove, waits.messageId]

/-- An ACK before the response makes no difference. -/
theorem Waits.answered_after_acknowledged
    (waits : table.Waits token mid exchange) (response : CoapResponse) :
    (table.apply (.acknowledged mid)).1.apply (.answered token response) =
      table.apply (.answered token response) := by
  have isOpen : (modify token Exchange.cancelRetransmission
      table.exchanges).lookup token =
        some exchange.cancelRetransmission := by
    rw [lookup_modify, if_pos rfl, waits.isOpen]
    rfl
  have sameMid : exchange.cancelRetransmission.messageId = some mid :=
    waits.messageId
  rw [waits.answered, waits.acknowledged]
  simp only [apply, answer, isOpen, remove, sameMid, Prod.mk.injEq]
  refine ⟨ExchangeTable.ext_lookup ?_ ?_, rfl⟩
  · intro other
    simp only [lookup_erase_eq, lookup_modify]
    split <;> rfl
  · intro other
    simp only [lookup_erase_eq]
    split <;> rfl

/-- An ACK after the response makes no difference either. -/
theorem Waits.acknowledged_after_answered
    (waits : table.Waits token mid exchange) (response : CoapResponse) :
    ((table.apply (.answered token response)).1.apply
        (.acknowledged mid)).1 =
      (table.apply (.answered token response)).1 := by
  have absent : (table.apply
      (.answered token response)).1.midToToken.lookup mid = none := by
    rw [waits.answered]
    exact Finmap.lookup_erase mid _
  rw [acknowledged_of_absent absent]

end ExchangeTable

/-! ## One packet -/

/-- Apply one event to each of the two views of a session. -/
def PeerSession.apply (session : PeerSession) (client : ClientEvent)
    (server : ServerEvent) : PeerSession :=
  (session.withServer (session.server.apply server).1).withClient
    (session.client.apply client).1

theorem PeerSession.apply_apply
    (session : PeerSession) (client laterClient : ClientEvent)
    (server laterServer : ServerEvent) :
    (session.apply client server).apply laterClient laterServer =
      (session.withServer
        ((session.server.apply server).1.apply laterServer).1).withClient
          ((session.client.apply client).1.apply laterClient).1 :=
  rfl

/-- A packet that is no request is received, and applies its two events. -/
theorem receivePacket_applies
    (codec : Codec) (session : PeerSession) (now : Nat)
    (peer : SocketAddr) {parsed : Packet}
    (noRequest : parsed.header.code.isRequest = false) :
    let duplicate := session.isDuplicate parsed.header.messageId
    let event := packetEvent codec duplicate parsed
    ∃ effects, receivePacket codec session now peer parsed =
        .ok (session.apply event
          (packetServerEvent codec duplicate now parsed), effects) ∧
      (deliveriesOf effects : Multiset Delivery) =
        (session.client.apply event).2 := by
  have survives : ¬ ∃ panic, receivePacket codec session now peer parsed =
      .error panic := by
    rw [InboundSafety.receivePacket_panics_iff, noRequest]
    simp
  cases received : receivePacket codec session now peer parsed with
  | error panic => exact absurd ⟨panic, received⟩ survives
  | ok finished =>
      rcases finished with ⟨after, effects⟩
      have refined := receivePacket_refines received
      refine ⟨effects, ?_, refined.2⟩
      rw [receivePacket_frame received, receivePacket_server received,
        refined.1]
      rfl

/-! ## Arrivals -/

/-- Receive packets of one peer, each at its time. -/
def receiveAll (codec : Codec) (peer : SocketAddr) :
    PeerSession → List (Nat × Packet) →
      Except Panic (PeerSession × List Effect)
  | session, [] => .ok (session, [])
  | session, (now, parsed) :: rest =>
      match receivePacket codec session now peer parsed with
      | .error panic => .error panic
      | .ok (received, effects) =>
          match receiveAll codec peer received rest with
          | .error panic => .error panic
          | .ok (after, later) => .ok (after, effects ++ later)

/-- The arrivals lead from one session to another and deliver exactly these
results. -/
def LeadsTo (codec : Codec) (peer : SocketAddr) (session : PeerSession)
    (arrivals : List (Nat × Packet)) (after : PeerSession)
    (deliveries : List Delivery) : Prop :=
  ∃ effects, receiveAll codec peer session arrivals =
      .ok (after, effects) ∧
    deliveriesOf effects = deliveries

section Arrivals

variable {codec : Codec} {peer : SocketAddr}
  {session middle after : PeerSession}

theorem LeadsTo.cons
    {now : Nat} {parsed : Packet} {effects : List Effect}
    (received : receivePacket codec session now peer parsed =
      .ok (middle, effects))
    {rest : List (Nat × Packet)} {deliveries : List Delivery}
    (leads : LeadsTo codec peer middle rest after deliveries) :
    LeadsTo codec peer session ((now, parsed) :: rest) after
      (deliveriesOf effects ++ deliveries) := by
  rcases leads with ⟨later, receivedLater, rfl⟩
  refine ⟨effects ++ later, ?_, deliveriesOf_append _ _⟩
  simp only [receiveAll, received, receivedLater]

theorem leadsTo_of_received
    {now : Nat} {parsed : Packet} {effects : List Effect}
    (received : receivePacket codec session now peer parsed =
      .ok (after, effects)) :
    LeadsTo codec peer session [(now, parsed)] after
      (deliveriesOf effects) := by
  rw [← List.append_nil (deliveriesOf effects)]
  exact LeadsTo.cons received ⟨[], rfl, rfl⟩

theorem LeadsTo.append
    {left right : List (Nat × Packet)}
    {deliveries later : List Delivery}
    (first : LeadsTo codec peer session left middle deliveries)
    (second : LeadsTo codec peer middle right after later) :
    LeadsTo codec peer session (left ++ right) after
      (deliveries ++ later) := by
  induction left generalizing session deliveries with
  | nil =>
      rcases first with ⟨effects, received, rfl⟩
      cases received
      exact second
  | cons arrival rest induction =>
      rcases arrival with ⟨now, parsed⟩
      rcases first with ⟨effects, received, rfl⟩
      simp only [receiveAll] at received
      split at received
      · cases received
      · next reached reachedEffects receivedFirst =>
          split at received
          · cases received
          · next last lastEffects receivedRest =>
              cases received
              rw [deliveriesOf_append, List.append_assoc]
              exact LeadsTo.cons receivedFirst
                (induction ⟨lastEffects, receivedRest, rfl⟩)

/-- Arrivals that change nothing one by one change nothing together. -/
theorem leadsTo_self
    {arrivals : List (Nat × Packet)}
    (kept : ∀ arrival ∈ arrivals,
      LeadsTo codec peer session [arrival] session []) :
    LeadsTo codec peer session arrivals session [] := by
  induction arrivals with
  | nil => exact ⟨[], rfl, rfl⟩
  | cons arrival rest induction =>
      have first := kept arrival List.mem_cons_self
      have later := induction fun other member =>
        kept other (List.mem_cons_of_mem _ member)
      exact first.append later

end Arrivals

/-! ## The two packets -/

/-- An empty ACK for a MID. -/
structure IsEmptyAck (mid : UInt16) (ack : Packet) : Prop where
  kind : ack.header.messageType = .acknowledgement
  code : ack.header.code = .empty
  messageId : ack.header.messageId = mid

/-- A CON or NON with a response. -/
structure IsSeparateResponse (token : Token)
    (response : Packet) : Prop where
  kind : response.header.messageType = .confirmable ∨
    response.header.messageType = .nonConfirmable
  code : response.header.code.isResponse = true
  token_eq : response.token = token

section Packets

variable {codec : Codec} {session : PeerSession} {token : Token}
  {mid : UInt16} {exchange : Exchange} {ack response : Packet}

theorem leadsTo_of_emptyAck
    (codec : Codec) (session : PeerSession)
    (isAck : IsEmptyAck mid ack) (peer : SocketAddr) (now : Nat) :
    LeadsTo codec peer session [(now, ack)]
      (session.apply (.acknowledged mid) .idle) [] := by
  have noRequest : ack.header.code.isRequest = false := by
    rw [isAck.code]
    rfl
  rcases receivePacket_applies codec session now peer noRequest with
    ⟨effects, received, delivered⟩
  simp only [packetEvent, packetServerEvent, isAck.kind, isAck.code,
    isAck.messageId] at received delivered
  rw [ExchangeTable.acknowledged_deliveries, Multiset.coe_eq_zero]
    at delivered
  rw [← delivered]
  exact leadsTo_of_received received

theorem IsSeparateResponse.decodes
    (separate : IsSeparateResponse token response) (codec : Codec) :
    ∃ decoded, CoapResponse.fromPacket codec response = .ok decoded := by
  have isResponse := separate.code
  cases code : response.header.code with
  | response responseType =>
      simp only [CoapResponse.fromPacket, code]
      exact ⟨_, rfl⟩
  | empty | request | reserved =>
      rw [code] at isResponse
      cases isResponse

theorem IsSeparateResponse.noRequest
    (separate : IsSeparateResponse token response) :
    response.header.code.isRequest = false := by
  have isResponse := separate.code
  cases code : response.header.code with
  | response => rfl
  | empty | request | reserved =>
      rw [code] at isResponse
      cases isResponse

/-- A new response completes the exchange that waits for it. -/
theorem leadsTo_of_response
    (separate : IsSeparateResponse token response)
    (fresh : session.isDuplicate response.header.messageId = false)
    {decoded : CoapResponse}
    (decodes : CoapResponse.fromPacket codec response = .ok decoded)
    {delivery : Delivery}
    (delivers : (session.client.apply (.answered token decoded)).2 =
      {delivery})
    (peer : SocketAddr) (now : Nat) :
    LeadsTo codec peer session [(now, response)]
      (session.apply (.answered token decoded)
        (packetServerEvent codec false now response)) [delivery] := by
  rcases receivePacket_applies codec session now peer
      separate.noRequest with ⟨effects, received, delivered⟩
  have event : packetEvent codec false response =
      .answered token decoded := by
    rw [← separate.token_eq]
    rcases separate.kind with kind | kind <;>
      simp [packetEvent, kind, decodes]
  rw [fresh, event] at received delivered
  rw [delivers, Multiset.coe_eq_singleton] at delivered
  rw [← delivered]
  exact leadsTo_of_received received

/-- A response whose MID is in the deduplication table changes nothing. -/
theorem leadsTo_of_duplicate
    (separate : IsSeparateResponse token response)
    (duplicate : session.isDuplicate response.header.messageId = true)
    (peer : SocketAddr) (now : Nat) :
    LeadsTo codec peer session [(now, response)] session [] := by
  rcases receivePacket_applies codec session now peer
      separate.noRequest with ⟨effects, received, delivered⟩
  have event : packetEvent codec true response = .idle := by
    rcases separate.kind with kind | kind <;> simp [packetEvent, kind]
  have kept : session.apply .idle
      (packetServerEvent codec true now response) = session := by
    rcases separate.kind with kind | kind <;>
      simp only [packetServerEvent, kind] <;> rfl
  rw [duplicate, event, kept] at received
  rw [duplicate, event] at delivered
  have nothing : deliveriesOf effects = [] :=
    (Multiset.coe_eq_zero _).mp delivered
  rw [← nothing]
  exact leadsTo_of_received received

/-! ## In any order -/

/-- The copies of an ACK take the MID out of the index, or there are none. -/
theorem leadsTo_of_acks
    (codec : Codec) (session : PeerSession) (isAck : IsEmptyAck mid ack) (peer : SocketAddr)
    {arrivals : List (Nat × Packet)}
    (copies : ∀ arrival ∈ arrivals, arrival.2 = ack) :
    LeadsTo codec peer session arrivals session [] ∨
      LeadsTo codec peer session arrivals
        (session.apply (.acknowledged mid) .idle) [] := by
  cases arrivals with
  | nil => exact Or.inl ⟨[], rfl, rfl⟩
  | cons arrival rest =>
      rcases List.forall_mem_cons.mp copies with ⟨isCopy, copies⟩
      have first := leadsTo_of_emptyAck codec session isAck peer arrival.1
      rw [← isCopy] at first
      refine Or.inr (first.append (leadsTo_self ?_))
      intro other member
      have again := leadsTo_of_emptyAck codec
        (session.apply (.acknowledged mid) .idle) isAck peer other.1
      rw [← copies other member] at again
      have absorbed :
          (session.apply (.acknowledged mid) .idle).apply
              (.acknowledged mid) .idle =
            session.apply (.acknowledged mid) .idle := by
        rw [PeerSession.apply_apply, ExchangeTable.acknowledged_twice]
        rfl
      rwa [absorbed] at again

/-- A CON or NON that was received as no duplicate is one from then on. -/
theorem isDuplicate_of_accepted
    {parsed : Packet}
    (kind : parsed.header.messageType = .confirmable ∨
      parsed.header.messageType = .nonConfirmable)
    (event : ClientEvent) (now : Nat) :
    (session.apply event
        (packetServerEvent codec false now parsed)).isDuplicate
      parsed.header.messageId = true := by
  have accepted : ∃ request ackBytes,
      packetServerEvent codec false now parsed =
        .accepted parsed.header.messageId now request ackBytes := by
    rcases kind with kind | kind
    · simp only [packetServerEvent, kind]
      split
      · contradiction
      · split <;> exact ⟨_, _, rfl⟩
    · simp only [packetServerEvent, kind]
      exact ⟨none, none, rfl⟩
  rcases accepted with ⟨request, ackBytes, accepted⟩
  rw [accepted]
  simp [PeerSession.isDuplicate, PeerSession.apply,
    PeerSession.withClient, PeerSession.withServer, ServerTable.apply]

/-- The session after the response, whatever ACKs came before it. -/
theorem leadsTo_of_acks_and_response
    (waits : session.client.Waits token mid exchange)
    (isAck : IsEmptyAck mid ack)
    (separate : IsSeparateResponse token response)
    (fresh : session.isDuplicate response.header.messageId = false)
    {decoded : CoapResponse}
    (decodes : CoapResponse.fromPacket codec response = .ok decoded)
    (peer : SocketAddr) (now : Nat) {early : List (Nat × Packet)}
    (copies : ∀ arrival ∈ early, arrival.2 = ack) :
    LeadsTo codec peer session (early ++ [(now, response)])
      (session.apply (.answered token decoded)
        (packetServerEvent codec false now response))
      [exchange.complete decoded] := by
  rcases leadsTo_of_acks codec session isAck peer copies with unchanged | acknowledged
  · refine unchanged.append (leadsTo_of_response separate fresh decodes ?_
      peer now)
    rw [waits.answered]
  · have absorbed := waits.answered_after_acknowledged decoded
    have notYet : (session.apply (.acknowledged mid) .idle).isDuplicate
        response.header.messageId = false :=
      fresh
    have delivers : ((session.apply (.acknowledged mid) .idle).client.apply
        (.answered token decoded)).2 = {exchange.complete decoded} :=
      (congrArg Prod.snd absorbed).trans
        (congrArg Prod.snd (waits.answered decoded))
    have answers := leadsTo_of_response separate notYet decodes delivers peer
      now
    have settles :
        (session.apply (.acknowledged mid) .idle).apply
            (.answered token decoded)
            (packetServerEvent codec false now response) =
          session.apply (.answered token decoded)
            (packetServerEvent codec false now response) := by
      rw [PeerSession.apply_apply, absorbed]
      rfl
    rw [settles] at answers
    exact acknowledged.append answers

/-- After the response, copies of it and of the ACK change nothing. -/
theorem leadsTo_of_copies
    (codec : Codec) (waits : session.client.Waits token mid exchange)
    (isAck : IsEmptyAck mid ack)
    (separate : IsSeparateResponse token response)
    (decoded : CoapResponse) (peer : SocketAddr) (now : Nat)
    {later : List (Nat × Packet)}
    (copies : ∀ arrival ∈ later,
      arrival.2 = ack ∨ arrival.2 = response) :
    let settled := session.apply (.answered token decoded)
      (packetServerEvent codec false now response)
    LeadsTo codec peer settled later settled [] := by
  intro settled
  refine leadsTo_self fun arrival member => ?_
  rcases arrival with ⟨time, parsed⟩
  have isCopy : parsed = ack ∨ parsed = response := copies _ member
  rcases isCopy with rfl | rfl
  · have again := leadsTo_of_emptyAck codec settled isAck peer time
    have absorbed : settled.apply (.acknowledged mid) .idle =
        settled := by
      rw [PeerSession.apply_apply, waits.acknowledged_after_answered]
      rfl
    rwa [absorbed] at again
  · exact leadsTo_of_duplicate separate
      (isDuplicate_of_accepted separate.kind _ now) peer time

end Packets

/--
The empty ACK of a CON request and the separate response to it commute, and
the ACK may be lost.  The copies of the ACK that arrive before the response
are `early`, and what arrives after it is `later`: any number of copies of
either, in any order.  None of this shows in the session or in the results.
-/
theorem separate_response_commutes
    (codec : Codec) {session : PeerSession} {token : Token} {mid : UInt16}
    {exchange : Exchange} {ack response : Packet}
    (waits : session.client.Waits token mid exchange)
    (isAck : IsEmptyAck mid ack)
    (separate : IsSeparateResponse token response)
    (fresh : session.isDuplicate response.header.messageId = false)
    (peer : SocketAddr) (now : Nat) :
    ∃ settled decoded,
      CoapResponse.fromPacket codec response = .ok decoded ∧
      (∀ early later,
        (∀ arrival ∈ early, arrival.2 = ack) →
        (∀ arrival ∈ later, arrival.2 = ack ∨ arrival.2 = response) →
          LeadsTo codec peer session
            (early ++ (now, response) :: later) settled
            [exchange.complete decoded]) ∧
      ∀ later,
        (∀ arrival ∈ later, arrival.2 = ack ∨ arrival.2 = response) →
          LeadsTo codec peer settled later settled [] := by
  rcases separate.decodes codec with ⟨decoded, decodes⟩
  have settles (later : List (Nat × Packet))
      (copies : ∀ arrival ∈ later,
        arrival.2 = ack ∨ arrival.2 = response) :=
    leadsTo_of_copies codec waits isAck separate decoded peer now copies
  refine ⟨_, decoded, decodes, ?_, settles⟩
  intro early later acks copies
  have answered := leadsTo_of_acks_and_response waits isAck separate fresh
    decodes peer now acks
  rw [List.append_cons]
  exact answered.append (settles later copies)

/-! ## A response that overtakes its ACK -/

/-- The exchange of a CON request with MID 7. -/
def waitingExchange : Exchange :=
  Exchange.newCon ⟨0⟩ 7 [] .shortest (fromSecs 1)

/-- A session with one exchange. -/
def waitingSession : PeerSession :=
  (PeerSession.new (.loopback 5683) 7 0).insertConExchange [1] 7
    waitingExchange

/-- A NON 2.05 under the token of the request. -/
def separateResponse : Packet :=
  { Packet.new with
    header := ⟨.nonConfirmable, .response .content, 256⟩
    token := [1] }

theorem separate_response_commutes_on_overtaken_ack :
    ∃ settled decoded,
      LeadsTo bareCodec (.loopback 5683) waitingSession
        [(fromSecs 2, emptyAck 7), (fromSecs 3, separateResponse)] settled
        [waitingExchange.complete decoded] ∧
      LeadsTo bareCodec (.loopback 5683) waitingSession
        [(fromSecs 3, separateResponse), (fromSecs 4, emptyAck 7)] settled
        [waitingExchange.complete decoded] := by
  have waits : waitingSession.client.Waits [1] 7 waitingExchange :=
    ⟨by decide, by decide, by decide⟩
  have isAck : IsEmptyAck 7 (emptyAck 7) := ⟨rfl, rfl, rfl⟩
  have separate : IsSeparateResponse [1] separateResponse :=
    ⟨by decide, rfl, rfl⟩
  rcases separate_response_commutes bareCodec waits isAck separate (by decide)
      (.loopback 5683) (fromSecs 3) with
    ⟨settled, decoded, _, inAnyOrder, _⟩
  exact ⟨settled, decoded,
    inAnyOrder [(fromSecs 2, emptyAck 7)] [] (by simp) (by simp),
    inAnyOrder [] [(fromSecs 4, emptyAck 7)] (by simp) (by simp)⟩

end Coapable.Transport
