import Coapable.BareCodec
import Coapable.Transport.EffectView
import Coapable.Transport.Endpoint
import Coapable.Transport.ResponseMatching

/-!
# Datagrams longer than the receive buffer

An endpoint sends whatever its owner passes to `send_packet`, of any length,
as one datagram, and reads a datagram into a buffer of `receiveBuffer` bytes.
Between the socket and the stack nothing is lost, repeated or reordered: what
the stack took, what the inbound channel holds and what the endpoint has in
hand are together what was read.  So the stack takes a datagram whole exactly
if it fits the buffer, and of a longer one it takes the front part without
noticing.

What `to_bytes` encodes is shorter than the buffer, so between stacks nothing
is cut off.  The longer datagrams come from owners of an endpoint that send
bytes of their own.
-/

namespace Coapable.Transport.EndpointTasks

open Coapable.BareCodec
open Coapable.CoapLite
open Coapable.Foundation
open Coapable.Foundation.Execution
open Coapable.MessageTypes
open Coapable.Transport.CoapEndpoint (SentByEndpoint)

variable {codec : Codec} {history : List EndpointTransition}
  {tasks : EndpointTasks}

/-! ## From the socket to the stack -/

/-- The datagram that arrives at the socket. -/
def Move.received? : Move → Option Datagram
  | .receive datagram peer => some (datagram, peer)
  | _ => none

/-- The packet that the stack takes from `recv_packet`. -/
def Move.taken? : Move → Option Datagram
  | .take iteration =>
      match iteration.branch with
      | .inbound raw peer => some (raw, peer)
      | _ => none
  | _ => none

/-- The datagrams that arrived, whole, oldest first. -/
def received (history : List EndpointTransition) : List Datagram :=
  collected (fun transition => transition.input.received?.toList) history

/-- The packets that the stack took, oldest first. -/
def taken (history : List EndpointTransition) : List Datagram :=
  collected (fun transition => transition.input.taken?.toList) history

/-- What `recv_from` leaves of a datagram. -/
def readIntoBuffer (datagram : Datagram) : Datagram :=
  (datagram.1.take receiveBuffer, datagram.2)

/-- What was read and not yet taken, oldest first. -/
def waiting (tasks : EndpointTasks) : List Datagram :=
  tasks.inbound.items ++ tasks.inHand.toList

theorem items_of_fetch
    {inbound rest : Channel Datagram channelCapacity}
    {iteration : Iteration}
    (fetched : fetch inbound iteration.branch = some rest) :
    (Move.take iteration).taken?.toList ++ rest.items =
      inbound.items := by
  simp only [fetch] at fetched
  split at fetched
  · next raw peer isInbound =>
      split at fetched
      · next datagram shorter isReceived =>
          split at fetched
          · next equal =>
              cases fetched
              rw [Channel.receive_eq_some_iff.mp isReceived, equal]
              simp [Move.taken?, isInbound]
          · cases fetched
      · cases fetched
  · next otherwise =>
      cases fetched
      simp only [Move.taken?]
      rfl

/-- What a move takes from the front is what waited before it, and what it
adds at the end is what it read. -/
theorem waiting_of_moveStep
    {after : EndpointTasks} {move : Move}
    (stepped : MoveStep codec tasks move after) :
    move.taken?.toList ++ after.waiting =
      tasks.waiting ++ move.received?.toList.map readIntoBuffer := by
  cases stepped with
  | received free => simp [waiting, free, Move.taken?, Move.received?,
      readIntoBuffer]
  | forwarded held sent =>
      simp [waiting, held, (Channel.send_eq_some sent).2, Move.taken?,
        Move.received?]
  | taken fetched =>
      simp [waiting, ← items_of_fetch fetched, Move.received?]
  | transmitted | sent | performed =>
      simp [waiting, Move.taken?, Move.received?]

/-- The way from the socket to the stack is first in, first out. -/
theorem taken_append_waiting
    (run : Run (endpointMachine codec) history tasks) :
    taken history ++ tasks.waiting =
      (received history).map readIntoBuffer := by
  have conserved := run.collected_append waiting
    (fun transition =>
      transition.input.received?.toList.map readIntoBuffer)
    (fun transition => transition.input.taken?.toList)
    (by rintro _ ⟨now, rfl⟩; rfl)
    (fun _ stepped => waiting_of_moveStep (step_cases stepped))
  rw [taken, conserved, received, collected, collected, List.map_flatMap]

/-- The datagram that the next packet from `recv_packet` was read from. -/
def nextArrival (older : List EndpointTransition) : Option Datagram :=
  (received older)[(taken older).length]?

/-- Every packet that is taken was read from the next arrival. -/
theorem exists_nextArrival
    {transition : EndpointTransition} {older : List EndpointTransition}
    (run : Run (endpointMachine codec) (transition :: older) tasks)
    {packet : Datagram}
    (isTaken : transition.input.taken? = some packet) :
    ∃ arrival, nextArrival older = some arrival ∧
      readIntoBuffer arrival = packet := by
  have notReceived : transition.input.received? = none := by
    cases move : transition.input with
    | take iteration => rfl
    | receive | forward | transmit | perform =>
        rw [move] at isTaken
        cases isTaken
  have inOrder : taken older ++ packet :: tasks.waiting =
      (received older).map readIntoBuffer := by
    have all := taken_append_waiting run
    rw [taken, received, collected_cons, collected_cons, notReceived,
      isTaken] at all
    simpa [taken, received] using all
  have isNext : ((received older).map
      readIntoBuffer)[(taken older).length]? = some packet := by
    rw [← inOrder]
    simp
  rw [List.getElem?_map] at isNext
  exact Option.map_eq_some_iff.mp isNext

/-! ## What the stack delivers -/

/-- The stack takes the datagram whole, and of the message that it encodes no
other payload than the whole is dispatched or delivered. -/
structure NotTruncated (codec : Codec) (older : List EndpointTransition)
    (transition : EndpointTransition) : Prop where
  whole : ∀ packet, transition.input.taken? = some packet →
    nextArrival older = some packet
  dispatched : ∀ message packet bytes peer,
    transition.input.taken? = some packet →
      nextArrival older = some (bytes, peer) →
        message.WellFormed → codec.toBytes message = some bytes →
          ∀ request,
            .sendRequest request ∈ transition.after.stack.pending →
              request.request.payload = message.payload
  delivered : ∀ message packet bytes peer,
    transition.input.taken? = some packet →
      nextArrival older = some (bytes, peer) →
        message.WellFormed → codec.toBytes message = some bytes →
          ∀ delivery response,
            .deliver delivery ∈ transition.after.stack.pending →
              delivery.result = .ok response →
                response.payload = message.payload

/-- The datagram that is taken is not longer than the buffer it was read
into. -/
def Fits (older : List EndpointTransition)
    (transition : EndpointTransition) : Prop :=
  ∀ packet arrival, transition.input.taken? = some packet →
    nextArrival older = some arrival →
      arrival.1.length ≤ receiveBuffer

theorem readIntoBuffer_eq_self_iff (datagram : Datagram) :
    readIntoBuffer datagram = datagram ↔
      datagram.1.length ≤ receiveBuffer := by
  rw [← List.take_eq_self_iff, readIntoBuffer, Prod.ext_iff]
  simp

/-- What is known of a move that takes a packet. -/
theorem loopStep_of_taken
    {after : EndpointTasks} {move : Move}
    (stepped : MoveStep codec tasks move after) {raw : Bytes}
    {peer : SocketAddr} (isTaken : move.taken? = some (raw, peer)) :
    ∃ iteration, iteration.branch = .inbound raw peer ∧
      StepFacts codec tasks.stack.loop iteration after.stack.loop
        after.stack.pending := by
  cases stepped with
  | @taken iteration stack inbound fetched takes =>
      have branch : iteration.branch = .inbound raw peer := by
        simp only [Move.taken?] at isTaken
        split at isTaken
        · next isInbound =>
            cases isTaken
            exact isInbound
        · cases isTaken
      refine ⟨iteration, branch, ?_⟩
      simp only [StackTask.take] at takes
      split at takes
      · rcases Option.map_eq_some_iff.mp takes with
          ⟨⟨loop, effects⟩, loopStepped, rfl⟩
        exact Transport.step_cases loopStepped
      · cases takes
  | received | forwarded | transmitted | sent | performed =>
      cases isTaken

/-- What is dispatched or delivered was parsed from the packet. -/
theorem parses_of_effect
    {stack after : CoapStack} {iteration : Iteration}
    {effects : List Effect} {effect : Effect}
    (branch : BranchStep codec stack iteration after effects)
    {raw : Bytes} {peer : SocketAddr}
    (isInbound : iteration.branch = .inbound raw peer)
    (member : effect ∈ effects) :
    ∃ parsed, codec.fromBytes raw = some parsed := by
  cases branch with
  | unparsed => cases member
  | inbound taken parses =>
      cases isInbound.symm.trans taken
      exact ⟨_, parses⟩
  | request taken | response taken | timer taken | cleanup taken =>
      cases isInbound.symm.trans taken

/-- A dispatched request has the payload of the message that the packet
encodes. -/
theorem payload_of_dispatched
    (decodes : codec.DecodesEncoded) {stack after : CoapStack}
    {iteration : Iteration} {effects : List Effect}
    (branch : BranchStep codec stack iteration after effects)
    {bytes : Bytes} {peer : SocketAddr}
    (isInbound : iteration.branch = .inbound bytes peer)
    {message : Packet} (wellFormed : message.WellFormed)
    (encoded : codec.toBytes message = some bytes)
    {request : ServerRequest} (member : .sendRequest request ∈ effects) :
    request.request.payload = message.payload := by
  rcases sendRequest_dispatches branch member with
    ⟨raw, parsed, taken, parses, _, _, decoded, _⟩
  cases isInbound.symm.trans taken
  rw [(CoapRequest.of_fromPacket_ok decoded).2.2.2,
    decodes _ _ parsed wellFormed encoded parses
      (.inl (CoapRequest.isRequest_of_fromPacket_ok decoded))]

/-- A delivered response has the payload of the message that the packet
encodes. -/
theorem payload_of_delivered
    (decodes : codec.DecodesEncoded) {before after : Loop}
    {iteration : Iteration} {effects : List Effect}
    (facts : StepFacts codec before iteration after effects)
    {bytes : Bytes} {peer : SocketAddr}
    (isInbound : iteration.branch = .inbound bytes peer)
    {message : Packet} (wellFormed : message.WellFormed)
    (encoded : codec.toBytes message = some bytes)
    {delivery : Delivery} {response : CoapResponse}
    (member : .deliver delivery ∈ effects)
    (completes : delivery.result = .ok response) :
    response.payload = message.payload := by
  rcases parses_of_effect facts.branch isInbound member with
    ⟨parsed, parses⟩
  have decoded := ResponseMatching.decoded_of_completed facts member
    completes isInbound parses
  rw [((CoapResponse.fromPacket_ok_iff codec parsed response).mp
      decoded).2.2,
    decodes _ _ parsed wellFormed encoded parses
      (.inr (ResponseMatching.isResponse_of_decoded decoded))]

/-- An arrival that a packet is taken from was received. -/
theorem mem_received_of_nextArrival
    {transition : EndpointTransition} {older : List EndpointTransition}
    (suffix : transition :: older <:+ history) {arrival : Datagram}
    (isNext : nextArrival older = some arrival) :
    arrival ∈ received history := by
  rcases suffix with ⟨newer, rfl⟩
  have member := List.mem_of_getElem? isNext
  simp only [received, collected, List.mem_flatMap, List.mem_reverse]
    at member ⊢
  rcases member with ⟨earlier, isEarlier, arrived⟩
  exact ⟨earlier, List.mem_append_right _ (List.mem_cons_of_mem _ isEarlier),
    arrived⟩

/-- If every datagram that was received fits, then so does every one that a
packet is taken from. -/
theorem fits_of_received
    (short : ∀ datagram ∈ received history,
      datagram.1.length ≤ receiveBuffer) :
    Along Fits history := by
  rw [along_iff_forall_suffix]
  intro transition older suffix packet arrival _ isNext
  exact short arrival (mem_received_of_nextArrival suffix isNext)

/-- Exactly the datagrams that fit the receive buffer are taken whole, and
their payloads dispatched and delivered whole. -/
theorem along_notTruncated_iff
    (decodes : codec.DecodesEncoded)
    (run : Run (endpointMachine codec) history tasks) :
    Along (NotTruncated codec) history ↔ Along Fits history := by
  apply along_congr
  intro transition older suffix
  rcases run.of_suffix suffix with ⟨earlierRun, stepped⟩
  have extended := earlierRun.extend stepped
  constructor
  · rintro notTruncated packet arrival isTaken isNext
    rcases exists_nextArrival extended isTaken with
      ⟨same, isSame, reads⟩
    obtain rfl : arrival = same :=
      Option.some.inj (isNext.symm.trans isSame)
    obtain rfl : arrival = packet :=
      Option.some.inj (isNext.symm.trans
        (notTruncated.whole packet isTaken))
    exact (readIntoBuffer_eq_self_iff _).mp reads
  · intro fits
    have whole (packet : Datagram)
        (isTaken : transition.input.taken? = some packet) :
        nextArrival older = some packet := by
      rcases exists_nextArrival extended isTaken with
        ⟨arrival, isNext, reads⟩
      rw [(readIntoBuffer_eq_self_iff _).mpr
        (fits packet arrival isTaken isNext)] at reads
      rw [isNext, reads]
    refine ⟨whole, ?_, ?_⟩
    · intro message packet bytes peer isTaken isNext wellFormed encoded
        request member
      have isWhole := isTaken.trans
        ((whole packet isTaken).symm.trans isNext)
      rcases loopStep_of_taken (step_cases stepped) isWhole with
        ⟨iteration, isInbound, facts⟩
      exact payload_of_dispatched decodes facts.branch isInbound wellFormed
        encoded member
    · intro message packet bytes peer isTaken isNext wellFormed encoded
        delivery response member completes
      have isWhole := isTaken.trans
        ((whole packet isTaken).symm.trans isNext)
      rcases loopStep_of_taken (step_cases stepped) isWhole with
        ⟨iteration, isInbound, facts⟩
      exact payload_of_delivered decodes facts isInbound wellFormed encoded
        member completes

/--
Exactly the datagrams that fit the receive buffer are taken whole, and their
payloads dispatched and delivered whole.  So nothing is cut off of what stacks
send to each other with a codec whose encodings fit.
-/
theorem not_truncated_iff_fits
    (decodes : codec.DecodesEncoded)
    (run : Run (endpointMachine codec) history tasks) :
    (Along (NotTruncated codec) history ↔ Along Fits history) ∧
      ((∀ packet bytes, codec.toBytes packet = some bytes →
          bytes.length ≤ receiveBuffer) →
        (∀ datagram ∈ received history,
          ∃ packet, codec.toBytes packet = some datagram.1) →
            Along (NotTruncated codec) history) := by
  refine ⟨along_notTruncated_iff decodes run, ?_⟩
  intro encodingsFit allEncoded
  rw [along_notTruncated_iff decodes run]
  refine fits_of_received ?_
  intro datagram member
  rcases allEncoded datagram member with ⟨packet, encoded⟩
  exact encodingsFit packet datagram.1 encoded

/-! ## A datagram that is cut off -/

/-- The bytes of a NON PUT with MID 0, the token `00000000`, no options and a
payload of 2040 bytes. -/
def longDatagram : Bytes :=
  [0x54, 0x03, 0, 0, 0, 0, 0, 0, 0xFF] ++ List.replicate 2040 0

theorem longDatagram_length : longDatagram.length = 2049 := by
  rw [longDatagram, List.length_append, List.length_replicate]
  rfl

/-- The endpoint of the server receives the datagram, and its stack takes
what is left of it. -/
def receivingMoves : List Move :=
  [.receive longDatagram (.loopback 5000), .forward,
    .take (.plain (fromSecs 1)
      (.inbound (longDatagram.take receiveBuffer) (.loopback 5000)))]

/-- The last move takes the front part of the datagram. -/
def takesFrontPart : List EndpointTransition → Bool
  | [] => false
  | transition :: older =>
      decide (received (transition :: older) =
          [(longDatagram, .loopback 5000)] ∧
        transition.input.taken? =
          some (longDatagram.take receiveBuffer, .loopback 5000) ∧
        nextArrival older = some (longDatagram, .loopback 5000))

/-- The payload of a dispatched request. -/
def dispatchedPayload? : Effect → Option Bytes
  | .sendRequest request => some request.request.payload
  | _ => none

/-- The server dispatches the PUT with a payload of 2039 bytes. -/
theorem exists_truncated :
    ∃ history tasks, Run (endpointMachine bareCodec) history tasks ∧
      received history = [(longDatagram, .loopback 5000)] ∧
      (∃ request, .sendRequest request ∈ tasks.stack.pending ∧
        request.request.payload.length = 2039) ∧
      ¬ Along (NotTruncated bareCodec) history := by
  rcases exists_run_of_replay (initial_start bareCodec 0) receivingMoves
      (fun history tasks =>
        takesFrontPart history &&
          tasks.stack.pending.any fun effect =>
            (dispatchedPayload? effect).any (·.length = 2039))
      (by decide +kernel) with
    ⟨history, tasks, run, checked⟩
  refine ⟨history, tasks, run, ?_⟩
  rcases Bool.and_eq_true_iff.mp checked with ⟨checked, delivers⟩
  cases history with
  | nil => cases checked
  | cons transition older =>
      rcases of_decide_eq_true checked with ⟨isReceived, isTaken, isNext⟩
      refine ⟨isReceived, ?_, ?_⟩
      · rcases List.any_eq_true.mp delivers with ⟨effect, member, isCut⟩
        cases effect with
        | sendRequest request =>
            exact ⟨request, member, of_decide_eq_true isCut⟩
        | sendPacket | deliver => cases isCut
      · rintro ⟨notTruncated, _⟩
        have isWhole := Option.some.inj
          (isNext.symm.trans (notTruncated.whole _ isTaken))
        have sameLength := congrArg (List.length ∘ Prod.fst) isWhole
        simp [longDatagram_length, receiveBuffer] at sameLength

/-- What one endpoint sends is not always whole when another one has received
it. -/
theorem not_always_whole :
    ¬ ∀ (codec : Codec) (history : List EndpointTransition)
        (tasks : EndpointTasks), codec.DecodesEncoded →
      Run (endpointMachine codec) history tasks →
      (∀ datagram ∈ received history, SentByEndpoint datagram.1) →
        Along (NotTruncated codec) history := by
  intro claimed
  rcases exists_truncated with ⟨history, tasks, run, isReceived, _, cut⟩
  refine cut (claimed bareCodec history tasks bareCodec_lawful.decode_encode
    run ?_)
  intro datagram member
  rw [isReceived, List.mem_singleton] at member
  rw [member]
  exact CoapEndpoint.sentByEndpoint longDatagram

/-- The encodings of the concrete codec fit the buffer. -/
theorem bareCodec_fits {packet : Packet} {bytes : Bytes}
    (encoded : bareCodec.toBytes packet = some bytes) :
    bytes.length ≤ receiveBuffer :=
  (length_le_maxSize encoded).trans (by decide)

/-- The GET `50 01 00 07` as the stack of the server takes it. -/
def shortMoves : List Move :=
  [.receive [0x50, 0x01, 0x00, 0x07] (.loopback 5000), .forward,
    .take (.plain (fromSecs 1)
      (.inbound [0x50, 0x01, 0x00, 0x07] (.loopback 5000)))]

theorem not_truncated_iff_fits_on_long_datagram :
    (∃ history tasks, Run (endpointMachine bareCodec) history tasks ∧
      ¬ Along Fits history) ∧
    ∃ history tasks, Run (endpointMachine bareCodec) history tasks ∧
      taken history = [([0x50, 0x01, 0x00, 0x07], .loopback 5000)] ∧
        Along (NotTruncated bareCodec) history := by
  have decodes := bareCodec_lawful.decode_encode
  constructor
  · rcases exists_truncated with ⟨history, tasks, run, _, _, cut⟩
    exact ⟨history, tasks, run, fun fits =>
      cut ((not_truncated_iff_fits decodes run).1.mpr fits)⟩
  · rcases exists_run_of_replay (initial_start bareCodec 0) shortMoves
        (fun history _ => decide
          (received history = [([0x50, 0x01, 0x00, 0x07], .loopback 5000)] ∧
            taken history = [([0x50, 0x01, 0x00, 0x07], .loopback 5000)]))
        (by decide +kernel) with
      ⟨history, tasks, run, checked⟩
    rcases of_decide_eq_true checked with ⟨isReceived, isTaken⟩
    refine ⟨history, tasks, run, isTaken,
      (not_truncated_iff_fits decodes run).2
        (fun _ _ => bareCodec_fits) ?_⟩
    intro datagram member
    rw [isReceived, List.mem_singleton] at member
    exact ⟨⟨⟨.nonConfirmable, .request .get, 7⟩, [], ∅, []⟩, by
      rw [member]
      rfl⟩

end Coapable.Transport.EndpointTasks
