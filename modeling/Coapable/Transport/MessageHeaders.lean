import Coapable.RoundTrip
import Coapable.Transport.PacketOrigins

/-!
# The type and the MID of every datagram

What the server events send and what the table caches are ACKs with the MID
they are stored under; client requests, other server responses and the copies
of the timer are CON or NON messages under the MID allocated for them.  An
encoding that determines its header keeps the two kinds apart.
-/

namespace Coapable.Transport

open Coapable.CoapLite
open Coapable.Foundation.Execution
open Coapable.Foundation.FiniteMap
open Coapable.MessageTypes

section Headers

variable {codec : Codec}

/-- Encoded as a CON or NON, not as an ACK or RST. -/
def EncodesMessage (codec : Codec) (mid : UInt16) (bytes : Bytes) :
    Prop :=
  codec.Encodes .confirmable mid bytes ∨
    codec.Encodes .nonConfirmable mid bytes

theorem EncodesMessage.not_ack
    (headers : codec.HeaderDetermined) {mid ackMid : UInt16}
    {bytes : Bytes} (message : EncodesMessage codec mid bytes) :
    ¬ codec.Encodes .acknowledgement ackMid bytes := by
  intro ack
  rcases message with encodes | encodes
  · cases (encodes.unique headers ack).1
  · cases (encodes.unique headers ack).1

/-! ## ACKs -/

theorem emptyAck_encodes
    {mid : UInt16} {bytes : Bytes}
    (encoded : codec.toBytes (emptyAck mid) = some bytes) :
    codec.Encodes .acknowledgement mid bytes :=
  ⟨_, encoded, rfl, rfl⟩

/-- Every cached answer is an ACK with its MID. -/
theorem cached_encodes
    (keeps : codec.KeepsHeader) {history : List LoopTransition} {loop : Loop}
    (run : LoopRun codec history loop)
    {peer : SocketAddr} {mid : UInt16} {bytes : Bytes}
    (cached : loop.stack.cachedResponse peer mid = some bytes) :
    codec.Encodes .acknowledgement mid bytes := by
  induction run with
  | start initial =>
      rcases initial with ⟨now, rfl⟩
      cases cached
  | extend earlier stepped induction =>
      rw [cachedResponse_eq, server_step (step_cases stepped).branch]
        at cached
      rcases ServerTable.cachedResponse_apply_cases cached with
        kept | sent
      · rw [← cachedResponse_eq] at kept
        exact induction kept
      · rcases serverEvent_ack sent with
          replayed | encoded | ⟨outbound, _, _, encoded⟩
        · exact induction replayed
        · exact emptyAck_encodes encoded
        · exact CoapResponse.toPacket_encodes keeps encoded

/-- What a server event sends is an ACK with its MID. -/
theorem ack_encodes
    (keeps : codec.KeepsHeader) {history : List LoopTransition} {loop : Loop}
    (run : LoopRun codec history loop)
    {iteration : Iteration} {peer : SocketAddr} {ack : SentAck}
    (sent : ((loop.stack.server peer).apply
      (loop.stack.serverEvent codec iteration peer)).2 = some ack) :
    codec.Encodes .acknowledgement ack.mid ack.bytes := by
  rcases serverEvent_ack sent with
    cached | encoded | ⟨outbound, _, _, encoded⟩
  · exact cached_encodes keeps run cached
  · exact emptyAck_encodes encoded
  · exact CoapResponse.toPacket_encodes keeps encoded

/-! ## Messages -/

theorem opening_encodes
    (keeps : codec.KeepsHeader) {stack : CoapStack} {iteration : Iteration}
    {opening : Opening}
    (opens : stack.opening codec iteration = some opening) :
    EncodesMessage codec opening.mid opening.bytes := by
  have header :=
    @CoapRequest.toPacket_header codec opening.token opening.mid keeps
      opening.outbound.request
  have encoded := (opening_cases opens).2.2.2
  have isType := congrArg Header.messageType header
  have isMid := congrArg Header.messageId header
  simp only at isType isMid
  split at isType
  · exact Or.inl ⟨_, encoded, isType, isMid⟩
  · exact Or.inr ⟨_, encoded, isType, isMid⟩

/-- A new message carries the MID that was allocated for it. -/
theorem newMessage_encodes
    (keeps : codec.KeepsHeader) {stack : CoapStack} {iteration : Iteration}
    {message : NewMessage}
    (sent : stack.newMessage codec iteration = some message) :
    EncodesMessage codec message.mid message.bytes := by
  rcases newMessage_cases sent with
    ⟨isNext, ⟨opening, opens, isPeer, isBytes⟩ |
      ⟨outbound, _, _, _, encoded⟩⟩
  · have encodes := opening_encodes keeps opens
    rw [isNext, ← isPeer, ← isBytes]
    rw [(opening_cases opens).2.2.1] at encodes
    exact encodes
  · exact Or.inr (CoapResponse.toPacket_encodes keeps encoded)

/-- A copy is a request that was opened. -/
theorem resends_encodes
    (keeps : codec.KeepsHeader) {history : List LoopTransition} {loop : Loop}
    (run : LoopRun codec history loop) {iteration : Iteration}
    {bytes : Bytes} {peer : SocketAddr}
    (member : (bytes, peer) ∈ loop.stack.resends iteration) :
    ∃ mid, EncodesMessage codec mid bytes := by
  rcases exists_stored_of_resends (peersMatch_of_run run) member with
    ⟨token, exchange, found, stored⟩
  rcases exists_opening_of_stored run found stored with
    ⟨transition, _, opening, opens, _, rfl⟩
  exact ⟨opening.mid, opening_encodes keeps opens⟩

end Headers

/-- The ACKs of a step are those that its server event sends. -/
theorem sendsAck_iff
    {codec : Codec} (keeps : codec.KeepsHeader)
    (headers : codec.HeaderDetermined)
    {history : List LoopTransition} {before : Loop}
    (run : LoopRun codec history before)
    {after : CoapStack} {iteration : Iteration} {effects : List Effect}
    (branch : BranchStep codec before.stack iteration after effects)
    (peer : SocketAddr) (mid : UInt16) (bytes : Bytes) :
    .sendPacket bytes peer ∈ effects ∧
        codec.Encodes .acknowledgement mid bytes ↔
      ((before.stack.server peer).apply
        (before.stack.serverEvent codec iteration peer)).2 =
          some ⟨mid, bytes⟩ := by
  rw [sendPacket_iff branch]
  constructor
  · rintro ⟨⟨sentMid, sent⟩ | ⟨newMid, isNew⟩ | isCopy, isAck⟩
    · have same := (ack_encodes keeps run sent).unique headers isAck
      rw [← same.2]
      exact sent
    · exact absurd isAck
        ((newMessage_encodes keeps isNew).not_ack headers)
    · rcases resends_encodes keeps run isCopy with ⟨_, message⟩
      exact absurd isAck (message.not_ack headers)
  · intro sent
    exact ⟨Or.inl ⟨mid, sent⟩, ack_encodes keeps run sent⟩

end Coapable.Transport
