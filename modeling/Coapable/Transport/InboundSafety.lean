import Coapable.BareCodec
import Coapable.Transport.Loop

/-!
# Which packets crash the stack

A panic in the inbound branch ends the one task that serves all peers.
Decoding is total but for one place: the front `Accept` value of a request is
copied into eight bytes at offset `8 - raw.len()`.  A request that is accepted
and whose front `Accept` value is longer than eight bytes ends the task, and
nothing else does.
-/

namespace Coapable.Transport.InboundSafety

open Coapable.BareCodec
open Coapable.CoapLite
open Coapable.Foundation.Execution
open Coapable.MessageTypes

/-- The datagram is a request that is no duplicate and whose front `Accept`
value has more than eight bytes. -/
def CarriesLongAccept (codec : Codec) (stack : CoapStack) (raw : Bytes)
    (peer : SocketAddr) : Prop :=
  ∃ parsed, codec.fromBytes raw = some parsed ∧
    (parsed.header.messageType = .confirmable ∨
      parsed.header.messageType = .nonConfirmable) ∧
      (stack.sessions.lookup peer).any
          (·.isDuplicate parsed.header.messageId) = false ∧
        parsed.header.code.isRequest = true ∧ AcceptTooLong parsed

theorem dispatchMessage_panics_iff
    (codec : Codec) (session : PeerSession) (peer : SocketAddr)
    (parsed : Packet) :
    (∃ panic, dispatchMessage codec session peer parsed =
        .error panic) ↔
      parsed.header.code.isRequest = true ∧ AcceptTooLong parsed := by
  rw [← CoapRequest.fromPacket_panics_iff codec parsed]
  simp only [dispatchMessage]
  cases code : parsed.header.code with
  | request method =>
      simp only
      split <;> simp_all
  | response responseType =>
      simp only [CoapRequest.fromPacket, code]
      split <;> simp
  | empty => simp [CoapRequest.fromPacket, code]
  | reserved number => simp [CoapRequest.fromPacket, code]

theorem receiveMessage_panics_iff
    (codec : Codec) (session : PeerSession) (now : Nat)
    (peer : SocketAddr) (parsed : Packet) :
    (∃ panic, receiveMessage codec session now peer parsed =
        .error panic) ↔
      session.isDuplicate parsed.header.messageId = false ∧
        parsed.header.code.isRequest = true ∧ AcceptTooLong parsed := by
  simp only [receiveMessage]
  split
  · next duplicate => simp [duplicate]
  · next fresh =>
      rw [← dispatchMessage_panics_iff codec
        (recordMessage codec session now peer parsed).1 peer parsed]
      simp only [Bool.eq_false_of_not_eq_true fresh, true_and]
      split
      · next panic panicked => simp [panicked]
      · next dispatched effects finished => simp [finished]

theorem receivePacket_panics_iff
    (codec : Codec) (session : PeerSession) (now : Nat)
    (peer : SocketAddr) (parsed : Packet) :
    (∃ panic, receivePacket codec session now peer parsed =
        .error panic) ↔
      (parsed.header.messageType = .confirmable ∨
        parsed.header.messageType = .nonConfirmable) ∧
        session.isDuplicate parsed.header.messageId = false ∧
          parsed.header.code.isRequest = true ∧ AcceptTooLong parsed := by
  simp only [receivePacket]
  cases kind : parsed.header.messageType with
  | confirmable =>
      simpa using receiveMessage_panics_iff codec session now peer parsed
  | nonConfirmable =>
      simpa using receiveMessage_panics_iff codec session now peer parsed
  | acknowledgement => simp
  | reset => simp

theorem inbound_panics_iff
    (codec : Codec) (stack : CoapStack) (iteration : Iteration)
    (raw : Bytes) (peer : SocketAddr) :
    (∃ panic, stack.inbound codec iteration raw peer = .error panic) ↔
      CarriesLongAccept codec stack raw peer := by
  simp only [CoapStack.inbound, CarriesLongAccept]
  cases parses : codec.fromBytes raw with
  | none => simp
  | some parsed =>
      have received := receivePacket_panics_iff codec
        (stack.sessionFor iteration peer) iteration.now peer parsed
      have sameDuplicate :
          (stack.sessionFor iteration peer).isDuplicate
              parsed.header.messageId =
            (stack.sessions.lookup peer).any
              (·.isDuplicate parsed.header.messageId) := by
        rw [CoapStack.sessionFor]
        cases stack.sessions.lookup peer <;> rfl
      rw [sameDuplicate] at received
      simp only [Option.some.injEq, exists_eq_left']
      rw [← received]
      split
      · next panic panicked => simp [panicked]
      · next session effects finished => simp [finished]

/--
An iteration panics exactly when it takes the inbound branch with a datagram
that carries too long an `Accept` value, in whatever state the stack is.
-/
theorem never_panics_iff_no_long_accept
    (codec : Codec) (stack : CoapStack) (iteration : Iteration) :
    (∀ panic,
      stack.iterate codec iteration ≠ .error (.panicked panic)) ↔
      ∀ raw peer, iteration.branch = .inbound raw peer →
        iteration.endpointOpen = true →
          ¬ CarriesLongAccept codec stack raw peer := by
  have body : (∃ panic,
      stack.iterate codec iteration = .error (.panicked panic)) ↔
        ∃ panic, stack.branchBody codec iteration =
          .error (.panicked panic) := by
    simp only [CoapStack.iterate]
    split
    · next exit exited => simp [exited]
    · next after effects finished =>
        split <;> simp [finished]
  rw [← not_exists, body, not_iff_comm]
  simp only [not_forall, not_not, exists_prop,
    ← inbound_panics_iff codec stack iteration]
  simp only [CoapStack.branchBody]
  constructor
  · rintro ⟨raw, peer, taken, received, panic, panicked⟩
    exact ⟨panic, by simp [taken, received, panicked]⟩
  · rintro ⟨panic, panicked⟩
    split at panicked
    · next raw peer taken =>
        refine ⟨raw, peer, taken, ?_⟩
        split at panicked
        · next received =>
            refine ⟨received, panic, ?_⟩
            split at panicked
            · next other inboundPanicked =>
                cases panicked
                exact inboundPanicked
            · cases panicked
        · cases panicked
    all_goals cases panicked

/-- A non-confirmable GET whose `Accept` value has nine bytes. -/
def longAccept : Bytes :=
  [0x50, 0x01, 0, 7, 0xD9, 0x04, 0, 0, 0, 0, 0, 0, 0, 0, 0]

theorem not_every_packet_survived :
    ¬ ∀ codec history loop, LoopRun codec history loop →
      ∀ iteration panic, loop.Admits iteration →
        loop.stack.iterate codec iteration ≠
          .error (.panicked panic) := by
  intro claimed
  exact claimed bareCodec [] (Loop.start 0) (.start ⟨0, rfl⟩)
    (.plain 0 (.inbound longAccept (.loopback 5000)))
    .subtractWithOverflow (by decide) (by rfl)

end Coapable.Transport.InboundSafety
