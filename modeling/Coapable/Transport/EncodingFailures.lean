import Coapable.BareCodec
import Coapable.Transport.EffectView
import Coapable.Transport.PendingRequests

/-!
# Messages that cannot be encoded

Both outbound branches drop a message for which `to_bytes` fails.  A client
request is encoded before its exchange is opened, so nothing is left behind.
A server response takes the CON request it answers before it is encoded: if
that fails, the request is no longer pending and was not answered either.
-/

namespace Coapable.Transport

open Coapable.BareCodec
open Coapable.CoapLite
open Coapable.Foundation.Execution
open Coapable.Foundation.FiniteMap

/-! ## The message of an iteration -/

namespace CoapStack

/-- The packet that an outbound branch composes and encodes. -/
def composed (codec : Codec) (stack : CoapStack)
    (iteration : Iteration) : Option Packet :=
  match iteration.branch with
  | .outboundRequest (some outbound) =>
      let session := stack.sessionFor iteration outbound.peer
      some (outbound.request.toPacket codec
        session.tokenAllocator.allocate.1 session.midAllocator.allocate.1)
  | .outboundResponse (some outbound) =>
      let session := stack.sessionFor iteration outbound.peer
      match session.inboundConMids.lookup outbound.token with
      | some mid => some (outbound.piggybacked codec mid)
      | none =>
          some (outbound.separate codec session.midAllocator.allocate.1)
  | _ => none

/-- No table of any session differs, and no session is gone.  A peer without
a session has the same empty tables as a new session. -/
structure SameTables (before after : CoapStack) : Prop where
  client (peer : SocketAddr) : after.client peer = before.client peer
  server (peer : SocketAddr) : after.server peer = before.server peer
  stored (peer : SocketAddr) :
    (before.sessions.lookup peer).isSome = true →
      (after.sessions.lookup peer).isSome = true

end CoapStack

/-- The transition takes a request or a response that is not encodable. -/
def EncodingFails (codec : Codec) (transition : LoopTransition) : Prop :=
  ∃ packet, transition.before.stack.composed codec transition.input =
    some packet ∧ codec.toBytes packet = none

/-- What a request branch does is send its packet, if that can be encoded. -/
theorem request_effects_eq_composed
    {codec : Codec} {stack : CoapStack} {iteration : Iteration}
    {outbound : OutboundRequest}
    (taken : iteration.branch = .outboundRequest (some outbound)) :
    (sendOutboundRequest codec (stack.sessionFor iteration outbound.peer)
        iteration outbound).2 =
      ((stack.composed codec iteration).bind codec.toBytes).toList.map
        fun bytes => .sendPacket bytes outbound.peer := by
  simp only [CoapStack.composed, taken, sendOutboundRequest,
    PeerSession.allocateToken, PeerSession.allocateMid, Option.bind_some]
  split
  · next refused =>
      rw [refused]
      rfl
  · next bytes encoded =>
      rw [encoded]
      rfl

/-- What a response branch does is send its packet, if that can be
encoded. -/
theorem response_effects_eq_composed
    {codec : Codec} {stack : CoapStack} {iteration : Iteration}
    {outbound : ServerResponse}
    (taken : iteration.branch = .outboundResponse (some outbound)) :
    (sendOutboundResponse codec
        (stack.sessionFor iteration outbound.peer) outbound).2 =
      ((stack.composed codec iteration).bind codec.toBytes).toList.map
        fun bytes => .sendPacket bytes outbound.peer := by
  simp only [CoapStack.composed, taken, sendOutboundResponse,
    PeerSession.takeInboundConMid, PeerSession.allocateMid]
  cases (stack.sessionFor iteration
      outbound.peer).inboundConMids.lookup outbound.token with
  | none =>
      simp only [Option.bind_some, ServerResponse.separate]
      cases codec.toBytes _ <;> rfl
  | some mid =>
      simp only [Option.bind_some, ServerResponse.piggybacked]
      cases codec.toBytes (outbound.response.toPacket codec outbound.token
        mid .acknowledgement) <;> rfl

/-- A failure to encode shows only in that nothing is sent. -/
theorem silent_iff_refused
    {codec : Codec} {stack after : CoapStack} {iteration : Iteration}
    {effects : List Effect}
    (branch : BranchStep codec stack iteration after effects)
    {packet : Packet}
    (isComposed : stack.composed codec iteration = some packet) :
    effects = [] ↔ codec.toBytes packet = none := by
  have sent : ∃ peer, effects =
      (codec.toBytes packet).toList.map fun bytes =>
        .sendPacket bytes peer := by
    cases taken : iteration.branch with
    | outboundRequest received =>
        cases received with
        | none => simp [CoapStack.composed, taken] at isComposed
        | some outbound =>
            refine ⟨outbound.peer, ?_⟩
            rw [(branch.of_request taken).2,
              request_effects_eq_composed taken, isComposed,
              Option.bind_some]
    | outboundResponse received =>
        cases received with
        | none => simp [CoapStack.composed, taken] at isComposed
        | some outbound =>
            refine ⟨outbound.peer, ?_⟩
            rw [(branch.of_response taken).2,
              response_effects_eq_composed taken, isComposed,
              Option.bind_some]
    | inbound | retransmissionTimer | cleanupTimer =>
        simp [CoapStack.composed, taken] at isComposed
  rcases sent with ⟨peer, rfl⟩
  cases codec.toBytes packet <;> simp

/-! ## What a failure leaves behind -/

/-- An answer under a token that no CON request waits under changes nothing
in the server tables. -/
theorem ServerTable.responded_of_free
    {table : ServerTable} {token : Token}
    (free : table.inboundConMids.lookup token = none)
    (encode : UInt16 → Option Bytes) :
    (table.apply (.responded token encode)).1 = table := by
  refine ServerTable.ext_lookup ?_ ?_
  · simp [ServerTable.apply, ServerTable.piggyback, free]
  · intro other
    rw [ServerTable.conMid_apply]
    simp only
    split
    · next equal => rw [equal, free]
    · rfl

section Failures

variable {codec : Codec} {stack after : CoapStack} {iteration : Iteration}
  {effects : List Effect}

/-- A request that cannot be encoded leaves every table as it is. -/
theorem sameTables_of_request
    (branch : BranchStep codec stack iteration after effects)
    {outbound : OutboundRequest}
    (taken : iteration.branch = .outboundRequest (some outbound))
    {packet : Packet}
    (isComposed : stack.composed codec iteration = some packet)
    (refused : codec.toBytes packet = none) :
    stack.SameTables after := by
  simp only [CoapStack.composed, taken, Option.some.injEq] at isComposed
  have notOpened : stack.opening codec iteration = none := by
    simp only [CoapStack.opening, taken, isComposed, refused,
      Option.map_none]
  refine ⟨fun peer => ?_, fun peer => ?_, fun peer isStored => ?_⟩
  · rw [client_step branch]
    simp only [CoapStack.clientEvent, taken, notOpened]
    rfl
  · rw [server_step branch]
    simp only [CoapStack.serverEvent, taken]
    rfl
  · rw [(branch.of_request taken).1, lookup_putSession]
    split
    · rfl
    · exact isStored

/-- A response leaves every table as it is, if no CON request waits under its
token. -/
theorem sameTables_of_response
    (branch : BranchStep codec stack iteration after effects)
    {outbound : ServerResponse}
    (taken : iteration.branch = .outboundResponse (some outbound))
    (free : (stack.server outbound.peer).inboundConMids.lookup
      outbound.token = none) :
    stack.SameTables after := by
  refine ⟨fun peer => ?_, fun peer => ?_, fun peer isStored => ?_⟩
  · rw [client_step branch]
    simp only [CoapStack.clientEvent, taken]
    rfl
  · rw [server_step branch]
    simp only [CoapStack.serverEvent, taken]
    split
    · next isPeer =>
        subst isPeer
        exact ServerTable.responded_of_free free _
    · rfl
  · rw [(branch.of_response taken).1, lookup_putSession]
    split
    · rfl
    · exact isStored

/-- A response takes the CON request that waits under its token, whether it
can be encoded or not. -/
theorem conMid_of_response
    (branch : BranchStep codec stack iteration after effects)
    {outbound : ServerResponse}
    (taken : iteration.branch = .outboundResponse (some outbound)) :
    (after.server outbound.peer).inboundConMids.lookup outbound.token =
      none := by
  rw [server_step branch, ServerTable.conMid_apply]
  simp only [CoapStack.serverEvent, taken, if_true]

end Failures

/-! ## Along a run -/

/-- If its message cannot be encoded, the transition leaves the sessions
intact. -/
def KeepsSessions (codec : Codec) (_older : List LoopTransition)
    (transition : LoopTransition) : Prop :=
  EncodingFails codec transition →
    transition.before.stack.SameTables transition.after.stack

/-- If its message cannot be encoded, it is no answer under a token that a
CON request of the peer waits under. -/
def AnswersNoWaiting (codec : Codec) (older : List LoopTransition)
    (transition : LoopTransition) : Prop :=
  EncodingFails codec transition →
    ∀ peer token mid, TakesResponse transition peer token →
      ¬ Awaits codec peer token mid older

/--
Exactly the runs in which no answer to a waiting CON request fails to encode
keep their sessions intact at every failure to encode.
-/
theorem sessions_intact_iff_no_waiting_answered
    {codec : Codec} {history : List LoopTransition} {loop : Loop}
    (run : LoopRun codec history loop) :
    Along (KeepsSessions codec) history ↔
      Along (AnswersNoWaiting codec) history := by
  apply along_congr
  intro transition older suffix
  rcases run.of_suffix suffix with ⟨earlierRun, stepped⟩
  have branch := (step_cases stepped).branch
  constructor
  · rintro keeps fails peer token mid ⟨response, taken⟩ awaits
    have pending := (conMid_iff_awaits earlierRun peer token mid).mpr
      awaits
    rw [← (keeps fails).server peer,
      conMid_of_response branch taken] at pending
    cases pending
  · rintro none fails
    have allFree := none fails
    rcases fails with ⟨packet, isComposed, refused⟩
    cases taken : transition.input.branch with
    | outboundRequest received =>
        cases received with
        | none => simp [CoapStack.composed, taken] at isComposed
        | some outbound =>
            exact sameTables_of_request branch taken isComposed refused
    | outboundResponse received =>
        cases received with
        | none => simp [CoapStack.composed, taken] at isComposed
        | some outbound =>
            refine sameTables_of_response branch taken ?_
            rw [Option.eq_none_iff_forall_ne_some]
            intro mid pending
            exact allFree outbound.peer outbound.token mid
              ⟨outbound.response, taken⟩
              ((conMid_iff_awaits earlierRun _ _ _).mp pending)
    | inbound | retransmissionTimer | cleanupTimer =>
        simp [CoapStack.composed, taken] at isComposed

/-! ## An answer that is too long -/

/-- An answer with a payload of 1280 bytes, which with its header is longer
than `to_bytes` encodes. -/
def longAnswer : ServerResponse :=
  ⟨⟨.content, none, List.replicate 1280 0⟩, .loopback 5000, []⟩

/-- A CON GET is received and gets the long answer. -/
def longAnswerInputs : List Iteration :=
  [.plain (fromSecs 1)
      (.inbound [0x40, 0x01, 0x00, 0x07] (.loopback 5000)),
    .plain (fromSecs 2) (.outboundResponse (some longAnswer))]

theorem exists_half_committed :
    ∃ history loop, LoopRun bareCodec history loop ∧
      ¬ Along (KeepsSessions bareCodec) history := by
  rcases exists_run_of_replay
      (Loop.initial_start bareCodec 0) longAnswerInputs
      (fun history _ =>
        match history with
        | [] => false
        | transition :: _ =>
            decide (transition.output = [] ∧
              (transition.before.stack.composed bareCodec
                transition.input).isSome = true ∧
              (transition.before.stack.server
                (.loopback 5000)).inboundConMids.lookup [] = some 7 ∧
              (transition.after.stack.server
                (.loopback 5000)).inboundConMids.lookup [] = none))
      (by decide +kernel) with
    ⟨history, loop, run, checked⟩
  refine ⟨history, loop, run, ?_⟩
  cases history with
  | nil => cases checked
  | cons transition older =>
      rcases of_decide_eq_true checked with
        ⟨silent, isComposed, pending, gone⟩
      rcases Option.isSome_iff_exists.mp isComposed with
        ⟨packet, isComposed⟩
      rcases run.of_suffix (List.suffix_refl _) with ⟨_, stepped⟩
      rintro ⟨keeps, _⟩
      have refused := (silent_iff_refused (step_cases stepped).branch
        isComposed).mp silent
      have same := keeps ⟨packet, isComposed, refused⟩
      rw [← same.server, gone] at pending
      cases pending

theorem not_always_intact :
    ¬ ∀ codec history loop, LoopRun codec history loop →
      Along (KeepsSessions codec) history := by
  intro claimed
  rcases exists_half_committed with ⟨history, loop, run, changed⟩
  exact changed (claimed bareCodec history loop run)

theorem sessions_intact_iff_no_waiting_answered_on_long_answer :
    ∃ history loop, LoopRun bareCodec history loop ∧
      ¬ Along (AnswersNoWaiting bareCodec) history := by
  rcases exists_half_committed with ⟨history, loop, run, changed⟩
  exact ⟨history, loop, run, fun free =>
    changed ((sessions_intact_iff_no_waiting_answered run).mpr free)⟩

end Coapable.Transport
