import Coapable.EndToEnd.Network
import Coapable.Transport.EffectView

/-!
# Where the datagrams, the requests and the answers come from

A datagram in flight was sent by the stack at its source.  What a server task
handles was dispatched by its stack on receipt of a datagram, and what it
answers with was returned by the handler of such a request.  Each is an
invariant of the whole history of the network; the history of one stack is a
run of its loop.
-/

namespace Coapable.EndToEnd

open Coapable.CoapLite
open Coapable.Foundation.Execution
open Coapable.MessageTypes
open Coapable.Transport

/-! ## The history of one stack -/

/-- What a transition of the network is for the stack at an address. -/
def loopTransition? (address : SocketAddr)
    (transition : NetworkTransition) : Option LoopTransition :=
  match transition.input.iteration? with
  | some (active, iteration) =>
      if active = address then
        some ⟨(transition.before.nodes address).loop, iteration,
          transition.output, (transition.after.nodes address).loop⟩
      else none
  | none => none

/-- What a history of the network is for the loop at the address. -/
def loopHistory (address : SocketAddr)
    (history : List NetworkTransition) : List LoopTransition :=
  history.filterMap (loopTransition? address)

theorem loopTransition?_eq_some
    {address : SocketAddr} {transition : NetworkTransition}
    {seen : LoopTransition}
    (isSeen : loopTransition? address transition = some seen) :
    transition.input.iteration? = some (address, seen.input) ∧
      seen = ⟨(transition.before.nodes address).loop, seen.input,
        transition.output, (transition.after.nodes address).loop⟩ := by
  simp only [loopTransition?] at isSeen
  split at isSeen
  · next active iteration runs =>
      split at isSeen
      · next equal =>
          subst equal
          cases isSeen
          exact ⟨runs, rfl⟩
      · cases isSeen
  · cases isSeen

theorem loopTransition?_of_runs
    {address : SocketAddr} {transition : NetworkTransition}
    {iteration : Iteration}
    (runs : transition.input.iteration? = some (address, iteration)) :
    loopTransition? address transition =
      some ⟨(transition.before.nodes address).loop, iteration,
        transition.output, (transition.after.nodes address).loop⟩ := by
  simp only [loopTransition?, runs, if_true]

section History

variable {codec : Codec} {history : List NetworkTransition}
  {network : Network}

theorem mem_loopHistory_cons
    {address : SocketAddr} {seen : LoopTransition}
    (member : seen ∈ loopHistory address history)
    (transition : NetworkTransition) :
    seen ∈ loopHistory address (transition :: history) := by
  rcases List.mem_filterMap.mp member with ⟨observed, older, isSeen⟩
  exact List.mem_filterMap.mpr
    ⟨observed, List.mem_cons_of_mem _ older, isSeen⟩

theorem mem_loopHistory_of_runs
    {address : SocketAddr} {transition : NetworkTransition}
    {iteration : Iteration}
    (runs : transition.input.iteration? = some (address, iteration)) :
    ⟨(transition.before.nodes address).loop, iteration,
        transition.output, (transition.after.nodes address).loop⟩ ∈
      loopHistory address (transition :: history) :=
  List.mem_filterMap.mpr
    ⟨transition, List.mem_cons_self, loopTransition?_of_runs runs⟩

/-- The stack at an address runs its own loop. -/
theorem run_loopHistory
    (run : NetworkRun codec history network) (address : SocketAddr) :
    LoopRun codec (loopHistory address history)
      (network.nodes address).loop := by
  refine Run.component (fun network => (network.nodes address).loop)
    (loopTransition? address) ?_ ?_ ?_ run
  · intro network fresh
    rcases fresh.nodes address with ⟨now, isNode⟩
    exact ⟨now, by rw [isNode]; rfl⟩
  · intro before after move effects stepped unseen
    have elsewhere (active : SocketAddr) (iteration : Iteration)
        (runs : move.iteration? = some (active, iteration)) :
        active ≠ address := by
      rintro rfl
      have seen := @loopTransition?_of_runs active
        ⟨before, move, effects, after⟩ iteration runs
      exact nomatch unseen.symm.trans seen
    cases Network.step_cases stepped with
    | delivered inFlight taken iterated =>
        exact congrArg Node.loop
          (iterated.others address (elsewhere _ _ rfl).symm)
    | ran notInbound iterated =>
        exact congrArg Node.loop
          (iterated.others address (elsewhere _ _ rfl).symm)
    | @accepted acting oldest rest free queued =>
        by_cases equal : address = acting
        · subst equal
          simp
        · simp [equal]
    | @answered acting response dispatch handles =>
        by_cases equal : address = acting
        · subst equal
          simp
        · simp [equal]
  · intro before after move effects stepped seen isSeen
    rcases loopTransition?_eq_some isSeen with ⟨runs, isTransition⟩
    have iterated :=
      (Network.step_cases stepped).iterated_of_iteration? runs
    rw [isTransition]
    exact ⟨rfl, rfl, iterated.stepped⟩

/-! ## Datagrams -/

/-- The stack at the source of the datagram sent it. -/
def Sent (history : List NetworkTransition) (datagram : UdpDatagram) :
    Prop :=
  ∃ sender ∈ loopHistory datagram.source history,
    .sendPacket datagram.bytes datagram.target ∈ sender.output

theorem Sent.cons
    {datagram : UdpDatagram} (sent : Sent history datagram)
    (transition : NetworkTransition) :
    Sent (transition :: history) datagram := by
  rcases sent with ⟨sender, member, emitted⟩
  exact ⟨sender, mem_loopHistory_cons member transition, emitted⟩

theorem sent_of_iterated
    {before after : Network} {move : Move} {effects : List Effect}
    {address : SocketAddr} {iteration : Iteration}
    (iterated :
      Network.Iterated codec before address iteration after effects)
    (runs : move.iteration? = some (address, iteration))
    {datagram : UdpDatagram} (inFlight : datagram ∈ after.sent)
    (earlier : datagram ∈ before.sent → Sent history datagram) :
    Sent (⟨before, move, effects, after⟩ :: history) datagram := by
  rw [iterated.sent, List.mem_append] at inFlight
  rcases inFlight with older | new
  · exact (earlier older).cons _
  · rcases List.mem_filterMap.mp new with ⟨effect, emitted, isDatagram⟩
    cases effect with
    | sendPacket bytes target =>
        cases isDatagram
        exact ⟨_, mem_loopHistory_of_runs runs, emitted⟩
    | sendRequest request => cases isDatagram
    | deliver delivery => cases isDatagram

/-- Every datagram in flight was sent by the stack at its source. -/
theorem sent_of_inFlight
    (run : NetworkRun codec history network)
    {datagram : UdpDatagram} (inFlight : datagram ∈ network.sent) :
    Sent history datagram := by
  induction run with
  | start fresh =>
      rw [fresh.sent] at inFlight
      cases inFlight
  | extend earlier stepped induction =>
      cases Network.step_cases stepped with
      | delivered _ taken iterated =>
          exact sent_of_iterated iterated rfl inFlight induction
      | ran notInbound iterated =>
          exact sent_of_iterated iterated rfl inFlight induction
      | accepted free queued => exact (induction inFlight).cons _
      | answered handles => exact (induction inFlight).cons _

/-- A stack reads what the network delivers to it: a datagram that was sent
to its address. -/
theorem delivered_of_received
    (run : NetworkRun codec history network)
    {address peer : SocketAddr} {raw : Bytes} {seen : LoopTransition}
    (member : seen ∈ loopHistory address history)
    (taken : seen.input.branch = .inbound raw peer) :
    ∃ delivery ∈ history, ∃ datagram iteration,
      delivery.input = .deliver datagram iteration ∧
        datagram.source = peer ∧ datagram.target = address ∧
        datagram.bytes.take receiveBuffer = raw ∧
        Sent history datagram := by
  induction run with
  | start fresh => cases member
  | @extend history before after move effects earlier stepped induction =>
      rcases List.mem_filterMap.mp member with ⟨observed, isMember, isSeen⟩
      rcases List.mem_cons.mp isMember with rfl | older
      · rcases loopTransition?_eq_some isSeen with ⟨runs, _⟩
        cases Network.step_cases stepped with
        | @delivered datagram iteration _ _ inFlight isTaken iterated =>
            injection runs with equal
            injection equal with isAddress isIteration
            rw [← isIteration, isTaken] at taken
            injection taken with isRaw isPeer
            exact ⟨_, List.mem_cons_self, datagram, iteration, rfl, isPeer,
              isAddress, isRaw, (sent_of_inFlight earlier inFlight).cons _⟩
        | ran notInbound iterated =>
            injection runs with equal
            injection equal with _ isIteration
            rw [← isIteration] at taken
            exact absurd taken (notInbound raw peer)
        | accepted free queued => cases runs
        | answered handles => cases runs
      · rcases induction (List.mem_filterMap.mpr ⟨observed, older, isSeen⟩)
          with ⟨delivery, isDelivery, datagram, iteration, isMove, isPeer,
            isAddress, isRaw, sent⟩
        exact ⟨delivery, List.mem_cons_of_mem _ isDelivery, datagram,
          iteration, isMove, isPeer, isAddress, isRaw, sent.cons _⟩

/-! ## Requests and answers -/

/-- The stack dispatched the request on receipt of the datagram. -/
def Dispatched (history : List NetworkTransition) (address : SocketAddr)
    (dispatch : Dispatch) : Prop :=
  ∃ receiver ∈ loopHistory address history,
    receiver.input.branch =
        .inbound dispatch.datagram dispatch.request.peer ∧
      .sendRequest dispatch.request ∈ receiver.output

theorem Dispatched.cons
    {address : SocketAddr} {dispatch : Dispatch}
    (dispatched : Dispatched history address dispatch)
    (transition : NetworkTransition) :
    Dispatched (transition :: history) address dispatch := by
  rcases dispatched with ⟨receiver, member, taken, emitted⟩
  exact ⟨receiver, mem_loopHistory_cons member transition, taken, emitted⟩

/-- The handler at the address, run on this dispatch, returned this
response. -/
def Handled (history : List NetworkTransition) (address : SocketAddr)
    (dispatch : Dispatch) (response : CoapResponse) : Prop :=
  ∃ finish ∈ history,
    finish.input = .answer address (some response) ∧
      (finish.before.nodes address).handling = some dispatch

/-- The answer is for a request that was dispatched, and it is what the
handler of that request returned. -/
def Answers (history : List NetworkTransition) (address : SocketAddr)
    (answer : ServerResponse) : Prop :=
  ∃ dispatch, Dispatched history address dispatch ∧
    Handled history address dispatch answer.response ∧
    answer.peer = dispatch.request.peer ∧
    answer.token = dispatch.request.token

theorem Answers.cons
    {address : SocketAddr} {answer : ServerResponse}
    (answers : Answers history address answer)
    (transition : NetworkTransition) :
    Answers (transition :: history) address answer := by
  rcases answers with
    ⟨dispatch, dispatched, ⟨finish, member, isAnswer, handles⟩, isPeer,
      isToken⟩
  exact ⟨dispatch, dispatched.cons transition,
    ⟨finish, List.mem_cons_of_mem _ member, isAnswer, handles⟩, isPeer,
    isToken⟩

/-- What is queued at a node came about there. -/
structure ServerProvenance (history : List NetworkTransition)
    (address : SocketAddr) (node : Node) : Prop where
  requests : ∀ dispatch ∈ node.requests,
    Dispatched history address dispatch
  handling : ∀ dispatch ∈ node.handling,
    Dispatched history address dispatch
  responses : ∀ answer ∈ node.responses, Answers history address answer

theorem ServerProvenance.cons
    {address : SocketAddr} {node : Node}
    (provenance : ServerProvenance history address node)
    (transition : NetworkTransition) :
    ServerProvenance (transition :: history) address node where
  requests dispatch member :=
    (provenance.requests dispatch member).cons transition
  handling dispatch member :=
    (provenance.handling dispatch member).cons transition
  responses answer member :=
    (provenance.responses answer member).cons transition

/-- What a branch dispatches was read from the datagram it received. -/
theorem dispatched_of_iterated
    {before after : Network} {move : Move} {effects : List Effect}
    {address : SocketAddr} {iteration : Iteration}
    (iterated :
      Network.Iterated codec before address iteration after effects)
    (runs : move.iteration? = some (address, iteration))
    {dispatch : Dispatch}
    (new : dispatch ∈
      effects.filterMap (dispatch? (receivedBytes iteration))) :
    Dispatched (⟨before, move, effects, after⟩ :: history) address
      dispatch := by
  rcases List.mem_filterMap.mp new with ⟨effect, emitted, isDispatch⟩
  cases effect with
  | sendRequest request =>
      cases isDispatch
      rcases sendRequest_dispatches
          (Transport.step_cases iterated.stepped).branch emitted with
        ⟨raw, parsed, taken, _⟩
      refine ⟨_, mem_loopHistory_of_runs runs, ?_, emitted⟩
      show iteration.branch = .inbound (receivedBytes iteration) _
      rw [receivedBytes, taken]
  | sendPacket bytes target => cases isDispatch
  | deliver delivery => cases isDispatch

theorem serverProvenance_of_iterated
    {before after : Network} {move : Move} {effects : List Effect}
    {address : SocketAddr} {iteration : Iteration}
    (iterated :
      Network.Iterated codec before address iteration after effects)
    (runs : move.iteration? = some (address, iteration))
    (provenance : ∀ other,
      ServerProvenance history other (before.nodes other))
    (other : SocketAddr) :
    ServerProvenance (⟨before, move, effects, after⟩ :: history) other
      (after.nodes other) := by
  by_cases equal : other = address
  · subst equal
    constructor
    · intro dispatch member
      rw [iterated.requests, List.mem_append] at member
      rcases member with older | new
      · exact ((provenance other).requests dispatch older).cons _
      · exact dispatched_of_iterated iterated runs new
    · intro dispatch member
      rw [iterated.handling] at member
      exact ((provenance other).handling dispatch member).cons _
    · intro answer member
      exact ((provenance other).responses answer
        (iterated.responses answer member)).cons _
  · rw [iterated.others other equal]
    exact (provenance other).cons _

theorem serverProvenance_of_run
    (run : NetworkRun codec history network) (address : SocketAddr) :
    ServerProvenance history address (network.nodes address) := by
  induction run generalizing address with
  | start fresh =>
      rcases fresh.nodes address with ⟨now, isNode⟩
      rw [isNode]
      exact {
        requests := fun _ member => nomatch member
        handling := fun _ member => nomatch member
        responses := fun _ member => nomatch member }
  | @extend history before after move effects earlier stepped induction =>
      cases Network.step_cases stepped with
      | delivered inFlight taken iterated =>
          exact serverProvenance_of_iterated iterated rfl induction address
      | ran notInbound iterated =>
          exact serverProvenance_of_iterated iterated rfl induction address
      | @accepted acting oldest rest free queued =>
          by_cases equal : address = acting
          · subst equal
            rw [Network.put_nodes, if_pos rfl]
            have provenance := induction address
            refine ⟨fun dispatch member => ?_, fun dispatch member => ?_,
              fun answer member =>
                (provenance.responses answer member).cons _⟩
            · exact (provenance.requests dispatch
                (queued ▸ List.mem_cons_of_mem _ member)).cons _
            · have isOldest : oldest = dispatch := Option.some.inj member
              exact (provenance.requests dispatch
                (queued ▸ isOldest ▸ List.mem_cons_self)).cons _
          · rw [Network.put_nodes, if_neg equal]
            exact (induction address).cons _
      | @answered acting response dispatch handles =>
          by_cases equal : address = acting
          · subst equal
            rw [Network.put_nodes, if_pos rfl]
            have provenance := induction address
            refine ⟨fun dispatch member =>
                (provenance.requests dispatch member).cons _,
              fun _ member => (nomatch member), fun answer member => ?_⟩
            rcases List.mem_append.mp member with older | new
            · exact (provenance.responses answer older).cons _
            · cases response with
              | none => cases new
              | some returned =>
                  have isAnswer := List.mem_singleton.mp new
                  subst isAnswer
                  exact ⟨dispatch,
                    (provenance.handling dispatch handles).cons _,
                    ⟨_, List.mem_cons_self, rfl, handles⟩, rfl, rfl⟩
          · rw [Network.put_nodes, if_neg equal]
            exact (induction address).cons _

/-- Every answer that a stack took came from the handler of a request that
it had dispatched. -/
theorem answers_of_taken
    (run : NetworkRun codec history network)
    {address : SocketAddr} {seen : LoopTransition}
    {answer : ServerResponse}
    (member : seen ∈ loopHistory address history)
    (taken : seen.input.branch = .outboundResponse (some answer)) :
    Answers history address answer := by
  induction run with
  | start fresh => cases member
  | @extend history before after move effects earlier stepped induction =>
      rcases List.mem_filterMap.mp member with ⟨observed, isMember, isSeen⟩
      rcases List.mem_cons.mp isMember with rfl | older
      · rcases loopTransition?_eq_some isSeen with ⟨runs, _⟩
        have iterated :=
          (Network.step_cases stepped).iterated_of_iteration? runs
        exact ((serverProvenance_of_run earlier address).responses answer
          (iterated.queued answer taken)).cons _
      · exact (induction
          (List.mem_filterMap.mpr ⟨observed, older, isSeen⟩)).cons _

end History

end Coapable.EndToEnd
