import Coapable.BareCodec
import Coapable.Server.ServerTasks

/-!
# The order of the answers

Between the body that dispatches a request and the branch that takes its
answer lie two channels and a server that works on one request at a time.
Together they are one queue: the handler gets every request that the loop
dispatched, once and in the order of dispatch, and the loop takes every answer
of the handler, once and in that order, under the peer and the token of its
request.
-/

namespace Coapable.Server

open Coapable.BareCodec
open Coapable.CoapLite
open Coapable.Foundation
open Coapable.Foundation.Execution
open Coapable.MessageTypes
open Coapable.Transport

/-- The request that an effect hands to the server. -/
def dispatched? : Effect → Option ServerRequest
  | .sendRequest request => some request
  | _ => none

/-- A request with what the handler returned for it. -/
structure Handled where
  request : ServerRequest
  response : Option CoapResponse
  deriving DecidableEq

/-- The answer that is sent for a request, if the handler returned one. -/
def Handled.answer (handled : Handled) : Option ServerResponse :=
  handled.response.map fun response =>
    ⟨response, handled.request.peer, handled.request.token⟩

/-- The request, if the handler answered it. -/
def Handled.answered (handled : Handled) : Option ServerRequest :=
  handled.response.map fun _ => handled.request

namespace CoapServer

/-- The request that the handler runs on. -/
def inHand : CoapServer → List ServerRequest
  | .handling request => [request]
  | _ => []

/-- The answer that is about to be sent. -/
def ready : CoapServer → List ServerResponse
  | .responding response => [response]
  | _ => []

end CoapServer

namespace ServerTasks

/-- The requests that the body of a taken branch dispatches. -/
def dispatchedBy (transition : ServerTransition) : List ServerRequest :=
  match transition.input with
  | .take _ => transition.after.stack.pending.filterMap dispatched?
  | _ => []

/-- The request that the handler is finished with. -/
def handledBy (transition : ServerTransition) : List Handled :=
  match transition.input, transition.before.server with
  | .finish response, .handling request => [⟨request, response⟩]
  | _, _ => []

/-- The answer that the loop takes. -/
def takenBy (transition : ServerTransition) : List ServerResponse :=
  match transition.input with
  | .take iteration =>
      match iteration.branch with
      | .outboundResponse (some response) => [response]
      | _ => []
  | _ => []

/-- The dispatched requests that the handler is not finished with. -/
def requestsUnderway (tasks : ServerTasks) : List ServerRequest :=
  tasks.server.inHand ++ tasks.requests.items ++
    tasks.stack.pending.filterMap dispatched?

/-- The answers that the loop did not take yet. -/
def answersUnderway (tasks : ServerTasks) : List ServerResponse :=
  tasks.responses.items ++ tasks.server.ready

variable {codec : Codec} {before after : ServerTasks} {move : Move}

/-- The branch that takes an answer takes the oldest one. -/
theorem takenBy_append_fetch
    {responses rest : Channel ServerResponse channelCapacity}
    {iteration : Iteration} (output : Unit) (before after : ServerTasks)
    (fetched : fetch responses iteration.branch = some rest) :
    takenBy ⟨before, .take iteration, output, after⟩ ++ rest.items =
      responses.items := by
  simp only [fetch] at fetched
  split at fetched
  · next response taken =>
      split at fetched
      · next oldest shorter received =>
          split at fetched
          · next same =>
              cases fetched
              subst same
              simp only [takenBy, taken, List.singleton_append]
              exact (Channel.receive_eq_some_iff.mp received).symm
          · cases fetched
      · cases fetched
  · cases fetched
  · next otherwise =>
      cases fetched
      have noneTaken :
          takenBy ⟨before, .take iteration, output, after⟩ = [] := by
        simp only [takenBy]
      rw [noneTaken, List.nil_append]

/-- A move takes requests from the front and adds them at the end. -/
theorem requestsUnderway_step {output : Unit}
    (stepped : before.step codec move = some (after, output)) :
    (handledBy ⟨before, move, output, after⟩).map Handled.request ++
        after.requestsUnderway =
      before.requestsUnderway ++
        dispatchedBy ⟨before, move, output, after⟩ := by
  cases step_cases stepped with
  | received free received =>
      simp [handledBy, dispatchedBy, requestsUnderway, free,
        CoapServer.inHand, Channel.receive_eq_some_iff.mp received]
  | @finished request response handles =>
      cases response <;>
        simp [handledBy, dispatchedBy, requestsUnderway, handles,
          CoapServer.answer, CoapServer.inHand]
  | responded responds sent =>
      simp [handledBy, dispatchedBy, requestsUnderway, responds,
        CoapServer.inHand]
  | taken fetched taken =>
      simp [handledBy, dispatchedBy, requestsUnderway,
        StackTask.pending_of_take taken]
  | dispatched awaits sent =>
      have pending := StackTask.pending_of_awaited awaits
      simp [handledBy, dispatchedBy, requestsUnderway, pending,
        (Channel.send_eq_some sent).2, dispatched?]
  | @performed effect awaits elsewhere =>
      have pending := StackTask.pending_of_awaited awaits
      have noRequest : dispatched? effect = none := by
        cases effect with
        | sendRequest request => exact absurd rfl (elsewhere request)
        | sendPacket _ _ | deliver _ => rfl
      simp [handledBy, dispatchedBy, requestsUnderway, pending, noRequest]

/-- So it does with answers. -/
theorem answersUnderway_step {output : Unit}
    (stepped : before.step codec move = some (after, output)) :
    takenBy ⟨before, move, output, after⟩ ++ after.answersUnderway =
      before.answersUnderway ++
        (handledBy ⟨before, move, output, after⟩).filterMap
          Handled.answer := by
  cases step_cases stepped with
  | received free received =>
      simp [handledBy, takenBy, answersUnderway, free, CoapServer.ready]
  | @finished request response handles =>
      cases response <;>
        simp [handledBy, takenBy, answersUnderway, handles,
          CoapServer.answer, CoapServer.ready, Handled.answer]
  | responded responds sent =>
      simp [handledBy, takenBy, answersUnderway, responds,
        CoapServer.ready, (Channel.send_eq_some sent).2]
  | taken fetched taken =>
      simp only [handledBy, answersUnderway, List.filterMap_nil,
        List.append_nil, ← List.append_assoc]
      rw [takenBy_append_fetch output _ _ fetched]
  | dispatched awaits sent =>
      simp [handledBy, takenBy, answersUnderway]
  | performed awaits elsewhere =>
      simp [handledBy, takenBy, answersUnderway]

theorem collected_filterMap
    {Item Other State Input Output : Type} (change : Item → Option Other)
    (part : Transition State Input Output → List Item)
    (history : List (Transition State Input Output)) :
    collected (fun transition => (part transition).filterMap change)
        history =
      (collected part history).filterMap change := by
  rw [collected, collected, List.filterMap_flatMap]

theorem collected_map
    {Item Other State Input Output : Type} (change : Item → Other)
    (part : Transition State Input Output → List Item)
    (history : List (Transition State Input Output)) :
    collected (fun transition => (part transition).map change) history =
      (collected part history).map change := by
  rw [collected, collected, List.map_flatMap]

/--
The server is a queue with a handler in it.  What the handler finished and
what is underway are the dispatched requests in the order of dispatch, and
what the loop took and what is underway are the answers in that order.
-/
theorem served_in_order
    {history : List ServerTransition} {tasks : ServerTasks}
    (run : Run (serverMachine codec) history tasks) :
    (collected handledBy history).map Handled.request ++
        tasks.requestsUnderway =
      collected dispatchedBy history ∧
    collected takenBy history ++ tasks.answersUnderway =
      (collected handledBy history).filterMap Handled.answer := by
  constructor
  · rw [← collected_map]
    refine run.collected_append requestsUnderway dispatchedBy _ ?_ ?_
    · rintro _ ⟨now, rfl⟩
      rfl
    · intro transition stepped
      exact requestsUnderway_step stepped
  · rw [← collected_filterMap]
    refine run.collected_append answersUnderway _ takenBy ?_ ?_
    · rintro _ ⟨now, rfl⟩
      rfl
    · intro transition stepped
      exact answersUnderway_step stepped

/-- A NON GET without token, under MID 7 or another one. -/
def nonGet (mid : UInt8) : Bytes :=
  [0x50, 1, 0, mid]

/-- Two requests queue up.  The first is answered, the second is not, and the
loop takes the answer. -/
def queuedMoves : List Move :=
  [.take (.plain 0 (.inbound (nonGet 7) (.loopback 5000))),
    .perform,
    .take (.plain 0 (.inbound (nonGet 8) (.loopback 5001))),
    .perform,
    .receive,
    .finish (some ⟨.content, none, [1]⟩),
    .respond,
    .receive,
    .finish none,
    .take (.plain 0 (.outboundResponse (some
      ⟨⟨.content, none, [1]⟩, .loopback 5000, []⟩)))]

/-- Two requests were handled, and one answer was taken. -/
def handledTwo (history : List ServerTransition) : Bool :=
  decide ((collected handledBy history).length = 2 ∧
    (collected takenBy history).length = 1)

theorem served_in_order_on_two_requests :
    ∃ (history : List ServerTransition) (tasks : ServerTasks),
      ((collected handledBy history).map Handled.request ++
          tasks.requestsUnderway =
        collected dispatchedBy history ∧
      collected takenBy history ++ tasks.answersUnderway =
        (collected handledBy history).filterMap Handled.answer) ∧
      (collected handledBy history).length = 2 ∧
      (collected takenBy history).length = 1 := by
  rcases exists_run_of_replay
      (show (serverMachine bareCodec).Initial (start 0) from ⟨0, rfl⟩)
      queuedMoves (fun history _ => handledTwo history) (by decide) with
    ⟨history, tasks, run, checked⟩
  exact ⟨history, tasks, served_in_order run, of_decide_eq_true checked⟩

end ServerTasks

end Coapable.Server
