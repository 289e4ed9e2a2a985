import Coapable.Server.ServerOrder
import Coapable.Transport.Answers

/-!
# The server task answers what it was handed

The loop beside a server, as `Answers` describes it, takes an answer only to a
request that it dispatched and that is not answered yet.  The two tasks keep
to this: every run of them is a run of the loop beside such a server, and the
requests that it answers are those that the handler answered, in this order.
So what holds of the loop beside its server holds of the tasks.
-/

namespace Coapable.Server.ServerTasks

open Coapable.BareCodec
open Coapable.CoapLite
open Coapable.Foundation
open Coapable.Foundation.Execution
open Coapable.MessageTypes
open Coapable.Transport
open Coapable.Transport.Answers

/-- What a move is for the loop alone. -/
def loopTransition? (transition : ServerTransition) :
    Option LoopTransition :=
  match transition.input with
  | .take iteration =>
      some ⟨transition.before.stack.loop, iteration,
        transition.after.stack.pending, transition.after.stack.loop⟩
  | _ => none

/-- The request that a transition answers. -/
def answeredBy (transition : ServedTransition) : List ServerRequest :=
  transition.input.answers.toList.map Dispatched.request

/-- The peer and the token that an answer goes by. -/
def answerKey (response : ServerResponse) : SocketAddr × Token :=
  (response.peer, response.token)

/--
The run of the loop beside its server that a run of the tasks follows.  The
answers that are underway are to requests `answered` and the requests that are
underway are `asked`, all of them dispatched and not answered yet.
-/
structure Follows (codec : Codec) (history : List ServerTransition)
    (tasks : ServerTasks) (servedHistory : List ServedTransition)
    (served : Served) (answered asked : List Dispatched) : Prop where
  run : ServedRun codec servedHistory served
  sameLoop : served.loop = tasks.stack.loop
  sameIterations :
    servedHistory.map loopTransition = history.filterMap loopTransition?
  answers :
    answered.map Dispatched.key = tasks.answersUnderway.map answerKey
  requests : asked.map Dispatched.request = tasks.requestsUnderway
  outstanding : (answered ++ asked).Subperm served.unanswered
  order : collected answeredBy servedHistory ++
      answered.map Dispatched.request =
    (collected handledBy history).filterMap Handled.answered

section Step

variable {codec : Codec}

/-- The server is handed what the effects of the iteration dispatch. -/
theorem map_request_dispatchedBy
    {before after : Loop} {iteration : Iteration} {effects : List Effect}
    (stepped : before.step codec iteration = some (after, effects)) :
    (Answers.dispatchedBy codec iteration effects).map
        Dispatched.request =
      effects.filterMap dispatched? := by
  have branch := (Transport.step_cases stepped).branch
  simp only [Answers.dispatchedBy]
  split
  · next raw source taken =>
      split
      · next parsed parses =>
          rw [List.map_filterMap]
          congr 1
          funext effect
          cases effect <;> rfl
      · next unparseable =>
          symm
          rw [List.map_nil, List.filterMap_eq_nil_iff]
          intro effect member
          cases effect with
          | sendRequest request =>
              rcases sendRequest_dispatches branch member with
                ⟨_, _, isInbound, parses, _⟩
              cases taken.symm.trans isInbound
              cases unparseable.symm.trans parses
          | sendPacket _ _ | deliver _ => rfl
  · next otherwise =>
      symm
      rw [List.map_nil, List.filterMap_eq_nil_iff]
      intro effect member
      cases effect with
      | sendRequest request =>
          rcases sendRequest_dispatches branch member with
            ⟨_, _, isInbound, _⟩
          exact absurd isInbound (otherwise _ _)
      | sendPacket _ _ | deliver _ => rfl

/-- An iteration that takes no answer is a step beside the server. -/
theorem served_step_of_unanswered
    {served : Served} {iteration : Iteration} {loop : Loop}
    {effects : List Effect}
    (noAnswer : ∀ outbound,
      iteration.branch ≠ .outboundResponse (some outbound))
    (stepped : served.loop.step codec iteration = some (loop, effects)) :
    served.step codec ⟨iteration, none⟩ =
      some (⟨loop, served.unanswered ++
        Answers.dispatchedBy codec iteration effects⟩, effects) := by
  have admits : served.Admits ⟨iteration, none⟩ := by
    simp only [Served.Admits]
  rw [Served.step, if_pos admits]
  simp only [stepped]

/-- An iteration that takes the answer to an outstanding request is one,
too. -/
theorem served_step_of_answered
    {served : Served} {iteration : Iteration} {loop : Loop}
    {effects : List Effect} {outbound : ServerResponse}
    {dispatched : Dispatched}
    (taken : iteration.branch = .outboundResponse (some outbound))
    (member : dispatched ∈ served.unanswered)
    (isKey : dispatched.key = answerKey outbound)
    (stepped : served.loop.step codec iteration = some (loop, effects)) :
    served.step codec ⟨iteration, some dispatched⟩ =
      some (⟨loop, served.unanswered.erase dispatched ++
        Answers.dispatchedBy codec iteration effects⟩, effects) := by
  have admits : served.Admits ⟨iteration, some dispatched⟩ := by
    simp only [Served.Admits, taken]
    rw [Dispatched.key, answerKey, Prod.mk.injEq] at isKey
    exact ⟨dispatched, member, rfl, isKey⟩
  rw [Served.step, if_pos admits]
  simp only [stepped]

end Step

/-! ## One move -/

section Follow

variable {codec : Codec} {history : List ServerTransition}
  {before after : ServerTasks} {move : Move} {output : Unit}
  {servedHistory : List ServedTransition} {served : Served}
  {answered asked : List Dispatched}

/-- A move that is neither of the loop nor the end of a handler changes
nothing that is followed. -/
theorem Follows.silent
    (follows : Follows codec history before servedHistory served answered
      asked)
    (stepped : before.step codec move = some (after, output))
    (sameLoop : after.stack.loop = before.stack.loop)
    (noLoop : loopTransition? ⟨before, move, output, after⟩ = none)
    (noneHandled : handledBy ⟨before, move, output, after⟩ = [])
    (noneDispatched : dispatchedBy ⟨before, move, output, after⟩ = [])
    (noneTaken : takenBy ⟨before, move, output, after⟩ = []) :
    Follows codec (⟨before, move, output, after⟩ :: history) after
      servedHistory served answered asked := by
  have requests := requestsUnderway_step stepped
  have answers := answersUnderway_step stepped
  rw [noneHandled, noneDispatched, List.map_nil, List.nil_append,
    List.append_nil] at requests
  rw [noneHandled, noneTaken, List.filterMap_nil, List.nil_append,
    List.append_nil] at answers
  exact {
    run := follows.run
    sameLoop := follows.sameLoop.trans sameLoop.symm
    sameIterations := by
      rw [List.filterMap_cons_none noLoop]
      exact follows.sameIterations
    answers := by rw [answers]; exact follows.answers
    requests := by rw [requests]; exact follows.requests
    outstanding := follows.outstanding
    order := by
      rw [collected_cons, noneHandled, List.append_nil]
      exact follows.order }

/-- The handler is finished with the oldest request that was asked. -/
theorem Follows.finish
    (follows : Follows codec history before servedHistory served answered
      asked)
    {request : ServerRequest} {response : Option CoapResponse}
    (stepped : before.step codec (.finish response) =
      some (after, output))
    (sameLoop : after.stack.loop = before.stack.loop)
    (handles : before.server = .handling request) :
    ∃ answered' asked',
      Follows codec (⟨before, .finish response, output, after⟩ :: history)
        after servedHistory served answered' asked' := by
  have isHandled :
      handledBy ⟨before, .finish response, output, after⟩ =
        [⟨request, response⟩] := by
    simp only [handledBy, handles]
  have queued : before.requestsUnderway =
      request :: after.requestsUnderway := by
    simpa [isHandled, dispatchedBy] using
      (requestsUnderway_step stepped).symm
  have ready : after.answersUnderway =
      before.answersUnderway ++
        (Handled.answer ⟨request, response⟩).toList := by
    have moved := answersUnderway_step stepped
    rw [isHandled] at moved
    cases response <;>
      simpa [takenBy, Handled.answer, List.filterMap_cons] using moved
  rcases List.map_eq_cons_iff.mp (follows.requests.trans queued) with
    ⟨first, rest, rfl, isFirst, isRest⟩
  have sameIterations := follows.sameIterations
  cases response with
  | none =>
      -- The request is never answered, so it is followed no further.
      refine ⟨answered, rest, {
        run := follows.run
        sameLoop := follows.sameLoop.trans sameLoop.symm
        sameIterations := sameIterations
        answers := ?_
        requests := isRest
        outstanding := ?_
        order := ?_ }⟩
      · rw [ready, follows.answers]
        simp [Handled.answer]
      · exact ((List.sublist_cons_self first rest).append_left
          answered).subperm.trans follows.outstanding
      · rw [collected_cons, isHandled, List.filterMap_append]
        simpa [Handled.answered, List.filterMap_cons] using follows.order
  | some response =>
      refine ⟨answered ++ [first], rest, {
        run := follows.run
        sameLoop := follows.sameLoop.trans sameLoop.symm
        sameIterations := sameIterations
        answers := ?_
        requests := isRest
        outstanding := ?_
        order := ?_ }⟩
      · rw [ready, List.map_append, List.map_append, follows.answers]
        simp [Handled.answer, Dispatched.key, answerKey, isFirst]
      · rw [List.append_assoc, List.singleton_append]
        exact follows.outstanding
      · rw [collected_cons, isHandled, List.filterMap_append,
          ← follows.order, List.map_append]
        simp [Handled.answered, isFirst]

/-- The loop takes a branch, and with it perhaps the oldest answer. -/
theorem Follows.take
    (follows : Follows codec history before servedHistory served answered
      asked)
    {iteration : Iteration} {stack : StackTask}
    {responses : Channel ServerResponse channelCapacity}
    (takes : before.stack.take codec iteration = some stack)
    (isAfter : after =
      { before with responses := responses, stack := stack })
    (stepped : before.step codec (.take iteration) =
      some (after, output)) :
    ∃ servedHistory' served' answered' asked',
      Follows codec (⟨before, .take iteration, output, after⟩ :: history)
        after servedHistory' served' answered' asked' := by
  have loopStepped := StackTask.step_of_take takes
  rw [← follows.sameLoop] at loopStepped
  have asks := map_request_dispatchedBy loopStepped
  have requests : after.requestsUnderway =
      before.requestsUnderway ++
        (Answers.dispatchedBy codec iteration stack.pending).map
          Dispatched.request := by
    have moved := requestsUnderway_step stepped
    rw [asks]
    simpa [handledBy, dispatchedBy, isAfter] using moved
  have answers := answersUnderway_step stepped
  have noneHandled :
      handledBy ⟨before, .take iteration, output, after⟩ = [] := rfl
  rw [noneHandled, List.filterMap_nil, List.append_nil] at answers
  have sameIterations (answers : Option Dispatched)
      (unanswered : List Dispatched) :
      List.map loopTransition (⟨served, ⟨iteration, answers⟩,
          stack.pending, ⟨stack.loop, unanswered⟩⟩ :: servedHistory) =
        List.filterMap loopTransition?
          (⟨before, .take iteration, output, after⟩ :: history) := by
    rw [List.map_cons, follows.sameIterations,
      List.filterMap_cons_some (by rw [loopTransition?])]
    simp only [loopTransition, follows.sameLoop, isAfter]
  by_cases takesAnswer : ∃ outbound,
      iteration.branch = .outboundResponse (some outbound)
  · rcases takesAnswer with ⟨outbound, taken⟩
    have isTaken : takenBy ⟨before, .take iteration, output, after⟩ =
        [outbound] := by
      simp only [takenBy, taken]
    rw [isTaken, List.singleton_append] at answers
    have waiting := follows.answers
    rw [← answers, List.map_cons] at waiting
    rcases List.map_eq_cons_iff.mp waiting with
      ⟨first, rest, rfl, isFirst, isRest⟩
    have member : first ∈ served.unanswered :=
      follows.outstanding.subset List.mem_cons_self
    have servedStepped :=
      served_step_of_answered taken member isFirst loopStepped
    refine ⟨_, _, rest,
      asked ++ Answers.dispatchedBy codec iteration stack.pending, {
        run := follows.run.extend servedStepped
        sameLoop := by rw [isAfter]
        sameIterations := sameIterations _ _
        answers := isRest
        requests := by rw [requests, List.map_append, follows.requests]
        outstanding := ?_
        order := ?_ }⟩
    · rw [← List.append_assoc]
      apply List.Subperm.append _ (List.Subperm.refl _)
      simpa using follows.outstanding.erase first
    · rw [collected_cons, collected_cons, noneHandled, List.append_nil,
        ← follows.order, answeredBy]
      simp
  · have noAnswer (outbound : ServerResponse) :
        iteration.branch ≠ .outboundResponse (some outbound) :=
      fun taken => takesAnswer ⟨outbound, taken⟩
    have noneTaken : takenBy ⟨before, .take iteration, output, after⟩ =
        [] := by
      simp only [takenBy]
    rw [noneTaken, List.nil_append] at answers
    have servedStepped := served_step_of_unanswered noAnswer loopStepped
    refine ⟨_, _, answered,
      asked ++ Answers.dispatchedBy codec iteration stack.pending, {
        run := follows.run.extend servedStepped
        sameLoop := by rw [isAfter]
        sameIterations := sameIterations _ _
        answers := by rw [answers, follows.answers]
        requests := by rw [requests, List.map_append, follows.requests]
        outstanding := ?_
        order := ?_ }⟩
    · rw [← List.append_assoc]
      exact follows.outstanding.append (List.Subperm.refl _)
    · rw [collected_cons, collected_cons, noneHandled, List.append_nil,
        ← follows.order, answeredBy]
      simp

theorem Follows.extend
    (follows : Follows codec history before servedHistory served answered
      asked)
    (stepped : before.step codec move = some (after, output)) :
    ∃ servedHistory' served' answered' asked',
      Follows codec (⟨before, move, output, after⟩ :: history) after
        servedHistory' served' answered' asked' := by
  cases step_cases stepped with
  | received free received =>
      exact ⟨_, _, _, _,
        follows.silent stepped rfl rfl rfl rfl rfl⟩
  | finished handles =>
      rcases follows.finish stepped rfl handles with
        ⟨answered', asked', still⟩
      exact ⟨_, _, answered', asked', still⟩
  | responded responds sent =>
      exact ⟨_, _, _, _,
        follows.silent stepped rfl rfl rfl rfl rfl⟩
  | taken fetched takes => exact follows.take takes rfl stepped
  | dispatched awaits sent =>
      exact ⟨_, _, _, _,
        follows.silent stepped rfl rfl rfl rfl rfl⟩
  | performed awaits elsewhere =>
      exact ⟨_, _, _, _,
        follows.silent stepped rfl rfl rfl rfl rfl⟩

end Follow

/-! ## Runs -/

theorem exists_follows
    {codec : Codec} {history : List ServerTransition}
    {tasks : ServerTasks}
    (run : Run (serverMachine codec) history tasks) :
    ∃ servedHistory served answered asked,
      Follows codec history tasks servedHistory served answered asked := by
  induction run with
  | start initial =>
      rcases initial with ⟨now, rfl⟩
      exact ⟨[], ⟨Loop.start now, []⟩, [], [], {
        run := .start ⟨now, rfl⟩
        sameLoop := rfl
        sameIterations := rfl
        answers := rfl
        requests := rfl
        outstanding := .refl _
        order := rfl }⟩
  | extend earlier stepped induction =>
      rcases induction with ⟨_, _, _, _, follows⟩
      exact follows.extend stepped

/--
The tasks refine the loop beside a server that answers each dispatched request
at most once.  The loop runs as in the tasks, and the requests answered so far
followed by those whose answers are underway are the requests that the handler
answered, in the order in which it did.  So while the outstanding requests of a
peer have different tokens, each is answered by its own type and MID.
-/
theorem answers_what_it_was_handed
    {codec : Codec} {history : List ServerTransition}
    {tasks : ServerTasks}
    (run : Run (serverMachine codec) history tasks) :
    ∃ (servedHistory : List ServedTransition) (served : Served)
        (waiting : List Dispatched),
      ServedRun codec servedHistory served ∧
      servedHistory.map loopTransition =
        history.filterMap loopTransition? ∧
      served.loop = tasks.stack.loop ∧
      waiting.map Dispatched.key = tasks.answersUnderway.map answerKey ∧
      collected answeredBy servedHistory ++
          waiting.map Dispatched.request =
        (collected handledBy history).filterMap Handled.answered ∧
      (codec.KeepsHeader →
        Along (fun _ transition => transition.before.DistinctTokens)
          servedHistory →
        Along (AnsweredAsReceived codec) servedHistory) := by
  rcases exists_follows run with ⟨servedHistory, served, waiting, _, follows⟩
  refine ⟨servedHistory, served, waiting, follows.run,
    follows.sameIterations, follows.sameLoop, follows.answers,
    follows.order, fun keeps distinct => ?_⟩
  have finds := finds_own_request_of_distinct_tokens follows.run distinct
  rw [along_iff_forall_suffix] at finds ⊢
  intro transition older suffix
  exact answeredAsReceived_of_findsOwnRequest keeps follows.run suffix
    (finds transition older suffix)

/-- The requests of the run have different peers. -/
def dispatchesApart (history : List ServerTransition) : Bool :=
  decide ((Answers.dispatchedIn bareCodec
    (history.filterMap loopTransition?)).map Dispatched.key).Nodup

/-- The three branches of the stack, the last of them the answer to the first
of two requests. -/
theorem answers_what_it_was_handed_on_two_requests :
    ∃ (history : List ServerTransition) (tasks : ServerTasks)
        (servedHistory : List ServedTransition) (served : Served)
        (waiting : List Dispatched),
      ServedRun bareCodec servedHistory served ∧
      servedHistory.map loopTransition =
        history.filterMap loopTransition? ∧
      served.loop = tasks.stack.loop ∧
      waiting.map Dispatched.key = tasks.answersUnderway.map answerKey ∧
      collected answeredBy servedHistory ++
          waiting.map Dispatched.request =
        (collected handledBy history).filterMap Handled.answered ∧
      Along (AnsweredAsReceived bareCodec) servedHistory ∧
      (collected handledBy history).length = 2 ∧
      (collected takenBy history).length = 1 := by
  rcases exists_run_of_replay
      (show (serverMachine bareCodec).Initial (start 0) from ⟨0, rfl⟩)
      queuedMoves
      (fun history _ => handledTwo history && dispatchesApart history)
      (by decide) with
    ⟨history, tasks, run, checked⟩
  rw [Bool.and_eq_true, dispatchesApart, decide_eq_true_eq] at checked
  rcases checked with ⟨handled, apart⟩
  rcases answers_what_it_was_handed run with
    ⟨servedHistory, served, waiting, servedRun, sameIterations, sameLoop,
      keys, order, asReceived⟩
  rw [← sameIterations] at apart
  exact ⟨history, tasks, servedHistory, served, waiting, servedRun,
    sameIterations, sameLoop, keys, order,
    asReceived bareCodec_lawful.setContentFormat_header
      (distinctTokens_of_nodup servedRun apart),
    of_decide_eq_true handled⟩

end Coapable.Server.ServerTasks
