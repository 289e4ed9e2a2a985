import Coapable.Tasks.AllTasks

/-!
# The models of two tasks are parts of the whole

The endpoint beside the stack, the server beside the stack and the callers
beside the stack were each modelled with the other tasks left out.  Every run
of all tasks is a run of each of these models: of the callers and the stack
for good, of the other two pairs until one of the two ends.  So whatever holds
of every run of a pair holds of it among all tasks.
-/

namespace Coapable.Tasks.AllTasks

open Coapable.Client
open Coapable.CoapLite
open Coapable.Foundation
open Coapable.Foundation.Execution
open Coapable.MessageTypes
open Coapable.Server
open Coapable.Transport

/-! ## What is seen of a pair -/

/-- The endpoint task and the stack task in these states, with the channels
between them. -/
def endpointPair (tasks : AllTasks) (endpoint : EndpointTask)
    (stack : StackTask) : EndpointTasks where
  inHand := endpoint.inHand
  inbound := tasks.inbound
  outbound := tasks.outbound
  stack := stack

/-- The server task and the stack task in these states, with the channels
between them. -/
def serverPair (tasks : AllTasks) (server : CoapServer)
    (stack : StackTask) : ServerTasks where
  server := server
  requests := tasks.dispatched
  responses := tasks.responses
  stack := stack

/-- The endpoint task and the stack task, while both are alive. -/
def endpointTasks? (tasks : AllTasks) : Option EndpointTasks :=
  match tasks.endpoint, tasks.clients.stack with
  | some endpoint, some stack => some (tasks.endpointPair endpoint stack)
  | _, _ => none

/-- The server task and the stack task, while both are alive. -/
def serverTasks? (tasks : AllTasks) : Option ServerTasks :=
  match tasks.server, tasks.clients.stack with
  | some server, some stack => some (tasks.serverPair server stack)
  | _, _ => none

/-- What a move is for endpoint and stack. -/
def endpointMove? : Move → Option EndpointTasks.Move
  | .endpoint (.receive datagram peer) => some (.receive datagram peer)
  | .endpoint .forward => some .forward
  | .endpoint .transmit => some .transmit
  | .stack (.take iteration) => some (.take iteration)
  | .stack .perform => some .perform
  | _ => none

/-- What a move is for server and stack. -/
def serverMove? : Move → Option ServerTasks.Move
  | .server .receive => some .receive
  | .server (.finish response) => some (.finish response)
  | .server .respond => some .respond
  | .stack (.take iteration) => some (.take iteration)
  | .stack .perform => some .perform
  | _ => none

/-- What a move is for callers and stack. -/
def clientMove? : Move → Option ClientTasks.Move
  | .stack (.take iteration) => some (.take iteration)
  | .stack .perform => some .perform
  | .stack (.exit iteration) => some (.exit iteration)
  | .stack .fail => some .fail
  | .caller (.call builder) => some (.call builder)
  | .caller (.hand index now) => some (.hand index now)
  | .caller (.settle index now) => some (.settle index now)
  | _ => none

/-- What a transition is for endpoint and stack, while both are alive. -/
def endpointTransition? (transition : TasksTransition) :
    Option EndpointTransition := do
  let move ← endpointMove? transition.input
  let before ← transition.before.endpointTasks?
  let after ← transition.after.endpointTasks?
  return ⟨before, move, (), after⟩

/-- What a transition is for server and stack, while both are alive. -/
def serverTransition? (transition : TasksTransition) :
    Option ServerTransition := do
  let move ← serverMove? transition.input
  let before ← transition.before.serverTasks?
  let after ← transition.after.serverTasks?
  return ⟨before, move, (), after⟩

/-- What a transition is for callers and stack. -/
def clientTransition? (transition : TasksTransition) :
    Option ClientTransition :=
  (clientMove? transition.input).map fun move =>
    ⟨transition.before.clients, move, (), transition.after.clients⟩

variable {codec : Codec} {tasks after : AllTasks}

theorem endpointTasks?_eq_some_iff {pair : EndpointTasks} :
    tasks.endpointTasks? = some pair ↔
      ∃ endpoint stack, tasks.endpoint = some endpoint ∧
        tasks.clients.stack = some stack ∧
          tasks.endpointPair endpoint stack = pair := by
  simp only [endpointTasks?]
  constructor
  · intro isPair
    split at isPair
    · next endpoint stack endpointAlive stackAlive =>
        cases isPair
        exact ⟨endpoint, stack, endpointAlive, stackAlive, rfl⟩
    · cases isPair
  · rintro ⟨endpoint, stack, endpointAlive, stackAlive, rfl⟩
    simp only [endpointAlive, stackAlive]

theorem serverTasks?_eq_some_iff {pair : ServerTasks} :
    tasks.serverTasks? = some pair ↔
      ∃ server stack, tasks.server = some server ∧
        tasks.clients.stack = some stack ∧
          tasks.serverPair server stack = pair := by
  simp only [serverTasks?]
  constructor
  · intro isPair
    split at isPair
    · next server stack serverAlive stackAlive =>
        cases isPair
        exact ⟨server, stack, serverAlive, stackAlive, rfl⟩
    · cases isPair
  · rintro ⟨server, stack, serverAlive, stackAlive, rfl⟩
    simp only [serverAlive, stackAlive]

theorem endpointTasks?_congr
    (endpoint : after.endpoint = tasks.endpoint)
    (inbound : after.inbound = tasks.inbound)
    (outbound : after.outbound = tasks.outbound)
    (stack : after.clients.stack = tasks.clients.stack) :
    after.endpointTasks? = tasks.endpointTasks? := by
  simp only [endpointTasks?, endpointPair, endpoint, inbound, outbound,
    stack]

theorem serverTasks?_congr
    (server : after.server = tasks.server)
    (dispatched : after.dispatched = tasks.dispatched)
    (responses : after.responses = tasks.responses)
    (stack : after.clients.stack = tasks.clients.stack) :
    after.serverTasks? = tasks.serverTasks? := by
  simp only [serverTasks?, serverPair, server, dispatched, responses, stack]

/-! ## What the clients do to the stack -/

section Stack

variable {clients moved : ClientTasks}

theorem stack_of_take
    {iteration : Iteration}
    (stepped : clients.step codec (.take iteration) = some (moved, ())) :
    ∃ task taken, clients.stack = some task ∧
      task.take codec iteration = some taken ∧
        moved.stack = some taken := by
  cases ClientTasks.step_cases stepped with
  | taken alive _ _ takes => exact ⟨_, _, alive, takes, rfl⟩

theorem stack_of_perform
    {task : StackTask} (alive : clients.stack = some task)
    (stepped : clients.step codec .perform = some (moved, ())) :
    moved.stack = some task.proceed := by
  cases ClientTasks.step_cases stepped with
  | performed wasAlive _ =>
      cases alive.symm.trans wasAlive
      rfl

theorem stack_of_exit
    {iteration : Iteration}
    (stepped : clients.step codec (.exit iteration) = some (moved, ())) :
    moved.stack = none := by
  cases ClientTasks.step_cases stepped with
  | exited => rfl

theorem stack_of_fail
    (stepped : clients.step codec .fail = some (moved, ())) :
    moved.stack = none := by
  cases ClientTasks.step_cases stepped with
  | failed => rfl

/-- The callers leave the stack alone. -/
theorem stack_of_caller
    {move : CallerMove}
    (step : CallerStep codec tasks move after) :
    after.clients.stack = tasks.clients.stack := by
  cases step with
  | cloned | dropped => rfl
  | called _ stepped =>
      cases ClientTasks.step_cases stepped with
      | called => rfl
  | handed stepped =>
      cases ClientTasks.step_cases stepped with
      | handed | refused => rfl
  | settled stepped =>
      cases ClientTasks.step_cases stepped with
      | settled => rfl

end Stack

/-! ## One move -/

section Step

variable {move : Move}

theorem clients_of_moveStep (step : MoveStep codec tasks move after) :
    clientMove? move = none ∧ after.clients = tasks.clients ∨
      ∃ seen, clientMove? move = some seen ∧
        tasks.clients.step codec seen = some (after.clients, ()) := by
  cases step with
  | endpoint step =>
      left
      cases step with
      | received | forwarded | lost | transmitted | closed | failed =>
          exact ⟨rfl, rfl⟩
  | stack step =>
      right
      cases step with
      | taken _ _ stepped => exact ⟨_, rfl, stepped⟩
      | sent _ _ _ _ stepped => exact ⟨_, rfl, stepped⟩
      | dispatched _ _ _ _ stepped => exact ⟨_, rfl, stepped⟩
      | unheard _ _ _ stepped => exact ⟨_, rfl, stepped⟩
      | delivered _ _ stepped => exact ⟨_, rfl, stepped⟩
      | exited _ _ stepped => exact ⟨_, rfl, stepped⟩
      | failed _ stepped => exact ⟨_, rfl, stepped⟩
  | server step =>
      left
      cases step with
      | received | finished | responded | unheard | left | dropped =>
          exact ⟨rfl, rfl⟩
  | caller step =>
      cases step with
      | cloned | dropped => exact .inl ⟨rfl, rfl⟩
      | called _ stepped => exact .inr ⟨_, rfl, stepped⟩
      | handed stepped => exact .inr ⟨_, rfl, stepped⟩
      | settled stepped => exact .inr ⟨_, rfl, stepped⟩

/-- The pair after a move was left alone by it, or it was one of its
moves. -/
def EndpointAgrees (codec : Codec) (tasks : AllTasks) (move : Move)
    (pair : EndpointTasks) : Prop :=
  ∃ previous, tasks.endpointTasks? = some previous ∧
    (endpointMove? move = none ∧ previous = pair ∨
      ∃ seen, endpointMove? move = some seen ∧
        previous.step codec seen = some (pair, ()))

/-- The same for server and stack. -/
def ServerAgrees (codec : Codec) (tasks : AllTasks) (move : Move)
    (pair : ServerTasks) : Prop :=
  ∃ previous, tasks.serverTasks? = some previous ∧
    (serverMove? move = none ∧ previous = pair ∨
      ∃ seen, serverMove? move = some seen ∧
        previous.step codec seen = some (pair, ()))

theorem EndpointAgrees.of_step
    {endpoint : EndpointTask} {stack : StackTask}
    {seen : EndpointTasks.Move} {pair : EndpointTasks}
    (endpointAlive : tasks.endpoint = some endpoint)
    (stackAlive : tasks.clients.stack = some stack)
    (isSeen : endpointMove? move = some seen)
    (stepped : (tasks.endpointPair endpoint stack).step codec seen =
      some (pair, ())) :
    EndpointAgrees codec tasks move pair :=
  ⟨_, endpointTasks?_eq_some_iff.mpr
    ⟨endpoint, stack, endpointAlive, stackAlive, rfl⟩,
    .inr ⟨seen, isSeen, stepped⟩⟩

theorem ServerAgrees.of_step
    {server : CoapServer} {stack : StackTask}
    {seen : ServerTasks.Move} {pair : ServerTasks}
    (serverAlive : tasks.server = some server)
    (stackAlive : tasks.clients.stack = some stack)
    (isSeen : serverMove? move = some seen)
    (stepped : (tasks.serverPair server stack).step codec seen =
      some (pair, ())) :
    ServerAgrees codec tasks move pair :=
  ⟨_, serverTasks?_eq_some_iff.mpr
    ⟨server, stack, serverAlive, stackAlive, rfl⟩,
    .inr ⟨seen, isSeen, stepped⟩⟩

theorem endpointAgrees_of_endpoint
    {move : EndpointMove} {pair : EndpointTasks}
    (step : EndpointStep tasks move after)
    (present : after.endpointTasks? = some pair) :
    EndpointAgrees codec tasks (.endpoint move) pair := by
  rcases endpointTasks?_eq_some_iff.mp present with
    ⟨endpoint, stack, alive, stackAlive, rfl⟩
  cases step with
  | received polls =>
      cases alive
      exact .of_step polls stackAlive rfl rfl
  | forwarded holds _ sent =>
      cases alive
      refine .of_step holds stackAlive rfl ?_
      simp only [EndpointTasks.step, endpointPair, EndpointTask.inHand,
        sent, Option.map_some]
  | transmitted polls received =>
      cases polls.symm.trans alive
      refine .of_step polls stackAlive rfl ?_
      simp only [EndpointTasks.step, endpointPair, EndpointTask.inHand,
        received, Option.map_some]
  | lost | closed | failed => cases alive

theorem endpointAgrees_of_stack
    {move : StackMove} {pair : EndpointTasks}
    (step : StackStep codec tasks move after)
    (present : after.endpointTasks? = some pair) :
    EndpointAgrees codec tasks (.stack move) pair := by
  rcases endpointTasks?_eq_some_iff.mp present with
    ⟨endpoint, stack, alive, stackAlive, rfl⟩
  cases step with
  | taken fetched _ stepped =>
      rcases stack_of_take stepped with ⟨task, taken, wasAlive, takes, same⟩
      cases same.symm.trans stackAlive
      refine .of_step alive wasAlive rfl ?_
      simp only [EndpointTasks.step, endpointPair, fetched, takes,
        Option.map_some]
  | sent wasAlive awaits _ sent stepped =>
      cases (stack_of_perform wasAlive stepped).symm.trans stackAlive
      refine .of_step alive wasAlive rfl ?_
      simp only [EndpointTasks.step, endpointPair, awaits, sent,
        Option.map_some]
  | dispatched wasAlive awaits _ _ stepped
  | unheard wasAlive awaits _ stepped
  | delivered wasAlive awaits stepped =>
      cases (stack_of_perform wasAlive stepped).symm.trans stackAlive
      refine .of_step alive wasAlive rfl ?_
      simp only [EndpointTasks.step, endpointPair, awaits]
  | exited _ _ stepped =>
      cases (stack_of_exit stepped).symm.trans stackAlive
  | failed _ stepped =>
      cases (stack_of_fail stepped).symm.trans stackAlive

theorem endpointAgrees_of_moveStep
    {pair : EndpointTasks}
    (step : MoveStep codec tasks move after)
    (present : after.endpointTasks? = some pair) :
    EndpointAgrees codec tasks move pair := by
  have untouched (isNone : endpointMove? move = none)
      (endpoint : after.endpoint = tasks.endpoint)
      (inbound : after.inbound = tasks.inbound)
      (outbound : after.outbound = tasks.outbound)
      (stack : after.clients.stack = tasks.clients.stack) :
      EndpointAgrees codec tasks move pair := by
    refine ⟨pair, ?_, .inl ⟨isNone, rfl⟩⟩
    rw [← present, endpointTasks?_congr endpoint inbound outbound stack]
  cases step with
  | endpoint step => exact endpointAgrees_of_endpoint step present
  | stack step => exact endpointAgrees_of_stack step present
  | server step =>
      cases step with
      | received | finished | responded | unheard | left | dropped =>
          exact untouched rfl rfl rfl rfl rfl
  | caller step =>
      have stack := stack_of_caller step
      cases step with
      | cloned | dropped | called | handed | settled =>
          exact untouched rfl rfl rfl rfl stack

theorem serverAgrees_of_server
    {move : ServerMove} {pair : ServerTasks}
    (step : ServerStep tasks move after)
    (present : after.serverTasks? = some pair) :
    ServerAgrees codec tasks (.server move) pair := by
  rcases serverTasks?_eq_some_iff.mp present with
    ⟨server, stack, alive, stackAlive, rfl⟩
  cases step with
  | received waits received =>
      cases alive
      refine .of_step waits stackAlive rfl ?_
      simp only [ServerTasks.step, serverPair, received, Option.map_some]
  | finished handles =>
      cases alive
      exact .of_step handles stackAlive rfl rfl
  | responded responds _ sent =>
      cases alive
      refine .of_step responds stackAlive rfl ?_
      simp only [ServerTasks.step, serverPair, sent, Option.map_some]
  | unheard _ stackGone => cases stackGone.symm.trans stackAlive
  | left | dropped => cases alive

theorem serverAgrees_of_stack
    {move : StackMove} {pair : ServerTasks}
    (step : StackStep codec tasks move after)
    (present : after.serverTasks? = some pair) :
    ServerAgrees codec tasks (.stack move) pair := by
  rcases serverTasks?_eq_some_iff.mp present with
    ⟨server, stack, alive, stackAlive, rfl⟩
  cases step with
  | taken _ answered stepped =>
      rcases stack_of_take stepped with ⟨task, taken, wasAlive, takes, same⟩
      cases same.symm.trans stackAlive
      refine .of_step alive wasAlive rfl ?_
      simp only [ServerTasks.step, serverPair, answered, takes,
        Option.map_some]
  | dispatched wasAlive awaits _ sent stepped =>
      cases (stack_of_perform wasAlive stepped).symm.trans stackAlive
      refine .of_step alive wasAlive rfl ?_
      simp only [ServerTasks.step, serverPair, awaits, sent,
        Option.map_some]
  | unheard _ _ serverGone _ => cases serverGone.symm.trans alive
  | sent wasAlive awaits _ _ stepped
  | delivered wasAlive awaits stepped =>
      cases (stack_of_perform wasAlive stepped).symm.trans stackAlive
      refine .of_step alive wasAlive rfl ?_
      simp only [ServerTasks.step, serverPair, awaits]
  | exited _ _ stepped =>
      cases (stack_of_exit stepped).symm.trans stackAlive
  | failed _ stepped =>
      cases (stack_of_fail stepped).symm.trans stackAlive

theorem serverAgrees_of_moveStep
    {pair : ServerTasks}
    (step : MoveStep codec tasks move after)
    (present : after.serverTasks? = some pair) :
    ServerAgrees codec tasks move pair := by
  have untouched (isNone : serverMove? move = none)
      (server : after.server = tasks.server)
      (dispatched : after.dispatched = tasks.dispatched)
      (responses : after.responses = tasks.responses)
      (stack : after.clients.stack = tasks.clients.stack) :
      ServerAgrees codec tasks move pair := by
    refine ⟨pair, ?_, .inl ⟨isNone, rfl⟩⟩
    rw [← present, serverTasks?_congr server dispatched responses stack]
  cases step with
  | endpoint step =>
      cases step with
      | received | forwarded | lost | transmitted | closed | failed =>
          exact untouched rfl rfl rfl rfl rfl
  | stack step => exact serverAgrees_of_stack step present
  | server step => exact serverAgrees_of_server step present
  | caller step =>
      have stack := stack_of_caller step
      cases step with
      | cloned | dropped | called | handed | settled =>
          exact untouched rfl rfl rfl rfl stack

end Step

/-! ## Runs -/

section Run

variable {history : List TasksTransition}

theorem clientRun_of_run (run : TasksRun codec history tasks) :
    ClientRun codec (history.filterMap clientTransition?)
      tasks.clients := by
  apply run.component AllTasks.clients clientTransition?
  · rintro _ ⟨now, rfl⟩
    exact ⟨now, rfl⟩
  · intro before after move output stepped unseen
    rcases clients_of_moveStep (step_cases stepped) with
      ⟨_, same⟩ | ⟨seen, isSeen, _⟩
    · exact same
    · simp [clientTransition?, isSeen] at unseen
  · intro before after move output stepped transition isTransition
    rcases clients_of_moveStep (step_cases stepped) with
      ⟨isNone, _⟩ | ⟨seen, isSeen, moved⟩
    · simp [clientTransition?, isNone] at isTransition
    · simp only [clientTransition?, isSeen, Option.map_some,
        Option.some.injEq] at isTransition
      subst isTransition
      exact ⟨rfl, rfl, moved⟩

theorem endpointRun_of_run
    (run : TasksRun codec history tasks)
    {pair : EndpointTasks} (present : tasks.endpointTasks? = some pair) :
    Run (endpointMachine codec) (history.filterMap endpointTransition?)
      pair := by
  refine run.component_while endpointTasks? endpointTransition? ?_ ?_
    present
  · rintro _ pair ⟨now, rfl⟩ isPair
    cases isPair
    exact ⟨now, rfl⟩
  · intro before after move output pair stepped present
    rcases endpointAgrees_of_moveStep (step_cases stepped) present with
      ⟨previous, wasPresent, ⟨isNone, same⟩ | ⟨seen, isSeen, moved⟩⟩
    · exact ⟨previous, wasPresent,
        .inl ⟨by simp [endpointTransition?, isNone], same⟩⟩
    · exact ⟨previous, wasPresent, .inr ⟨seen, (),
        by simp [endpointTransition?, isSeen, wasPresent, present],
        moved⟩⟩

theorem serverRun_of_run
    (run : TasksRun codec history tasks)
    {pair : ServerTasks} (present : tasks.serverTasks? = some pair) :
    Run (serverMachine codec) (history.filterMap serverTransition?)
      pair := by
  refine run.component_while serverTasks? serverTransition? ?_ ?_ present
  · rintro _ pair ⟨now, rfl⟩ isPair
    cases isPair
    exact ⟨now, rfl⟩
  · intro before after move output pair stepped present
    rcases serverAgrees_of_moveStep (step_cases stepped) present with
      ⟨previous, wasPresent, ⟨isNone, same⟩ | ⟨seen, isSeen, moved⟩⟩
    · exact ⟨previous, wasPresent,
        .inl ⟨by simp [serverTransition?, isNone], same⟩⟩
    · exact ⟨previous, wasPresent, .inr ⟨seen, (),
        by simp [serverTransition?, isSeen, wasPresent, present],
        moved⟩⟩

/--
A run of all tasks is, seen by the callers and the stack, a run of the two;
and so it is for the endpoint and the stack, and for the server and the stack,
as long as both are alive.
-/
theorem components_of_run
    (run : TasksRun codec history tasks) :
    ClientRun codec (history.filterMap clientTransition?)
        tasks.clients ∧
      (∀ pair ∈ tasks.endpointTasks?,
        Run (endpointMachine codec)
          (history.filterMap endpointTransition?) pair) ∧
      ∀ pair ∈ tasks.serverTasks?,
        Run (serverMachine codec)
          (history.filterMap serverTransition?) pair :=
  ⟨clientRun_of_run run, fun _ present => endpointRun_of_run run present,
    fun _ present => serverRun_of_run run present⟩

end Run

/-! ## A request served, and the server dropped -/

/-- A request that is served while the process lives, the drop of the server,
and what follows. -/
def serveAndDrop : List Move :=
  [.endpoint (.receive [0x50, 1, 0, 7] (.loopback 5000)),
    .endpoint .forward,
    .stack (.take (.plain 0 (.inbound [0x50, 1, 0, 7] (.loopback 5000)))),
    .stack .perform,
    .server .receive,
    .server (.finish (some ⟨.content, none, []⟩)),
    .server .respond,
    .caller (.call (CoapClient.get (.loopback 5683))),
    .caller (.hand 0 0),
    .server .drop,
    .stack (.take (.plain 0 (.outboundResponse
      (some ⟨⟨.content, none, []⟩, .loopback 5000, []⟩)))),
    .stack .perform,
    .stack (.exit (.plain 0 (.outboundResponse none))),
    .endpoint .transmit,
    .endpoint .close]

open Coapable.BareCodec in
/-- The request is answered, and the server still there. -/
theorem components_of_run_on_served_request :
    ∃ (history : List TasksTransition) (tasks : AllTasks)
        (endpoint : EndpointTasks) (server : ServerTasks),
      Run (endpointMachine bareCodec)
          (history.filterMap endpointTransition?) endpoint ∧
        Run (serverMachine bareCodec)
          (history.filterMap serverTransition?) server ∧
        ClientRun bareCodec (history.filterMap clientTransition?)
          tasks.clients ∧
        endpoint.stack = server.stack ∧
          server.responses.items.length = 1 := by
  rcases exists_run_of_replay (AllTasks.initial_start bareCodec 0)
      (serveAndDrop.take 7)
      (fun _ tasks =>
        tasks.endpointTasks?.any fun (endpoint : EndpointTasks) =>
          tasks.serverTasks?.any fun (server : ServerTasks) =>
            decide (endpoint.stack = server.stack ∧
              server.responses.items.length = 1))
      (by decide) with
    ⟨history, tasks, run, checked⟩
  rw [Option.any_eq_true] at checked
  rcases checked with ⟨endpoint, isEndpoint, checked⟩
  rw [Option.any_eq_true] at checked
  rcases checked with ⟨server, isServer, checked⟩
  rcases of_decide_eq_true checked with ⟨sameStack, answered⟩
  rcases components_of_run run with ⟨clientRun, endpointRun, serverRun⟩
  exact ⟨history, tasks, endpoint, server, endpointRun _ isEndpoint,
    serverRun _ isServer, clientRun, sameStack, answered⟩

end Coapable.Tasks.AllTasks
