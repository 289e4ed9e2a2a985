import Coapable.Tasks.Shutdown

/-!
# After the stack

The end of the stack task is the end of all.  The endpoint still transmits
what it was handed, unless a datagram or an error comes first; the server
still handles the requests that were dispatched to it, and its answers go
nowhere; and both are done after a number of moves that is known beforehand.
The callers learn what they will ever learn: the result that was delivered,
or that there is none.
-/

namespace Coapable.Tasks.AllTasks

open Coapable.Client
open Coapable.CoapLite
open Coapable.Foundation
open Coapable.Foundation.Execution
open Coapable.MessageTypes
open Coapable.Server
open Coapable.Transport

/-! ## The callers -/

/-- The result of a call that the stack does not come back to. -/
def lastResult (results : List Delivery) :
    Call → Except ClientError CoapResponse
  | .sending _ _ => .error (.transport .endpointClosed)
  | .awaiting receiver _ =>
      match results.find? fun delivery => delivery.sender = receiver with
      | some delivery => ClientTasks.received delivery
      | none => .error .channelClosed
  | .done result => result

/-- The stack task has ended, and the channel of the requests with it. -/
structure StackGone (clients : ClientTasks) : Prop where
  stack : clients.stack = none
  requests : clients.requests.items = []

section Callers

variable {codec : Codec} {clients after : ClientTasks}
  {move : ClientTasks.Move}

theorem await_of_stackGone
    (gone : StackGone clients) (receiver : ResponseSender)
    (deadline now : Nat) :
    clients.await receiver deadline now =
      some (lastResult clients.results (.awaiting receiver deadline)) := by
  have notHeld : ¬clients.Held receiver := by
    simp [ClientTasks.Held, gone.stack, gone.requests]
  simp only [ClientTasks.await, lastResult]
  cases clients.results.find? fun delivery =>
      delivery.sender = receiver with
  | some delivery => rfl
  | none => exact if_neg notHeld

/-- Without the stack a call stands still or comes to its last result. -/
structure Lingers (before after : ClientTasks) : Prop where
  gone : StackGone after
  results : after.results = before.results
  calls : ∀ (index : Nat) (call : Call),
    before.calls[index]? = some call →
      after.calls[index]? = some call ∨
        after.calls[index]? =
          some (.done (lastResult before.results call))

theorem Lingers.refl (gone : StackGone clients) :
    Lingers clients clients :=
  ⟨gone, rfl, fun _ _ => .inl⟩

theorem Lingers.trans
    {first middle last : ClientTasks}
    (earlier : Lingers first middle) (later : Lingers middle last) :
    Lingers first last where
  gone := later.gone
  results := later.results.trans earlier.results
  calls index call found := by
    rcases earlier.calls index call found with same | ended
    · rw [← earlier.results]
      exact later.calls index call same
    · exact .inr ((later.calls index _ ended).elim id id)

theorem lingers_of_set
    {index : Nat} {call : Call} {now : Nat}
    (gone : StackGone clients)
    (isCall : clients.calls[index]? = some call) :
    Lingers clients { clients with
      clock := now
      calls := clients.calls.set index
        (.done (lastResult clients.results call)) } where
  gone := ⟨gone.stack, gone.requests⟩
  results := rfl
  calls other otherCall found := by
    rw [List.getElem?_set]
    split
    · next same =>
        subst same
        cases isCall.symm.trans found
        rw [if_pos (List.getElem?_eq_some_iff.mp isCall).1]
        exact .inr rfl
    · exact .inl found

theorem lingers_of_step
    {output : Unit}
    (gone : StackGone clients)
    (stepped : clients.step codec move = some (after, output)) :
    Lingers clients after := by
  have absurdAlive {task : StackTask}
      (alive : clients.stack = some task) : False := by
    cases gone.stack.symm.trans alive
  cases ClientTasks.step_cases stepped with
  | called =>
      refine ⟨⟨gone.stack, gone.requests⟩, rfl, ?_⟩
      intro index call found
      have within := (List.getElem?_eq_some_iff.mp found).1
      exact .inl ((List.getElem?_append_left within).trans found)
  | refused isCall _ _ => exact lingers_of_set gone isCall
  | settled isCall _ awaited =>
      cases (await_of_stackGone gone _ _ _).symm.trans awaited
      exact lingers_of_set gone isCall
  | handed _ alive | taken alive | performed alive | exited alive
  | failed alive => exact (absurdAlive alive).elim

theorem stackGone_of_step
    {output : Unit}
    (kept : clients.stack = none → StackGone clients)
    (stepped : clients.step codec move = some (after, output))
    (gone : after.stack = none) : StackGone after := by
  cases ClientTasks.step_cases stepped with
  | called | refused | settled => exact ⟨gone, (kept gone).requests⟩
  | handed _ alive => cases alive.symm.trans gone
  | taken | performed => cases gone
  | exited | failed => exact ⟨rfl, rfl⟩

/-- The next move of the caller is possible and ends the call. -/
theorem exists_lastMove
    (codec : Codec) {tasks : AllTasks} {index : Nat} {call : Call}
    (gone : StackGone tasks.clients)
    (isCall : tasks.clients.calls[index]? = some call)
    (underway : call.isDone = false) :
    ∃ move after, tasks.callerStep codec move = some after ∧
      after.clients.calls = tasks.clients.calls.set index
        (.done (lastResult tasks.clients.results call)) := by
  let ended : ClientTasks := { tasks.clients with
    calls := tasks.clients.calls.set index
      (.done (lastResult tasks.clients.results call)) }
  cases call with
  | sending request timeout =>
      have stepped : tasks.clients.step codec
          (.hand index tasks.clients.clock) = some (ended, ()) := by
        simp only [ClientTasks.step, isCall, gone.stack, le_rfl, if_true,
          lastResult, ended]
      refine ⟨.hand index tasks.clients.clock,
        { tasks with clients := ended }, ?_, rfl⟩
      rw [callerStep, stepped, Option.map_some]
  | awaiting receiver deadline =>
      have stepped : tasks.clients.step codec
          (.settle index tasks.clients.clock) = some (ended, ()) := by
        simp only [ClientTasks.step, isCall, le_rfl, if_true,
          await_of_stackGone gone, Option.map_some, ended]
      refine ⟨.settle index tasks.clients.clock,
        { tasks with clients := ended }, ?_, rfl⟩
      rw [callerStep, stepped, Option.map_some]
  | done result => cases underway

end Callers

/-! ## The endpoint and the server -/

/-- How many moves the endpoint task has left: one for each packet it was
handed, a datagram, and its end. -/
def endpointWork (tasks : AllTasks) : Nat :=
  match tasks.endpoint with
  | some .polling => tasks.outbound.items.length + 2
  | some (.forwarding _) => 1
  | none => 0

/-- How many moves the server task has left: three for each request, and its
end. -/
def serverWork (tasks : AllTasks) : Nat :=
  match tasks.server with
  | some .receiving => 3 * tasks.dispatched.items.length + 1
  | some (.handling _) => 3 * tasks.dispatched.items.length + 3
  | some (.responding _) => 3 * tasks.dispatched.items.length + 2
  | none => 0

/-- A bound for the moves that endpoint and server still make. -/
def work (tasks : AllTasks) : Nat :=
  tasks.endpointWork + tasks.serverWork

/-- The endpoint or the server moves. -/
def windsDown (transition : TasksTransition) : Bool :=
  match transition.input with
  | .endpoint _ | .server _ => true
  | .stack _ | .caller _ => false

/-- What the endpoint takes from its channel for the socket. -/
def transmittedBy (transition : TasksTransition) : List Datagram :=
  match transition.input with
  | .endpoint .transmit => transition.before.outbound.items.take 1
  | _ => []

/-- What the server takes from its channel for the handler. -/
def handledBy (transition : TasksTransition) : List ServerRequest :=
  match transition.input with
  | .server .receive => transition.before.dispatched.items.take 1
  | _ => []

section Work

variable {codec : Codec} {tasks after : AllTasks}

theorem work_le (tasks : AllTasks) : tasks.work ≤ 405 := by
  have outbound : tasks.outbound.items.length ≤ 100 :=
    tasks.outbound.bounded
  have dispatched : tasks.dispatched.items.length ≤ 100 :=
    tasks.dispatched.bounded
  have endpointLe : tasks.endpointWork ≤ 102 := by
    rw [endpointWork]
    split <;> omega
  have serverLe : tasks.serverWork ≤ 303 := by
    rw [serverWork]
    split <;> omega
  exact Nat.add_le_add endpointLe serverLe

/-- A stack task that has ended does not move. -/
theorem no_stackStep
    {move : StackMove}
    (gone : tasks.clients.stack = none)
    (step : StackStep codec tasks move after) : False := by
  cases step with
  | taken _ _ stepped =>
      rcases stack_of_take stepped with ⟨_, _, alive, _⟩
      cases gone.symm.trans alive
  | sent alive | dispatched alive | unheard alive | delivered alive =>
      cases gone.symm.trans alive
  | exited ends =>
      rw [exitBy, gone] at ends
      cases ends
  | failed _ stepped =>
      cases ClientTasks.step_cases stepped with
      | failed alive _ => cases gone.symm.trans alive

theorem work_of_endpointStep
    {move : EndpointMove}
    (gone : tasks.clients.stack = none)
    (step : EndpointStep tasks move after) :
    after.endpointWork + 1 ≤ tasks.endpointWork := by
  cases step with
  | received polls =>
      rw [endpointWork, endpointWork, polls]
      exact Nat.le_add_left _ _
  | forwarded _ alive _ => cases gone.symm.trans alive
  | lost holds _ =>
      rw [endpointWork, endpointWork, holds]
      exact le_rfl
  | transmitted polls received =>
      have items := Channel.receive_eq_some_iff.mp received
      rw [endpointWork, endpointWork, polls]
      simp only [items, List.length_cons]
      omega
  | closed polls _ _ | failed polls =>
      rw [endpointWork, endpointWork, polls]
      exact Nat.le_add_left _ _

theorem work_of_serverStep
    {move : ServerMove}
    (step : ServerStep tasks move after) :
    after.serverWork + 1 ≤ tasks.serverWork := by
  cases step with
  | received waits received =>
      have items := Channel.receive_eq_some_iff.mp received
      rw [serverWork, serverWork, waits]
      simp only [items, List.length_cons]
      omega
  | @finished request response handles =>
      rw [serverWork, serverWork, handles]
      cases response <;> simp only [CoapServer.answer] <;> omega
  | responded responds _ _ | unheard responds _ =>
      rw [serverWork, serverWork, responds]
  | left waits _ _ =>
      rw [serverWork, serverWork, waits]
      exact Nat.le_add_left _ _
  | dropped alive =>
      rcases Option.isSome_iff_exists.mp alive with ⟨server, isServer⟩
      rw [serverWork, serverWork, isServer]
      cases server <;> exact Nat.le_add_left _ _

/-- Without the stack nobody but endpoint and server has work, and each of
their moves does some. -/
theorem work_of_moveStep
    {move : Move} {output : Unit}
    (gone : tasks.clients.stack = none)
    (step : MoveStep codec tasks move after) :
    (windsDown ⟨tasks, move, output, after⟩).toNat + after.work ≤
      tasks.work := by
  cases step with
  | endpoint step =>
      have less := work_of_endpointStep gone step
      have same : after.serverWork = tasks.serverWork := by
        cases step <;> rfl
      simp only [windsDown, work, same, Bool.toNat_true]
      omega
  | server step =>
      have less := work_of_serverStep step
      have same : after.endpointWork = tasks.endpointWork := by
        cases step <;> rfl
      simp only [windsDown, work, same, Bool.toNat_true]
      omega
  | stack step => exact (no_stackStep gone step).elim
  | caller step =>
      have same : after.work = tasks.work := by
        cases step <;> rfl
      simp only [windsDown, same, Bool.toNat_false, Nat.zero_add, le_rfl]

theorem stack_of_moveStep
    {move : Move}
    (gone : tasks.clients.stack = none)
    (step : MoveStep codec tasks move after) :
    after.clients.stack = none := by
  cases step with
  | endpoint step => cases step <;> exact gone
  | stack step => exact (no_stackStep gone step).elim
  | server step => cases step <;> exact gone
  | caller step => exact (stack_of_caller step).trans gone

/-- As long as the endpoint task is alive it can move, without the socket. -/
theorem exists_endpointMove
    (gone : tasks.clients.stack = none)
    (alive : tasks.endpoint ≠ none) :
    ∃ move ∈ [EndpointMove.forward, .transmit, .close],
      (tasks.endpointStep move).isSome = true := by
  cases isTask : tasks.endpoint with
  | none => exact absurd isTask alive
  | some task =>
      cases task with
      | forwarding datagram =>
          refine ⟨.forward, by simp, ?_⟩
          simp only [endpointStep, isTask, gone, Option.isSome_some]
      | polling =>
          cases items : tasks.outbound.items with
          | nil =>
              refine ⟨.close, by simp, ?_⟩
              simp [endpointStep, isTask, gone, items]
          | cons datagram rest =>
              rcases Channel.exists_receive items with
                ⟨outbound, received, _⟩
              refine ⟨.transmit, by simp, ?_⟩
              simp only [endpointStep, isTask, received, Option.map_some,
                Option.isSome_some]

/-- As long as the server is there it can move, once its handler is done. -/
theorem exists_serverMove
    (gone : tasks.clients.stack = none)
    (alive : tasks.server ≠ none) (response : Option CoapResponse) :
    ∃ move ∈ [ServerMove.receive, .finish response, .respond, .leave],
      (tasks.serverStep move).isSome = true := by
  cases isServer : tasks.server with
  | none => exact absurd isServer alive
  | some server =>
      cases server with
      | handling request =>
          refine ⟨.finish response, by simp, ?_⟩
          simp only [serverStep, isServer, Option.isSome_some]
      | responding response =>
          refine ⟨.respond, by simp, ?_⟩
          simp only [serverStep, isServer, gone, Option.isSome_some]
      | receiving =>
          cases items : tasks.dispatched.items with
          | nil =>
              refine ⟨.leave, by simp, ?_⟩
              simp [serverStep, isServer, gone, items]
          | cons request rest =>
              rcases Channel.exists_receive items with
                ⟨dispatched, received, _⟩
              refine ⟨.receive, by simp, ?_⟩
              simp only [serverStep, isServer, received, Option.map_some,
                Option.isSome_some]

end Work

/-! ## Runs -/

section Run

variable {codec : Codec} {history newer older : List TasksTransition}
  {ender : TasksTransition} {tasks : AllTasks}

theorem stackGone_of_run
    (run : TasksRun codec history tasks) :
    tasks.clients.stack = none → StackGone tasks.clients := by
  refine run.invariant
    (fun _ tasks => tasks.clients.stack = none →
      StackGone tasks.clients) ?_ ?_
  · rintro _ ⟨now, rfl⟩
    exact nofun
  · intro history before after move output _ kept stepped gone
    rcases clients_of_moveStep (step_cases stepped) with
      ⟨_, same⟩ | ⟨seen, _, moved⟩
    · rw [same] at gone ⊢
      exact kept gone
    · exact stackGone_of_step kept moved gone

/-- What was transmitted and what still waits to be is what the endpoint was
handed, up to what it dropped at its end; the same for the server. -/
structure Flushes (middle : AllTasks) (newer : List TasksTransition)
    (tasks : AllTasks) : Prop where
  outbound : collected transmittedBy newer ++ tasks.outbound.items <+:
    middle.outbound.items
  dispatched : collected handledBy newer ++ tasks.dispatched.items <+:
    middle.dispatched.items

theorem Flushes.cons
    {middle after : AllTasks} {move : Move} {output : Unit}
    (flushes : Flushes middle newer tasks)
    (gone : tasks.clients.stack = none)
    (step : MoveStep codec tasks move after) :
    Flushes middle (⟨tasks, move, output, after⟩ :: newer) after := by
  have moved :
      transmittedBy ⟨tasks, move, output, after⟩ ++
          after.outbound.items <+: tasks.outbound.items ∧
        handledBy ⟨tasks, move, output, after⟩ ++
          after.dispatched.items <+: tasks.dispatched.items := by
    cases step with
    | endpoint step =>
        cases step with
        | received | forwarded =>
            exact ⟨List.prefix_rfl, List.prefix_rfl⟩
        | transmitted _ received =>
            refine ⟨?_, List.prefix_rfl⟩
            simp [transmittedBy, Channel.receive_eq_some_iff.mp received]
        | lost | closed | failed =>
            exact ⟨List.nil_prefix, List.prefix_rfl⟩
    | stack step => exact (no_stackStep gone step).elim
    | server step =>
        cases step with
        | finished | responded | unheard =>
            exact ⟨List.prefix_rfl, List.prefix_rfl⟩
        | received _ received =>
            refine ⟨List.prefix_rfl, ?_⟩
            simp [handledBy, Channel.receive_eq_some_iff.mp received]
        | left | dropped => exact ⟨List.prefix_rfl, List.nil_prefix⟩
    | caller step => cases step <;> exact ⟨List.prefix_rfl, List.prefix_rfl⟩
  constructor
  · rw [collected_cons, List.append_assoc]
    exact ((List.prefix_append_right_inj _).mpr moved.1).trans
      flushes.outbound
  · rw [collected_cons, List.append_assoc]
    exact ((List.prefix_append_right_inj _).mpr moved.2).trans
      flushes.dispatched

/-- What holds of every continuation after the stack task has ended. -/
structure Leaves (middle : AllTasks) (newer : List TasksTransition)
    (tasks : AllTasks) : Prop where
  flushes : Flushes middle newer tasks
  lingers : Lingers middle.clients tasks.clients

theorem leaves_of_run
    (run : TasksRun codec (newer ++ ender :: older) tasks)
    (ended : ender.after.clients.stack = none) :
    Leaves ender.after newer tasks := by
  rcases run.of_suffix (List.suffix_append newer _) with
    ⟨earlier, stepped⟩
  have gone := stackGone_of_run (earlier.extend stepped) ended
  refine run.resumed.invariant (Leaves ender.after) ?_ ?_
  · rintro _ rfl
    exact ⟨⟨List.prefix_rfl, List.prefix_rfl⟩, .refl gone⟩
  · intro newer before after move output _ leaves stepped
    have step := step_cases stepped
    refine ⟨leaves.flushes.cons leaves.lingers.gone.stack step, ?_⟩
    rcases clients_of_moveStep step with ⟨_, same⟩ | ⟨seen, _, moved⟩
    · rw [same]
      exact leaves.lingers
    · exact leaves.lingers.trans
        (lingers_of_step leaves.lingers.gone moved)

theorem winds_down_of_run
    (run : TasksRun codec (newer ++ ender :: older) tasks)
    (ended : ender.after.clients.stack = none) :
    newer.countP windsDown + tasks.work ≤ ender.after.work := by
  refine (run.resumed.countP_add_le (fun _ => True) windsDown
    (fun tasks => tasks.clients.stack = none) work ender.after.work ?_ ?_
    fun _ _ => trivial).2
  · rintro _ rfl
    exact ⟨ended, le_rfl⟩
  · intro transition stepped _ gone
    have step := step_cases stepped
    exact ⟨stack_of_moveStep gone step, work_of_moveStep gone step⟩

/--
After the stack task has ended, endpoint and server make at most 405 moves
whatever else happens, and can move until they have ended; what they transmit
and handle is what they had been handed, in order.  Every call that was
underway comes to the result that was delivered to it, or to the error that
says there is none, and never times out.
-/
theorem tasks_end_after_stack
    (run : TasksRun codec (newer ++ ender :: older) tasks)
    (ended : ender.after.clients.stack = none) :
    (newer.countP windsDown + tasks.work ≤ ender.after.work ∧
        ender.after.work ≤ 405) ∧
      (tasks.endpoint ≠ none →
        ∃ move ∈ [EndpointMove.forward, .transmit, .close],
          (tasks.endpointStep move).isSome = true) ∧
      (tasks.server ≠ none → ∀ response,
        ∃ move ∈ [ServerMove.receive, .finish response, .respond, .leave],
          (tasks.serverStep move).isSome = true) ∧
      Leaves ender.after newer tasks ∧
      ∀ (index : Nat) (call : Call),
        tasks.clients.calls[index]? = some call → call.isDone = false →
          ∃ move after, tasks.callerStep codec move = some after ∧
            after.clients.calls = tasks.clients.calls.set index
              (.done (lastResult tasks.clients.results call)) := by
  have leaves := leaves_of_run run ended
  have gone := leaves.lingers.gone
  refine ⟨⟨winds_down_of_run run ended, work_le _⟩,
    exists_endpointMove gone.stack, exists_serverMove gone.stack, leaves,
    ?_⟩
  intro index call isCall underway
  exact exists_lastMove codec gone isCall underway

end Run

/-- The stack ended with an answer in the outbound channel, and a call that
was not taken. -/
def endedWithCall : List TasksTransition → Bool
  | _ :: ender :: _ =>
      ender.after.clients.stack.isNone &&
        decide (ender.after.outbound.items.length = 1)
  | _ => false

open Coapable.BareCodec in
/-- The answer is transmitted, and the caller learns that its channel was
closed. -/
theorem tasks_end_after_stack_on_dropped_server :
    ∃ (transmitted ender : TasksTransition) (older : List TasksTransition)
        (tasks after : AllTasks) (move : CallerMove),
      TasksRun bareCodec (transmitted :: ender :: older) tasks ∧
        ender.after.outbound.items.length = 1 ∧
          Leaves ender.after [transmitted] tasks ∧
        tasks.callerStep bareCodec move = some after ∧
          after.clients.calls = [.done (.error .channelClosed)] := by
  rcases exists_run_of_replay (AllTasks.initial_start bareCodec 0)
      (serveAndDrop.take 14)
      (fun history tasks => endedWithCall history &&
        decide (tasks.clients.calls =
            [.awaiting ⟨0⟩ (fromSecs 5)] ∧
          tasks.clients.results = []))
      (by decide) with
    ⟨history, tasks, run, checked⟩
  rw [Bool.and_eq_true, decide_eq_true_eq] at checked
  rcases checked with ⟨checked, calls, results⟩
  unfold endedWithCall at checked
  split at checked
  · next transmitted ender older =>
      rw [Bool.and_eq_true, Option.isNone_iff_eq_none,
        decide_eq_true_eq] at checked
      have kept : TasksRun bareCodec
          ([transmitted] ++ ender :: older) tasks := run
      rcases tasks_end_after_stack kept checked.1 with
        ⟨_, _, _, leaves, ends⟩
      rcases ends 0 (.awaiting ⟨0⟩ (fromSecs 5)) (by rw [calls]; rfl) rfl
        with ⟨move, after, moved, done⟩
      refine ⟨transmitted, ender, older, tasks, after, move, run,
        checked.2, leaves, moved, ?_⟩
      rw [done, calls, results]
      rfl
  · cases checked

end Coapable.Tasks.AllTasks
