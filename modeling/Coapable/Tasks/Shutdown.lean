import Coapable.Tasks.Components
import Coapable.Transport.InboundSafety

/-!
# Why the tasks of a process end

No task ends on its own.  The first one to end is the endpoint, because its
socket failed, or the server, because it was dropped or a handler panicked, or
the stack, because no client interface was left or a datagram made it panic.
The others follow, and what `CoapStack::shutdown` returns tells which it was.
-/

namespace Coapable.Tasks.AllTasks

open Coapable.BareCodec
open Coapable.Client
open Coapable.CoapLite
open Coapable.Foundation
open Coapable.Foundation.Execution
open Coapable.MessageTypes
open Coapable.Server
open Coapable.Transport
open Coapable.Transport.InboundSafety

/-- What `CoapStack::shutdown` returns; a panic of the task is reported as
`EndpointClosed`. -/
def shutdown (tasks : AllTasks) : Option (Except TransportError Unit) :=
  tasks.finished.map fun exit =>
    match exit with
    | .panicked _ => .error .endpointClosed
    | .returned result => result

/-! ## What ends the stack task -/

/-- The branch bodies that end the task, one constructor for each way. -/
inductive BodyEnds (codec : Codec) (stack : CoapStack)
    (iteration : Iteration) : Exit → Prop where
  | panicked {raw : Bytes} {peer : SocketAddr} {panic : Panic}
      (taken : iteration.branch = .inbound raw peer)
      (received : iteration.endpointOpen = true)
      (panics : stack.inbound codec iteration raw peer = .error panic) :
      BodyEnds codec stack iteration (.panicked panic)
  | endpointClosed {raw : Bytes} {peer : SocketAddr}
      (taken : iteration.branch = .inbound raw peer)
      (closed : iteration.endpointOpen = false) :
      BodyEnds codec stack iteration (.returned (.error .endpointClosed))
  | noRequests (taken : iteration.branch = .outboundRequest none) :
      BodyEnds codec stack iteration (.returned (.ok ()))
  | noResponses (taken : iteration.branch = .outboundResponse none) :
      BodyEnds codec stack iteration (.returned (.ok ()))

theorem bodyEnds_of_branchBody
    {codec : Codec} {stack : CoapStack} {iteration : Iteration}
    {exit : Exit}
    (ended : stack.branchBody codec iteration = .error exit) :
    BodyEnds codec stack iteration exit := by
  simp only [CoapStack.branchBody] at ended
  split at ended
  · next raw peer taken =>
      split at ended
      · next received =>
          split at ended
          · next panic panics =>
              cases ended
              exact .panicked taken received panics
          · cases ended
      · next closed =>
          cases ended
          exact .endpointClosed taken (Bool.eq_false_of_not_eq_true closed)
  · cases ended
  · next taken =>
      cases ended
      exact .noRequests taken
  · cases ended
  · next taken =>
      cases ended
      exact .noResponses taken
  · cases ended
  · cases ended

/-- No client interface is left, no request waits and no call is underway. -/
def Deserted (tasks : AllTasks) : Prop :=
  tasks.interfaces = 0 ∧ tasks.clients.requests.items = [] ∧
    tasks.clients.calls.all Call.isDone = true

/-- The stack takes a datagram that makes it panic. -/
def Crashes (codec : Codec) (transition : TasksTransition) : Prop :=
  ∃ iteration raw peer task,
    transition.input = .stack (.exit iteration) ∧
      iteration.branch = .inbound raw peer ∧
        transition.before.clients.stack = some task ∧
          CarriesLongAccept codec task.loop.stack raw peer

/-- What of the history makes the stack task end like this. -/
def Cause (codec : Codec) (history : List TasksTransition) : Exit → Prop
  | .panicked _ => ∃ transition ∈ history, Crashes codec transition
  | .returned (.error _) =>
      ∃ transition ∈ history, transition.input = .endpoint .fail
  | .returned (.ok _) =>
      (∃ transition ∈ history, transition.input = .server .drop) ∨
        ∃ transition ∈ history, transition.before.Deserted

theorem Cause.cons
    {codec : Codec} {history : List TasksTransition} {exit : Exit}
    (cause : Cause codec history exit) (transition : TasksTransition) :
    Cause codec (transition :: history) exit := by
  have older {property : TasksTransition → Prop}
      (found : ∃ earlier ∈ history, property earlier) :
      ∃ earlier ∈ transition :: history, property earlier := by
    rcases found with ⟨earlier, member, holds⟩
    exact ⟨earlier, List.mem_cons_of_mem _ member, holds⟩
  cases exit with
  | panicked _ => exact older cause
  | returned result =>
      cases result with
      | error _ => exact older cause
      | ok _ => exact cause.imp older older

/-- Every task that has ended was ended from outside, or by the stack. -/
structure Accounted (codec : Codec) (history : List TasksTransition)
    (tasks : AllTasks) : Prop where
  finished : tasks.finished = none ↔ tasks.clients.stack ≠ none
  stack : ∀ exit, tasks.finished = some exit → Cause codec history exit
  endpoint : tasks.endpoint = none →
    (∃ transition ∈ history, transition.input = .endpoint .fail) ∨
      tasks.clients.stack = none
  server : tasks.server = none →
    (∃ transition ∈ history, transition.input = .server .drop) ∨
      tasks.clients.stack = none

section Step

variable {codec : Codec} {history : List TasksTransition}
  {tasks after : AllTasks} {move : Move}

/-- A move that leaves the stack alive, or ended, keeps the account. -/
theorem Accounted.kept
    (accounted : Accounted codec history tasks)
    (transition : TasksTransition)
    (finished : after.finished = tasks.finished)
    (stack : after.clients.stack = none ↔ tasks.clients.stack = none)
    (endpoint : after.endpoint = none → tasks.endpoint = none ∨
      transition.input = .endpoint .fail ∨ tasks.clients.stack = none)
    (server : after.server = none → tasks.server = none ∨
      transition.input = .server .drop ∨ tasks.clients.stack = none) :
    Accounted codec (transition :: history) after where
  finished := by
    rw [finished, accounted.finished, not_iff_not]
    exact stack.symm
  stack exit isExit :=
    (accounted.stack exit (finished ▸ isExit)).cons transition
  endpoint gone := by
    rw [stack]
    rcases endpoint gone with wasGone | failed | stackGone
    · refine (accounted.endpoint wasGone).imp_left ?_
      rintro ⟨earlier, member, holds⟩
      exact ⟨earlier, List.mem_cons_of_mem _ member, holds⟩
    · exact .inl ⟨transition, List.mem_cons_self, failed⟩
    · exact .inr stackGone
  server gone := by
    rw [stack]
    rcases server gone with wasGone | dropped | stackGone
    · refine (accounted.server wasGone).imp_left ?_
      rintro ⟨earlier, member, holds⟩
      exact ⟨earlier, List.mem_cons_of_mem _ member, holds⟩
    · exact .inl ⟨transition, List.mem_cons_self, dropped⟩
    · exact .inr stackGone

/-- The stack ends, and everything may end after it. -/
theorem Accounted.stackEnded
    {clients : ClientTasks} {exit : Exit}
    {transitions : List TasksTransition}
    (cause : Cause codec transitions exit)
    (gone : clients.stack = none) :
    Accounted codec transitions (tasks.stackEnded clients exit) where
  finished := by simp [AllTasks.stackEnded, gone]
  stack other isExit := by
    cases isExit
    exact cause
  endpoint _ := .inr gone
  server _ := .inr gone

theorem deserted_of_exit
    {iteration : Iteration} {clients : ClientTasks}
    (taken : iteration.branch = .outboundRequest none)
    (receives : tasks.receivesEnd iteration = true)
    (stepped : tasks.clients.step codec (.exit iteration) =
      some (clients, ())) :
    tasks.Deserted := by
  simp only [receivesEnd, taken, decide_eq_true_eq] at receives
  simp only [ClientTasks.step] at stepped
  split at stepped
  · next task requests alive fetched =>
      simp only [taken, ClientTasks.fetch] at fetched
      split at fetched
      · next deserted => exact ⟨receives, deserted.1, deserted.2⟩
      · cases fetched
  · cases stepped

/-- The stack ends for a reason. -/
theorem cause_of_exit
    (accounted : Accounted codec history tasks)
    {iteration : Iteration} {exit : Exit} {clients : ClientTasks}
    {output : Unit}
    (ends : tasks.exitBy codec iteration = some exit)
    (receives : tasks.receivesEnd iteration = true)
    (stepped : tasks.clients.step codec (.exit iteration) =
      some (clients, ())) :
    Cause codec
      (⟨tasks, .stack (.exit iteration), output, after⟩ :: history)
      exit := by
  rcases Option.bind_eq_some_iff.mp ends with ⟨task, alive, ended⟩
  have stillAlive : tasks.clients.stack ≠ none := by simp [alive]
  split at ended
  · next exit isError =>
      cases ended
      cases bodyEnds_of_branchBody isError with
      | panicked taken received panics =>
          refine ⟨_, List.mem_cons_self, iteration, _, _, task, rfl,
            taken, alive, ?_⟩
          exact (inbound_panics_iff _ _ _ _ _).mp ⟨_, panics⟩
      | endpointClosed taken closed =>
          simp [receivesEnd, taken, closed] at receives
          rcases (accounted.endpoint receives.1).resolve_right
            stillAlive with ⟨earlier, member, failed⟩
          exact ⟨earlier, List.mem_cons_of_mem _ member, failed⟩
      | noRequests taken =>
          exact .inr ⟨_, List.mem_cons_self,
            deserted_of_exit taken receives stepped⟩
      | noResponses taken =>
          simp [receivesEnd, taken] at receives
          rcases (accounted.server receives.1).resolve_right
            stillAlive with ⟨earlier, member, dropped⟩
          exact .inl ⟨earlier, List.mem_cons_of_mem _ member, dropped⟩
  · cases ended

theorem accounted_stack
    {move : StackMove} {output : Unit}
    (accounted : Accounted codec history tasks)
    (step : StackStep codec tasks move after) :
    Accounted codec (⟨tasks, .stack move, output, after⟩ :: history)
      after := by
  -- A stack that moves on was alive and is alive.
  have moved {task taken : StackTask} {clients : ClientTasks}
      (wasAlive : tasks.clients.stack = some task)
      (isAlive : clients.stack = some taken) :
      clients.stack = none ↔ tasks.clients.stack = none := by
    simp [wasAlive, isAlive]
  cases step with
  | taken _ _ stepped =>
      rcases stack_of_take stepped with ⟨_, _, wasAlive, _, isAlive⟩
      exact accounted.kept _ rfl (moved wasAlive isAlive) .inl .inl
  | sent wasAlive _ _ _ stepped
  | dispatched wasAlive _ _ _ stepped
  | unheard wasAlive _ _ stepped
  | delivered wasAlive _ stepped =>
      exact accounted.kept _ rfl
        (moved wasAlive (stack_of_perform wasAlive stepped)) .inl .inl
  | exited ends receives stepped =>
      exact .stackEnded (cause_of_exit accounted ends receives stepped)
        (stack_of_exit stepped)
  | failed endpointGone stepped =>
      refine .stackEnded ?_ (stack_of_fail stepped)
      have wasAlive : tasks.clients.stack ≠ none := by
        cases ClientTasks.step_cases stepped with
        | failed alive _ => simp [alive]
      rcases (accounted.endpoint endpointGone).resolve_right wasAlive with
        ⟨earlier, member, failed⟩
      exact ⟨earlier, List.mem_cons_of_mem _ member, failed⟩

theorem accounted_step
    {output : Unit}
    (accounted : Accounted codec history tasks)
    (step : MoveStep codec tasks move after) :
    Accounted codec (⟨tasks, move, output, after⟩ :: history) after := by
  cases step with
  | endpoint step =>
      cases step with
      | received | forwarded => exact accounted.kept _ rfl .rfl nofun .inl
      | transmitted => exact accounted.kept _ rfl .rfl .inl .inl
      | lost _ stackGone | closed _ stackGone _ =>
          exact accounted.kept _ rfl .rfl (fun _ => .inr (.inr stackGone))
            .inl
      | failed =>
          exact accounted.kept _ rfl .rfl (fun _ => .inr (.inl rfl)) .inl
  | stack step => exact accounted_stack accounted step
  | server step =>
      cases step with
      | received | finished | responded | unheard =>
          exact accounted.kept _ rfl .rfl .inl nofun
      | left _ stackGone _ =>
          exact accounted.kept _ rfl .rfl .inl
            (fun _ => .inr (.inr stackGone))
      | dropped =>
          exact accounted.kept _ rfl .rfl .inl (fun _ => .inr (.inl rfl))
  | caller step =>
      have stack := stack_of_caller step
      cases step with
      | cloned | dropped | called | handed | settled =>
          exact accounted.kept _ rfl (by rw [stack]) .inl .inl

end Step

section Run

variable {codec : Codec} {history : List TasksTransition}
  {tasks : AllTasks}

theorem accounted_of_run (run : TasksRun codec history tasks) :
    Accounted codec history tasks := by
  refine run.invariant (Accounted codec) ?_ ?_
  · rintro _ ⟨now, rfl⟩
    exact {
      finished := by simp [start, ClientTasks.start]
      stack := nofun
      endpoint := nofun
      server := nofun }
  · intro history before after move output _ accounted stepped
    exact accounted_step accounted (step_cases stepped)

theorem shutdown_eq_none_iff_of_run
    (run : TasksRun codec history tasks) :
    tasks.shutdown = none ↔ tasks.clients.stack ≠ none := by
  rw [shutdown, Option.map_eq_none_iff]
  exact (accounted_of_run run).finished

/--
`CoapStack::shutdown` waits as long as the stack task is there.  If it returns
`Ok`, the server was dropped or the client interfaces were; if it returns an
error, the socket failed or a datagram made the task panic.  The endpoint and
the server are gone only if the socket failed, or the server was dropped, or
the stack is gone.
-/
theorem shutdown_tells_cause
    (run : TasksRun codec history tasks) :
    (tasks.shutdown = none ↔ tasks.clients.stack ≠ none) ∧
      (tasks.shutdown = some (.ok ()) →
        (∃ transition ∈ history, transition.input = .server .drop) ∨
          ∃ transition ∈ history, transition.before.Deserted) ∧
      (∀ error, tasks.shutdown = some (.error error) →
        (∃ transition ∈ history, transition.input = .endpoint .fail) ∨
          ∃ transition ∈ history, Crashes codec transition) ∧
      (tasks.endpoint = none →
        (∃ transition ∈ history, transition.input = .endpoint .fail) ∨
          tasks.clients.stack = none) ∧
      (tasks.server = none →
        (∃ transition ∈ history, transition.input = .server .drop) ∨
          tasks.clients.stack = none) := by
  have accounted := accounted_of_run run
  refine ⟨shutdown_eq_none_iff_of_run run, ?_, ?_, accounted.endpoint,
    accounted.server⟩
  · intro isOk
    rcases Option.map_eq_some_iff.mp isOk with ⟨exit, isExit, result⟩
    cases exit with
    | panicked _ => cases result
    | returned _ =>
        cases result
        exact accounted.stack _ isExit
  · intro error isError
    rcases Option.map_eq_some_iff.mp isError with ⟨exit, isExit, result⟩
    cases exit with
    | panicked _ => exact .inr (accounted.stack _ isExit)
    | returned _ =>
        cases result
        exact .inl (accounted.stack _ isExit)

end Run

/-- The server is dropped, and the stack returns. -/
theorem shutdown_tells_cause_on_dropped_server :
    ∃ (history : List TasksTransition) (tasks : AllTasks),
      TasksRun bareCodec history tasks ∧
        tasks.shutdown = some (.ok ()) ∧
          ((∃ transition ∈ history, transition.input = .server .drop) ∨
            ∃ transition ∈ history, transition.before.Deserted) := by
  rcases exists_run_of_replay (AllTasks.initial_start bareCodec 0)
      (serveAndDrop.take 13)
      (fun _ tasks => decide (tasks.shutdown = some (.ok ())))
      (by decide) with
    ⟨history, tasks, run, checked⟩
  have isOk := of_decide_eq_true checked
  exact ⟨history, tasks, run, isOk, (shutdown_tells_cause run).2.1 isOk⟩

end Coapable.Tasks.AllTasks
