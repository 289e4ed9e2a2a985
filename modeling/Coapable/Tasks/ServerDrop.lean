import Coapable.Client.CallOutcomes
import Coapable.Tasks.Deadlock

/-!
# Dropping the server

An owner that wants to shut the stack down drops the server and awaits
`CoapStack::shutdown`.  The stack then performs what its body still has to
send, sends the answers that wait in its channel, finds this channel closed
and returns.  It needs no help from outside for that, only an endpoint that
takes its packets.  If the two wait for each other, dropping the server does
not help, and the owner waits forever.
-/

namespace Coapable.Tasks.AllTasks

open Coapable.Client
open Coapable.CoapLite
open Coapable.Foundation
open Coapable.Foundation.Execution
open Coapable.MessageTypes
open Coapable.Server
open Coapable.Transport

/-- The server is gone, and the stack need not wait for the endpoint. -/
structure Closing (tasks : AllTasks) (task : StackTask) : Prop where
  stack : tasks.clients.stack = some task
  server : tasks.server = none
  endpoint : ∀ datagram, tasks.endpoint ≠ some (.forwarding datagram)

/-- The endpoint is alive and does not wait for the stack. -/
def EndpointServes (tasks : AllTasks) : Prop :=
  tasks.endpoint = some .polling ∨
    tasks.endpoint ≠ none ∧ ¬tasks.inbound.Full

/-- `CoapStack::shutdown` comes to return, and returns `Ok` if the endpoint
serves the stack. -/
def ReturnsUnaided (codec : Codec) (tasks : AllTasks) : Prop :=
  ∃ final result, (tasksMachine codec).Reaches Unaided tasks final ∧
    final.shutdown = some result ∧
      (tasks.EndpointServes → result = .ok ())

section Step

variable {codec : Codec} {tasks after : AllTasks} {task : StackTask}

theorem ReturnsUnaided.of_reaches
    (reaches : (tasksMachine codec).Reaches Unaided tasks after)
    (serves : tasks.EndpointServes → after.EndpointServes)
    (returns : ReturnsUnaided codec after) :
    ReturnsUnaided codec tasks := by
  rcases returns with ⟨final, result, further, returned, isOk⟩
  exact ⟨final, result, reaches.trans further, returned,
    fun served => isOk (serves served)⟩

theorem Proceeds.returnsUnaided
    (proceeds : Proceeds codec tasks after task)
    (returns : ReturnsUnaided codec after) :
    ReturnsUnaided codec tasks := by
  refine returns.of_reaches proceeds.reaches fun serves => ?_
  rw [EndpointServes, proceeds.endpoint, proceeds.inbound]
  exact serves

theorem Proceeds.closing
    (proceeds : Proceeds codec tasks after task)
    {earlier : StackTask} (closing : Closing tasks earlier) :
    Closing after task where
  stack := proceeds.stack
  server := proceeds.server.trans closing.server
  endpoint datagram := by
    rw [proceeds.endpoint]
    exact closing.endpoint datagram

theorem FailsUnaided.returnsUnaided
    (fails : FailsUnaided codec tasks) : ReturnsUnaided codec tasks := by
  rcases fails with ⟨gone, final, reaches, returned⟩
  refine ⟨final, _, reaches, returned, ?_⟩
  rintro (polls | ⟨endpointAlive, _⟩)
  · cases gone.symm.trans polls
  · exact absurd gone endpointAlive

theorem Closing.returns_or_idles
    (closing : Closing tasks task) :
    ReturnsUnaided codec tasks ∨
      ∃ after idle, Proceeds codec tasks after idle ∧
        idle.pending = [] :=
  (fails_or_idles closing.stack (fun _ _ => closing.server)
    closing.endpoint).imp_left FailsUnaided.returnsUnaided

/-! ### At the `select!` -/

/-- A time at which the stack may take a branch. -/
def nextTime (tasks : AllTasks) (task : StackTask) : Nat :=
  max tasks.clients.clock task.loop.clock

theorem step_of_take
    {iteration : Iteration} {taken : StackTask}
    {inbound : Channel Datagram channelCapacity}
    {responses : Channel ServerResponse channelCapacity}
    {requests : Channel OutboundRequest channelCapacity}
    (alive : tasks.clients.stack = some task)
    (clock : tasks.clients.clock ≤ iteration.now)
    (received : EndpointTasks.fetch tasks.inbound iteration.branch =
      some inbound)
    (answered : ServerTasks.fetch tasks.responses iteration.branch =
      some responses)
    (requested : tasks.clients.fetch iteration.branch = some requests)
    (takes : task.take codec iteration = some taken) :
    tasks.step codec (.stack (.take iteration)) =
      some ({ tasks with
        inbound := inbound
        responses := responses
        clients := { tasks.clients with
          clock := iteration.now
          requests := requests
          stack := some taken } }, ()) := by
  have moved := ClientTasks.step_take alive requested clock takes
  simp only [step, stackStep, received, answered, moved, Option.map_some]

theorem step_of_exit
    {iteration : Iteration} {exit : Exit}
    {requests : Channel OutboundRequest channelCapacity}
    (alive : tasks.clients.stack = some task)
    (idle : task.pending = [])
    (clock : tasks.clients.clock ≤ iteration.now)
    (admitted : task.loop.Admits iteration)
    (requested : tasks.clients.fetch iteration.branch = some requests)
    (receives : tasks.receivesEnd iteration = true)
    (ends : task.loop.stack.branchBody codec iteration = .error exit) :
    tasks.step codec (.stack (.exit iteration)) =
      some (tasks.stackEnded (tasks.clients.ended iteration.now) exit,
        ()) := by
  have moved : tasks.clients.step codec (.exit iteration) =
      some (tasks.clients.ended iteration.now, ()) := by
    simp only [ClientTasks.step, alive, requested, idle, ends]
    exact if_pos ⟨clock, trivial, admitted, rfl⟩
  simp only [step, stackStep, exitBy, alive, Option.bind_some, ends, moved,
    receives, if_true, Option.map_some]

/-- Without answers the stack finds their channel closed, and ends. -/
theorem returnsUnaided_of_no_responses
    (codec : Codec) (closing : Closing tasks task)
    (idle : task.pending = []) (empty : tasks.responses.items = []) :
    ReturnsUnaided codec tasks := by
  let iteration : Iteration :=
    .plain (tasks.nextTime task) (.outboundResponse none)
  have admitted : task.loop.Admits iteration := by
    refine ⟨le_max_right _ _, trivial, ?_⟩
    rintro _ ⟨⟩
  have receives : tasks.receivesEnd iteration = true := by
    simp [receivesEnd, iteration, Iteration.plain, closing.server, empty]
  have stepped : tasks.step codec (.stack (.exit iteration)) =
      some (tasks.stackEnded (tasks.clients.ended iteration.now)
        (.returned (.ok ())), ()) :=
    step_of_exit closing.stack idle (le_max_left _ _) admitted rfl receives
      rfl
  exact ⟨_, .ok (),
    .of_step (show Unaided (.stack (.exit iteration)) from trivial)
      stepped,
    rfl, fun _ => rfl⟩

/-- The oldest answer can be taken. -/
theorem exists_answer_taken
    (codec : Codec) (closing : Closing tasks task)
    (idle : task.pending = []) {response : ServerResponse}
    {rest : List ServerResponse}
    (items : tasks.responses.items = response :: rest) :
    ∃ after taken, (tasksMachine codec).Reaches Unaided tasks after ∧
      Closing after taken ∧ after.responses.items = rest ∧
        (tasks.EndpointServes → after.EndpointServes) := by
  let iteration : Iteration :=
    .plain (tasks.nextTime task) (.outboundResponse (some response))
  have admitted : task.loop.Admits iteration := by
    refine ⟨le_max_right _ _, trivial, ?_⟩
    rintro _ ⟨⟩
  rcases Channel.exists_receive items with ⟨responses, received, fewer⟩
  have answered : ServerTasks.fetch tasks.responses iteration.branch =
      some responses := by
    show ServerTasks.fetch tasks.responses
      (.outboundResponse (some response)) = _
    simp only [ServerTasks.fetch, received, if_true]
  rcases StackTask.exists_take_or_ends codec idle rfl admitted with
    ⟨taken, takes⟩ | ⟨_, ⟨⟩⟩
  have stepped := step_of_take closing.stack
    (le_max_left _ _ : tasks.clients.clock ≤ iteration.now)
    rfl answered rfl takes
  exact ⟨_, taken,
    .of_step (show Unaided (.stack (.take iteration)) from trivial)
      stepped,
    ⟨rfl, closing.server, closing.endpoint⟩, fewer, id⟩

/-- A stack that need not wait for the endpoint comes to its end. -/
theorem Closing.returnsUnaided
    (closing : Closing tasks task) : ReturnsUnaided codec tasks := by
  induction waiting : tasks.responses.items generalizing tasks task with
  | nil =>
      rcases closing.returns_or_idles with
        returns | ⟨after, idle, proceeds, isIdle⟩
      · exact returns
      · refine proceeds.returnsUnaided
          (returnsUnaided_of_no_responses codec (proceeds.closing closing)
            isIdle ?_)
        rw [proceeds.responses, waiting]
  | cons response rest induction =>
      rcases closing.returns_or_idles with
        returns | ⟨after, idle, proceeds, isIdle⟩
      · exact returns
      · have items : after.responses.items = response :: rest := by
          rw [proceeds.responses, waiting]
        rcases exists_answer_taken codec (proceeds.closing closing) isIdle
            items with ⟨next, taken, reaches, stillClosing, fewer, serves⟩
        exact proceeds.returnsUnaided
          ((induction stillClosing fewer).of_reaches reaches serves)

/-! ### With a datagram in the hand of the endpoint -/

theorem returnsUnaided_of_room
    {datagram : Datagram}
    (alive : tasks.clients.stack = some task)
    (serverGone : tasks.server = none)
    (holds : tasks.endpoint = some (.forwarding datagram))
    (room : ¬tasks.inbound.Full) :
    ReturnsUnaided codec tasks := by
  rcases exists_forwarded codec alive holds room with
    ⟨next, stepped, polls, server, clients⟩
  have closing : Closing next task := by
    refine ⟨by rw [clients, alive], server.trans serverGone, ?_⟩
    intro datagram held
    cases polls.symm.trans held
  exact closing.returnsUnaided.of_reaches
    (.of_step (show Unaided (.endpoint .forward) from trivial) stepped)
    fun _ => .inl polls

/-- Between two bodies the stack takes a datagram, which makes the room the
endpoint waits for, or makes the stack panic. -/
theorem returnsUnaided_of_full
    {datagram : Datagram}
    (alive : tasks.clients.stack = some task)
    (serverGone : tasks.server = none)
    (holds : tasks.endpoint = some (.forwarding datagram))
    (full : tasks.inbound.Full) (idle : task.pending = []) :
    ReturnsUnaided codec tasks := by
  have busy : ¬tasks.EndpointServes := by
    rintro (polls | ⟨_, room⟩)
    · cases holds.symm.trans polls
    · exact room full
  rcases Channel.exists_receive_of_full (by decide) full with
    ⟨⟨raw, peer⟩, inbound, received⟩
  let iteration : Iteration :=
    .plain (tasks.nextTime task) (.inbound raw peer)
  have clock : tasks.clients.clock ≤ iteration.now := le_max_left _ _
  have admitted : task.loop.Admits iteration := by
    refine ⟨le_max_right _ _, trivial, ?_⟩
    rintro _ ⟨⟩
  have fetched : EndpointTasks.fetch tasks.inbound iteration.branch =
      some inbound := by
    show EndpointTasks.fetch tasks.inbound (.inbound raw peer) = _
    simp only [EndpointTasks.fetch, received, if_true]
  have permitted : Unaided (.stack (.take iteration)) := trivial
  rcases StackTask.exists_take_or_ends codec idle rfl admitted with
    ⟨taken, takes⟩ | ⟨exit, ends⟩
  · let after : AllTasks := { tasks with
      inbound := inbound
      clients := { tasks.clients with
        clock := iteration.now
        stack := some taken } }
    have stepped : tasks.step codec (.stack (.take iteration)) =
        some (after, ()) :=
      step_of_take alive clock fetched rfl rfl takes
    have stillHolds : after.endpoint = some (.forwarding datagram) := holds
    have stillAlive : after.clients.stack = some taken := rfl
    have room : ¬after.inbound.Full := Channel.not_full_of_receive received
    exact (returnsUnaided_of_room stillAlive serverGone stillHolds
      room).of_reaches (.of_step permitted stepped)
        fun serves => absurd serves busy
  · have receives : tasks.receivesEnd iteration = true := by
      simp [receivesEnd, iteration, Iteration.plain, EndpointTasks.fetch,
        received]
    have stepped := step_of_exit alive idle clock admitted rfl receives
      ends
    have permitted : Unaided (.stack (.exit iteration)) := trivial
    exact ⟨_, _, .of_step permitted stepped, rfl,
      fun serves => absurd serves busy⟩

theorem returnsUnaided_of_not_wedged
    (alive : tasks.clients.stack = some task)
    (serverGone : tasks.server = none) (free : ¬tasks.Wedged) :
    ReturnsUnaided codec tasks := by
  by_cases holds : ∃ datagram, tasks.endpoint = some (.forwarding datagram)
  · rcases holds with ⟨datagram, holds⟩
    by_cases full : tasks.inbound.Full
    · have room : packetsLeft task ≤ tasks.outbound.room := by
        by_contra less
        exact free ⟨⟨datagram, holds⟩, full, task, alive,
          Nat.lt_of_not_le less⟩
      rcases exists_idle_of_room codec alive (fun _ _ => serverGone)
          (by rw [holds]; exact Option.some_ne_none _) room with
        ⟨after, idle, proceeds, isIdle⟩
      refine proceeds.returnsUnaided (returnsUnaided_of_full
        proceeds.stack (proceeds.server.trans serverGone)
        (proceeds.endpoint.trans holds) ?_ isIdle)
      rw [proceeds.inbound]
      exact full
    · exact returnsUnaided_of_room alive serverGone holds full
  · have closing : Closing tasks task :=
      ⟨alive, serverGone, fun datagram isHeld => holds ⟨datagram, isHeld⟩⟩
    exact closing.returnsUnaided

end Step

/-! ## Runs -/

section Run

variable {codec : Codec} {history : List TasksTransition}
  {tasks : AllTasks}

/--
Once the server is gone, `CoapStack::shutdown` can return without any help
from outside exactly if the tasks are not wedged, and then with `Ok` if the
endpoint serves the stack.  While they are wedged it does not return whatever
anybody does.
-/
theorem shutdown_returns_iff_not_wedged
    (run : TasksRun codec history tasks)
    (serverGone : tasks.server = none) :
    (¬tasks.Wedged →
        ∃ final result,
          (tasksMachine codec).Reaches Unaided tasks final ∧
            final.shutdown = some result ∧
              (tasks.clients.stack ≠ none → tasks.EndpointServes →
                result = .ok ())) ∧
      (tasks.Wedged →
        ∀ final, (tasksMachine codec).Reaches (fun _ => True) tasks final →
          final.shutdown = none) := by
  constructor
  · intro free
    cases alive : tasks.clients.stack with
    | some task =>
        rcases returnsUnaided_of_not_wedged alive serverGone free with
          ⟨final, result, reaches, returned, isOk⟩
        exact ⟨final, result, reaches, returned, fun _ => isOk⟩
    | none =>
        have returned : tasks.shutdown ≠ none := fun waits =>
          (shutdown_eq_none_iff_of_run run).mp waits alive
        rcases Option.ne_none_iff_exists'.mp returned with
          ⟨result, isResult⟩
        exact ⟨tasks, result, .refl tasks, isResult,
          fun isAlive => absurd rfl isAlive⟩
  · intro wedged final reaches
    have still : final.Wedged := reaches.invariant Wedged
      (fun _ _ _ _ _ wedged stepped =>
        wedged_of_moveStep wedged (step_cases stepped)) wedged
    rcases run.exists_of_reaches reaches with ⟨longer, further⟩
    rcases still.stack with ⟨task, alive, _⟩
    refine (shutdown_eq_none_iff_of_run further).mpr ?_
    rw [alive]
    exact Option.some_ne_none _

end Run

open Coapable.BareCodec in
/-- An owner that drops the server while an answer waits gets its `Ok`; one
that drops it in a flood of pings may wait forever. -/
theorem shutdown_returns_iff_not_wedged_on_answer_and_flood :
    (∃ (history : List TasksTransition) (tasks final : AllTasks),
      TasksRun bareCodec history tasks ∧
        tasks.responses.items.length = 1 ∧ tasks.server = none ∧
        (tasksMachine bareCodec).Reaches Unaided tasks final ∧
          final.shutdown = some (.ok ())) ∧
      ∃ (history : List TasksTransition) (tasks : AllTasks),
        TasksRun bareCodec history tasks ∧ tasks.server = none ∧
          ∀ final,
            (tasksMachine bareCodec).Reaches (fun _ => True) tasks final →
              final.shutdown = none := by
  constructor
  · rcases exists_run_of_replay (AllTasks.initial_start bareCodec 0)
        (serveAndDrop.take 10)
        (fun _ tasks => decide (tasks.responses.items.length = 1 ∧
          tasks.server = none ∧ tasks.endpoint = some .polling ∧
            tasks.clients.stack.isSome = true))
        (by decide) with
      ⟨history, tasks, run, checked⟩
    rcases of_decide_eq_true checked with
      ⟨waits, serverGone, polls, alive⟩
    have free : ¬tasks.Wedged := by
      rintro ⟨⟨_, holds⟩, _, _⟩
      cases polls.symm.trans holds
    rcases (shutdown_returns_iff_not_wedged run serverGone).1 free with
      ⟨final, result, reaches, returned, isOk⟩
    rw [isOk (Option.isSome_iff_ne_none.mp alive) (.inl polls)] at returned
    exact ⟨history, tasks, final, run, waits, serverGone, reaches,
      returned⟩
  · rcases exists_run_of_replay (AllTasks.initial_start bareCodec 0)
        (pingFlood ++ [.server .drop])
        (fun _ tasks => tasks.server.isNone && floodedBy tasks)
        (by decide +kernel) with
      ⟨history, tasks, run, checked⟩
    rw [Bool.and_eq_true, Option.isNone_iff_eq_none] at checked
    rcases checked with ⟨serverGone, flooded⟩
    have wedged := wedged_of_flooded flooded
    exact ⟨history, tasks, run, serverGone,
      (shutdown_returns_iff_not_wedged run serverGone).2 wedged⟩

end Coapable.Tasks.AllTasks
