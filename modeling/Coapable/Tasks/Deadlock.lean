import Coapable.Server.WindingUp
import Coapable.Tasks.Shutdown

/-!
# Which tasks wait for each other

Five channels join the tasks, and each of them can be full.  Still the stack
can get back to its `select!`, or to its end, unless it and the endpoint wait
for each other or it and the server do: no task waits in a ring of three.
Which of the two it is can be told from the state, also before the stack comes
to the send at which it waits forever.
-/

namespace Coapable.Tasks.AllTasks

open Coapable.Client
open Coapable.CoapLite
open Coapable.Foundation
open Coapable.Foundation.Execution
open Coapable.MessageTypes
open Coapable.Server
open Coapable.Transport

/-- The packets that the current body still has to send. -/
def packetsLeft (task : StackTask) : Nat :=
  task.pending.countP Effect.isSendPacket

/-- The endpoint waits for the stack, and the stack will wait for the
endpoint before its body is done. -/
structure Wedged (tasks : AllTasks) : Prop where
  endpoint : ∃ datagram, tasks.endpoint = some (.forwarding datagram)
  inbound : tasks.inbound.Full
  stack : ∃ task, tasks.clients.stack = some task ∧
    tasks.outbound.room < packetsLeft task

/-! ## Stack and endpoint -/

section Wedged

variable {codec : Codec} {tasks after : AllTasks}

theorem packetsLeft_of_awaited
    {task : StackTask} {effect : Effect}
    (awaits : task.awaited = some effect) :
    packetsLeft task =
      packetsLeft task.proceed +
        (if effect.isSendPacket then 1 else 0) := by
  rw [packetsLeft, StackTask.pending_of_awaited awaits, List.countP_cons,
    packetsLeft]

/-- The stack of wedged tasks does not get to its `select!`. -/
theorem Wedged.busy
    (wedged : tasks.Wedged) {task : StackTask}
    (alive : tasks.clients.stack = some task) : task.pending ≠ [] := by
  rcases wedged.stack with ⟨other, isOther, waits⟩
  cases alive.symm.trans isOther
  intro idle
  rw [packetsLeft, idle] at waits
  cases waits

theorem wedged_of_endpointStep
    {move : EndpointMove} (wedged : tasks.Wedged)
    (step : EndpointStep tasks move after) : after.Wedged := by
  rcases wedged.endpoint with ⟨datagram, holds⟩
  rcases wedged.stack with ⟨task, alive, _⟩
  cases step with
  | received polls | transmitted polls | closed polls | failed polls =>
      cases polls.symm.trans holds
  | forwarded _ _ sent =>
      exact absurd wedged.inbound (Channel.send_eq_some sent).1
  | lost _ stackGone => cases stackGone.symm.trans alive

/-- The stack sends some of its packets at most. -/
theorem wedged_of_stackStep
    {move : StackMove} (wedged : tasks.Wedged)
    (step : StackStep codec tasks move after) : after.Wedged := by
  rcases wedged with ⟨endpoint, inbound, task, alive, waits⟩
  have proceeds {effect : Effect} {clients : ClientTasks}
      {outbound : Channel Datagram channelCapacity}
      {dispatched : Channel ServerRequest channelCapacity}
      (awaits : task.awaited = some effect)
      (room : outbound.room + (if effect.isSendPacket then 1 else 0) =
        tasks.outbound.room)
      (stepped : tasks.clients.step codec .perform =
        some (clients, ())) :
      Wedged { tasks with
        outbound := outbound
        dispatched := dispatched
        clients := clients } := by
    refine ⟨endpoint, inbound, task.proceed,
      stack_of_perform alive stepped, ?_⟩
    rw [packetsLeft_of_awaited awaits, ← room] at waits
    exact Nat.lt_of_add_lt_add_right waits
  cases step with
  | taken _ _ stepped =>
      rcases stack_of_take stepped with ⟨_, _, wasAlive, takes, _⟩
      exact absurd (StackTask.pending_of_take takes)
        (Wedged.busy ⟨endpoint, inbound, task, alive, waits⟩ wasAlive)
  | sent wasAlive awaits _ sent stepped =>
      cases alive.symm.trans wasAlive
      exact proceeds awaits (Channel.room_of_send sent) stepped
  | dispatched wasAlive awaits _ _ stepped
  | unheard wasAlive awaits _ stepped
  | delivered wasAlive awaits stepped =>
      cases alive.symm.trans wasAlive
      exact proceeds awaits rfl stepped
  | exited _ _ stepped =>
      cases ClientTasks.step_cases stepped with
      | exited wasAlive _ idle =>
          exact absurd idle
            (Wedged.busy ⟨endpoint, inbound, task, alive, waits⟩ wasAlive)
  | failed endpointGone _ =>
      rcases endpoint with ⟨_, holds⟩
      cases endpointGone.symm.trans holds

/-- No move of anybody helps wedged tasks. -/
theorem wedged_of_moveStep
    {move : Move} (wedged : tasks.Wedged)
    (step : MoveStep codec tasks move after) : after.Wedged := by
  cases step with
  | endpoint step => exact wedged_of_endpointStep wedged step
  | stack step => exact wedged_of_stackStep wedged step
  | server step =>
      rcases wedged with ⟨endpoint, inbound, stack⟩
      cases step <;> exact ⟨endpoint, inbound, stack⟩
  | caller step =>
      have same := stack_of_caller step
      rcases wedged with ⟨endpoint, inbound, task, alive, waits⟩
      have isAlive := same.trans alive
      cases step <;> exact ⟨endpoint, inbound, task, isAlive, waits⟩

end Wedged

/-! ## Stack and server -/

/-- The stack and the server wait for each other. -/
def ServerDeadlocked (tasks : AllTasks) : Prop :=
  ∃ pair ∈ tasks.serverTasks?, pair.Deadlocked

section ServerDeadlocked

variable {codec : Codec} {tasks after : AllTasks}

end ServerDeadlocked

/-! ## The body of the stack -/

/-- The moves of the stack, and of the endpoint without the socket's help. -/
def Unaided : Move → Prop
  | .endpoint .forward | .endpoint .transmit | .stack _ => True
  | _ => False

/-- The body does not wait for the server. -/
def Unheard (tasks : AllTasks) (task : StackTask) : Prop :=
  ∀ request, .sendRequest request ∈ task.pending → tasks.server = none

section Body

variable {codec : Codec} {tasks after : AllTasks} {task : StackTask}

theorem exists_clients_perform
    (codec : Codec) {effect : Effect}
    (alive : tasks.clients.stack = some task)
    (awaits : task.awaited = some effect) :
    ∃ moved, tasks.clients.step codec .perform = some (moved, ()) ∧
      moved.stack = some task.proceed := by
  refine ⟨{ tasks.clients with
    results := tasks.clients.results ++ effect.delivery?.toList
    stack := some task.proceed }, ?_, rfl⟩
  simp only [ClientTasks.step, alive, awaits, Option.map_some]

/-- A send of the stack that does not wait leaves the rest alone. -/
structure Proceeds (codec : Codec) (tasks after : AllTasks)
    (task : StackTask) : Prop where
  reaches : (tasksMachine codec).Reaches Unaided tasks after
  stack : after.clients.stack = some task
  server : after.server = tasks.server
  endpoint : after.endpoint = tasks.endpoint
  inbound : after.inbound = tasks.inbound
  responses : after.responses = tasks.responses

theorem Proceeds.trans
    {last : AllTasks} {middle : StackTask}
    (first : Proceeds codec tasks after middle)
    (second : Proceeds codec after last task) :
    Proceeds codec tasks last task where
  reaches := first.reaches.trans second.reaches
  stack := second.stack
  server := second.server.trans first.server
  endpoint := second.endpoint.trans first.endpoint
  inbound := second.inbound.trans first.inbound
  responses := second.responses.trans first.responses

theorem Proceeds.unheard
    {earlier : StackTask}
    (proceeds : Proceeds codec tasks after task)
    (fewer : task.pending ⊆ earlier.pending)
    (unheard : Unheard tasks earlier) : Unheard after task := by
  intro request member
  rw [proceeds.server]
  exact unheard request (fewer member)

/-- A packet is sent if there is room. -/
theorem exists_sent
    (codec : Codec) {packet : Bytes} {peer : SocketAddr}
    (alive : tasks.clients.stack = some task)
    (awaits : task.awaited = some (.sendPacket packet peer))
    (endpointAlive : tasks.endpoint ≠ none)
    (room : ¬tasks.outbound.Full) :
    ∃ after, Proceeds codec tasks after task.proceed ∧
      after.outbound.room + 1 = tasks.outbound.room := by
  rcases exists_clients_perform codec alive awaits with
    ⟨moved, stepped, proceeds⟩
  rcases Channel.exists_send room (packet, peer) with ⟨outbound, sent⟩
  have done : tasks.step codec (.stack .perform) =
      some ({ tasks with outbound := outbound, clients := moved },
        ()) := by
    simp only [step, stackStep, alive, Option.bind_some, awaits, stepped,
      Option.isSome_iff_ne_none.mpr endpointAlive, if_true, sent,
      Option.map_some]
  exact ⟨_,
    ⟨.of_step (show Unaided (.stack .perform) from trivial) done,
      proceeds, rfl, rfl, rfl, rfl⟩,
    Channel.room_of_send sent⟩

theorem mem_pending_of_awaited
    {effect : Effect} (awaits : task.awaited = some effect) :
    effect ∈ task.pending := by
  rw [StackTask.pending_of_awaited awaits]
  exact List.mem_cons_self

/-- All other sends are done at once. -/
theorem exists_performed
    (codec : Codec) {effect : Effect}
    (alive : tasks.clients.stack = some task)
    (unheard : Unheard tasks task)
    (awaits : task.awaited = some effect)
    (elsewhere : effect.isSendPacket = false) :
    ∃ after, Proceeds codec tasks after task.proceed ∧
      after.outbound = tasks.outbound := by
  rcases exists_clients_perform codec alive awaits with
    ⟨moved, stepped, proceeds⟩
  have done : tasks.step codec (.stack .perform) =
      some ({ tasks with clients := moved }, ()) := by
    cases effect with
    | sendPacket _ _ => cases elsewhere
    | deliver _ => simp [step, stackStep, alive, awaits, stepped]
    | sendRequest request =>
        have serverGone := unheard request (mem_pending_of_awaited awaits)
        simp [step, stackStep, alive, awaits, stepped, serverGone]
  exact ⟨_,
    ⟨.of_step (show Unaided (.stack .perform) from trivial) done,
      proceeds, rfl, rfl, rfl, rfl⟩,
    rfl⟩

/-- The endpoint makes room. -/
theorem exists_room
    (codec : Codec) (alive : tasks.clients.stack = some task)
    (polls : tasks.endpoint = some .polling) :
    ∃ after, Proceeds codec tasks after task ∧ ¬after.outbound.Full := by
  by_cases full : tasks.outbound.Full
  · rcases Channel.exists_receive_of_full (by decide) full with
      ⟨datagram, outbound, received⟩
    have stepped : tasks.step codec (.endpoint .transmit) =
        some ({ tasks with outbound := outbound }, ()) := by
      simp only [step, endpointStep, polls, received, Option.map_some]
    exact ⟨_,
      ⟨.of_step (show Unaided (.endpoint .transmit) from trivial) stepped,
        alive, rfl, rfl, rfl, rfl⟩,
      Channel.not_full_of_receive received⟩
  · exact ⟨tasks, ⟨.refl tasks, alive, rfl, rfl, rfl, rfl⟩, full⟩

/-- The endpoint is gone, and a packet that the stack still has to send ends
it. -/
def FailsUnaided (codec : Codec) (tasks : AllTasks) : Prop :=
  tasks.endpoint = none ∧
    ∃ final, (tasksMachine codec).Reaches Unaided tasks final ∧
      final.shutdown = some (.error .send)

theorem failsUnaided_of_packet
    {packet : Bytes} {peer : SocketAddr}
    (alive : tasks.clients.stack = some task)
    (awaits : task.awaited = some (.sendPacket packet peer))
    (endpointGone : tasks.endpoint = none) :
    FailsUnaided codec tasks := by
  have failed : tasks.clients.step codec .fail =
      some (tasks.clients.ended tasks.clients.clock, ()) := by
    simp only [ClientTasks.step, alive, awaits, Option.map_some,
      Effect.isSendPacket, Option.getD_some, if_true]
  have stepped : tasks.step codec (.stack .fail) =
      some (tasks.stackEnded
        (tasks.clients.ended tasks.clients.clock)
        (.returned (.error .send)), ()) := by
    simp only [step, stackStep, endpointGone, failed, Option.map_some]
  exact ⟨endpointGone, _,
    .of_step (show Unaided (.stack .fail) from trivial) stepped, rfl⟩

theorem Proceeds.failsUnaided
    (proceeds : Proceeds codec tasks after task)
    (fails : FailsUnaided codec after) : FailsUnaided codec tasks := by
  rcases fails with ⟨gone, final, further, returned⟩
  exact ⟨proceeds.endpoint ▸ gone, final, proceeds.reaches.trans further,
    returned⟩

/-- The send at which the stack stands can be done, or ends the stack. -/
theorem fails_or_proceeds
    (alive : tasks.clients.stack = some task)
    (unheard : Unheard tasks task)
    (free : ∀ datagram, tasks.endpoint ≠ some (.forwarding datagram))
    {effect : Effect} (awaits : task.awaited = some effect) :
    FailsUnaided codec tasks ∨
      ∃ after, Proceeds codec tasks after task.proceed := by
  by_cases isPacket : effect.isSendPacket = true
  · cases effect with
    | sendRequest _ | deliver _ => cases isPacket
    | sendPacket packet peer =>
        cases endpoint : tasks.endpoint with
        | none =>
            exact .inl (failsUnaided_of_packet alive awaits endpoint)
        | some task =>
            cases task with
            | forwarding datagram =>
                exact absurd endpoint (free datagram)
            | polling =>
                rcases exists_room codec alive endpoint with
                  ⟨roomy, makesRoom, room⟩
                rcases exists_sent codec makesRoom.stack awaits
                    (by rw [makesRoom.endpoint, endpoint]; nofun) room with
                  ⟨after, sends, _⟩
                exact .inr ⟨after, makesRoom.trans sends⟩
  · rcases exists_performed codec alive unheard awaits
        (Bool.eq_false_of_not_eq_true isPacket) with ⟨after, proceeds, _⟩
    exact .inr ⟨after, proceeds⟩

/-- The current body can be done, or ends the stack. -/
theorem fails_or_idles
    (alive : tasks.clients.stack = some task)
    (unheard : Unheard tasks task)
    (free : ∀ datagram, tasks.endpoint ≠ some (.forwarding datagram)) :
    FailsUnaided codec tasks ∨
      ∃ after idle, Proceeds codec tasks after idle ∧
        idle.pending = [] := by
  induction left : task.pending generalizing tasks task with
  | nil =>
      exact .inr ⟨tasks, task,
        ⟨.refl tasks, alive, rfl, rfl, rfl, rfl⟩, left⟩
  | cons effect rest induction =>
      have awaits : task.awaited = some effect := by
        rw [StackTask.awaited, left, List.head?_cons]
      have fewer : task.proceed.pending = rest := by
        rw [StackTask.proceed, left, List.tail_cons]
      rcases fails_or_proceeds alive unheard free awaits with
        fails | ⟨after, proceeds⟩
      · exact .inl fails
      · rcases induction proceeds.stack
            (proceeds.unheard (List.tail_subset _) unheard)
            (by rw [proceeds.endpoint]; exact free) fewer with
          fails | ⟨final, idle, further, isIdle⟩
        · exact .inl (proceeds.failsUnaided fails)
        · exact .inr ⟨final, idle, proceeds.trans further, isIdle⟩

/-- The body of the stack can be done if the outbound channel has room for
all of its packets. -/
theorem exists_idle_of_room
    (codec : Codec) (alive : tasks.clients.stack = some task)
    (unheard : Unheard tasks task)
    (endpointAlive : tasks.endpoint ≠ none)
    (room : packetsLeft task ≤ tasks.outbound.room) :
    ∃ after idle, Proceeds codec tasks after idle ∧ idle.pending = [] := by
  induction left : task.pending generalizing tasks task with
  | nil =>
      exact ⟨tasks, task, ⟨.refl tasks, alive, rfl, rfl, rfl, rfl⟩, left⟩
  | cons effect rest induction =>
      have awaits : task.awaited = some effect := by
        rw [StackTask.awaited, left, List.head?_cons]
      have fewer : task.proceed.pending = rest := by
        rw [StackTask.proceed, left, List.tail_cons]
      rw [packetsLeft_of_awaited awaits] at room
      have proceeds : ∃ after, Proceeds codec tasks after task.proceed ∧
          packetsLeft task.proceed ≤ after.outbound.room := by
        by_cases isPacket : effect.isSendPacket = true
        · cases effect with
          | sendRequest _ | deliver _ => cases isPacket
          | sendPacket packet peer =>
              rw [if_pos isPacket] at room
              have notFull : ¬tasks.outbound.Full := by
                rw [Channel.not_full_iff]
                exact Nat.lt_of_sub_pos ((Nat.succ_pos _).trans_le room)
              rcases exists_sent codec alive awaits endpointAlive notFull
                with ⟨after, sends, less⟩
              rw [← less] at room
              exact ⟨after, sends, Nat.le_of_add_le_add_right room⟩
        · rcases exists_performed codec alive unheard awaits
              (Bool.eq_false_of_not_eq_true isPacket) with
            ⟨after, performs, same⟩
          rw [if_neg isPacket, ← same] at room
          exact ⟨after, performs, room⟩
      rcases proceeds with ⟨after, proceeds, stillRoom⟩
      rcases induction proceeds.stack
          (proceeds.unheard (List.tail_subset _) unheard)
          (by rw [proceeds.endpoint]; exact endpointAlive) stillRoom fewer
        with ⟨final, idle, further, isIdle⟩
      exact ⟨final, idle, proceeds.trans further, isIdle⟩

end Body

/-! ## Back to the `select!` -/

/-- The moves of the tasks with nothing from outside. -/
def Inside : Move → Prop
  | .server .receive | .server (.finish _) | .server .respond => True
  | move => Unaided move

section Back

variable {codec : Codec} {tasks after : AllTasks} {task : StackTask}

theorem exists_dispatched_of_room
    (codec : Codec) {request : ServerRequest}
    (alive : tasks.clients.stack = some task)
    (awaits : task.awaited = some (.sendRequest request))
    (serverAlive : tasks.server ≠ none)
    (room : ¬tasks.dispatched.Full) :
    ∃ after, (tasksMachine codec).Reaches Inside tasks after ∧
      after.clients.stack = some task.proceed := by
  rcases exists_clients_perform codec alive awaits with
    ⟨moved, stepped, proceeds⟩
  rcases Channel.exists_send room request with ⟨dispatched, sent⟩
  have done : tasks.step codec (.stack .perform) =
      some ({ tasks with dispatched := dispatched, clients := moved },
        ()) := by
    simp only [step, stackStep, alive, Option.bind_some, awaits, stepped,
      Option.isSome_iff_ne_none.mpr serverAlive, if_true, sent,
      Option.map_some]
  exact ⟨_, .of_step (show Inside (.stack .perform) from trivial) done,
    proceeds⟩

/-- A server that takes the next request makes room. -/
theorem exists_dispatched_of_receiving
    (codec : Codec) {request : ServerRequest}
    (alive : tasks.clients.stack = some task)
    (awaits : task.awaited = some (.sendRequest request))
    (receiving : tasks.server = some .receiving) :
    ∃ after, (tasksMachine codec).Reaches Inside tasks after ∧
      after.clients.stack = some task.proceed := by
  by_cases full : tasks.dispatched.Full
  · rcases Channel.exists_receive_of_full (by decide) full with
      ⟨oldest, dispatched, received⟩
    let taken : AllTasks := { tasks with
      server := some (.handling oldest)
      dispatched := dispatched }
    have stepped : tasks.step codec (.server .receive) =
        some (taken, ()) := by
      simp only [step, serverStep, receiving, received, Option.map_some,
        taken]
    have serverAlive : taken.server ≠ none := Option.some_ne_none _
    have room : ¬taken.dispatched.Full :=
      Channel.not_full_of_receive received
    have stillAlive : taken.clients.stack = some task := alive
    rcases exists_dispatched_of_room codec stillAlive awaits serverAlive
        room with ⟨after, reaches, proceeds⟩
    have first : (tasksMachine codec).Reaches Inside tasks taken :=
      .of_step (show Inside (.server .receive) from trivial) stepped
    exact ⟨after, first.trans reaches, proceeds⟩
  · have serverAlive : tasks.server ≠ none := by
      rw [receiving]
      exact Option.some_ne_none _
    exact exists_dispatched_of_room codec alive awaits serverAlive full

/-- A request can be dispatched unless stack and server wait for each
other. -/
theorem exists_dispatched
    (codec : Codec) {request : ServerRequest}
    (alive : tasks.clients.stack = some task)
    (awaits : task.awaited = some (.sendRequest request))
    (serverAlive : tasks.server ≠ none)
    (free : ¬tasks.ServerDeadlocked) :
    ∃ after, (tasksMachine codec).Reaches Inside tasks after ∧
      after.clients.stack = some task.proceed := by
  -- Whatever brings the server to `recv_request` is enough.
  have of_receiving {next : AllTasks} {move : Move}
      (permitted : Inside move)
      (stepped : tasks.step codec move = some (next, ()))
      (stack : next.clients.stack = some task)
      (receiving : next.server = some .receiving) :
      ∃ after, (tasksMachine codec).Reaches Inside tasks after ∧
        after.clients.stack = some task.proceed := by
    rcases exists_dispatched_of_receiving codec stack awaits receiving with
      ⟨after, reaches, proceeds⟩
    have first : (tasksMachine codec).Reaches Inside tasks next :=
      .of_step permitted stepped
    exact ⟨after, first.trans reaches, proceeds⟩
  cases server : tasks.server with
  | none => exact absurd server serverAlive
  | some state =>
      cases state with
      | receiving =>
          exact exists_dispatched_of_receiving codec alive awaits server
      | handling handled =>
          have stepped : tasks.step codec (.server (.finish none)) =
              some ({ tasks with server := some .receiving }, ()) := by
            simp only [step, serverStep, server, CoapServer.answer,
              Option.map_some]
          exact of_receiving
            (show Inside (.server (.finish none)) from trivial) stepped
            alive rfl
      | responding response =>
          by_cases full : tasks.dispatched.Full
          · by_cases responsesFull : tasks.responses.Full
            · refine absurd ?_ free
              have present := serverTasks?_eq_some_iff.mpr
                ⟨_, task, server, alive, rfl⟩
              exact ⟨_, present, ⟨⟨response, rfl⟩, responsesFull⟩,
                ⟨request, awaits⟩, full⟩
            · rcases Channel.exists_send responsesFull response with
                ⟨responses, sent⟩
              have stepped : tasks.step codec (.server .respond) =
                  some ({ tasks with
                    server := some .receiving
                    responses := responses }, ()) := by
                simp only [step, serverStep, server, alive, sent,
                  Option.map_some]
              exact of_receiving
                (show Inside (.server .respond) from trivial) stepped
                alive rfl
          · exact exists_dispatched_of_room codec alive awaits serverAlive
              full

/-! ### Any other body -/

/-- The endpoint hands its datagram over once the channel has room. -/
theorem exists_forwarded
    (codec : Codec) {datagram : Datagram}
    (alive : tasks.clients.stack = some task)
    (holds : tasks.endpoint = some (.forwarding datagram))
    (room : ¬tasks.inbound.Full) :
    ∃ after, tasks.step codec (.endpoint .forward) = some (after, ()) ∧
      after.endpoint = some .polling ∧ after.server = tasks.server ∧
        after.clients = tasks.clients := by
  rcases Channel.exists_send room datagram with ⟨inbound, sent⟩
  refine ⟨{ tasks with endpoint := some .polling, inbound := inbound },
    ?_, rfl, rfl, rfl⟩
  simp only [step, endpointStep, holds, alive, sent, Option.map_some]

end Back

/-! ## Runs -/

section Run

variable {codec : Codec} {history : List TasksTransition}
  {tasks : AllTasks}

end Run

/-- The header of a ping. -/
def barePing (mid : Nat) : Bytes := [0x40, 0, 0, mid.toUInt8]

/-- A ping that comes as far as the inbound channel. -/
def forwardPing (mid : Nat) : List Move :=
  [.endpoint (.receive (barePing mid) (.loopback 5000)),
    .endpoint .forward]

/-- The stack takes a ping, which it has to acknowledge. -/
def takePing (mid : Nat) : Move :=
  .stack (.take (.plain 0 (.inbound (barePing mid) (.loopback 5000))))

/-- So many pings that the acknowledgements fill the outbound channel, one
more that the stack cannot acknowledge, and as many as the inbound channel
and the endpoint hold. -/
def pingFlood : List Move :=
  ((List.range 100).flatMap fun mid =>
      forwardPing mid ++ [takePing mid, .stack .perform]) ++
    forwardPing 100 ++ [takePing 100] ++
    (List.range 100).flatMap (fun index => forwardPing (101 + index)) ++
    [.endpoint (.receive (barePing 201) (.loopback 5000))]

/-- The tasks after the flood, up to the server. -/
def floodedBy (tasks : AllTasks) : Bool :=
  decide (tasks.inbound.Full ∧
    tasks.endpoint =
      some (.forwarding (barePing 201, .loopback 5000))) &&
  tasks.clients.stack.any fun task =>
    decide (tasks.outbound.room < packetsLeft task)

theorem wedged_of_flooded
    {tasks : AllTasks} (flooded : floodedBy tasks = true) :
    tasks.Wedged := by
  rw [floodedBy, Bool.and_eq_true, decide_eq_true_eq, Option.any_eq_true]
    at flooded
  rcases flooded with ⟨⟨full, holds⟩, task, alive, less⟩
  exact ⟨⟨_, holds⟩, full, task, alive, of_decide_eq_true less⟩

end Coapable.Tasks.AllTasks
