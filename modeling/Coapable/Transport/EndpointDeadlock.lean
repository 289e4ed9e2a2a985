import Coapable.BareCodec
import Coapable.Transport.EndpointTasks

/-!
# When the endpoint and the stack wait for each other

An endpoint task that never takes a datagram while the inbound channel is
full never waits in `inbound_sender.send`, so the two tasks never wait for
each other.  One that does take such a datagram waits until the stack
receives, and the stack may fill the outbound channel first: it then waits
for the endpoint in turn.
-/

namespace Coapable.Transport.EndpointTasks

open Coapable.BareCodec
open Coapable.CoapLite
open Coapable.Foundation
open Coapable.Foundation.Execution
open Coapable.MessageTypes

variable {codec : Codec} {tasks after : EndpointTasks}
  {history : List EndpointTransition}

/-! ## The endpoint task -/

/-- The endpoint takes a datagram. -/
def Move.isReceive : Move → Bool
  | .receive _ _ => true
  | _ => false

/-- The endpoint does not take a datagram while the inbound channel is
full. -/
def ReceivesWithRoom (transition : EndpointTransition) : Prop :=
  transition.input.isReceive = true → ¬transition.before.inbound.Full

instance (transition : EndpointTransition) :
    Decidable (ReceivesWithRoom transition) :=
  inferInstanceAs (Decidable (_ → _))

/-- The endpoint comes to wait exactly by taking a datagram that the inbound
channel has no room for. -/
theorem not_endpointBlocked_iff
    {move : Move} {output : Unit}
    (stepped : tasks.step codec move = some (after, output))
    (free : ¬tasks.EndpointBlocked) :
    ¬after.EndpointBlocked ↔
      ReceivesWithRoom ⟨tasks, move, output, after⟩ := by
  cases step_cases stepped with
  | received held =>
      simp [EndpointBlocked, ReceivesWithRoom, Move.isReceive]
  | forwarded held sent =>
      simp [EndpointBlocked, ReceivesWithRoom, Move.isReceive]
  | transmitted held received =>
      simp [EndpointBlocked, ReceivesWithRoom, Move.isReceive, held]
  | taken fetched taken =>
      refine iff_of_true ?_ (by simp [ReceivesWithRoom, Move.isReceive])
      rintro ⟨held, full⟩
      rcases not_full_of_fetch fetched with same | room
      · subst same
        exact free ⟨held, full⟩
      · exact room full
  | sent awaits sent =>
      exact iff_of_true free (by simp [ReceivesWithRoom, Move.isReceive])
  | performed awaits elsewhere =>
      exact iff_of_true free (by simp [ReceivesWithRoom, Move.isReceive])

/-! ## The stack task while the endpoint waits -/

/-- The moves other than taking one more datagram from the network. -/
def Quiet (move : Move) : Prop :=
  move.isReceive = false

/-- The tasks may come to wait for each other with no further datagram from
the network. -/
def CanDeadlock (codec : Codec) (tasks : EndpointTasks) : Prop :=
  ∃ final, (endpointMachine codec).Reaches Quiet tasks final ∧
    final.Deadlocked

/-- What the stack does when the send it stands at completes. -/
structure Performed (tasks after : EndpointTasks) (effect : Effect) :
    Prop where
  inHand : after.inHand = tasks.inHand
  inbound : after.inbound = tasks.inbound
  stack : after.stack = tasks.stack.proceed
  room : after.outbound.room + (if effect.isSendPacket then 1 else 0) =
    tasks.outbound.room

theorem Performed.endpointBlocked
    {effect : Effect} (performed : Performed tasks after effect)
    (blocked : tasks.EndpointBlocked) :
    after.EndpointBlocked := by
  rcases performed with ⟨inHand, inbound, _, _⟩
  simpa only [EndpointBlocked, inHand, inbound] using blocked

theorem stackBlocked_or_performs
    (codec : Codec) {effect : Effect}
    (awaits : tasks.stack.awaited = some effect) :
    tasks.StackBlocked ∨
      ∃ after,
        (endpointMachine codec).Reaches Quiet tasks after ∧
          Performed tasks after effect := by
  have reaches {after : EndpointTasks}
      (stepped : step codec tasks .perform = some (after, ())) :
      (endpointMachine codec).Reaches Quiet tasks after :=
    .of_step (show Quiet .perform from rfl) stepped
  cases effect with
  | sendPacket packet peer =>
      by_cases full : tasks.outbound.Full
      · exact .inl ⟨⟨packet, peer, awaits⟩, full⟩
      · rcases Channel.exists_send full (packet, peer) with
          ⟨outbound, sent⟩
        refine .inr ⟨{ tasks with
          outbound := outbound
          stack := tasks.stack.proceed }, reaches ?_, rfl, rfl, rfl,
          Channel.room_of_send sent⟩
        simp only [step, awaits, sent, Option.map_some]
  | sendRequest request =>
      refine .inr ⟨{ tasks with stack := tasks.stack.proceed },
        reaches ?_, rfl, rfl, rfl, rfl⟩
      simp only [step, awaits]
  | deliver delivery =>
      refine .inr ⟨{ tasks with stack := tasks.stack.proceed },
        reaches ?_, rfl, rfl, rfl, rfl⟩
      simp only [step, awaits]

/-- The stack gets to the end of its body, or to a send that waits. -/
theorem exists_body_finished
    (codec : Codec) (blocked : tasks.EndpointBlocked) :
    ∃ after, (endpointMachine codec).Reaches Quiet tasks after ∧
      (after.EndpointBlocked ∧
        after.outbound.room ≤ tasks.outbound.room) ∧
      (after.StackBlocked ∨ after.stack.pending = []) := by
  let progressed (next : EndpointTasks) : Prop :=
    next.EndpointBlocked ∧ next.outbound.room ≤ tasks.outbound.room
  apply Machine.exists_reaches_of_progress progressed
    (fun next => progressed next ∧
      (next.StackBlocked ∨ next.stack.pending = []))
    (fun next => next.stack.pending.length)
  · rintro state ⟨still, room⟩
    cases waiting : state.stack.awaited with
    | none =>
        have idle := state.stack.awaited_eq_none_iff.mp waiting
        exact ⟨state, .refl state, .inl ⟨⟨still, room⟩, .inr idle⟩⟩
    | some effect =>
        rcases stackBlocked_or_performs codec waiting with
          waits | ⟨next, reaches, performed⟩
        · exact ⟨state, .refl state, .inl ⟨⟨still, room⟩, .inl waits⟩⟩
        · have shrinks := performed.room
          refine ⟨next, reaches, .inr ⟨⟨performed.endpointBlocked still,
            by omega⟩, ?_⟩⟩
          rw [performed.stack, StackTask.pending_of_awaited waiting]
          exact Nat.lt_succ_self _
  · exact ⟨blocked, le_rfl⟩

/-- Between two iterations the stack can take a client request, whose packet
it then has to send. -/
theorem exists_request_taken
    {request : CoapRequest} (encodable : Encodable codec request)
    (idle : tasks.stack.pending = []) :
    ∃ stack packet peer,
      (endpointMachine codec).Reaches Quiet tasks
        { tasks with stack := stack } ∧
      stack.awaited = some (.sendPacket packet peer) := by
  let peer := SocketAddr.loopback 5683
  rcases StackTask.exists_take_request encodable idle peer with
    ⟨stack, packet, taken, pending⟩
  let move := Move.take (tasks.stack.loop.nextRequest request peer)
  have stepped :
      step codec tasks move = some ({ tasks with stack := stack }, ()) := by
    have fetched : fetch tasks.inbound
        (tasks.stack.loop.nextRequest request peer).branch =
          some tasks.inbound := rfl
    simp only [step, move, fetched, taken, Option.map_some]
  refine ⟨stack, packet, peer,
    .of_step (show Quiet move from rfl) stepped, ?_⟩
  simp only [StackTask.awaited, pending, List.head?_cons]

/-- While the endpoint waits, client requests alone fill the outbound
channel. -/
theorem canDeadlock_of_endpointBlocked
    {request : CoapRequest} (encodable : Encodable codec request)
    (blocked : tasks.EndpointBlocked) :
    CanDeadlock codec tasks := by
  apply Machine.exists_reaches_of_progress EndpointBlocked Deadlocked
    (fun state => state.outbound.room) _ blocked
  intro state blocked
  rcases exists_body_finished codec blocked with
    ⟨between, first, ⟨still, room⟩, waits | idle⟩
  · exact ⟨between, first, .inl ⟨still, waits⟩⟩
  · rcases exists_request_taken encodable idle with
      ⟨stack, packet, peer, second, awaits⟩
    have sends :
        ({ between with stack := stack } :
          EndpointTasks).stack.awaited =
            some (.sendPacket packet peer) := awaits
    rcases stackBlocked_or_performs codec sends with
      waits | ⟨next, third, performed⟩
    · exact ⟨_, first.trans second, .inl ⟨still, waits⟩⟩
    · have shrinks : next.outbound.room + 1 = between.outbound.room :=
        performed.room
      exact ⟨next, (first.trans second).trans third,
        .inr ⟨performed.endpointBlocked still, by omega⟩⟩

/-- With no further datagram the tasks can deadlock exactly if the endpoint
waits already. -/
theorem canDeadlock_iff_endpointBlocked
    {request : CoapRequest} (encodable : Encodable codec request) :
    CanDeadlock codec tasks ↔ tasks.EndpointBlocked := by
  refine ⟨?_, canDeadlock_of_endpointBlocked encodable⟩
  rintro ⟨final, reaches, deadlocked⟩
  by_contra free
  refine reaches.invariant (fun tasks => ¬tasks.EndpointBlocked) ?_ free
    deadlocked.1
  intro before after move output quiet notYet stepped
  refine (not_endpointBlocked_iff stepped notYet).mpr ?_
  intro receives
  exact absurd (receives.symm.trans quiet) (by decide)

/-! ## Runs -/

theorem not_endpointBlocked_start
    (initial : (endpointMachine codec).Initial tasks) :
    ¬tasks.EndpointBlocked := by
  rcases initial with ⟨now, rfl⟩
  rintro ⟨held, _⟩
  cases held

/-- Along a run the endpoint never waits exactly if it takes every datagram
while there is room for it. -/
theorem never_endpointBlocked_iff
    (run : Run (endpointMachine codec) history tasks) :
    Along (fun _ transition => ¬transition.after.EndpointBlocked) history ↔
      Along (fun _ transition => ReceivesWithRoom transition) history := by
  exact Run.along_after_iff (fun _ => not_endpointBlocked_start)
    (fun _ _ _ _ _ _ free stepped =>
      not_endpointBlocked_iff stepped free) run

/-- While the endpoint takes a datagram only when the inbound channel has
room for it, the two tasks never wait for each other; and exactly then no
state of the run lets the stack bring such a deadlock about. -/
theorem never_deadlocked_while_received_with_room
    (run : Run (endpointMachine codec) history tasks) :
    (Along (fun _ transition => ReceivesWithRoom transition) history →
      ¬tasks.Deadlocked) ∧
    ∀ request, Encodable codec request →
      (Along (fun _ transition =>
          ¬CanDeadlock codec transition.after) history ↔
        Along (fun _ transition => ReceivesWithRoom transition)
          history) := by
  constructor
  · intro roomy deadlocked
    have free : ¬tasks.EndpointBlocked :=
      run.of_along_after (fun tasks => ¬tasks.EndpointBlocked)
        (fun _ => not_endpointBlocked_start)
        ((never_endpointBlocked_iff run).mpr roomy)
    exact free deadlocked.1
  · intro request encodable
    rw [← never_endpointBlocked_iff run]
    exact along_congr fun transition older _ =>
      not_congr (canDeadlock_iff_endpointBlocked encodable)

/-- A CON GET without options. -/
def bareGet : CoapRequest :=
  ⟨.get, "", [], none, [], none, true⟩

theorem bareGet_encodable : Encodable bareCodec bareGet := by
  intro counter mid
  rfl

/-- A datagram waits in the inbound channel and another in the hand of the
endpoint while the stack sends a GET. -/
def pingMoves : List Move :=
  let ping : Bytes := [0x40, 0, 0, 7]
  [.receive ping (.loopback 5683), .forward,
    .receive ping (.loopback 5683),
    .take (.plain (fromSecs 1)
      (.outboundRequest (some ⟨bareGet, .loopback 5683, ⟨0⟩⟩))),
    .perform]

theorem never_deadlocked_while_received_with_room_on_ping :
    ∃ history tasks, Run (endpointMachine bareCodec) history tasks ∧
      (tasks.inHand.isSome = true ∧ tasks.inbound.items.length = 1 ∧
        tasks.outbound.items.length = 1) ∧
      ¬tasks.Deadlocked ∧
      Along (fun _ transition =>
        ¬CanDeadlock bareCodec transition.after) history := by
  rcases exists_run_of_replay (initial_start bareCodec 0) pingMoves
      (fun history tasks =>
        decide (tasks.inHand.isSome = true ∧
          tasks.inbound.items.length = 1 ∧
          tasks.outbound.items.length = 1) &&
        decide (Along (fun _ transition => ReceivesWithRoom transition)
          history))
      (by decide) with
    ⟨history, tasks, run, checked⟩
  rw [Bool.and_eq_true, decide_eq_true_eq, decide_eq_true_eq] at checked
  rcases checked with ⟨carries, roomy⟩
  exact ⟨history, tasks, run, carries,
    (never_deadlocked_while_received_with_room run).1 roomy,
    ((never_deadlocked_while_received_with_room run).2 bareGet
      bareGet_encodable).mpr roomy⟩

/-! ## A deadlock -/

/-- Datagrams from the network alone make the endpoint wait while the stack
does not receive. -/
theorem exists_endpointBlocked
    (codec : Codec) (free : tasks.inHand = none) :
    ∃ after,
      (endpointMachine codec).Reaches (fun _ => True) tasks after ∧
        after.EndpointBlocked := by
  apply Machine.exists_reaches_of_progress
    (fun state => state.inHand = none) EndpointBlocked
    (fun state => state.inbound.room) _ free
  intro state free
  let datagram : Bytes := [0x40, 0, 0, 7]
  let peer := SocketAddr.loopback 5683
  let holding := { state with
    inHand := some (datagram.take receiveBuffer, peer) }
  have received :
      (endpointMachine codec).step state (.receive datagram peer) =
        some (holding, ()) := by
    show step codec state (.receive datagram peer) = _
    simp only [step, free, holding]
  have first : (endpointMachine codec).Reaches (fun _ => True) state
      holding := .of_step trivial received
  by_cases full : state.inbound.Full
  · exact ⟨holding, first, .inl ⟨rfl, full⟩⟩
  · rcases Channel.exists_send full
        (datagram.take receiveBuffer, peer) with ⟨inbound, sent⟩
    let forwarded := { state with inHand := none, inbound := inbound }
    have moved :
        (endpointMachine codec).step holding .forward =
          some (forwarded, ()) := by
      show step codec holding .forward = _
      simp only [step, holding, sent, Option.map_some, forwarded]
    have shrinks := Channel.room_of_send sent
    exact ⟨forwarded, first.trans (.of_step trivial moved),
      .inr ⟨rfl, by show inbound.room < state.inbound.room; omega⟩⟩

/-- One hundred and one datagrams, then one hundred and one client
requests. -/
theorem endpoint_and_stack_can_deadlock :
    ¬∀ history tasks, Run (endpointMachine bareCodec) history tasks →
      ¬tasks.Deadlocked := by
  intro never
  let tasks := EndpointTasks.start 0
  rcases exists_endpointBlocked bareCodec
      (show tasks.inHand = none from rfl) with
    ⟨between, first, blocked⟩
  rcases canDeadlock_of_endpointBlocked bareGet_encodable blocked with
    ⟨final, second, deadlocked⟩
  rcases (first.trans (second.mono fun _ _ => trivial)).exists_run
      (initial_start bareCodec 0) with ⟨history, run⟩
  exact never history final run deadlocked

end Coapable.Transport.EndpointTasks
