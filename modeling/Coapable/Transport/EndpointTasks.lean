import Coapable.Foundation.Channel
import Coapable.Transport.StackTask

/-!
# The endpoint task and the stack task

The two tasks and the two bounded channels between them, as a machine whose
input says which task moves.  A task that waits inside the body of a branch
polls no other branch: an endpoint with a datagram in hand serves nothing but
the inbound channel, and a stack that sends serves nothing but the outbound
one.

Each task is the only consumer of the channel the other one may wait for.
The endpoint waits for the inbound channel exactly if it took a datagram
while that channel was full, and from then on some schedule of the stack ends
in a cyclic wait.
-/

namespace Coapable.Transport

open Coapable.CoapLite
open Coapable.Foundation
open Coapable.Foundation.Execution
open Coapable.MessageTypes

/-- A packet with its peer, as the channels of the endpoint carry it. -/
abbrev Datagram := Bytes × SocketAddr

/-- The endpoint task, the stack task and the two channels between them. -/
structure EndpointTasks where
  /-- The datagram the endpoint task is about to forward, inside the body of
  its first branch. -/
  inHand : Option Datagram
  inbound : Channel Datagram channelCapacity
  outbound : Channel Datagram channelCapacity
  stack : StackTask

namespace EndpointTasks

/-- Which task moves, and how. -/
inductive Move where
  /-- the endpoint task: `socket.recv_from` -/
  | receive (datagram : Bytes) (peer : SocketAddr)
  /-- the endpoint task: `inbound_sender.send` completes -/
  | forward
  /-- the endpoint task: `outbound_receiver.recv`, then `socket.send_to` -/
  | transmit
  /-- the stack task: `select!` takes a branch -/
  | take (iteration : Iteration)
  /-- the stack task: the send it stands at completes -/
  | perform

/-- `endpoint.recv_packet`: the inbound branch takes the oldest datagram. -/
def fetch (inbound : Channel Datagram channelCapacity) :
    Branch → Option (Channel Datagram channelCapacity)
  | .inbound raw peer =>
      match inbound.receive with
      | some (datagram, rest) =>
          if datagram = (raw, peer) then some rest else none
      | none => none
  | _ => some inbound

/-- One move of one task, `none` while the task cannot make it.  A socket
error ends the endpoint task and with it the runs considered here. -/
def step (codec : Codec) (tasks : EndpointTasks) :
    Move → Option (EndpointTasks × Unit)
  | .receive datagram peer =>
      match tasks.inHand with
      | some _ => none
      | none =>
          some ({ tasks with
            inHand := some (datagram.take receiveBuffer, peer) }, ())
  | .forward =>
      match tasks.inHand with
      | some datagram =>
          (tasks.inbound.send datagram).map fun inbound =>
            ({ tasks with inHand := none, inbound := inbound }, ())
      | none => none
  | .transmit =>
      match tasks.inHand with
      | some _ => none
      | none =>
          tasks.outbound.receive.map fun (_, outbound) =>
            ({ tasks with outbound := outbound }, ())
  | .take iteration =>
      match fetch tasks.inbound iteration.branch with
      | some inbound =>
          (tasks.stack.take codec iteration).map fun stack =>
            ({ tasks with inbound := inbound, stack := stack }, ())
      | none => none
  | .perform =>
      match tasks.stack.awaited with
      | some (.sendPacket packet peer) =>
          (tasks.outbound.send (packet, peer)).map fun outbound =>
            ({ tasks with
              outbound := outbound
              stack := tasks.stack.proceed }, ())
      | some (.sendRequest _) | some (.deliver _) =>
          some ({ tasks with stack := tasks.stack.proceed }, ())
      | none => none

/-- Both tasks as they are spawned. -/
def start (now : Nat) : EndpointTasks where
  inHand := none
  inbound := .empty
  outbound := .empty
  stack := .start now

end EndpointTasks

/-- The endpoint task beside the stack task. -/
def endpointMachine (codec : Codec) :
    Machine EndpointTasks EndpointTasks.Move Unit where
  Initial tasks := ∃ now, tasks = EndpointTasks.start now
  step := EndpointTasks.step codec

/-- One move that was made by the endpoint or the stack. -/
abbrev EndpointTransition :=
  Transition EndpointTasks EndpointTasks.Move Unit

namespace EndpointTasks

variable {codec : Codec} {tasks after : EndpointTasks}

theorem initial_start (codec : Codec) (now : Nat) :
    (endpointMachine codec).Initial (EndpointTasks.start now) :=
  ⟨now, rfl⟩

/-! ## Waiting -/

/-- The endpoint task waits in `inbound_sender.send`. -/
def EndpointBlocked (tasks : EndpointTasks) : Prop :=
  tasks.inHand.isSome = true ∧ tasks.inbound.Full

/-- The stack task waits in `endpoint.send_packet`. -/
def StackBlocked (tasks : EndpointTasks) : Prop :=
  (∃ packet peer, tasks.stack.awaited = some (.sendPacket packet peer)) ∧
    tasks.outbound.Full

/-- Each task waits for the other one. -/
def Deadlocked (tasks : EndpointTasks) : Prop :=
  tasks.EndpointBlocked ∧ tasks.StackBlocked

/-- Two tasks that wait for each other wait forever. -/
theorem Deadlocked.stuck
    (deadlocked : tasks.Deadlocked) (move : Move) :
    tasks.step codec move = none := by
  rcases deadlocked with ⟨⟨holds, inboundFull⟩, ⟨packet, peer, awaits⟩,
    outboundFull⟩
  rcases Option.isSome_iff_exists.mp holds with ⟨datagram, inHand⟩
  have sends := tasks.inbound.send_eq_none_iff datagram |>.mpr inboundFull
  have waits :=
    tasks.outbound.send_eq_none_iff (packet, peer) |>.mpr outboundFull
  cases move with
  | receive _ _ => simp only [step, inHand]
  | forward => simp only [step, inHand, sends, Option.map_none]
  | transmit => simp only [step, inHand]
  | take iteration =>
      have busy : tasks.stack.take codec iteration = none := by
        simp [StackTask.take, StackTask.pending_of_awaited awaits]
      simp only [step, busy, Option.map_none]
      split <;> rfl
  | perform => simp only [step, awaits, waits, Option.map_none]

/-! ## What a move can do -/

/-- The moves that complete, one constructor for each way. -/
inductive MoveStep (codec : Codec) (tasks : EndpointTasks) :
    Move → EndpointTasks → Prop where
  | received {datagram : Bytes} {peer : SocketAddr}
      (free : tasks.inHand = none) :
      MoveStep codec tasks (.receive datagram peer)
        { tasks with inHand := some (datagram.take receiveBuffer, peer) }
  | forwarded {datagram : Datagram}
      {inbound : Channel Datagram channelCapacity}
      (held : tasks.inHand = some datagram)
      (sent : tasks.inbound.send datagram = some inbound) :
      MoveStep codec tasks .forward
        { tasks with inHand := none, inbound := inbound }
  | transmitted {datagram : Datagram}
      {outbound : Channel Datagram channelCapacity}
      (free : tasks.inHand = none)
      (received : tasks.outbound.receive = some (datagram, outbound)) :
      MoveStep codec tasks .transmit { tasks with outbound := outbound }
  | taken {iteration : Iteration} {stack : StackTask}
      {inbound : Channel Datagram channelCapacity}
      (fetched : fetch tasks.inbound iteration.branch = some inbound)
      (taken : tasks.stack.take codec iteration = some stack) :
      MoveStep codec tasks (.take iteration)
        { tasks with inbound := inbound, stack := stack }
  | sent {packet : Bytes} {peer : SocketAddr}
      {outbound : Channel Datagram channelCapacity}
      (awaits : tasks.stack.awaited = some (.sendPacket packet peer))
      (sent : tasks.outbound.send (packet, peer) = some outbound) :
      MoveStep codec tasks .perform
        { tasks with outbound := outbound, stack := tasks.stack.proceed }
  | performed {effect : Effect}
      (awaits : tasks.stack.awaited = some effect)
      (elsewhere : effect.isSendPacket = false) :
      MoveStep codec tasks .perform
        { tasks with stack := tasks.stack.proceed }

theorem step_cases
    {move : Move} {output : Unit}
    (stepped : tasks.step codec move = some (after, output)) :
    MoveStep codec tasks move after := by
  cases move with
  | receive datagram peer =>
      simp only [step] at stepped
      split at stepped
      · cases stepped
      · next free =>
          cases stepped
          exact .received free
  | forward =>
      simp only [step] at stepped
      split at stepped
      · next datagram held =>
          rcases Option.map_eq_some_iff.mp stepped with
            ⟨inbound, sent, equal⟩
          cases equal
          exact .forwarded held sent
      · cases stepped
  | transmit =>
      simp only [step] at stepped
      split at stepped
      · cases stepped
      · next free =>
          rcases Option.map_eq_some_iff.mp stepped with
            ⟨⟨datagram, outbound⟩, received, equal⟩
          cases equal
          exact .transmitted free received
  | take iteration =>
      simp only [step] at stepped
      split at stepped
      · next inbound fetched =>
          rcases Option.map_eq_some_iff.mp stepped with
            ⟨stack, taken, equal⟩
          cases equal
          exact .taken fetched taken
      · cases stepped
  | perform =>
      simp only [step] at stepped
      split at stepped
      · next packet peer awaits =>
          rcases Option.map_eq_some_iff.mp stepped with
            ⟨outbound, sent, equal⟩
          cases equal
          exact .sent awaits sent
      · next request awaits =>
          cases stepped
          exact .performed awaits rfl
      · next delivery awaits =>
          cases stepped
          exact .performed awaits rfl
      · cases stepped

/-- Taking a branch leaves the inbound channel as it is or with room. -/
theorem not_full_of_fetch
    {inbound rest : Channel Datagram channelCapacity} {branch : Branch}
    (fetched : fetch inbound branch = some rest) :
    rest = inbound ∨ ¬rest.Full := by
  cases branch with
  | inbound raw peer =>
      simp only [fetch] at fetched
      split at fetched
      · next datagram shorter received =>
          split at fetched
          · cases fetched
            exact .inr (Channel.not_full_of_receive received)
          · cases fetched
      · cases fetched
  | _ =>
      cases fetched
      exact .inl rfl

end EndpointTasks

end Coapable.Transport
