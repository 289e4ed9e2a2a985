import Coapable.Foundation.Channel
import Coapable.Transport.StackTask

/-!
# The stack task and the server task

`CoapServer::run` receives a request, runs its handler and sends the answer,
one request after the other.  It runs beside the task of the stack, which
dispatches requests to it over one bounded channel and takes its answers from
another.  The two tasks form a machine whose input says which task moves.

The stack is the only consumer of the answers and the server the only
consumer of the requests.  The server waits for the stack exactly if it took
a request while the channel of the answers was full, and from then on some
schedule of the stack ends in a cyclic wait.
-/

namespace Coapable.Server

open Coapable.CoapLite
open Coapable.Foundation
open Coapable.Foundation.Execution
open Coapable.MessageTypes
open Coapable.Transport

/-- Where `CoapServer::run` stands. -/
inductive CoapServer where
  /-- at `recv_request` -/
  | receiving
  /-- at `router.handle` -/
  | handling (request : ServerRequest)
  /-- at `send_response` -/
  | responding (response : ServerResponse)
  deriving DecidableEq

/-- What the server does with the answer of the handler to a request. -/
def CoapServer.answer (request : ServerRequest) :
    Option CoapResponse → CoapServer
  | some response => .responding ⟨response, request.peer, request.token⟩
  | none => .receiving

/-- The server task, the stack task and the two channels between them. -/
structure ServerTasks where
  server : CoapServer
  requests : Channel ServerRequest channelCapacity
  responses : Channel ServerResponse channelCapacity
  stack : StackTask

namespace ServerTasks

/-- Which task moves, and how. -/
inductive Move where
  /-- the server task: `recv_request` completes -/
  | receive
  /-- the server task: the handler finishes -/
  | finish (response : Option CoapResponse)
  /-- the server task: `send_response` completes -/
  | respond
  /-- the stack task: `select!` takes a branch -/
  | take (iteration : Iteration)
  /-- the stack task: the send it stands at completes -/
  | perform

/-- `outbound_response_receiver.recv`: the branch takes the oldest answer.
The server task keeps its end of the channel open. -/
def fetch (responses : Channel ServerResponse channelCapacity) :
    Branch → Option (Channel ServerResponse channelCapacity)
  | .outboundResponse (some response) =>
      match responses.receive with
      | some (oldest, rest) => if oldest = response then some rest else none
      | none => none
  | .outboundResponse none => none
  | _ => some responses

/-- One move of one task, `none` while the task cannot make it. -/
def step (codec : Codec) (tasks : ServerTasks) :
    Move → Option (ServerTasks × Unit)
  | .receive =>
      match tasks.server with
      | .receiving =>
          tasks.requests.receive.map fun (request, requests) =>
            ({ tasks with
              server := .handling request
              requests := requests }, ())
      | _ => none
  | .finish response =>
      match tasks.server with
      | .handling request =>
          some ({ tasks with server := .answer request response }, ())
      | _ => none
  | .respond =>
      match tasks.server with
      | .responding response =>
          (tasks.responses.send response).map fun responses =>
            ({ tasks with
              server := .receiving
              responses := responses }, ())
      | _ => none
  | .take iteration =>
      match fetch tasks.responses iteration.branch with
      | some responses =>
          (tasks.stack.take codec iteration).map fun stack =>
            ({ tasks with responses := responses, stack := stack }, ())
      | none => none
  | .perform =>
      match tasks.stack.awaited with
      | some (.sendRequest request) =>
          (tasks.requests.send request).map fun requests =>
            ({ tasks with
              requests := requests
              stack := tasks.stack.proceed }, ())
      | some (.sendPacket _ _) | some (.deliver _) =>
          some ({ tasks with stack := tasks.stack.proceed }, ())
      | none => none

/-- Both tasks as they are spawned. -/
def start (now : Nat) : ServerTasks where
  server := .receiving
  requests := .empty
  responses := .empty
  stack := .start now

end ServerTasks

/-- The server task beside the stack task. -/
def serverMachine (codec : Codec) :
    Machine ServerTasks ServerTasks.Move Unit where
  Initial tasks := ∃ now, tasks = ServerTasks.start now
  step := ServerTasks.step codec

/-- One move that was made by the server or the stack. -/
abbrev ServerTransition := Transition ServerTasks ServerTasks.Move Unit

namespace ServerTasks

variable {codec : Codec} {tasks after : ServerTasks}

/-! ## Waiting -/

/-- The server task waits in `send_response`. -/
def ServerBlocked (tasks : ServerTasks) : Prop :=
  (∃ response, tasks.server = .responding response) ∧ tasks.responses.Full

/-- The stack task waits in `server_request_sender.send`. -/
def StackBlocked (tasks : ServerTasks) : Prop :=
  (∃ request, tasks.stack.awaited = some (.sendRequest request)) ∧
    tasks.requests.Full

/-- Each task waits for the other one. -/
def Deadlocked (tasks : ServerTasks) : Prop :=
  tasks.ServerBlocked ∧ tasks.StackBlocked

/-- Two tasks that wait for each other wait forever. -/
theorem Deadlocked.stuck
    (deadlocked : tasks.Deadlocked) (move : Move) :
    tasks.step codec move = none := by
  rcases deadlocked with ⟨⟨⟨response, responds⟩, responsesFull⟩,
    ⟨request, awaits⟩, requestsFull⟩
  have sends :=
    tasks.responses.send_eq_none_iff response |>.mpr responsesFull
  have waits := tasks.requests.send_eq_none_iff request |>.mpr requestsFull
  cases move with
  | receive => simp only [step, responds]
  | finish _ => simp only [step, responds]
  | respond => simp only [step, responds, sends, Option.map_none]
  | take iteration =>
      have busy : tasks.stack.take codec iteration = none := by
        simp [StackTask.take, StackTask.pending_of_awaited awaits]
      simp only [step, busy, Option.map_none]
      split <;> rfl
  | perform => simp only [step, awaits, waits, Option.map_none]

/-! ## What a move can do -/

/-- The moves that complete, one constructor for each way. -/
inductive MoveStep (codec : Codec) (tasks : ServerTasks) :
    Move → ServerTasks → Prop where
  | received {request : ServerRequest}
      {requests : Channel ServerRequest channelCapacity}
      (free : tasks.server = .receiving)
      (received : tasks.requests.receive = some (request, requests)) :
      MoveStep codec tasks .receive
        { tasks with server := .handling request, requests := requests }
  | finished {request : ServerRequest} {response : Option CoapResponse}
      (handles : tasks.server = .handling request) :
      MoveStep codec tasks (.finish response)
        { tasks with server := .answer request response }
  | responded {response : ServerResponse}
      {responses : Channel ServerResponse channelCapacity}
      (responds : tasks.server = .responding response)
      (sent : tasks.responses.send response = some responses) :
      MoveStep codec tasks .respond
        { tasks with server := .receiving, responses := responses }
  | taken {iteration : Iteration} {stack : StackTask}
      {responses : Channel ServerResponse channelCapacity}
      (fetched : fetch tasks.responses iteration.branch = some responses)
      (taken : tasks.stack.take codec iteration = some stack) :
      MoveStep codec tasks (.take iteration)
        { tasks with responses := responses, stack := stack }
  | dispatched {request : ServerRequest}
      {requests : Channel ServerRequest channelCapacity}
      (awaits : tasks.stack.awaited = some (.sendRequest request))
      (sent : tasks.requests.send request = some requests) :
      MoveStep codec tasks .perform
        { tasks with requests := requests, stack := tasks.stack.proceed }
  | performed {effect : Effect}
      (awaits : tasks.stack.awaited = some effect)
      (elsewhere : ∀ request, effect ≠ .sendRequest request) :
      MoveStep codec tasks .perform
        { tasks with stack := tasks.stack.proceed }

theorem step_cases
    {move : Move} {output : Unit}
    (stepped : tasks.step codec move = some (after, output)) :
    MoveStep codec tasks move after := by
  cases move with
  | receive =>
      simp only [step] at stepped
      split at stepped
      · next free =>
          rcases Option.map_eq_some_iff.mp stepped with
            ⟨⟨request, requests⟩, received, equal⟩
          cases equal
          exact .received free received
      · cases stepped
  | finish response =>
      simp only [step] at stepped
      split at stepped
      · next request handles =>
          cases stepped
          exact .finished handles
      · cases stepped
  | respond =>
      simp only [step] at stepped
      split at stepped
      · next response responds =>
          rcases Option.map_eq_some_iff.mp stepped with
            ⟨responses, sent, equal⟩
          cases equal
          exact .responded responds sent
      · cases stepped
  | take iteration =>
      simp only [step] at stepped
      split at stepped
      · next responses fetched =>
          rcases Option.map_eq_some_iff.mp stepped with
            ⟨stack, taken, equal⟩
          cases equal
          exact .taken fetched taken
      · cases stepped
  | perform =>
      simp only [step] at stepped
      split at stepped
      · next request awaits =>
          rcases Option.map_eq_some_iff.mp stepped with
            ⟨requests, sent, equal⟩
          cases equal
          exact .dispatched awaits sent
      · next packet peer awaits =>
          cases stepped
          exact .performed awaits (by simp)
      · next delivery awaits =>
          cases stepped
          exact .performed awaits (by simp)
      · cases stepped

/-- Taking a branch leaves the channel of the answers as it is or with
room. -/
theorem not_full_of_fetch
    {responses rest : Channel ServerResponse channelCapacity}
    {branch : Branch}
    (fetched : fetch responses branch = some rest) :
    rest = responses ∨ ¬rest.Full := by
  simp only [fetch] at fetched
  split at fetched
  · split at fetched
    · next oldest shorter received =>
        split at fetched
        · cases fetched
          exact .inr (Channel.not_full_of_receive received)
        · cases fetched
    · cases fetched
  · cases fetched
  · cases fetched
    exact .inl rfl

end ServerTasks

end Coapable.Server
