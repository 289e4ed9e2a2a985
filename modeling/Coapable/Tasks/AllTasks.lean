import Coapable.Client.ClientTasks
import Coapable.Server.ServerTasks
import Coapable.Transport.EndpointTasks

/-!
# All tasks of a process

The endpoint task, the stack task, the server task and the callers run beside
each other, joined by five bounded channels.  The models of two of them leave
the other ones out; here they all move, and here they also end.

A task that ends drops its ends of the channels.  What it had sent can still
be received, what it had not received is lost, a send to it fails, and a
receive from it tells that the channel is closed once nothing is left in it.
That is how the end of one task reaches the next.
-/

namespace Coapable.Tasks

open Coapable.Client
open Coapable.CoapLite
open Coapable.Foundation
open Coapable.Foundation.Execution
open Coapable.MessageTypes
open Coapable.Server
open Coapable.Transport

/-- Where the task of `CoapEndpoint::start` stands. -/
inductive EndpointTask where
  /-- at its `select!` -/
  | polling
  /-- at `inbound_sender.send` -/
  | forwarding (datagram : Datagram)
  deriving DecidableEq

/-- The datagram that is being forwarded. -/
def EndpointTask.inHand : EndpointTask → Option Datagram
  | .polling => none
  | .forwarding datagram => some datagram

/-- The four kinds of tasks and the five channels between them. -/
structure AllTasks where
  /-- `none` once the endpoint task has ended. -/
  endpoint : Option EndpointTask
  inbound : Channel Datagram channelCapacity
  outbound : Channel Datagram channelCapacity
  /-- The callers, the channel of their requests and the stack task. -/
  clients : ClientTasks
  /-- Clones of the client interface outside of calls of `send`. -/
  interfaces : Nat
  /-- `none` once the server interface is gone. -/
  server : Option CoapServer
  dispatched : Channel ServerRequest channelCapacity
  responses : Channel ServerResponse channelCapacity
  /-- How the stack task ended. -/
  finished : Option Exit

namespace AllTasks

/-! ## The moves -/

/-- What the endpoint task does next. -/
inductive EndpointMove where
  /-- `socket.recv_from` -/
  | receive (datagram : Bytes) (peer : SocketAddr)
  /-- `inbound_sender.send` returns -/
  | forward
  /-- `outbound_receiver.recv`, then `socket.send_to` -/
  | transmit
  /-- `outbound_receiver.recv` finds the channel closed -/
  | close
  /-- the socket fails -/
  | fail
  deriving DecidableEq

/-- What the stack task does next. -/
inductive StackMove where
  /-- `select!` takes a branch -/
  | take (iteration : Iteration)
  /-- the send it stands at returns -/
  | perform
  /-- `select!` takes a branch that ends the task -/
  | exit (iteration : Iteration)
  /-- `send_packet` fails -/
  | fail

/-- What the server task or its owner does next. -/
inductive ServerMove where
  /-- `recv_request` returns a request -/
  | receive
  /-- the handler finishes -/
  | finish (response : Option CoapResponse)
  /-- `send_response` returns -/
  | respond
  /-- `recv_request` fails, and `run` returns -/
  | leave
  /-- the owner of the server drops it, or a handler panics -/
  | drop
  deriving DecidableEq

/-- What a caller or an owner of the client interface does next. -/
inductive CallerMove where
  /-- the client interface is cloned -/
  | clone
  /-- a clone of it is dropped -/
  | drop
  /-- a caller calls `send` -/
  | call (builder : ClientRequestBuilder)
  /-- a caller: `send_request` returns -/
  | hand (index : Nat) (now : Nat)
  /-- a caller: the limited wait for the response returns -/
  | settle (index : Nat) (now : Nat)

/-- Who moves, and how. -/
inductive Move where
  | endpoint (move : EndpointMove)
  | stack (move : StackMove)
  | server (move : ServerMove)
  | caller (move : CallerMove)

/-! ## The endpoint task -/

/-- The endpoint task drops the sending half of the inbound channel, and the
receiving half of the outbound one. -/
def endpointEnded (tasks : AllTasks) : AllTasks :=
  { tasks with endpoint := none, outbound := .empty }

/-- A move of the endpoint task, `none` while it waits.  Forwarding waits for
room in the inbound channel, and finds out when the stack is gone. -/
def endpointStep (tasks : AllTasks) : EndpointMove → Option AllTasks
  | .receive datagram peer =>
      match tasks.endpoint with
      | some .polling =>
          some { tasks with
            endpoint :=
              some (.forwarding (datagram.take receiveBuffer, peer)) }
      | _ => none
  | .forward =>
      match tasks.endpoint, tasks.clients.stack with
      | some (.forwarding datagram), some _ =>
          (tasks.inbound.send datagram).map fun inbound =>
            { tasks with endpoint := some .polling, inbound := inbound }
      | some (.forwarding _), none => some tasks.endpointEnded
      | _, _ => none
  | .transmit =>
      match tasks.endpoint with
      | some .polling =>
          tasks.outbound.receive.map fun (_, outbound) =>
            { tasks with outbound := outbound }
      | _ => none
  | .close =>
      if tasks.endpoint = some .polling ∧
          tasks.clients.stack.isNone = true ∧ tasks.outbound.items = []
      then some tasks.endpointEnded
      else none
  | .fail =>
      if tasks.endpoint = some .polling then some tasks.endpointEnded
      else none

/-! ## The stack task -/

/-- The stack task drops the receiving halves of the inbound channel and of
the channel of the answers, beside what `ClientTasks.ended` drops. -/
def stackEnded (tasks : AllTasks) (clients : ClientTasks)
    (exit : Exit) : AllTasks :=
  { tasks with
    inbound := .empty
    clients := clients
    responses := .empty
    finished := some exit }

/-- The branch received what ends the task: the end of a channel that is
closed and empty, or a datagram. -/
def receivesEnd (tasks : AllTasks) (iteration : Iteration) : Bool :=
  match iteration.branch with
  | .inbound raw peer =>
      if iteration.endpointOpen then
        (EndpointTasks.fetch tasks.inbound (.inbound raw peer)).isSome
      else tasks.endpoint.isNone && tasks.inbound.items.isEmpty
  | .outboundRequest _ => tasks.interfaces = 0
  | .outboundResponse _ =>
      tasks.server.isNone && tasks.responses.items.isEmpty
  | .retransmissionTimer _ | .cleanupTimer => true

/-- How the body of the branch ends the task, if it does. -/
def exitBy (codec : Codec) (tasks : AllTasks) (iteration : Iteration) :
    Option Exit :=
  tasks.clients.stack.bind fun task =>
    match task.loop.stack.branchBody codec iteration with
    | .error exit => some exit
    | .ok _ => none

/-- A move of the stack task, `none` while it waits.  A send of its body waits
for room in the channel it goes to, fails if the endpoint is gone, and is
dropped if the server is. -/
def stackStep (codec : Codec) (tasks : AllTasks) :
    StackMove → Option AllTasks
  | .take iteration =>
      match EndpointTasks.fetch tasks.inbound iteration.branch,
          ServerTasks.fetch tasks.responses iteration.branch,
          tasks.clients.step codec (.take iteration) with
      | some inbound, some responses, some (clients, _) =>
          some { tasks with
            inbound := inbound
            responses := responses
            clients := clients }
      | _, _, _ => none
  | .perform =>
      match tasks.clients.stack.bind StackTask.awaited,
          tasks.clients.step codec .perform with
      | some (.sendPacket packet peer), some (clients, _) =>
          if tasks.endpoint.isSome then
            (tasks.outbound.send (packet, peer)).map fun outbound =>
              { tasks with outbound := outbound, clients := clients }
          else none
      | some (.sendRequest request), some (clients, _) =>
          if tasks.server.isSome then
            (tasks.dispatched.send request).map fun dispatched =>
              { tasks with dispatched := dispatched, clients := clients }
          else some { tasks with clients := clients }
      | some (.deliver _), some (clients, _) =>
          some { tasks with clients := clients }
      | _, _ => none
  | .exit iteration =>
      match tasks.exitBy codec iteration,
          tasks.clients.step codec (.exit iteration) with
      | some exit, some (clients, _) =>
          if tasks.receivesEnd iteration then
            some (tasks.stackEnded clients exit)
          else none
      | _, _ => none
  | .fail =>
      match tasks.endpoint, tasks.clients.step codec .fail with
      | none, some (clients, _) =>
          some (tasks.stackEnded clients (.returned (.error .send)))
      | _, _ => none

/-! ## The server task -/

/-- The server drops the receiving half of the channel of the requests. -/
def serverEnded (tasks : AllTasks) : AllTasks :=
  { tasks with server := none, dispatched := .empty }

/-- A move of the server task, `none` while it waits.  An answer waits for
room in the channel of the answers, and is dropped if the stack is gone. -/
def serverStep (tasks : AllTasks) : ServerMove → Option AllTasks
  | .receive =>
      match tasks.server with
      | some .receiving =>
          tasks.dispatched.receive.map fun (request, dispatched) =>
            { tasks with
              server := some (.handling request)
              dispatched := dispatched }
      | _ => none
  | .finish response =>
      match tasks.server with
      | some (.handling request) =>
          some { tasks with server := some (.answer request response) }
      | _ => none
  | .respond =>
      match tasks.server, tasks.clients.stack with
      | some (.responding response), some _ =>
          (tasks.responses.send response).map fun responses =>
            { tasks with
              server := some .receiving
              responses := responses }
      | some (.responding _), none =>
          some { tasks with server := some .receiving }
      | _, _ => none
  | .leave =>
      if tasks.server = some .receiving ∧
          tasks.clients.stack.isNone = true ∧ tasks.dispatched.items = []
      then some tasks.serverEnded
      else none
  | .drop =>
      if tasks.server.isSome then some tasks.serverEnded else none

/-! ## The callers -/

/-- A call of `send` takes the clone that its builder holds, and drops it at
its end. -/
def callerStep (codec : Codec) (tasks : AllTasks) :
    CallerMove → Option AllTasks
  | .clone =>
      if 0 < tasks.interfaces then
        some { tasks with interfaces := tasks.interfaces + 1 }
      else none
  | .drop =>
      if 0 < tasks.interfaces then
        some { tasks with interfaces := tasks.interfaces - 1 }
      else none
  | .call builder =>
      if 0 < tasks.interfaces then
        (tasks.clients.step codec (.call builder)).map fun (clients, _) =>
          { tasks with
            interfaces := tasks.interfaces - 1
            clients := clients }
      else none
  | .hand index now =>
      (tasks.clients.step codec (.hand index now)).map fun (clients, _) =>
        { tasks with clients := clients }
  | .settle index now =>
      (tasks.clients.step codec (.settle index now)).map
        fun (clients, _) => { tasks with clients := clients }

/-- One move of one party, `none` while it cannot be made. -/
def step (codec : Codec) (tasks : AllTasks) :
    Move → Option (AllTasks × Unit)
  | .endpoint move => (tasks.endpointStep move).map (·, ())
  | .stack move => (tasks.stackStep codec move).map (·, ())
  | .server move => (tasks.serverStep move).map (·, ())
  | .caller move => (tasks.callerStep codec move).map (·, ())

/-- The tasks as they are spawned, with one client interface. -/
def start (now : Nat) : AllTasks where
  endpoint := some .polling
  inbound := .empty
  outbound := .empty
  clients := .start now
  interfaces := 1
  server := some .receiving
  dispatched := .empty
  responses := .empty
  finished := none

end AllTasks

/-- All tasks of a process beside each other. -/
def tasksMachine (codec : Codec) : Machine AllTasks AllTasks.Move Unit where
  Initial tasks := ∃ now, tasks = AllTasks.start now
  step := AllTasks.step codec

/-- One move that was made by one of the tasks. -/
abbrev TasksTransition := Transition AllTasks AllTasks.Move Unit

/-- The runs of all tasks, newest move first. -/
abbrev TasksRun (codec : Codec) := Run (tasksMachine codec)

namespace AllTasks

theorem initial_start (codec : Codec) (now : Nat) :
    (tasksMachine codec).Initial (AllTasks.start now) :=
  ⟨now, rfl⟩

/-! ## What a move can do -/

variable {codec : Codec} {tasks after : AllTasks}

/-- The moves of the endpoint task that complete, one constructor for each
way. -/
inductive EndpointStep (tasks : AllTasks) :
    EndpointMove → AllTasks → Prop where
  | received {datagram : Bytes} {peer : SocketAddr}
      (polls : tasks.endpoint = some .polling) :
      EndpointStep tasks (.receive datagram peer)
        { tasks with
          endpoint :=
            some (.forwarding (datagram.take receiveBuffer, peer)) }
  | forwarded {datagram : Datagram} {task : StackTask}
      {inbound : Channel Datagram channelCapacity}
      (holds : tasks.endpoint = some (.forwarding datagram))
      (alive : tasks.clients.stack = some task)
      (sent : tasks.inbound.send datagram = some inbound) :
      EndpointStep tasks .forward
        { tasks with endpoint := some .polling, inbound := inbound }
  | lost {datagram : Datagram}
      (holds : tasks.endpoint = some (.forwarding datagram))
      (stackGone : tasks.clients.stack = none) :
      EndpointStep tasks .forward tasks.endpointEnded
  | transmitted {datagram : Datagram}
      {outbound : Channel Datagram channelCapacity}
      (polls : tasks.endpoint = some .polling)
      (received : tasks.outbound.receive = some (datagram, outbound)) :
      EndpointStep tasks .transmit { tasks with outbound := outbound }
  | closed
      (polls : tasks.endpoint = some .polling)
      (stackGone : tasks.clients.stack = none)
      (drained : tasks.outbound.items = []) :
      EndpointStep tasks .close tasks.endpointEnded
  | failed (polls : tasks.endpoint = some .polling) :
      EndpointStep tasks .fail tasks.endpointEnded

theorem endpointStep_cases
    {move : EndpointMove}
    (stepped : tasks.endpointStep move = some after) :
    EndpointStep tasks move after := by
  cases move with
  | receive datagram peer =>
      simp only [endpointStep] at stepped
      split at stepped
      · next polls =>
          cases stepped
          exact .received polls
      · cases stepped
  | forward =>
      simp only [endpointStep] at stepped
      split at stepped
      · next datagram task holds alive =>
          rcases Option.map_eq_some_iff.mp stepped with
            ⟨inbound, sent, rfl⟩
          exact .forwarded holds alive sent
      · next datagram holds stackGone =>
          cases stepped
          exact .lost holds stackGone
      · cases stepped
  | transmit =>
      simp only [endpointStep] at stepped
      split at stepped
      · next polls =>
          rcases Option.map_eq_some_iff.mp stepped with
            ⟨⟨datagram, outbound⟩, received, rfl⟩
          exact .transmitted polls received
      · cases stepped
  | close =>
      simp only [endpointStep] at stepped
      split at stepped
      · next closes =>
          cases stepped
          exact .closed closes.1 (Option.isNone_iff_eq_none.mp closes.2.1)
            closes.2.2
      · cases stepped
  | fail =>
      simp only [endpointStep] at stepped
      split at stepped
      · next polls =>
          cases stepped
          exact .failed polls
      · cases stepped

/-- The moves of the stack task that complete, one constructor for each way.
-/
inductive StackStep (codec : Codec) (tasks : AllTasks) :
    StackMove → AllTasks → Prop where
  | taken {iteration : Iteration} {clients : ClientTasks}
      {inbound : Channel Datagram channelCapacity}
      {responses : Channel ServerResponse channelCapacity}
      (fetched : EndpointTasks.fetch tasks.inbound iteration.branch =
        some inbound)
      (answered : ServerTasks.fetch tasks.responses iteration.branch =
        some responses)
      (stepped : tasks.clients.step codec (.take iteration) =
        some (clients, ())) :
      StackStep codec tasks (.take iteration)
        { tasks with
          inbound := inbound
          responses := responses
          clients := clients }
  | sent {task : StackTask} {packet : Bytes} {peer : SocketAddr}
      {clients : ClientTasks}
      {outbound : Channel Datagram channelCapacity}
      (alive : tasks.clients.stack = some task)
      (awaits : task.awaited = some (.sendPacket packet peer))
      (endpointAlive : tasks.endpoint.isSome = true)
      (sent : tasks.outbound.send (packet, peer) = some outbound)
      (stepped : tasks.clients.step codec .perform =
        some (clients, ())) :
      StackStep codec tasks .perform
        { tasks with outbound := outbound, clients := clients }
  | dispatched {task : StackTask} {request : ServerRequest}
      {clients : ClientTasks}
      {dispatched : Channel ServerRequest channelCapacity}
      (alive : tasks.clients.stack = some task)
      (awaits : task.awaited = some (.sendRequest request))
      (serverAlive : tasks.server.isSome = true)
      (sent : tasks.dispatched.send request = some dispatched)
      (stepped : tasks.clients.step codec .perform =
        some (clients, ())) :
      StackStep codec tasks .perform
        { tasks with dispatched := dispatched, clients := clients }
  | unheard {task : StackTask} {request : ServerRequest}
      {clients : ClientTasks}
      (alive : tasks.clients.stack = some task)
      (awaits : task.awaited = some (.sendRequest request))
      (serverGone : tasks.server = none)
      (stepped : tasks.clients.step codec .perform =
        some (clients, ())) :
      StackStep codec tasks .perform { tasks with clients := clients }
  | delivered {task : StackTask} {delivery : Delivery}
      {clients : ClientTasks}
      (alive : tasks.clients.stack = some task)
      (awaits : task.awaited = some (.deliver delivery))
      (stepped : tasks.clients.step codec .perform =
        some (clients, ())) :
      StackStep codec tasks .perform { tasks with clients := clients }
  | exited {iteration : Iteration} {exit : Exit} {clients : ClientTasks}
      (ends : tasks.exitBy codec iteration = some exit)
      (receives : tasks.receivesEnd iteration = true)
      (stepped : tasks.clients.step codec (.exit iteration) =
        some (clients, ())) :
      StackStep codec tasks (.exit iteration)
        (tasks.stackEnded clients exit)
  | failed {clients : ClientTasks}
      (endpointGone : tasks.endpoint = none)
      (stepped : tasks.clients.step codec .fail = some (clients, ())) :
      StackStep codec tasks .fail
        (tasks.stackEnded clients (.returned (.error .send)))

theorem perform_cases
    (stepped : tasks.stackStep codec .perform = some after) :
    StackStep codec tasks .perform after := by
  simp only [stackStep] at stepped
  split at stepped
  · next packet peer clients _ awaited moved =>
      rcases Option.bind_eq_some_iff.mp awaited with
        ⟨task, alive, awaits⟩
      split at stepped
      · next endpointAlive =>
          rcases Option.map_eq_some_iff.mp stepped with
            ⟨outbound, sent, rfl⟩
          exact .sent alive awaits endpointAlive sent moved
      · cases stepped
  · next request clients _ awaited moved =>
      rcases Option.bind_eq_some_iff.mp awaited with
        ⟨task, alive, awaits⟩
      split at stepped
      · next serverAlive =>
          rcases Option.map_eq_some_iff.mp stepped with
            ⟨dispatched, sent, rfl⟩
          exact .dispatched alive awaits serverAlive sent moved
      · next serverGone =>
          cases stepped
          exact .unheard alive awaits (by simpa using serverGone) moved
  · next delivery clients _ awaited moved =>
      rcases Option.bind_eq_some_iff.mp awaited with
        ⟨task, alive, awaits⟩
      cases stepped
      exact .delivered alive awaits moved
  · cases stepped

theorem stackStep_cases
    {move : StackMove}
    (stepped : tasks.stackStep codec move = some after) :
    StackStep codec tasks move after := by
  cases move with
  | take iteration =>
      simp only [stackStep] at stepped
      split at stepped
      · next inbound responses clients _ fetched answered moved =>
          cases stepped
          exact .taken fetched answered moved
      · cases stepped
  | perform => exact perform_cases stepped
  | exit iteration =>
      simp only [stackStep] at stepped
      split at stepped
      · next exit clients _ ends moved =>
          split at stepped
          · next receives =>
              cases stepped
              exact .exited ends receives moved
          · cases stepped
      · cases stepped
  | fail =>
      simp only [stackStep] at stepped
      split at stepped
      · next clients _ endpointGone moved =>
          cases stepped
          exact .failed endpointGone moved
      · cases stepped

/-- The moves of the server task that complete, one constructor for each way.
-/
inductive ServerStep (tasks : AllTasks) :
    ServerMove → AllTasks → Prop where
  | received {request : ServerRequest}
      {dispatched : Channel ServerRequest channelCapacity}
      (waits : tasks.server = some .receiving)
      (received : tasks.dispatched.receive =
        some (request, dispatched)) :
      ServerStep tasks .receive
        { tasks with
          server := some (.handling request)
          dispatched := dispatched }
  | finished {request : ServerRequest} {response : Option CoapResponse}
      (handles : tasks.server = some (.handling request)) :
      ServerStep tasks (.finish response)
        { tasks with server := some (.answer request response) }
  | responded {response : ServerResponse} {task : StackTask}
      {responses : Channel ServerResponse channelCapacity}
      (responds : tasks.server = some (.responding response))
      (alive : tasks.clients.stack = some task)
      (sent : tasks.responses.send response = some responses) :
      ServerStep tasks .respond
        { tasks with server := some .receiving, responses := responses }
  | unheard {response : ServerResponse}
      (responds : tasks.server = some (.responding response))
      (stackGone : tasks.clients.stack = none) :
      ServerStep tasks .respond { tasks with server := some .receiving }
  | left
      (waits : tasks.server = some .receiving)
      (stackGone : tasks.clients.stack = none)
      (drained : tasks.dispatched.items = []) :
      ServerStep tasks .leave tasks.serverEnded
  | dropped (alive : tasks.server.isSome = true) :
      ServerStep tasks .drop tasks.serverEnded

theorem serverStep_cases
    {move : ServerMove}
    (stepped : tasks.serverStep move = some after) :
    ServerStep tasks move after := by
  cases move with
  | receive =>
      simp only [serverStep] at stepped
      split at stepped
      · next waits =>
          rcases Option.map_eq_some_iff.mp stepped with
            ⟨⟨request, dispatched⟩, received, rfl⟩
          exact .received waits received
      · cases stepped
  | finish response =>
      simp only [serverStep] at stepped
      split at stepped
      · next request handles =>
          cases stepped
          exact .finished handles
      · cases stepped
  | respond =>
      simp only [serverStep] at stepped
      split at stepped
      · next response task responds alive =>
          rcases Option.map_eq_some_iff.mp stepped with
            ⟨responses, sent, rfl⟩
          exact .responded responds alive sent
      · next response responds stackGone =>
          cases stepped
          exact .unheard responds stackGone
      · cases stepped
  | leave =>
      simp only [serverStep] at stepped
      split at stepped
      · next leaves =>
          cases stepped
          exact .left leaves.1 (Option.isNone_iff_eq_none.mp leaves.2.1)
            leaves.2.2
      · cases stepped
  | drop =>
      simp only [serverStep] at stepped
      split at stepped
      · next alive =>
          cases stepped
          exact .dropped alive
      · cases stepped

/-- A caller moves the interfaces and, in a call, what the callers share with
the stack. -/
inductive CallerStep (codec : Codec) (tasks : AllTasks) :
    CallerMove → AllTasks → Prop where
  | cloned (held : 0 < tasks.interfaces) :
      CallerStep codec tasks .clone
        { tasks with interfaces := tasks.interfaces + 1 }
  | dropped (held : 0 < tasks.interfaces) :
      CallerStep codec tasks .drop
        { tasks with interfaces := tasks.interfaces - 1 }
  | called {builder : ClientRequestBuilder} {clients : ClientTasks}
      (held : 0 < tasks.interfaces)
      (stepped : tasks.clients.step codec (.call builder) =
        some (clients, ())) :
      CallerStep codec tasks (.call builder)
        { tasks with
          interfaces := tasks.interfaces - 1
          clients := clients }
  | handed {index now : Nat} {clients : ClientTasks}
      (stepped : tasks.clients.step codec (.hand index now) =
        some (clients, ())) :
      CallerStep codec tasks (.hand index now)
        { tasks with clients := clients }
  | settled {index now : Nat} {clients : ClientTasks}
      (stepped : tasks.clients.step codec (.settle index now) =
        some (clients, ())) :
      CallerStep codec tasks (.settle index now)
        { tasks with clients := clients }

theorem callerStep_cases
    {move : CallerMove}
    (stepped : tasks.callerStep codec move = some after) :
    CallerStep codec tasks move after := by
  cases move with
  | clone =>
      simp only [callerStep] at stepped
      split at stepped
      · next held =>
          cases stepped
          exact .cloned held
      · cases stepped
  | drop =>
      simp only [callerStep] at stepped
      split at stepped
      · next held =>
          cases stepped
          exact .dropped held
      · cases stepped
  | call builder =>
      simp only [callerStep] at stepped
      split at stepped
      · next held =>
          rcases Option.map_eq_some_iff.mp stepped with
            ⟨⟨clients, _⟩, moved, rfl⟩
          exact .called held moved
      · cases stepped
  | hand index now =>
      rcases Option.map_eq_some_iff.mp stepped with
        ⟨⟨clients, _⟩, moved, rfl⟩
      exact .handed moved
  | settle index now =>
      rcases Option.map_eq_some_iff.mp stepped with
        ⟨⟨clients, _⟩, moved, rfl⟩
      exact .settled moved

/-- The moves that complete, by the party that moves. -/
inductive MoveStep (codec : Codec) (tasks : AllTasks) :
    Move → AllTasks → Prop where
  | endpoint {move : EndpointMove} {after : AllTasks}
      (step : EndpointStep tasks move after) :
      MoveStep codec tasks (.endpoint move) after
  | stack {move : StackMove} {after : AllTasks}
      (step : StackStep codec tasks move after) :
      MoveStep codec tasks (.stack move) after
  | server {move : ServerMove} {after : AllTasks}
      (step : ServerStep tasks move after) :
      MoveStep codec tasks (.server move) after
  | caller {move : CallerMove} {after : AllTasks}
      (step : CallerStep codec tasks move after) :
      MoveStep codec tasks (.caller move) after

theorem step_cases
    {move : Move} {output : Unit}
    (stepped : tasks.step codec move = some (after, output)) :
    MoveStep codec tasks move after := by
  cases move with
  | endpoint move =>
      rcases Option.map_eq_some_iff.mp stepped with ⟨_, moved, same⟩
      cases same
      exact .endpoint (endpointStep_cases moved)
  | stack move =>
      rcases Option.map_eq_some_iff.mp stepped with ⟨_, moved, same⟩
      cases same
      exact .stack (stackStep_cases moved)
  | server move =>
      rcases Option.map_eq_some_iff.mp stepped with ⟨_, moved, same⟩
      cases same
      exact .server (serverStep_cases moved)
  | caller move =>
      rcases Option.map_eq_some_iff.mp stepped with ⟨_, moved, same⟩
      cases same
      exact .caller (callerStep_cases moved)

end AllTasks

end Coapable.Tasks
