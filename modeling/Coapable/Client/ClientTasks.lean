import Coapable.Foundation.Channel
import Coapable.RequestRoundTrip
import Coapable.Transport.Conservation
import Coapable.Transport.StackTask

/-!
# Callers and the stack task

`ClientRequestBuilder::send` hands its request to the task of the stack over
a bounded channel, together with the sending half of a one-shot channel, and
awaits the receiving half for a limited time.  Any number of callers do so
beside the one task of the stack; they form a machine whose input says who
moves, and when.

A one-shot channel is numbered when its request enters the bounded channel.
Its sending half then waits in that channel, in an exchange of the loop or in
a result that the current body is about to send.  Where it is in none of
these and sent nothing, it was dropped, and the receiving half sees that.
-/

namespace Coapable.Client

open Coapable.CoapLite
open Coapable.Foundation
open Coapable.Foundation.Execution
open Coapable.MessageTypes
open Coapable.Transport

/-! ## Requests -/

/-- The errors of `send`, beside those of the transport and of a message. -/
inductive ClientError where
  | transport (error : TransportError)
  | message (error : MessageError)
  /-- response channel closed unexpectedly -/
  | channelClosed
  /-- request timed out -/
  | timeout
  deriving DecidableEq

/-- What `send` hands to the client interface: a request with its peer. -/
structure ClientRequest where
  peer : SocketAddr
  request : CoapRequest
  deriving DecidableEq

/-- Builds a CoAP request.  Requests are confirmable by default. -/
structure ClientRequestBuilder where
  peer : SocketAddr
  base : CoapRequestBuilder
  timeout : Nat

namespace ClientRequestBuilder

/-- A builder with the default timeout of five seconds. -/
def new (peer : SocketAddr) (method : RequestType) :
    ClientRequestBuilder where
  peer := peer
  base := .new method
  timeout := fromSecs 5

/-- Set the request path. -/
def path (builder : ClientRequestBuilder) (path : String) :
    ClientRequestBuilder :=
  { builder with base := builder.base.path path }

/-- Add a query parameter, written as `key=value`. -/
def query (builder : ClientRequestBuilder) (key value : String) :
    ClientRequestBuilder :=
  { builder with base := builder.base.query (key ++ "=" ++ value) }

/-- Set the request payload. -/
def payload (builder : ClientRequestBuilder) (data : Bytes) :
    ClientRequestBuilder :=
  { builder with base := builder.base.payload data }

/-- Set the content format of the payload. -/
def contentFormat (builder : ClientRequestBuilder)
    (format : ContentFormat) : ClientRequestBuilder :=
  { builder with base := builder.base.contentFormat format }

/-- Set the content format the client accepts. -/
def accept (builder : ClientRequestBuilder) (format : ContentFormat) :
    ClientRequestBuilder :=
  { builder with base := builder.base.accept format }

/-- Set whether the request is sent as a CON. -/
def confirmable (builder : ClientRequestBuilder) (confirm : Bool) :
    ClientRequestBuilder :=
  { builder with base := builder.base.confirmable confirm }

/-- Set how long `send` waits for the response, once it was handed over. -/
def withTimeout (builder : ClientRequestBuilder) (timeout : Nat) :
    ClientRequestBuilder :=
  { builder with timeout := timeout }

/-- The request that `send` hands over. -/
def clientRequest (builder : ClientRequestBuilder) : ClientRequest :=
  ⟨builder.peer, builder.base.build⟩

end ClientRequestBuilder

namespace CoapClient

/-- Start building a GET request. -/
def get (peer : SocketAddr) : ClientRequestBuilder := .new peer .get

/-- Start building a POST request. -/
def post (peer : SocketAddr) : ClientRequestBuilder := .new peer .post

/-- Start building a PUT request. -/
def put (peer : SocketAddr) : ClientRequestBuilder := .new peer .put

/-- Start building a DELETE request. -/
def delete (peer : SocketAddr) : ClientRequestBuilder := .new peer .delete

end CoapClient

/-! ## The tasks -/

/-- Where a call of `send` stands. -/
inductive Call where
  /-- at `outbound_sender.send`, in `send_request` -/
  | sending (request : ClientRequest) (timeout : Nat)
  /-- at the receiving half of its one-shot channel, until a deadline -/
  | awaiting (receiver : ResponseSender) (deadline : Nat)
  | done (result : Except ClientError CoapResponse)
  deriving DecidableEq

/-- The call of `send` has returned. -/
def Call.isDone : Call → Bool
  | .done _ => true
  | _ => false

/-- The calls of `send`, the bounded channel of their requests and the task of
the stack that takes them. -/
structure ClientTasks where
  clock : Nat
  /-- Every call that was ever made, the oldest first. -/
  calls : List Call
  requests : Channel OutboundRequest channelCapacity
  /-- How many requests entered the bounded channel. -/
  channels : Nat
  /-- What was sent on the one-shot channels. -/
  results : List Delivery
  /-- The task of the stack, `none` once it has ended. -/
  stack : Option StackTask

namespace ClientTasks

/-- Who moves, and how. -/
inductive Move where
  /-- a caller calls `send` -/
  | call (builder : ClientRequestBuilder)
  /-- a caller: `send_request` completes -/
  | hand (index : Nat) (now : Nat)
  /-- a caller: the limited wait for the response completes -/
  | settle (index : Nat) (now : Nat)
  /-- the stack task: `select!` takes a branch -/
  | take (iteration : Iteration)
  /-- the stack task: the send it stands at completes -/
  | perform
  /-- the stack task: `select!` takes a branch that ends the task -/
  | exit (iteration : Iteration)
  /-- the stack task: the endpoint is gone and `send_packet` fails -/
  | fail

/-- `outbound_request_receiver.recv`: the branch takes the oldest request,
and the end of the channel only when no caller is left. -/
def fetch (tasks : ClientTasks) :
    Branch → Option (Channel OutboundRequest channelCapacity)
  | .outboundRequest (some outbound) =>
      match tasks.requests.receive with
      | some (oldest, rest) => if oldest = outbound then some rest else none
      | none => none
  | .outboundRequest none =>
      if tasks.requests.items = [] ∧ tasks.calls.all Call.isDone then
        some tasks.requests
      else none
  | _ => some tasks.requests

/-- The channel is the one of a result that is about to be sent. -/
def isDelivery (sender : ResponseSender) : Effect → Bool
  | .deliver delivery => delivery.sender = sender
  | _ => false

/-- The sending half of the channel exists. -/
def Held (tasks : ClientTasks) (sender : ResponseSender) : Prop :=
  sender ∈ tasks.requests.items.map OutboundRequest.responseTx ∨
    ∃ task ∈ tasks.stack, sender ∈ task.loop.stack.senders ∨
      task.pending.any (isDelivery sender) = true

instance (tasks : ClientTasks) (sender : ResponseSender) :
    Decidable (tasks.Held sender) :=
  inferInstanceAs (Decidable (_ ∨ _))

/-- What a caller makes of the result it received. -/
def received (delivery : Delivery) : Except ClientError CoapResponse :=
  delivery.result.mapError .transport

/-- `timeout(response_rx)`, `none` while it waits: first the receiving half is
looked at, then the time. -/
def await (tasks : ClientTasks) (receiver : ResponseSender)
    (deadline now : Nat) : Option (Except ClientError CoapResponse) :=
  match tasks.results.find? fun delivery => delivery.sender = receiver with
  | some delivery => some (received delivery)
  | none =>
      if tasks.Held receiver then
        if deadline ≤ now then some (.error .timeout) else none
      else some (.error .channelClosed)

/-- The task of the stack has ended, and drops what it owns. -/
def ended (tasks : ClientTasks) (now : Nat) : ClientTasks :=
  { tasks with clock := now, requests := .empty, stack := none }

/-- One move, `none` while it cannot be made.  A send of the stack to the
endpoint or to the server is taken to complete: where it waits, among all
tasks, the stack just does not move. -/
def step (codec : Codec) (tasks : ClientTasks) :
    Move → Option (ClientTasks × Unit)
  | .call builder =>
      some ({ tasks with
        calls := tasks.calls ++
          [.sending builder.clientRequest builder.timeout] }, ())
  | .hand index now =>
      match tasks.calls[index]?, tasks.stack with
      | some (.sending request timeout), some _ =>
          if tasks.clock ≤ now then
            (tasks.requests.send
                ⟨request.request, request.peer, ⟨tasks.channels⟩⟩).map
              fun requests =>
                ({ tasks with
                  clock := now
                  calls := tasks.calls.set index
                    (.awaiting ⟨tasks.channels⟩ (now + timeout))
                  requests := requests
                  channels := tasks.channels + 1 }, ())
          else none
      | some (.sending _ _), none =>
          if tasks.clock ≤ now then
            some ({ tasks with
              clock := now
              calls := tasks.calls.set index
                (.done (.error (.transport .endpointClosed))) }, ())
          else none
      | _, _ => none
  | .settle index now =>
      match tasks.calls[index]? with
      | some (.awaiting receiver deadline) =>
          if tasks.clock ≤ now then
            (tasks.await receiver deadline now).map fun result =>
              ({ tasks with
                clock := now
                calls := tasks.calls.set index (.done result) }, ())
          else none
      | _ => none
  | .take iteration =>
      match tasks.stack, tasks.fetch iteration.branch with
      | some task, some requests =>
          if tasks.clock ≤ iteration.now then
            (task.take codec iteration).map fun task =>
              ({ tasks with
                clock := iteration.now
                requests := requests
                stack := some task }, ())
          else none
      | _, _ => none
  | .perform =>
      match tasks.stack with
      | some task =>
          task.awaited.map fun effect =>
            ({ tasks with
              results := tasks.results ++ effect.delivery?.toList
              stack := some task.proceed }, ())
      | none => none
  | .exit iteration =>
      match tasks.stack, tasks.fetch iteration.branch with
      | some task, some _ =>
          if tasks.clock ≤ iteration.now ∧ task.pending = [] ∧
              task.loop.Admits iteration ∧
                (task.loop.stack.branchBody codec iteration).isOk = false
          then some (tasks.ended iteration.now, ())
          else none
      | _, _ => none
  | .fail =>
      match tasks.stack with
      | some task =>
          if (task.awaited.map Effect.isSendPacket).getD false then
            some (tasks.ended tasks.clock, ())
          else none
      | none => none

/-- The task of the stack as it is spawned, and no caller yet. -/
def start (now : Nat) : ClientTasks where
  clock := now
  calls := []
  requests := .empty
  channels := 0
  results := []
  stack := some (.start now)

end ClientTasks

/-- Any number of callers beside the task of the stack. -/
def clientMachine (codec : Codec) :
    Machine ClientTasks ClientTasks.Move Unit where
  Initial tasks := ∃ now, tasks = ClientTasks.start now
  step := ClientTasks.step codec

/-- One move that was made by a caller or the stack. -/
abbrev ClientTransition := Transition ClientTasks ClientTasks.Move Unit

/-- The runs of callers and stack, newest move first. -/
abbrev ClientRun (codec : Codec) := Run (clientMachine codec)

/-! ## What a move can do -/

namespace ClientTasks

/-- The moves that complete, one constructor for each way. -/
inductive MoveStep (codec : Codec) (tasks : ClientTasks) :
    Move → ClientTasks → Prop where
  | called {builder : ClientRequestBuilder} :
      MoveStep codec tasks (.call builder)
        { tasks with
          calls := tasks.calls ++
            [.sending builder.clientRequest builder.timeout] }
  | handed {index now : Nat} {request : ClientRequest} {timeout : Nat}
      {task : StackTask}
      {requests : Channel OutboundRequest channelCapacity}
      (isCall : tasks.calls[index]? = some (.sending request timeout))
      (alive : tasks.stack = some task)
      (clock : tasks.clock ≤ now)
      (sent : tasks.requests.send
        ⟨request.request, request.peer, ⟨tasks.channels⟩⟩ =
          some requests) :
      MoveStep codec tasks (.hand index now)
        { tasks with
          clock := now
          calls := tasks.calls.set index
            (.awaiting ⟨tasks.channels⟩ (now + timeout))
          requests := requests
          channels := tasks.channels + 1 }
  | refused {index now : Nat} {request : ClientRequest} {timeout : Nat}
      (isCall : tasks.calls[index]? = some (.sending request timeout))
      (noTask : tasks.stack = none)
      (clock : tasks.clock ≤ now) :
      MoveStep codec tasks (.hand index now)
        { tasks with
          clock := now
          calls := tasks.calls.set index
            (.done (.error (.transport .endpointClosed))) }
  | settled {index now : Nat} {receiver : ResponseSender}
      {deadline : Nat} {result : Except ClientError CoapResponse}
      (isCall : tasks.calls[index]? = some (.awaiting receiver deadline))
      (clock : tasks.clock ≤ now)
      (awaited : tasks.await receiver deadline now = some result) :
      MoveStep codec tasks (.settle index now)
        { tasks with
          clock := now
          calls := tasks.calls.set index (.done result) }
  | taken {iteration : Iteration} {task after : StackTask}
      {requests : Channel OutboundRequest channelCapacity}
      (alive : tasks.stack = some task)
      (fetched : tasks.fetch iteration.branch = some requests)
      (clock : tasks.clock ≤ iteration.now)
      (takes : task.take codec iteration = some after) :
      MoveStep codec tasks (.take iteration)
        { tasks with
          clock := iteration.now
          requests := requests
          stack := some after }
  | performed {task : StackTask} {effect : Effect}
      (alive : tasks.stack = some task)
      (awaits : task.awaited = some effect) :
      MoveStep codec tasks .perform
        { tasks with
          results := tasks.results ++ effect.delivery?.toList
          stack := some task.proceed }
  | exited {iteration : Iteration} {task : StackTask}
      (alive : tasks.stack = some task)
      (clock : tasks.clock ≤ iteration.now)
      (idle : task.pending = []) :
      MoveStep codec tasks (.exit iteration) (tasks.ended iteration.now)
  | failed {task : StackTask} {packet : Bytes} {peer : SocketAddr}
      (alive : tasks.stack = some task)
      (awaits : task.awaited = some (.sendPacket packet peer)) :
      MoveStep codec tasks .fail (tasks.ended tasks.clock)

variable {codec : Codec} {tasks after : ClientTasks}

theorem step_cases
    {move : Move} {output : Unit}
    (stepped : tasks.step codec move = some (after, output)) :
    MoveStep codec tasks move after := by
  cases move with
  | call builder =>
      cases stepped
      exact .called
  | hand index now =>
      simp only [step] at stepped
      split at stepped
      · next request timeout task isCall alive =>
          split at stepped
          · next clock =>
              rcases Option.map_eq_some_iff.mp stepped with
                ⟨requests, sent, equal⟩
              cases equal
              exact .handed isCall alive clock sent
          · cases stepped
      · next request timeout isCall noTask =>
          split at stepped
          · next clock =>
              cases stepped
              exact .refused isCall noTask clock
          · cases stepped
      · cases stepped
  | settle index now =>
      simp only [step] at stepped
      split at stepped
      · next receiver deadline isCall =>
          split at stepped
          · next clock =>
              rcases Option.map_eq_some_iff.mp stepped with
                ⟨result, awaited, equal⟩
              cases equal
              exact .settled isCall clock awaited
          · cases stepped
      · cases stepped
  | take iteration =>
      simp only [step] at stepped
      split at stepped
      · next task requests alive fetched =>
          split at stepped
          · next clock =>
              rcases Option.map_eq_some_iff.mp stepped with
                ⟨taken, takes, equal⟩
              cases equal
              exact .taken alive fetched clock takes
          · cases stepped
      · cases stepped
  | perform =>
      simp only [step] at stepped
      split at stepped
      · next task alive =>
          rcases Option.map_eq_some_iff.mp stepped with
            ⟨effect, awaits, equal⟩
          cases equal
          exact .performed alive awaits
      · cases stepped
  | exit iteration =>
      simp only [step] at stepped
      split at stepped
      · next task requests alive fetched =>
          split at stepped
          · next ends =>
              cases stepped
              exact .exited alive ends.1 ends.2.1
          · cases stepped
      · cases stepped
  | fail =>
      simp only [step] at stepped
      split at stepped
      · next task alive =>
          split at stepped
          · next sends =>
              cases stepped
              cases awaits : task.awaited with
              | none => simp [awaits] at sends
              | some effect =>
                  cases effect with
                  | sendPacket packet peer => exact .failed alive awaits
                  | sendRequest _ | deliver _ =>
                      simp [awaits, Effect.isSendPacket] at sends
          · cases stepped
      · cases stepped

end ClientTasks

end Coapable.Client
