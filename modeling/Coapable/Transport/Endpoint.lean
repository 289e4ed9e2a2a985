import Coapable.Transport.EndpointTasks

/-!
# An endpoint and its owner

`CoapEndpoint` is public: whoever owns one passes byte strings to
`send_packet` and takes what arrived from `recv_packet`.  A stack is one such
owner, and passes nothing but what the codec encoded; another owner may pass
any bytes.  Either way the endpoint sends, as one datagram each, what it was
passed, whole and in order.
-/

namespace Coapable.Transport

open Coapable.CoapLite
open Coapable.Foundation
open Coapable.Foundation.Execution
open Coapable.MessageTypes

/-- The endpoint task and the two channels to its owner. -/
structure CoapEndpoint where
  /-- The datagram the task is about to forward, inside the body of its first
  branch. -/
  inHand : Option Datagram
  inbound : Channel Datagram channelCapacity
  outbound : Channel Datagram channelCapacity

namespace CoapEndpoint

/-- What the task and its owner do. -/
inductive Move where
  /-- the task: `socket.recv_from` -/
  | receive (datagram : Bytes) (peer : SocketAddr)
  /-- the task: `inbound_sender.send` completes -/
  | forward
  /-- the task: `outbound_receiver.recv`, then `socket.send_to` -/
  | transmit
  /-- the owner: `send_packet` completes -/
  | sendPacket (packet : Bytes) (peer : SocketAddr)
  /-- the owner: `recv_packet` completes -/
  | recvPacket

/-- One move, `none` while it has to wait.  As for the endpoint beside a
stack, a socket error ends the task and with it the runs considered here. -/
def step (endpoint : CoapEndpoint) : Move → Option (CoapEndpoint × Unit)
  | .receive datagram peer =>
      match endpoint.inHand with
      | some _ => none
      | none =>
          some ({ endpoint with
            inHand := some (datagram.take receiveBuffer, peer) }, ())
  | .forward =>
      match endpoint.inHand with
      | some datagram =>
          (endpoint.inbound.send datagram).map fun inbound =>
            ({ endpoint with inHand := none, inbound := inbound }, ())
      | none => none
  | .transmit =>
      match endpoint.inHand with
      | some _ => none
      | none =>
          endpoint.outbound.receive.map fun (_, outbound) =>
            ({ endpoint with outbound := outbound }, ())
  | .sendPacket packet peer =>
      (endpoint.outbound.send (packet, peer)).map fun outbound =>
        ({ endpoint with outbound := outbound }, ())
  | .recvPacket =>
      endpoint.inbound.receive.map fun (_, inbound) =>
        ({ endpoint with inbound := inbound }, ())

/-- The endpoint that `CoapEndpoint::start` returns. -/
def start : CoapEndpoint where
  inHand := none
  inbound := .empty
  outbound := .empty

/-- The endpoint and an arbitrary owner. -/
def machine : Machine CoapEndpoint CoapEndpoint.Move Unit where
  Initial endpoint := endpoint = start
  step := CoapEndpoint.step

theorem initial_start : machine.Initial start :=
  rfl

/-- One move that was made. -/
abbrev EndpointMove := Transition CoapEndpoint CoapEndpoint.Move Unit

/-- The byte string that the owner passes to `send_packet`. -/
def passedBy (transition : EndpointMove) : List Datagram :=
  match transition.input with
  | .sendPacket packet peer => [(packet, peer)]
  | _ => []

/-- The datagram that the task sends on the socket. -/
def datagramOf (transition : EndpointMove) : List Datagram :=
  match transition.input with
  | .transmit => transition.before.outbound.items.head?.toList
  | _ => []

/-- What the owner passed to `send_packet`, oldest first. -/
def passed (history : List EndpointMove) : List Datagram :=
  collected passedBy history

/-- The datagrams that the task sent, oldest first. -/
def datagrams (history : List EndpointMove) : List Datagram :=
  collected datagramOf history

/-- A move takes from the front of the outbound channel what it sends, and
adds at its end what it was passed. -/
theorem outbound_of_step
    {transition : EndpointMove}
    (stepped : transition.before.step transition.input =
      some (transition.after, transition.output)) :
    datagramOf transition ++ transition.after.outbound.items =
      transition.before.outbound.items ++ passedBy transition := by
  rcases transition with ⟨before, input, output, after⟩
  cases input with
  | receive datagram peer =>
      simp only [step] at stepped
      split at stepped
      · cases stepped
      · cases stepped
        simp [datagramOf, passedBy]
  | forward =>
      simp only [step] at stepped
      split at stepped
      · rcases Option.map_eq_some_iff.mp stepped with
          ⟨inbound, sent, equal⟩
        cases equal
        simp [datagramOf, passedBy]
      · cases stepped
  | transmit =>
      simp only [step] at stepped
      split at stepped
      · cases stepped
      · rcases Option.map_eq_some_iff.mp stepped with
          ⟨⟨datagram, outbound⟩, received, equal⟩
        cases equal
        simp [datagramOf, passedBy, Channel.receive_eq_some_iff.mp received]
  | sendPacket packet peer =>
      simp only [step] at stepped
      rcases Option.map_eq_some_iff.mp stepped with
        ⟨outbound, sent, equal⟩
      cases equal
      simp [datagramOf, passedBy, (Channel.send_eq_some sent).2]
  | recvPacket =>
      simp only [step] at stepped
      rcases Option.map_eq_some_iff.mp stepped with
        ⟨⟨datagram, inbound⟩, received, equal⟩
      cases equal
      simp [datagramOf, passedBy]

/-- The datagrams that are sent are what `send_packet` was passed, whole and
in order. -/
theorem datagrams_append_outbound
    {history : List EndpointMove} {endpoint : CoapEndpoint}
    (run : Run machine history endpoint) :
    datagrams history ++ endpoint.outbound.items = passed history :=
  run.collected_append (fun endpoint => endpoint.outbound.items)
    passedBy datagramOf (by rintro _ rfl; rfl)
    (fun _ stepped => outbound_of_step stepped)

/-- Some endpoint sends the bytes as one datagram. -/
def SentByEndpoint (bytes : Bytes) : Prop :=
  ∃ history endpoint, Run machine history endpoint ∧
    ∃ peer, (bytes, peer) ∈ datagrams history

/-- `send_packet` takes bytes of any length, and the task sends them as they
are. -/
theorem sentByEndpoint (bytes : Bytes) : SentByEndpoint bytes := by
  let peer := SocketAddr.loopback 5683
  let passing : CoapEndpoint :=
    { start with outbound := ⟨[(bytes, peer)], by simp [channelCapacity]⟩ }
  have passed : machine.step start (.sendPacket bytes peer) =
      some (passing, ()) := rfl
  have sent : machine.step passing .transmit = some (start, ()) := rfl
  exact ⟨_, _, ((Run.start initial_start).extend passed).extend sent, peer,
    List.mem_singleton_self _⟩

end CoapEndpoint

namespace EndpointTasks

open CoapEndpoint

variable {codec : Codec} {history : List EndpointTransition}
  {tasks : EndpointTasks}

/-! ## The stack as the owner -/

/-- The endpoint of the two tasks. -/
def endpoint (tasks : EndpointTasks) : CoapEndpoint where
  inHand := tasks.inHand
  inbound := tasks.inbound
  outbound := tasks.outbound

/-- What a move of the two tasks is for the endpoint: the stack takes a
packet in its inbound branch and passes one where it sends. -/
def endpointInput? (tasks : EndpointTasks) :
    Move → Option CoapEndpoint.Move
  | .receive datagram peer => some (.receive datagram peer)
  | .forward => some .forward
  | .transmit => some .transmit
  | .take iteration =>
      match iteration.branch with
      | .inbound _ _ => some .recvPacket
      | _ => none
  | .perform =>
      match tasks.stack.awaited with
      | some (.sendPacket packet peer) => some (.sendPacket packet peer)
      | _ => none

/-- The same as a transition of the endpoint. -/
def endpointMove? (transition : EndpointTransition) :
    Option EndpointMove :=
  (endpointInput? transition.before transition.input).map fun input =>
    ⟨transition.before.endpoint, input, (), transition.after.endpoint⟩

/-- Every move of the two tasks is one of the endpoint or leaves it alone. -/
theorem endpoint_of_moveStep
    {after : EndpointTasks} {move : Move}
    (stepped : MoveStep codec tasks move after) :
    (endpointInput? tasks move).elim
      (after.endpoint = tasks.endpoint)
      (fun input =>
        tasks.endpoint.step input = some (after.endpoint, ())) := by
  cases stepped with
  | received free => simp [endpointInput?, CoapEndpoint.step, endpoint, free]
  | forwarded held sent =>
      simp [endpointInput?, CoapEndpoint.step, endpoint, held, sent]
  | transmitted free received =>
      simp [endpointInput?, CoapEndpoint.step, endpoint, free, received]
  | @taken iteration stack inbound fetched takes =>
      cases branch : iteration.branch with
      | inbound raw peer =>
          simp only [branch, fetch] at fetched
          split at fetched
          · next datagram rest received =>
              split at fetched
              · cases fetched
                simp [endpointInput?, CoapEndpoint.step, endpoint, branch,
                  received]
              · cases fetched
          · cases fetched
      | _ =>
          simp only [branch, fetch, Option.some.injEq] at fetched
          simp [endpointInput?, endpoint, branch, fetched]
  | sent awaits sent =>
      simp [endpointInput?, CoapEndpoint.step, endpoint, awaits, sent]
  | @performed effect awaits elsewhere =>
      cases effect with
      | sendPacket => cases elsewhere
      | sendRequest | deliver => simp [endpointInput?, endpoint, awaits]

/-- Beside a stack the endpoint does nothing that it could not do under
another owner. -/
theorem endpointRun_of_run
    (run : Run (endpointMachine codec) history tasks) :
    Run CoapEndpoint.machine (history.filterMap endpointMove?)
      tasks.endpoint := by
  refine run.component endpoint endpointMove? ?_ ?_ ?_
  · rintro _ ⟨now, rfl⟩
    rfl
  · intro before after move output stepped unobserved
    have moved := endpoint_of_moveStep (step_cases stepped)
    rw [Option.map_eq_none_iff.mp unobserved] at moved
    exact moved
  · intro before after move output stepped transition observed
    rcases Option.map_eq_some_iff.mp observed with ⟨input, isInput, rfl⟩
    have moved := endpoint_of_moveStep (step_cases stepped)
    rw [isInput] at moved
    exact ⟨rfl, rfl, moved⟩

end EndpointTasks

end Coapable.Transport
