import Coapable.Transport.StackTask

/-!
# Stacks that exchange datagrams

At every address runs a stack with a server task.  A datagram that was sent
stays in flight for good: the network may deliver it at any time, any number
of times, in any order, or never.  A datagram is read into a buffer of
`receiveBuffer` bytes, what does not fit is cut off.

A machine of this kind runs one branch of a stack at a time, with all the
sends of its body.  A send that would wait is covered: the network holds a
datagram as long as it likes, and the server task takes a request when it
likes.  A dispatched request carries the datagram it was read from, which no
code looks at; it says whose request a handler is answering.
-/

namespace Coapable.EndToEnd

open Coapable.CoapLite
open Coapable.Foundation.Execution
open Coapable.MessageTypes
open Coapable.Transport

/-- A datagram on its way. -/
structure UdpDatagram where
  source : SocketAddr
  target : SocketAddr
  bytes : Bytes
  deriving DecidableEq

/-- A request handed to the server task, with the datagram it was read
from. -/
structure Dispatch where
  request : ServerRequest
  datagram : Bytes
  deriving DecidableEq

/-- A stack, its server task and the two channels between them, oldest item
first. -/
structure Node where
  loop : Loop
  requests : List Dispatch
  /-- The request whose handler runs. -/
  handling : Option Dispatch
  responses : List ServerResponse

/-- A node at every address, and the datagrams in flight. -/
structure Network where
  nodes : SocketAddr → Node
  /-- Every datagram that was ever sent. -/
  sent : List UdpDatagram

/-- What happens next, and where. -/
inductive Move where
  /-- The stack at the target of a datagram receives it. -/
  | deliver (datagram : UdpDatagram) (iteration : Iteration)
  /-- A stack runs another of its branches. -/
  | run (address : SocketAddr) (iteration : Iteration)
  /-- A server task takes its oldest request. -/
  | accept (address : SocketAddr)
  /-- A handler finishes and the server task sends what it returned. -/
  | answer (address : SocketAddr) (response : Option CoapResponse)

/-- The branch that a move runs, and where. -/
def Move.iteration? : Move → Option (SocketAddr × Iteration)
  | .deliver datagram iteration => some (datagram.target, iteration)
  | .run address iteration => some (address, iteration)
  | .accept _ | .answer _ _ => none

/-! ## One node -/

/-- The bytes the inbound branch reads. -/
def receivedBytes (iteration : Iteration) : Bytes :=
  match iteration.branch with
  | .inbound raw _ => raw
  | _ => []

/-- The request an effect hands to the server task. -/
def dispatch? (datagram : Bytes) : Effect → Option Dispatch
  | .sendRequest request => some ⟨request, datagram⟩
  | _ => none

/-- The datagram an effect puts into flight. -/
def datagram? (source : SocketAddr) : Effect → Option UdpDatagram
  | .sendPacket bytes target => some ⟨source, target, bytes⟩
  | _ => none

namespace Node

/-- A node as it is spawned. -/
def start (now : Nat) : Node where
  loop := Loop.start now
  requests := []
  handling := none
  responses := []

/-- Where a branch takes what it received: the response branch takes the
oldest answer, a datagram comes from the network only. -/
def fetch (node : Node) : Branch → Option Node
  | .inbound _ _ => none
  | .outboundResponse (some response) =>
      match node.responses with
      | oldest :: rest =>
          if oldest = response then some { node with responses := rest }
          else none
      | [] => none
  | .outboundResponse none => none
  | _ => some node

/-- The node after a branch of its stack. -/
def advance (node : Node) (iteration : Iteration) (loop : Loop)
    (effects : List Effect) : Node :=
  { node with
    loop := loop
    requests := node.requests ++
      effects.filterMap (dispatch? (receivedBytes iteration)) }

end Node

/-! ## The network -/

namespace Network

/-- The network with another node at the address. -/
def put (network : Network) (address : SocketAddr) (node : Node) :
    Network :=
  { network with
    nodes := fun other =>
      if other = address then node else network.nodes other }

/-- A branch of the stack of a node, with everything it sends. -/
def iterate (codec : Codec) (network : Network) (address : SocketAddr)
    (node : Node) (iteration : Iteration) :
    Option (Network × List Effect) :=
  (node.loop.step codec iteration).map fun (loop, effects) =>
    ({ network.put address (node.advance iteration loop effects) with
      sent := network.sent ++ effects.filterMap (datagram? address) },
      effects)

/-- One move, `none` while it cannot be made. -/
def step (codec : Codec) (network : Network) :
    Move → Option (Network × List Effect)
  | .deliver datagram iteration =>
      if datagram ∈ network.sent ∧
          iteration.branch =
            .inbound (datagram.bytes.take receiveBuffer)
              datagram.source then
        network.iterate codec datagram.target
          (network.nodes datagram.target) iteration
      else none
  | .run address iteration =>
      match (network.nodes address).fetch iteration.branch with
      | some node => network.iterate codec address node iteration
      | none => none
  | .accept address =>
      let node := network.nodes address
      match node.handling, node.requests with
      | none, oldest :: rest =>
          some (network.put address
            { node with handling := some oldest, requests := rest }, [])
      | _, _ => none
  | .answer address response =>
      let node := network.nodes address
      match node.handling with
      | some dispatch =>
          some (network.put address
            { node with
              handling := none
              responses := node.responses ++
                (response.map fun response =>
                  ⟨response, dispatch.request.peer,
                    dispatch.request.token⟩).toList }, [])
      | none => none

/-- Nothing was sent yet and every task has just been spawned. -/
structure Fresh (network : Network) : Prop where
  nodes : ∀ address, ∃ now, network.nodes address = Node.start now
  sent : network.sent = []

end Network

/-- The network as a machine. -/
def networkMachine (codec : Codec) :
    Machine Network Move (List Effect) where
  Initial network := network.Fresh
  step := Network.step codec

/-- One move that was made in the network. -/
abbrev NetworkTransition := Transition Network Move (List Effect)

/-- The runs of the network, newest move first. -/
abbrev NetworkRun (codec : Codec) := Run (networkMachine codec)

/-! ## What a move can do -/

namespace Network

variable {codec : Codec} {network after : Network}

@[simp]
theorem put_nodes
    (network : Network) (address other : SocketAddr) (node : Node) :
    (network.put address node).nodes other =
      if other = address then node else network.nodes other :=
  rfl

/-- Taking an answer changes neither the stack nor the requests. -/
theorem fetch_frame
    {node fetched : Node} {branch : Branch}
    (isFetched : node.fetch branch = some fetched) :
    fetched.loop = node.loop ∧ fetched.requests = node.requests ∧
      fetched.handling = node.handling ∧
      ∀ response ∈ fetched.responses, response ∈ node.responses := by
  simp only [Node.fetch] at isFetched
  split at isFetched
  · cases isFetched
  · split at isFetched
    · next oldest rest queued =>
        split at isFetched
        · cases isFetched
          refine ⟨rfl, rfl, rfl, fun response member => ?_⟩
          rw [queued]
          exact List.mem_cons_of_mem _ member
        · cases isFetched
    · cases isFetched
  · cases isFetched
  · cases isFetched
    exact ⟨rfl, rfl, rfl, fun _ member => member⟩

/-- The answer that the response branch takes was queued. -/
theorem mem_responses_of_fetch
    {node fetched : Node} {response : ServerResponse}
    (isFetched :
      node.fetch (.outboundResponse (some response)) = some fetched) :
    response ∈ node.responses := by
  simp only [Node.fetch] at isFetched
  split at isFetched
  · next oldest rest queued =>
      split at isFetched
      · next equal =>
          rw [queued, ← equal]
          exact List.mem_cons_self
      · cases isFetched
  · cases isFetched

/-- What running a branch of the stack at an address can do. -/
structure Iterated (codec : Codec) (network : Network)
    (address : SocketAddr) (iteration : Iteration)
    (after : Network) (effects : List Effect) : Prop where
  stepped : (network.nodes address).loop.step codec iteration =
    some ((after.nodes address).loop, effects)
  requests : (after.nodes address).requests =
    (network.nodes address).requests ++
      effects.filterMap (dispatch? (receivedBytes iteration))
  handling :
    (after.nodes address).handling = (network.nodes address).handling
  responses : ∀ response ∈ (after.nodes address).responses,
    response ∈ (network.nodes address).responses
  others : ∀ other, other ≠ address →
    after.nodes other = network.nodes other
  sent : after.sent =
    network.sent ++ effects.filterMap (datagram? address)
  queued : ∀ response,
    iteration.branch = .outboundResponse (some response) →
      response ∈ (network.nodes address).responses

theorem iterated_of_iterate
    {address : SocketAddr} {node : Node} {iteration : Iteration}
    {effects : List Effect}
    (iterates :
      network.iterate codec address node iteration =
        some (after, effects))
    (loop : node.loop = (network.nodes address).loop)
    (requests : node.requests = (network.nodes address).requests)
    (handling : node.handling = (network.nodes address).handling)
    (responses : ∀ response ∈ node.responses,
      response ∈ (network.nodes address).responses)
    (queued : ∀ response,
      iteration.branch = .outboundResponse (some response) →
        response ∈ (network.nodes address).responses) :
    Iterated codec network address iteration after effects := by
  rcases Option.map_eq_some_iff.mp iterates with
    ⟨⟨loopAfter, emitted⟩, stepped, equal⟩
  injection equal with isAfter isEffects
  subst isEffects
  have isNode :
      after.nodes address = node.advance iteration loopAfter emitted := by
    rw [← isAfter]
    exact if_pos rfl
  refine ⟨?_, ?_, ?_, ?_, ?_, ?_, queued⟩
  · rw [isNode, ← loop]
    exact stepped
  · rw [isNode, ← requests]
    rfl
  · rw [isNode]
    exact handling
  · rw [isNode]
    exact responses
  · intro other distinct
    rw [← isAfter]
    exact if_neg distinct
  · rw [← isAfter]

/-- The moves that complete, one constructor for each way. -/
inductive MoveStep (codec : Codec) (network : Network) :
    Move → Network → List Effect → Prop where
  | delivered {datagram : UdpDatagram} {iteration : Iteration}
      {after : Network} {effects : List Effect}
      (inFlight : datagram ∈ network.sent)
      (taken : iteration.branch =
        .inbound (datagram.bytes.take receiveBuffer) datagram.source)
      (iterated : Iterated codec network datagram.target iteration after
        effects) :
      MoveStep codec network (.deliver datagram iteration) after effects
  | ran {address : SocketAddr} {iteration : Iteration}
      {after : Network} {effects : List Effect}
      (notInbound : ∀ raw peer, iteration.branch ≠ .inbound raw peer)
      (iterated : Iterated codec network address iteration after
        effects) :
      MoveStep codec network (.run address iteration) after effects
  | accepted {address : SocketAddr} {oldest : Dispatch}
      {rest : List Dispatch}
      (free : (network.nodes address).handling = none)
      (queued : (network.nodes address).requests = oldest :: rest) :
      MoveStep codec network (.accept address)
        (network.put address
          { network.nodes address with
            handling := some oldest
            requests := rest }) []
  | answered {address : SocketAddr} {response : Option CoapResponse}
      {dispatch : Dispatch}
      (handles : (network.nodes address).handling = some dispatch) :
      MoveStep codec network (.answer address response)
        (network.put address
          { network.nodes address with
            handling := none
            responses := (network.nodes address).responses ++
              (response.map fun response =>
                ⟨response, dispatch.request.peer,
                  dispatch.request.token⟩).toList }) []

theorem step_cases
    {move : Move} {effects : List Effect}
    (stepped : network.step codec move = some (after, effects)) :
    MoveStep codec network move after effects := by
  cases move with
  | deliver datagram iteration =>
      simp only [step] at stepped
      split at stepped
      · next arrives =>
          refine .delivered arrives.1 arrives.2
            (iterated_of_iterate stepped rfl rfl rfl
              (fun _ member => member) ?_)
          intro response taken
          exact nomatch taken.symm.trans arrives.2
      · cases stepped
  | run address iteration =>
      simp only [step] at stepped
      split at stepped
      · next node fetched =>
          rcases fetch_frame fetched with
            ⟨loop, requests, handling, responses⟩
          refine .ran ?_
            (iterated_of_iterate stepped loop requests handling responses
              ?_)
          · intro raw peer taken
            rw [taken] at fetched
            cases fetched
          · intro response taken
            rw [taken] at fetched
            exact mem_responses_of_fetch fetched
      · cases stepped
  | accept address =>
      simp only [step] at stepped
      split at stepped
      · next oldest rest free queued =>
          cases stepped
          exact .accepted free queued
      · cases stepped
  | answer address response =>
      simp only [step] at stepped
      split at stepped
      · next dispatch handles =>
          cases stepped
          exact .answered handles
      · cases stepped

/-- Every branch that ran, wherever it got its input from. -/
theorem MoveStep.iterated_of_iteration?
    {move : Move} {effects : List Effect}
    (step : MoveStep codec network move after effects)
    {address : SocketAddr} {iteration : Iteration}
    (runs : move.iteration? = some (address, iteration)) :
    Iterated codec network address iteration after effects := by
  cases step with
  | delivered inFlight taken iterated =>
      injection runs with equal
      injection equal with isAddress isIteration
      subst isAddress
      subst isIteration
      exact iterated
  | ran notInbound iterated =>
      injection runs with equal
      injection equal with isAddress isIteration
      subst isAddress
      subst isIteration
      exact iterated
  | accepted free queued => cases runs
  | answered handles => cases runs

end Network

end Coapable.EndToEnd
