import Mathlib.Data.Fintype.EquivFin
import Coapable.Transport.Loop

/-!
# The task of the stack, one await at a time

The loop of `CoapStack::start` runs as a task.  A branch body that sends on a
bounded channel waits there when the channel is full, and while it waits the
`select!` polls nothing.  A `StackTask` is the loop together with the effects
of its current body that have not completed: the first of them is the await
point the task stands at, and a branch is taken only when none is left.

Whether an effect may complete is not decided here but by the channel it goes
to.  The module ends with two bodies that are available in every state of the
loop: one that sends a packet and one that dispatches a request.
-/

namespace Coapable.Transport

open Coapable.CoapLite
open Coapable.Foundation.FiniteMap
open Coapable.MessageTypes

/-- The size of the buffer `socket.recv_from` fills. -/
def receiveBuffer : Nat := 2048

/-- The capacity every `mpsc::channel` of the stack and the endpoint is
created with. -/
def channelCapacity : Nat := 100

/-- The loop, and where its task stands in the body of a branch. -/
structure StackTask where
  loop : Loop
  /-- The effects of the current body that did not complete yet, in program
  order. -/
  pending : List Effect
  deriving DecidableEq

namespace StackTask

/-- The spawned task as it enters the loop. -/
def start (now : Nat) : StackTask where
  loop := Loop.start now
  pending := []

/-- The `select!` takes a branch, while the endpoint task is alive. -/
def take (codec : Codec) (task : StackTask) (iteration : Iteration) :
    Option StackTask :=
  if task.pending = [] ∧ iteration.endpointOpen = true then
    (task.loop.step codec iteration).map fun (loop, effects) =>
      ⟨loop, effects⟩
  else none

/-- The await point the task stands at. -/
def awaited (task : StackTask) : Option Effect :=
  task.pending.head?

/-- The effect at the await point has completed. -/
def proceed (task : StackTask) : StackTask :=
  { task with pending := task.pending.tail }

/-- A task that stands at no await point is between two iterations. -/
theorem awaited_eq_none_iff (task : StackTask) :
    task.awaited = none ↔ task.pending = [] :=
  List.head?_eq_none_iff

theorem pending_of_awaited
    {task : StackTask} {effect : Effect}
    (awaits : task.awaited = some effect) :
    task.pending = effect :: task.proceed.pending := by
  rcases List.head?_eq_some_iff.mp awaits with ⟨rest, pending⟩
  simp only [proceed, pending, List.tail_cons]

theorem take_of_step
    {codec : Codec} {task : StackTask} {iteration : Iteration}
    {loop : Loop} {effects : List Effect}
    (idle : task.pending = []) (endpoint : iteration.endpointOpen = true)
    (stepped : task.loop.step codec iteration = some (loop, effects)) :
    task.take codec iteration = some ⟨loop, effects⟩ := by
  simp only [take, idle, endpoint, and_self, if_true, stepped,
    Option.map_some]

/-- A branch is taken only by a task whose last body is done. -/
theorem pending_of_take
    {codec : Codec} {task taken : StackTask} {iteration : Iteration}
    (takes : task.take codec iteration = some taken) :
    task.pending = [] := by
  simp only [take] at takes
  split at takes
  · next idle => exact idle.1
  · cases takes

/-- A taken branch is a step of the loop, and its effects are pending. -/
theorem step_of_take
    {codec : Codec} {task taken : StackTask} {iteration : Iteration}
    (takes : task.take codec iteration = some taken) :
    task.loop.step codec iteration = some (taken.loop, taken.pending) := by
  simp only [take] at takes
  split at takes
  · rcases Option.map_eq_some_iff.mp takes with
      ⟨⟨loop, effects⟩, stepped, rfl⟩
    exact stepped
  · cases takes

/-- A branch that is admitted can be taken, unless its body ends the task. -/
theorem exists_take_or_ends
    (codec : Codec) {task : StackTask} {iteration : Iteration}
    (idle : task.pending = []) (endpoint : iteration.endpointOpen = true)
    (admitted : task.loop.Admits iteration) :
    (∃ taken, task.take codec iteration = some taken) ∨
      ∃ exit, task.loop.stack.branchBody codec iteration = .error exit := by
  cases body : task.loop.stack.branchBody codec iteration with
  | error exit => exact .inr ⟨exit, rfl⟩
  | ok result =>
      have stepped : ∃ next, task.loop.step codec iteration = some next := by
        simp only [Loop.step, if_pos admitted, CoapStack.iterate, body,
          endpoint, Bool.not_true, Bool.false_and, Bool.false_eq_true,
          if_false]
        exact ⟨_, rfl⟩
      rcases stepped with ⟨⟨loop, effects⟩, stepped⟩
      exact .inl ⟨_, take_of_step idle endpoint stepped⟩

end StackTask

/-! ## Bodies available in every state -/

/-- The codec encodes this request under every token and MID the allocators
can give out. -/
def Encodable (codec : Codec) (request : CoapRequest) : Prop :=
  ∀ counter mid,
    (codec.toBytes
      (request.toPacket codec (toBeBytes counter) mid)).isSome = true

/-- The datagram is a NON request that the codec and the request parser
accept. -/
def NonRequestDatagram (codec : Codec) (raw : Bytes) : Prop :=
  ∃ parsed request, codec.fromBytes raw = some parsed ∧
    parsed.header.messageType = .nonConfirmable ∧
    parsed.header.code.isRequest = true ∧
    CoapRequest.fromPacket codec parsed = .ok (.ok request)

/-- Addresses do not run out. -/
instance : Infinite SocketAddr :=
  Infinite.of_injective
    (fun length : Nat => (⟨List.replicate length 0, 0⟩ : SocketAddr)) (by
      intro left right equal
      have hosts := congrArg SocketAddr.host equal
      simpa using congrArg List.length hosts)

theorem CoapStack.exists_unknown_peer (stack : CoapStack) :
    ∃ peer, stack.sessions.lookup peer = none := by
  rcases Infinite.exists_notMem_finset stack.sessions.keys with
    ⟨peer, absent⟩
  exact ⟨peer, Finmap.lookup_eq_none.mpr absent⟩

/-- The next client request, for a request and a peer of one's choice. -/
def Loop.nextRequest (loop : Loop) (request : CoapRequest)
    (peer : SocketAddr) : Iteration :=
  Iteration.plain loop.clock
    (.outboundRequest (some ⟨request, peer, ⟨loop.channels⟩⟩))

/-- A client request can always be taken, and it sends a packet. -/
theorem StackTask.exists_take_request
    {codec : Codec} {request : CoapRequest}
    (encodable : Encodable codec request)
    {task : StackTask} (idle : task.pending = []) (peer : SocketAddr) :
    ∃ after packet,
      task.take codec (task.loop.nextRequest request peer) = some after ∧
        after.pending = [.sendPacket packet peer] := by
  let iteration := task.loop.nextRequest request peer
  let session := task.loop.stack.sessionFor iteration peer
  rcases Option.isSome_iff_exists.mp
      (encodable session.tokenAllocator.next session.midAllocator.next) with
    ⟨packet, encoded⟩
  have admitted : task.loop.Admits iteration := by
    refine ⟨le_rfl, trivial, ?_⟩
    intro sender carried
    exact (Option.some.inj carried).symm
  have emitted :
      (sendOutboundRequest codec session iteration
        ⟨request, peer, ⟨task.loop.channels⟩⟩).2 =
          [.sendPacket packet peer] := by
    simp only [sendOutboundRequest]
    split
    · next refused =>
        exact absurd (refused.symm.trans encoded) (by simp)
    · next bytes produced =>
        have same := produced.symm.trans encoded
        injection same with equal
        rw [equal]
  have stepped :
      ∃ loop, task.loop.step codec iteration =
        some (loop, [.sendPacket packet peer]) := by
    rw [Loop.step, if_pos admitted, ← emitted]
    exact ⟨_, rfl⟩
  rcases stepped with ⟨loop, stepped⟩
  exact ⟨_, packet, take_of_step idle rfl stepped, rfl⟩

/-- A NON request that was not seen before goes to the server, without an
acknowledgement. -/
theorem exists_receive_dispatch
    {codec : Codec} {parsed : Packet} {request : CoapRequest}
    (typed : parsed.header.messageType = .nonConfirmable)
    (code : parsed.header.code.isRequest = true)
    (decoded : CoapRequest.fromPacket codec parsed = .ok (.ok request))
    (session : PeerSession) (now : Nat)
    {peer : SocketAddr}
    (unseen : session.isDuplicate parsed.header.messageId = false) :
    ∃ after,
      receivePacket codec session now peer parsed =
        .ok (after, [.sendRequest ⟨request, peer, parsed.token⟩]) := by
  cases method : parsed.header.code with
  | request method =>
      refine ⟨session.recordInboundMid parsed.header.messageId now, ?_⟩
      simp [receivePacket, typed, receiveMessage, unseen, recordMessage,
        dispatchMessage, method, decoded]
  | _ => simp [method, MessageClass.isRequest] at code

/-- A NON request from an unknown peer can always be received, and it is
dispatched to the server. -/
theorem StackTask.exists_take_dispatch
    {codec : Codec} {raw : Bytes}
    (wellFormed : NonRequestDatagram codec raw)
    {task : StackTask} (idle : task.pending = []) :
    ∃ peer after request,
      task.take codec
          (Iteration.plain task.loop.clock (.inbound raw peer)) =
        some after ∧
      after.pending = [.sendRequest request] := by
  rcases wellFormed with ⟨parsed, request, parses, typed, code, decoded⟩
  rcases task.loop.stack.exists_unknown_peer with ⟨peer, unknown⟩
  let iteration :=
    Iteration.plain task.loop.clock (.inbound raw peer)
  have admitted : task.loop.Admits iteration := by
    refine ⟨le_rfl, trivial, ?_⟩
    intro sender carried
    cases carried
  have created :
      task.loop.stack.sessionFor iteration peer =
        PeerSession.new peer 0 0 := by
    show (task.loop.stack.sessions.lookup peer).getD _ = _
    rw [unknown]
    rfl
  have received :
      ∃ session,
        receivePacket codec (PeerSession.new peer 0 0) iteration.now peer
          parsed =
        .ok (session,
          [.sendRequest ⟨request, peer, parsed.token⟩]) :=
    exists_receive_dispatch typed code decoded _ _ rfl
  have stepped :
      ∃ loop, task.loop.step codec iteration =
        some (loop, [.sendRequest ⟨request, peer, parsed.token⟩]) := by
    rcases received with ⟨session, received⟩
    have finished :
        task.loop.stack.iterate codec iteration =
          .ok (task.loop.stack.putSession peer session,
            [.sendRequest ⟨request, peer, parsed.token⟩]) := by
      show CoapStack.iterate codec task.loop.stack iteration = _
      simp only [CoapStack.iterate, CoapStack.branchBody,
        CoapStack.inbound, iteration, Iteration.plain, parses, if_true]
      simp only [iteration, Iteration.plain] at created received
      rw [created, received]
      rfl
    rw [Loop.step, if_pos admitted, finished]
    exact ⟨_, rfl⟩
  rcases stepped with ⟨loop, stepped⟩
  exact ⟨peer, _, _, take_of_step idle rfl stepped, rfl⟩

end Coapable.Transport
