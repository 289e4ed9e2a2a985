import Coapable.Transport.Truncation
import Mathlib.Tactic.TFAE

/-!
# What the endpoint relays

The endpoint task and the two channels between it and the loop relay datagrams
and decide nothing.  Both ways are queues: the loop takes what was read, and
the socket sends what the bodies send, once and in order.  And the histories
of the loop beside an endpoint are exactly the runs of the loop alone whose
datagrams fit the buffer, so nothing is proved of the loop alone that it could
not do beside an endpoint, and nothing is missed.
-/

namespace Coapable.Transport.EndpointTasks

open Coapable.BareCodec
open Coapable.CoapLite
open Coapable.Foundation
open Coapable.Foundation.Execution
open Coapable.MessageTypes

/-! ## The loop -/

/-- What a move is for the loop. -/
def loopTransition? (transition : EndpointTransition) :
    Option LoopTransition :=
  match transition.input with
  | .take iteration =>
      some ⟨transition.before.stack.loop, iteration,
        transition.after.stack.pending, transition.after.stack.loop⟩
  | _ => none

/-- What a history of endpoint and stack is for the loop alone. -/
def loopHistory (history : List EndpointTransition) :
    List LoopTransition :=
  history.filterMap loopTransition?

section Relay

variable {codec : Codec} {history : List EndpointTransition}
  {tasks : EndpointTasks}

theorem loopRun_of_run
    (run : Run (endpointMachine codec) history tasks) :
    LoopRun codec (loopHistory history) tasks.stack.loop := by
  refine run.component (fun tasks => tasks.stack.loop) loopTransition?
    ?_ ?_ ?_
  · rintro _ ⟨now, rfl⟩
    exact ⟨now, rfl⟩
  · intro before after move output stepped unobserved
    cases step_cases stepped with
    | received | forwarded | transmitted | sent | performed => rfl
    | taken => cases unobserved
  · intro before after move output stepped transition observed
    cases step_cases stepped with
    | received | forwarded | transmitted | sent | performed =>
        cases observed
    | taken fetched takes =>
        cases observed
        exact ⟨rfl, rfl, StackTask.step_of_take takes⟩

/-! ## From the loop to the socket -/

/-- The packet that the move sends on the socket. -/
def transmittedBy (transition : EndpointTransition) : List Datagram :=
  match transition.input with
  | .transmit => transition.before.outbound.items.head?.toList
  | _ => []

/-- The packets that the body of a taken branch sends. -/
def sentBy (transition : EndpointTransition) : List Datagram :=
  match transition.input with
  | .take _ => packetsOf transition.after.stack.pending
  | _ => []

/-- What the loop sent and the socket did not send yet, oldest first. -/
def leaving (tasks : EndpointTasks) : List Datagram :=
  tasks.outbound.items ++ packetsOf tasks.stack.pending

/-- What a move takes from the front was leaving before it, and what it adds
at the end is what its body sends. -/
theorem leaving_of_moveStep
    {after : EndpointTasks} {move : Move} {output : Unit}
    (stepped : MoveStep codec tasks move after) :
    transmittedBy ⟨tasks, move, output, after⟩ ++ after.leaving =
      tasks.leaving ++ sentBy ⟨tasks, move, output, after⟩ := by
  cases stepped with
  | received | forwarded => simp [transmittedBy, sentBy, leaving]
  | transmitted free received =>
      have items := Channel.receive_eq_some_iff.mp received
      simp [transmittedBy, sentBy, leaving, items]
  | taken fetched takes =>
      simp [transmittedBy, sentBy, leaving,
        StackTask.pending_of_take takes, packetsOf]
  | sent awaits sent =>
      simp [transmittedBy, sentBy, leaving, (Channel.send_eq_some sent).2,
        StackTask.pending_of_awaited awaits, packetsOf, Effect.packet?]
  | @performed effect awaits elsewhere =>
      cases effect with
      | sendPacket _ _ => cases elsewhere
      | sendRequest _ | deliver _ =>
          simp only [transmittedBy, sentBy, leaving, List.nil_append,
            List.append_nil, StackTask.pending_of_awaited awaits]
          rfl

/-- The packets that the bodies of a history send, oldest first. -/
def sentIn (history : List LoopTransition) : List Datagram :=
  collected (fun transition => packetsOf transition.output) history

/-- The packets that the socket sent, oldest first. -/
def transmittedIn (history : List EndpointTransition) : List Datagram :=
  collected transmittedBy history

theorem collected_sentBy (history : List EndpointTransition) :
    collected sentBy history = sentIn (loopHistory history) := by
  induction history with
  | nil => rfl
  | cons transition older induction =>
      rw [collected_cons, induction]
      cases move : transition.input with
      | take iteration =>
          have observed : loopHistory (transition :: older) =
              ⟨transition.before.stack.loop, iteration,
                  transition.after.stack.pending,
                  transition.after.stack.loop⟩ ::
                loopHistory older :=
            List.filterMap_cons_some (by simp only [loopTransition?, move])
          rw [observed, sentIn, sentIn, collected_cons, sentBy, move]
      | receive _ _ | forward | transmit | perform =>
          have unobserved : loopHistory (transition :: older) =
              loopHistory older :=
            List.filterMap_cons_none (by simp only [loopTransition?, move])
          rw [unobserved, sentBy, move]
          exact List.append_nil _

/-- The way from the loop to the socket is first in, first out. -/
theorem transmitted_append_leaving
    (run : Run (endpointMachine codec) history tasks) :
    transmittedIn history ++ tasks.leaving =
      sentIn (loopHistory history) := by
  rw [← collected_sentBy]
  refine run.collected_append leaving sentBy transmittedBy ?_ ?_
  · rintro _ ⟨now, rfl⟩
    rfl
  · intro transition stepped
    exact leaving_of_moveStep (step_cases stepped)

/-! ## Every run of the loop is relayed -/

/-- An endpoint can hand the loop this iteration: it is alive, and a datagram
fits the buffer it is read into. -/
def Relays (iteration : Iteration) : Prop :=
  iteration.endpointOpen = true ∧
    ∀ raw peer, iteration.branch = .inbound raw peer →
      raw.length ≤ receiveBuffer

/-- Nothing is on its way, and the loop stands before these effects. -/
def inBody (loop : Loop) (effects : List Effect) : EndpointTasks where
  inHand := none
  inbound := .empty
  outbound := .empty
  stack := ⟨loop, effects⟩

theorem relays_of_take
    {after : EndpointTasks} {iteration : Iteration}
    (stepped : MoveStep codec tasks (.take iteration) after)
    (fits : ∀ datagram ∈ tasks.waiting,
      datagram.1.length ≤ receiveBuffer) :
    Relays iteration := by
  cases stepped with
  | taken fetched takes =>
      constructor
      · simp only [StackTask.take] at takes
        split at takes
        · next idle => exact idle.2
        · cases takes
      · intro raw peer isInbound
        refine fits (raw, peer) ?_
        have items := items_of_fetch fetched
        simp only [Move.taken?, isInbound] at items
        rw [waiting, ← items]
        simp

theorem relays_of_run
    (run : Run (endpointMachine codec) history tasks) :
    ∀ transition ∈ loopHistory history, Relays transition.input := by
  intro transition member
  rcases List.mem_filterMap.mp member with ⟨move, moveMember, observed⟩
  rcases List.append_of_mem moveMember with ⟨newer, older, rfl⟩
  rcases run.of_suffix (List.suffix_append newer _) with ⟨earlier, stepped⟩
  simp only [loopTransition?] at observed
  split at observed
  · next iteration isTake =>
      cases observed
      rw [isTake] at stepped
      refine relays_of_take (step_cases stepped) ?_
      intro datagram waits
      have all := taken_append_waiting earlier
      have isRead : datagram ∈ (received older).map readIntoBuffer := by
        rw [← all]
        exact List.mem_append_right _ waits
      rcases List.mem_map.mp isRead with ⟨arrival, _, rfl⟩
      exact (List.length_take_le _ _)
  · cases observed

/-- A send completes, and a packet is transmitted. -/
theorem exists_performed
    {loop : Loop} {effect : Effect} {rest : List Effect}
    (run : Run (endpointMachine codec) history
      (inBody loop (effect :: rest))) :
    ∃ (newer : List EndpointTransition),
      Run (endpointMachine codec) (newer ++ history) (inBody loop rest) ∧
        newer.filterMap loopTransition? = [] := by
  cases effect with
  | sendPacket packet peer =>
      let sent : EndpointTasks :=
        { inBody loop rest with
          outbound := ⟨[(packet, peer)], Nat.le_add_left 1 99⟩ }
      exact ⟨[⟨sent, .transmit, (), _⟩, ⟨_, .perform, (), sent⟩],
        (run.extend rfl).extend rfl, rfl⟩
  | sendRequest _ | deliver _ =>
      exact ⟨[⟨_, .perform, (), _⟩], run.extend rfl, rfl⟩

/-- A body completes, and its packets are transmitted. -/
theorem exists_completed
    {loop : Loop} (effects : List Effect)
    (run : Run (endpointMachine codec) history (inBody loop effects)) :
    ∃ (newer : List EndpointTransition),
      Run (endpointMachine codec) (newer ++ history) (inBody loop []) ∧
        newer.filterMap loopTransition? = [] := by
  induction effects generalizing history with
  | nil => exact ⟨[], run, rfl⟩
  | cons effect rest induction =>
      rcases exists_performed run with ⟨first, performed, firstHidden⟩
      rcases induction performed with ⟨newer, completed, hidden⟩
      rw [← List.append_assoc] at completed
      refine ⟨newer ++ first, completed, ?_⟩
      rw [List.filterMap_append, hidden, firstHidden]
      rfl

/-- The endpoint brings what the iteration needs, and the loop takes it. -/
theorem exists_taken
    {before after : Loop} {iteration : Iteration}
    {effects : List Effect}
    (run : Run (endpointMachine codec) history (inBody before []))
    (stepped : before.step codec iteration = some (after, effects))
    (relays : Relays iteration) :
    ∃ (newer : List EndpointTransition),
      Run (endpointMachine codec) (newer ++ history)
          (inBody after effects) ∧
        newer.filterMap loopTransition? =
          [⟨before, iteration, effects, after⟩] := by
  have takes : StackTask.take codec ⟨before, []⟩ iteration =
      some ⟨after, effects⟩ :=
    StackTask.take_of_step rfl relays.1 stepped
  by_cases isInbound :
      ∃ raw peer, iteration.branch = .inbound raw peer
  · rcases isInbound with ⟨raw, peer, isInbound⟩
    have whole : raw.take receiveBuffer = raw :=
      List.take_of_length_le (relays.2 raw peer isInbound)
    let inHand : EndpointTasks :=
      { inBody before [] with inHand := some (raw, peer) }
    let forwarded : EndpointTasks :=
      { inBody before [] with
        inbound := ⟨[(raw, peer)], Nat.le_add_left 1 99⟩ }
    have receives : (endpointMachine codec).step (inBody before [])
        (.receive raw peer) = some (inHand, ()) := by
      show some (_, ()) = _
      rw [whole]
    have taken : (endpointMachine codec).step forwarded
        (.take iteration) = some (inBody after effects, ()) := by
      have fetched : fetch forwarded.inbound iteration.branch =
          some .empty := by
        rw [isInbound]
        exact if_pos rfl
      show step codec forwarded (.take iteration) = _
      simp only [step, fetched]
      rw [show forwarded.stack = ⟨before, []⟩ from rfl, takes]
      rfl
    exact ⟨[⟨forwarded, .take iteration, (), _⟩,
        ⟨inHand, .forward, (), forwarded⟩,
        ⟨_, .receive raw peer, (), inHand⟩],
      ((run.extend receives).extend rfl).extend taken, rfl⟩
  · have taken : (endpointMachine codec).step (inBody before [])
        (.take iteration) = some (inBody after effects, ()) := by
      have fetched : fetch (inBody before []).inbound iteration.branch =
          some .empty := by
        cases branch : iteration.branch with
        | inbound raw peer => exact absurd ⟨raw, peer, branch⟩ isInbound
        | outboundRequest | outboundResponse | retransmissionTimer
        | cleanupTimer => rfl
      show step codec (inBody before []) (.take iteration) = _
      simp only [step, fetched]
      rw [show (inBody before []).stack = ⟨before, []⟩ from rfl, takes]
      rfl
    exact ⟨[⟨_, .take iteration, (), _⟩], run.extend taken, rfl⟩

/-- A run of the loop is relayed, one iteration after the other. -/
theorem exists_relayed
    {history : List LoopTransition} {loop : Loop}
    (run : LoopRun codec history loop)
    (relayed : ∀ transition ∈ history, Relays transition.input) :
    ∃ (relays : List EndpointTransition),
      Run (endpointMachine codec) relays (inBody loop []) ∧
        loopHistory relays = history ∧
          transmittedIn relays = sentIn history := by
  have start : ∀ loop, (loopMachine codec).Initial loop →
      ∃ twin, (endpointMachine codec).Initial twin ∧
        twin = inBody loop [] := by
    rintro _ ⟨now, rfl⟩
    exact ⟨_, ⟨now, rfl⟩, rfl⟩
  have realized := run.realized (fun loop tasks => tasks = inBody loop [])
    id loopTransition? start
    (by
      rintro before after iteration effects _ relays stepped isRelayed
        rfl earlier
      rcases exists_taken earlier stepped isRelayed with
        ⟨taken, further, shows⟩
      rcases exists_completed effects further with
        ⟨newer, completed, hidden⟩
      rw [← List.append_assoc] at completed
      refine ⟨newer ++ taken, _, completed, rfl, ?_⟩
      rw [List.filterMap_append, hidden, shows]
      rfl)
    relayed
  rcases realized with ⟨relays, _, realizes, rfl, shows⟩
  rw [List.map_id] at shows
  have allSent := transmitted_append_leaving realizes
  rw [loopHistory, shows] at allSent
  exact ⟨relays, realizes, shows, (List.append_nil _).symm.trans allSent⟩

end Relay

/--
Both ways through the endpoint are queues: what was transmitted and what is
leaving are the packets that the bodies sent, and what the loop took and what
waits are the datagrams that were read, in their order.
-/
theorem relayed_in_order
    {codec : Codec} {history : List EndpointTransition}
    {tasks : EndpointTasks}
    (run : Run (endpointMachine codec) history tasks) :
    transmittedIn history ++ tasks.leaving =
        sentIn (loopHistory history) ∧
      taken history ++ tasks.waiting =
        (received history).map readIntoBuffer :=
  ⟨transmitted_append_leaving run, taken_append_waiting run⟩

/-- Two datagrams are read, and a request is sent before the first of them is
taken. -/
def relayedMoves : List Move :=
  [.receive [0x50, 1, 0, 7] (.loopback 5000), .forward,
    .receive [0x50, 1, 0, 8] (.loopback 5001), .forward,
    .take (.plain 1 (.outboundRequest (some
      ⟨⟨.get, "", [], none, [], none, true⟩, .loopback 5683, ⟨0⟩⟩))),
    .perform, .transmit,
    .take (.plain 1 (.inbound [0x50, 1, 0, 7] (.loopback 5000)))]

theorem relayed_in_order_on_two_datagrams :
    ∃ (history : List EndpointTransition) (tasks : EndpointTasks),
      ((transmittedIn history).length = 1 ∧
        (taken history).length = 1 ∧ tasks.waiting.length = 1) ∧
      transmittedIn history ++ tasks.leaving =
          sentIn (loopHistory history) ∧
        taken history ++ tasks.waiting =
          (received history).map readIntoBuffer := by
  rcases exists_run_of_replay (initial_start bareCodec 0) relayedMoves
      (fun history tasks => decide
        ((transmittedIn history).length = 1 ∧
          (taken history).length = 1 ∧ tasks.waiting.length = 1))
      (by decide) with
    ⟨history, tasks, run, checked⟩
  exact ⟨history, tasks, of_decide_eq_true checked, relayed_in_order run⟩

/--
A history of the loop occurs beside an endpoint exactly if it is a run of the
loop alone that takes nothing an endpoint could not have read.  It then also
occurs so that everything that was sent has been transmitted.
-/
theorem relays_exactly_the_loop
    (codec : Codec) (history : List LoopTransition) (loop : Loop) :
    [∃ (relays : List EndpointTransition) (tasks : EndpointTasks),
        Run (endpointMachine codec) relays tasks ∧
          loopHistory relays = history ∧ tasks.stack.loop = loop,
      LoopRun codec history loop ∧
        ∀ transition ∈ history, Relays transition.input,
      ∃ (relays : List EndpointTransition),
        Run (endpointMachine codec) relays (inBody loop []) ∧
          loopHistory relays = history ∧
            transmittedIn relays = sentIn history].TFAE := by
  tfae_have 1 → 2 := by
    rintro ⟨relays, tasks, run, rfl, rfl⟩
    exact ⟨loopRun_of_run run, relays_of_run run⟩
  tfae_have 2 → 3 := by
    rintro ⟨run, relayed⟩
    exact exists_relayed run relayed
  tfae_have 3 → 1 := by
    rintro ⟨relays, run, rfl, _⟩
    exact ⟨relays, inBody loop [], run, rfl, rfl⟩
  tfae_finish

end Coapable.Transport.EndpointTasks
