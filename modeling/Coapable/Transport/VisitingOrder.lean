import Coapable.Transport.ExactTimer
import Coapable.Transport.PacketOrigins

/-!
# The order of a hash table is not observed

The retransmission branch visits sessions and exchanges in the order of two
hash tables, which differs from one process to the next.  `swept` is the branch
with no order.  Every enumeration comes to the same stack, and to the same
packets and results, in some order.  So two runs that differ in their
enumerations only pass through the same states.
-/

namespace Coapable.Transport

open Coapable.BareCodec
open Coapable.CoapLite
open Coapable.Foundation.Execution
open Coapable.Foundation.FiniteMap

/-! ## One session -/

/-- The session after the timer, with no order. -/
def PeerSession.swept (session : PeerSession) (now : Nat) : PeerSession :=
  (session.withClient (session.client.tick now)).evictStaleDedup now

theorem PeerSession.tick_eq_swept
    {session : PeerSession} {order : List Token} (now : Nat)
    (enumerates : Enumerates order session.exchanges) :
    (session.tick now order).1 = session.swept now :=
  congrArg (evictStaleDedup · now) (collectRetransmissions_eq enumerates)

/-! ## The stack -/

namespace CoapStack

/-- The stack after the timer, with no order. -/
def swept (stack : CoapStack) (now : Nat) : CoapStack :=
  { stack with
    sessions := filterMapValues
      (fun session => some (session.swept now)) stack.sessions }

/-- The results that the timer delivers, with no order. -/
def timeouts (stack : CoapStack) (now : Nat) : Multiset Delivery :=
  (values stack.sessions).bind
    fun session => (session.client.apply (.ticked now)).2

variable {stack : CoapStack} {order other : List (SocketAddr × List Token)}

theorem retransmit_eq_swept
    (now : Nat) (enumerates : stack.EnumeratesSessions order) :
    (stack.retransmit now order).1 = stack.swept now := by
  have sessions : (stack.retransmit now order).1.sessions =
      (stack.swept now).sessions := by
    apply Finmap.ext_lookup
    intro peer
    have visited := lookup_retransmit now enumerates peer
    rw [swept, lookup_filterMapValues]
    cases found : stack.sessions.lookup peer with
    | none =>
        rw [found] at visited
        exact visited
    | some session =>
        rw [found] at visited
        rcases visited with ⟨exchangeOrder, _, visits, ticked⟩
        exact ticked.trans
          (congrArg some (session.tick_eq_swept now visits))
  exact congrArg (fun sessions => { stack with sessions := sessions })
    sessions

theorem deliveriesOf_retransmit
    (now : Nat) (enumerates : stack.EnumeratesSessions order) :
    (deliveriesOf (stack.retransmit now order).2 : Multiset Delivery) =
      stack.timeouts now := by
  rw [retransmit_deliveries, tickSessions_output _ _ _ enumerates.1.nodup,
    timeouts, enumerates.1.values_eq]
  have visited := enumerates.2
  clear enumerates
  simp only
  induction order with
  | nil => rfl
  | cons visit rest induction =>
      have later := induction fun other member =>
        visited other (List.mem_cons_of_mem _ member)
      rw [List.flatMap_cons, ← Multiset.coe_add, later, List.map_cons]
      cases found : stack.sessions.lookup visit.1 with
      | none =>
          simp only [List.filterMap_cons, found]
          exact Multiset.zero_add _
      | some session =>
          have ticked := tick_deliveries now
            (visited visit List.mem_cons_self session found)
          simp only [List.filterMap_cons, found]
          rw [ticked, ← Multiset.cons_coe, Multiset.cons_bind]

theorem retransmit_effects_eq
    (stack : CoapStack) (now : Nat)
    (order : List (SocketAddr × List Token)) :
    (stack.retransmit now order).2 =
      (deliveriesOf (stack.retransmit now order).2).map .deliver ++
        (packetsOf (stack.retransmit now order).2).map
          fun packet => .sendPacket packet.1 packet.2 := by
  rw [retransmit_deliveries, packetsOf_retransmit_list, List.map_map]
  rfl

/-- Two enumerations have the same effects, in some order. -/
theorem retransmit_perm
    (now : Nat) (enumerates : stack.EnumeratesSessions order)
    (enumeratesToo : stack.EnumeratesSessions other) :
    (stack.retransmit now order).2.Perm
      (stack.retransmit now other).2 := by
  rw [retransmit_effects_eq stack now order,
    retransmit_effects_eq stack now other]
  apply List.Perm.append
  · apply List.Perm.map
    rw [← Multiset.coe_eq_coe, deliveriesOf_retransmit now enumerates,
      deliveriesOf_retransmit now enumeratesToo]
  · apply List.Perm.map
    rw [← Multiset.coe_eq_coe, packetsOf_retransmit now enumerates,
      packetsOf_retransmit now enumeratesToo]

end CoapStack

/-! ## Steps and runs -/

/-- The iterations agree but for the order in which the timer visits. -/
inductive SameButOrder : Iteration → Iteration → Prop where
  | same (iteration : Iteration) : SameButOrder iteration iteration
  | visits {iteration : Iteration} {order : List (SocketAddr × List Token)}
      (taken : iteration.branch = .retransmissionTimer order)
      (other : List (SocketAddr × List Token)) :
      SameButOrder iteration
        { iteration with branch := .retransmissionTimer other }

/-- The transitions lead from the same state to the same state, with the same
effects in some order. -/
structure Twin (left right : LoopTransition) : Prop where
  before : left.before = right.before
  input : SameButOrder left.input right.input
  output : left.output.Perm right.output
  after : left.after = right.after

section Step

variable {codec : Codec} {before after : Loop} {iteration : Iteration}
  {effects : List Effect} {order : List (SocketAddr × List Token)}

theorem step_timer_eq
    (codec : Codec) (before : Loop)
    (taken : iteration.branch = .retransmissionTimer order) :
    before.step codec iteration =
      if before.Admits iteration ∧
          ¬(!iteration.endpointOpen &&
            (before.stack.retransmit iteration.now order).2.any
              Effect.isSendPacket) = true then
        some (
          { stack := (before.stack.retransmit iteration.now order).1
            clock := iteration.now
            channels := before.channels },
          (before.stack.retransmit iteration.now order).2)
      else none := by
  have noChannel : iteration.channelTaken = none := by
    rw [Iteration.channelTaken, taken]
  rw [Loop.step]
  by_cases admitted : before.Admits iteration
  · rw [if_pos admitted]
    simp only [CoapStack.iterate, CoapStack.branchBody, taken]
    by_cases fails : (!iteration.endpointOpen &&
        (before.stack.retransmit iteration.now order).2.any
          Effect.isSendPacket) = true
    · rw [if_pos fails, if_neg fun both => both.2 fails]
    · rw [if_neg fails, if_pos ⟨admitted, fails⟩, noChannel]
      rfl
  · rw [if_neg admitted, if_neg fun both => admitted both.1]

/-- The timer step can be taken in every order, with the same outcome. -/
theorem exists_step_in_order
    (stepped : before.step codec iteration = some (after, effects))
    (taken : iteration.branch = .retransmissionTimer order)
    {other : List (SocketAddr × List Token)}
    (enumerates : before.stack.EnumeratesSessions other) :
    ∃ otherEffects, effects.Perm otherEffects ∧
      before.step codec
        { iteration with branch := .retransmissionTimer other } =
          some (after, otherEffects) := by
  rw [step_timer_eq codec before taken] at stepped
  rw [Option.ite_none_right_eq_some, Option.some.injEq, Prod.mk.injEq]
    at stepped
  rcases stepped with ⟨⟨admitted, sends⟩, rfl, rfl⟩
  have ready := admitted.2.1
  rw [CoapStack.Ready, taken] at ready
  have same := before.stack.retransmit_perm iteration.now ready.2 enumerates
  refine ⟨_, same, ?_⟩
  rw [step_timer_eq codec before rfl, if_pos]
  · show some (Loop.mk (before.stack.retransmit iteration.now other).1
      iteration.now before.channels, _) = _
    rw [before.stack.retransmit_eq_swept iteration.now enumerates,
      before.stack.retransmit_eq_swept iteration.now ready.2]
  · refine ⟨⟨admitted.1, ⟨ready.1, enumerates⟩, ?_⟩, ?_⟩
    · rintro _ ⟨⟩
    · show ¬(!iteration.endpointOpen &&
        (before.stack.retransmit iteration.now other).2.any
          Effect.isSendPacket) = true
      rw [← same.any_eq]
      exact sends

/-- Two steps that agree but for the order lead to the same state. -/
theorem twin_of_step
    {left right : LoopTransition}
    (leftStep : left.before.step codec left.input =
      some (left.after, left.output))
    (rightStep : right.before.step codec right.input =
      some (right.after, right.output))
    (before : left.before = right.before)
    (input : SameButOrder left.input right.input) : Twin left right := by
  rcases left with ⟨leftBefore, leftInput, leftOutput, leftAfter⟩
  rcases right with ⟨rightBefore, rightInput, rightOutput, rightAfter⟩
  cases before
  cases input with
  | same =>
      cases leftStep.symm.trans rightStep
      exact ⟨rfl, .same _, .refl _, rfl⟩
  | @visits order taken other =>
      have enumerates :=
        ((step_cases rightStep).branch.of_timer rfl).2.1
      rcases exists_step_in_order leftStep taken enumerates with
        ⟨effects, same, isStep⟩
      cases isStep.symm.trans rightStep
      exact ⟨rfl, .visits taken other, same, rfl⟩

end Step

section Run

variable {codec : Codec} {start loop : Loop} {history : List LoopTransition}

/-- The transition with the timer in the chosen order. -/
def InOrder
    (choose : LoopTransition → List (SocketAddr × List Token))
    (transition other : LoopTransition) : Prop :=
  ∀ order, other.input.branch = .retransmissionTimer order →
    order = choose transition

theorem exists_run_in_order
    (run : Run ((loopMachine codec).resumedAt start) history loop)
    (choose : LoopTransition → List (SocketAddr × List Token))
    (enumerates : ∀ transition ∈ history, transition.input.IsTimer →
      transition.before.stack.EnumeratesSessions (choose transition)) :
    ∃ others, Run ((loopMachine codec).resumedAt start) others loop ∧
      List.Forall₂ Twin history others ∧
        List.Forall₂ (InOrder choose) history others := by
  induction run with
  | start initial => exact ⟨[], .start initial, .nil, .nil⟩
  | @extend older before after iteration effects earlier stepped
      induction =>
      rcases induction fun transition member =>
          enumerates transition (List.mem_cons_of_mem _ member) with
        ⟨others, follows, twins, inOrder⟩
      let transition : LoopTransition :=
        ⟨before, iteration, effects, after⟩
      by_cases isTimer : iteration.IsTimer
      · rcases isTimer with ⟨order, taken⟩
        rcases exists_step_in_order stepped taken
            (enumerates transition List.mem_cons_self ⟨order, taken⟩) with
          ⟨otherEffects, same, isStep⟩
        refine ⟨_, follows.extend isStep,
          .cons ⟨rfl, .visits taken _, same, rfl⟩ twins,
          .cons ?_ inOrder⟩
        rintro _ ⟨⟩
        rfl
      · exact ⟨_, follows.extend stepped,
          .cons ⟨rfl, .same iteration, .refl effects, rfl⟩ twins,
          .cons (fun order taken => absurd ⟨order, taken⟩ isTimer)
            inOrder⟩

theorem twins_of_run
    (run : Run ((loopMachine codec).resumedAt start) history loop)
    {others : List LoopTransition} {final : Loop}
    (otherRun : Run ((loopMachine codec).resumedAt start) others final)
    (agree : List.Forall₂
      (fun transition other =>
        SameButOrder transition.input other.input) history others) :
    final = loop ∧ List.Forall₂ Twin history others := by
  induction run generalizing others final with
  | start initial =>
      cases agree
      cases otherRun with
      | start alsoInitial =>
          exact ⟨alsoInitial.trans initial.symm, .nil⟩
  | @extend older before after iteration effects earlier stepped
      induction =>
      cases agree with
      | @cons _ other _ rest sameInput agreeBefore =>
          rcases otherRun.last with ⟨otherEarlier, otherStep, rfl⟩
          rcases induction otherEarlier agreeBefore with
            ⟨sameState, twins⟩
          have twin : Twin ⟨before, iteration, effects, after⟩ other :=
            twin_of_step stepped otherStep sameState.symm sameInput
          exact ⟨twin.after.symm, .cons twin twins⟩

/--
Whatever orders the timer visits sessions and exchanges in, a run passes
through the same states, with the same effects of every iteration in some
order: every choice of enumerations gives such a run, and there is no other
run on the same inputs.
-/
theorem visiting_order_irrelevant
    (run : Run ((loopMachine codec).resumedAt start) history loop) :
    (∀ choose : LoopTransition → List (SocketAddr × List Token),
      (∀ transition ∈ history, transition.input.IsTimer →
        transition.before.stack.EnumeratesSessions (choose transition)) →
      ∃ others, Run ((loopMachine codec).resumedAt start) others loop ∧
        List.Forall₂ Twin history others ∧
          List.Forall₂ (InOrder choose) history others) ∧
    ∀ others final,
      Run ((loopMachine codec).resumedAt start) others final →
        List.Forall₂
          (fun transition other =>
            SameButOrder transition.input other.input) history others →
        final = loop ∧ List.Forall₂ Twin history others :=
  ⟨exists_run_in_order run, fun _ _ => twins_of_run run⟩

end Run

/-- A confirmable GET for a peer on the local host. -/
def takesGet (port : UInt16) (channel : Nat) : Iteration :=
  .plain (fromSecs 1)
    (.outboundRequest (some
      ⟨⟨.get, "", [], none, [], none, true⟩, .loopback port, ⟨channel⟩⟩))

/-- Both peers, in one order and in the other one. -/
def firstFirst : List (SocketAddr × List Token) :=
  [(.loopback 5683, [[0, 0, 0, 0]]), (.loopback 5684, [[0, 0, 0, 0]])]

/-- The other order. -/
def secondFirst : List (SocketAddr × List Token) :=
  firstFirst.reverse

/-- The last step has two effects, and the timer could have visited the second
peer first. -/
def visitsEither (history : List LoopTransition) : Bool :=
  (history.head?.any fun transition => transition.output.length = 2) &&
    history.all fun transition =>
      match transition.input.branch with
      | .retransmissionTimer _ =>
          decide (transition.before.stack.EnumeratesSessions secondFirst)
      | _ => true

/-- Two copies are sent at once. -/
theorem visiting_order_irrelevant_on_two_peers :
    ∃ (history others : List LoopTransition) (loop : Loop),
      Run ((loopMachine bareCodec).resumedAt (Loop.start 0)) history loop ∧
        Run ((loopMachine bareCodec).resumedAt (Loop.start 0)) others
            loop ∧
          (history.head?.any fun transition =>
            transition.output.length = 2) = true ∧
        List.Forall₂ Twin history others ∧
          List.Forall₂ (InOrder fun _ => secondFirst) history others := by
  rcases exists_run_of_replay
      (show ((loopMachine bareCodec).resumedAt (Loop.start 0)).Initial
        (Loop.start 0) from rfl)
      [takesGet 5683 0, takesGet 5684 1,
        .plain (fromSecs 3) (.retransmissionTimer firstFirst)]
      (fun history _ => visitsEither history) (by decide) with
    ⟨history, loop, run, checked⟩
  rw [visitsEither, Bool.and_eq_true, List.all_eq_true] at checked
  rcases checked with ⟨twoSent, enumerates⟩
  rcases (visiting_order_irrelevant run).1 (fun _ => secondFirst) (by
      intro transition member ⟨order, isTimer⟩
      have enumeratesOne := enumerates transition member
      rw [isTimer] at enumeratesOne
      exact of_decide_eq_true enumeratesOne) with
    ⟨others, otherRun, twins, inOrder⟩
  exact ⟨history, others, loop, run, otherRun, twoSent, twins, inOrder⟩

end Coapable.Transport
