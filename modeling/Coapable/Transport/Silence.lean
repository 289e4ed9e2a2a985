import Coapable.Transport.DedupView
import Coapable.Transport.TimerBudget

/-!
# What the timer does when nothing else happens

If no peer says anything and no caller asks for anything, the retransmission
timer is all that runs.  It runs out after finitely many steps, and whenever
it does the outcome is the same: every exchange that had a deadline was timed
out, and every exchange without one is still there, as it was.
-/

namespace Coapable.Transport

open Coapable.BareCodec
open Coapable.CoapLite
open Coapable.Foundation.Execution
open Coapable.Foundation.FiniteMap
open Coapable.Transport.Deadlines

/-! ## The timer can run -/

theorem CoapStack.exists_enumeratesSessions (stack : CoapStack) :
    ∃ order, stack.EnumeratesSessions order := by
  choose exchangeOrder enumerates using fun session : PeerSession =>
    exists_enumerates session.exchanges
  rcases exists_enumerates stack.sessions with ⟨peers, isPeers⟩
  let visit (peer : SocketAddr) : SocketAddr × List Token :=
    (peer, ((stack.sessions.lookup peer).map exchangeOrder).getD [])
  refine ⟨peers.map visit, ?_, ?_⟩
  · rw [List.map_map]
    show Enumerates (peers.map fun peer => peer) stack.sessions
    rw [List.map_id']
    exact isPeers
  · intro seen member session found
    rcases List.mem_map.mp member with ⟨peer, _, rfl⟩
    have isSession : stack.sessions.lookup peer = some session := found
    show Enumerates (((stack.sessions.lookup peer).map
      exchangeOrder).getD []) session.exchanges
    rw [isSession]
    exact enumerates session

/-- While there is a deadline the timer can run, at the latest when it has
passed. -/
theorem Loop.exists_timer_step
    (codec : Codec) {loop : Loop} {deadline : Nat}
    (isNext : loop.stack.nextDeadline = some deadline) :
    ∃ iteration after effects, iteration.IsTimer ∧
      loop.step codec iteration = some (after, effects) := by
  rcases loop.stack.exists_enumeratesSessions with ⟨order, enumerates⟩
  let iteration : Iteration :=
    .plain (max loop.clock deadline) (.retransmissionTimer order)
  have admitted : loop.Admits iteration := by
    refine ⟨le_max_left _ _,
      ⟨⟨deadline, isNext, le_max_right _ _⟩, enumerates⟩, ?_⟩
    rintro _ ⟨⟩
  have stepped : ∃ result, loop.step codec iteration = some result := by
    rw [Loop.step, if_pos admitted]
    exact ⟨_, rfl⟩
  rcases stepped with ⟨⟨after, effects⟩, stepped⟩
  exact ⟨iteration, after, effects, ⟨order, rfl⟩, stepped⟩

/-- The timer can run until no deadline is left. -/
theorem exists_silent
    (codec : Codec) {loop : Loop} (limited : loop.stack.WithinLimit) :
    ∃ final : Loop,
      (loopMachine codec).Reaches Iteration.IsTimer loop final ∧
        final.stack.nextDeadline = none := by
  refine Machine.exists_reaches_of_progress
    (fun loop : Loop => loop.stack.WithinLimit)
    (fun loop : Loop => loop.stack.nextDeadline = none)
    (fun loop : Loop => loop.stack.wakeUps) ?_ limited
  intro loop limited
  cases isNext : loop.stack.nextDeadline with
  | none => exact ⟨loop, .refl loop, .inl isNext⟩
  | some deadline =>
      rcases loop.exists_timer_step codec isNext with
        ⟨iteration, after, effects, isTimer, stepped⟩
      refine ⟨after, .of_step isTimer stepped,
        .inr ⟨withinLimit_step limited stepped, ?_⟩⟩
      rcases isTimer with ⟨order, isTimer⟩
      let transition : LoopTransition :=
        ⟨loop, iteration, effects, after⟩
      have noRequest : TakesNoRequest transition := by
        intro outbound isRequest
        cases isTimer.symm.trans isRequest
      have paid := wakeUps_step (show transition.before.step codec
        transition.input = some (transition.after, transition.output)
        from stepped) noRequest limited
      have counted : runsTimer transition = true := by
        simp only [runsTimer, transition, isTimer]
      rw [counted, Bool.toNat_true] at paid
      exact Nat.lt_of_succ_le ((Nat.add_comm _ _).trans_le paid)

/-! ## What it leaves behind -/

/-- The transition receives no packet and takes no client request. -/
def Silent (transition : LoopTransition) : Prop :=
  (∀ raw peer, transition.input.branch ≠ .inbound raw peer) ∧
    TakesNoRequest transition

/-- The timer leaves an exchange without a deadline alone. -/
theorem Exchange.survive_of_unarmed
    {exchange : Exchange} (unarmed : exchange.deadline = none)
    (now : Nat) : exchange.survive now = some exchange := by
  rcases exchange with ⟨responseTx, messageId, retransmit, expiresAt⟩
  cases retransmit with
  | none =>
      cases expiresAt with
      | none => rfl
      | some expiry => cases unarmed
  | some state => cases unarmed

section Silent

variable
  {codec : Codec} {transition : LoopTransition}
  {peer : SocketAddr} {token : Token} {exchange : Exchange}

theorem Silent.quiet (silent : Silent transition) :
    Quiet codec peer token transition := by
  refine ⟨fun raw => silent.1 raw peer, ?_⟩
  intro opening opens
  exact absurd (opening_cases opens).1 (silent.2 opening.outbound)

/-- No silent transition opens an exchange. -/
theorem Silent.lookup_eq_none
    (stepped : transition.before.step codec transition.input =
      some (transition.after, transition.output))
    (silent : Silent transition)
    (closed : (transition.before.stack.client peer).exchanges.lookup
      token = none) :
    (transition.after.stack.client peer).exchanges.lookup token =
      none := by
  rw [client_step (step_cases stepped).branch peer]
  refine Option.eq_none_iff_forall_ne_some.mpr fun exchange found => ?_
  rcases (ExchangeTable.step_apply _ _).becomes found with
    isOpened | ⟨previous, stored, _⟩
  · exact clientEvent_ne_opened codec _ silent.2 peer token exchange
      isOpened
  · rw [closed] at stored
    cases stored

theorem Silent.lookup_of_unarmed
    (stepped : transition.before.step codec transition.input =
      some (transition.after, transition.output))
    (silent : Silent transition)
    (found : (transition.before.stack.client peer).exchanges.lookup
      token = some exchange)
    (unarmed : exchange.deadline = none) :
    (transition.after.stack.client peer).exchanges.lookup token =
      some exchange := by
  by_cases isTimer :
      ∃ order, transition.input.branch = .retransmissionTimer order
  · rcases isTimer with ⟨order, isTimer⟩
    rw [client_step (step_cases stepped).branch peer,
      clientEvent_timer isTimer]
    refine (ExchangeTable.tick_exchanges_lookup _ _ token).trans ?_
    rw [found, Option.bind_some, exchange.survive_of_unarmed unarmed]
  · exact lookup_of_quiet stepped silent.quiet (not_exists.mp isTimer)
      found

/-- An exchange with a deadline is timed out and removed, or keeps a
deadline. -/
theorem Silent.armed_step
    (stepped : transition.before.step codec transition.input =
      some (transition.after, transition.output))
    (silent : Silent transition)
    (found : (transition.before.stack.client peer).exchanges.lookup
      token = some exchange)
    (armed : exchange.deadline.isSome = true) :
    ((transition.after.stack.client peer).exchanges.lookup token = none ∧
      TimedOut exchange.responseTx transition) ∨
    ∃ waiting : Exchange,
      (transition.after.stack.client peer).exchanges.lookup token =
          some waiting ∧
        waiting.responseTx = exchange.responseTx ∧
          waiting.deadline.isSome = true := by
  cases remains :
      (transition.after.stack.client peer).exchanges.lookup token with
  | none =>
      rcases quiet_step stepped silent.quiet found armed with
        timedOut | ⟨waiting, stillWaits⟩
      · exact .inl ⟨rfl, timedOut⟩
      · cases remains.symm.trans stillWaits.isOpen
  | some waiting =>
      refine .inr ⟨waiting, rfl, ?_⟩
      by_cases isTimer :
          ∃ order, transition.input.branch = .retransmissionTimer order
      · rcases isTimer with ⟨order, isTimer⟩
        have survived :
            exchange.survive transition.input.now = some waiting := by
          rw [client_step (step_cases stepped).branch peer,
            clientEvent_timer isTimer] at remains
          rw [← remains]
          refine ((ExchangeTable.tick_exchanges_lookup _ _ token).trans
            ?_).symm
          rw [found, Option.bind_some]
        exact ⟨(Exchange.continues_of_survive survived).responseTx.symm,
          Exchange.advanceIfDue_deadline armed survived⟩
      · rw [lookup_of_quiet stepped silent.quiet (not_exists.mp isTimer)
          found] at remains
        cases remains
        exact ⟨rfl, armed⟩

end Silent

/-- What became of an exchange by now: without a deadline it is there as it
was, with one it still waits for it or was timed out and removed. -/
structure Settles (history : List LoopTransition) (loop : Loop)
    (peer : SocketAddr) (token : Token) (exchange : Exchange) :
    Prop where
  unarmed :
    exchange.deadline = none →
      (loop.stack.client peer).exchanges.lookup token = some exchange
  armed :
    exchange.deadline.isSome = true →
      ((loop.stack.client peer).exchanges.lookup token = none ∧
        ∃ transition ∈ history,
          TimedOut exchange.responseTx transition) ∨
      ∃ waiting : Exchange,
        (loop.stack.client peer).exchanges.lookup token =
            some waiting ∧
          waiting.responseTx = exchange.responseTx ∧
            waiting.deadline.isSome = true

theorem settles_of_silent
    {codec : Codec} {loop final : Loop} {newer : List LoopTransition}
    (run : Run ((loopMachine codec).resumedAt loop) newer final)
    {peer : SocketAddr} {token : Token} {exchange : Exchange}
    (silent : ∀ transition ∈ newer, Silent transition)
    (found :
      (loop.stack.client peer).exchanges.lookup token = some exchange) :
    Settles newer final peer token exchange := by
  induction run with
  | start initial =>
      cases initial
      exact ⟨fun _ => found, fun armed =>
        .inr ⟨exchange, found, rfl, armed⟩⟩
  | @extend history before after iteration effects earlier stepped
      induction =>
      let transition : LoopTransition :=
        ⟨before, iteration, effects, after⟩
      have isStep : transition.before.step codec transition.input =
          some (transition.after, transition.output) := stepped
      have isSilent : Silent transition := silent _ List.mem_cons_self
      have settled := induction fun transition member =>
        silent transition (List.mem_cons_of_mem _ member)
      constructor
      · intro unarmed
        exact isSilent.lookup_of_unarmed isStep
          (settled.unarmed unarmed) unarmed
      · intro armed
        rcases settled.armed armed with
          ⟨closed, transition, member, timedOut⟩ |
            ⟨waiting, isOpen, sameSender, stillArmed⟩
        · exact .inl ⟨isSilent.lookup_eq_none isStep closed, transition,
            List.mem_cons_of_mem _ member, timedOut⟩
        · rcases isSilent.armed_step isStep isOpen stillArmed with
            ⟨closed, timedOut⟩ | ⟨later, isLater, same, armedLater⟩
          · exact .inl ⟨closed, transition, List.mem_cons_self,
              sameSender ▸ timedOut⟩
          · exact .inr ⟨later, isLater, same.trans sameSender,
              armedLater⟩

/--
From every reachable state the retransmission timer alone can bring the loop
to a state without a deadline.  However the loop gets to such a state without
a packet and without a client request, the exchanges that had a deadline were
timed out and are gone, and those that had none are there as they were.
-/
theorem silence_settles
    {codec : Codec} {history : List LoopTransition} {loop : Loop}
    (run : LoopRun codec history loop) :
    (∃ (newer : List LoopTransition) (final : Loop),
      Run ((loopMachine codec).resumedAt loop) newer final ∧
        (∀ transition ∈ newer, transition.input.IsTimer) ∧
          final.stack.nextDeadline = none) ∧
    ∀ (newer : List LoopTransition) (final : Loop),
      Run ((loopMachine codec).resumedAt loop) newer final →
        (∀ transition ∈ newer, Silent transition) →
          final.stack.nextDeadline = none →
      ∀ peer token exchange,
        (loop.stack.client peer).exchanges.lookup token =
            some exchange →
          (exchange.deadline = none →
            (final.stack.client peer).exchanges.lookup token =
              some exchange) ∧
          (exchange.deadline.isSome = true →
            (final.stack.client peer).exchanges.lookup token = none ∧
              ∃ transition ∈ newer,
                TimedOut exchange.responseTx transition) := by
  constructor
  · rcases exists_silent codec (withinLimit_of_run run) with
      ⟨final, reaches, noDeadline⟩
    rcases reaches.exists_resumed with ⟨newer, resumed, onTimer⟩
    exact ⟨newer, final, resumed, onTimer, noDeadline⟩
  · intro newer final resumed silent noDeadline peer token exchange found
    have settled := settles_of_silent resumed silent found
    refine ⟨settled.unarmed, fun armed => ?_⟩
    rcases settled.armed armed with
      timedOut | ⟨waiting, isOpen, _, stillArmed⟩
    · exact timedOut
    · rcases Option.isSome_iff_exists.mp stillArmed with
        ⟨deadline, isDeadline⟩
      rcases exists_nextDeadline_le isOpen isDeadline with
        ⟨least, isNext, _⟩
      rw [noDeadline] at isNext
      cases isNext

/-- A peer never answers the GET. -/
theorem silence_settles_on_unanswered_get :
    ∃ (newer : List LoopTransition) (final : Loop),
      Run ((loopMachine bareCodec).resumedAt loopAfterGet) newer final ∧
        ∃ transition ∈ newer, TimedOut ⟨0⟩ transition := by
  rcases exists_run_loopAfterGet with ⟨history, run⟩
  rcases silence_settles run with
    ⟨⟨newer, final, resumed, onTimer, noDeadline⟩, settles⟩
  refine ⟨newer, final, resumed, ?_⟩
  have opened :
      ((loopAfterGet.stack.client (.loopback 5683)).exchanges.lookup
        [0, 0, 0, 0]).any (fun exchange =>
          exchange.deadline.isSome && exchange.responseTx = ⟨0⟩) = true :=
    by decide
  rw [Option.any_eq_true] at opened
  rcases opened with ⟨exchange, found, facts⟩
  rw [Bool.and_eq_true, decide_eq_true_eq] at facts
  have silent : ∀ transition ∈ newer, Silent transition := by
    intro transition member
    rcases onTimer transition member with ⟨order, isTimer⟩
    constructor
    · intro raw peer isInbound
      cases isTimer.symm.trans isInbound
    · intro outbound isRequest
      cases isTimer.symm.trans isRequest
  rw [← facts.2]
  exact ((settles newer final resumed silent noDeadline _ _ exchange
    found).2 facts.1).2

end Coapable.Transport
