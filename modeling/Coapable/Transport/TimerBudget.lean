import Coapable.Transport.Deadlines

/-!
# The retransmission timer cannot spin

Every time the retransmission branch runs, some exchange is due, because the
deadline the loop sleeps on is the soonest one of the open exchanges; and an
exchange that is due either spends one of its retransmissions, with a new
deadline in the future, or is failed.  No other branch but a client request
gives the timer anything to do.
-/

namespace Coapable.Transport

open Coapable.BareCodec
open Coapable.CoapLite
open Coapable.Foundation.Execution
open Coapable.Foundation.FiniteMap

/-! ## One exchange -/

namespace Exchange

/-- How often the timer can still find the exchange due: 5 less the
retransmissions already sent while it is retransmitted, once if it waits for
its expiry only, never if it was acknowledged. -/
def wakeUps (exchange : Exchange) : Nat :=
  match exchange.retransmit with
  | some state => 5 - state.retransmitCount
  | none => if exchange.expiresAt.isSome then 1 else 0

/-- No more retransmissions were sent than are allowed. -/
def WithinLimit (exchange : Exchange) : Prop :=
  ∀ state ∈ exchange.retransmit, state.retransmitCount ≤ maxRetransmit

theorem withinLimit_of_survive
    {now : Nat} {exchange after : Exchange}
    (limited : exchange.WithinLimit)
    (survived : exchange.survive now = some after) :
    after.WithinLimit := by
  rcases survive_cases survived with
    ⟨rfl, _⟩ | ⟨state, armed, due, count, rfl⟩
  · exact limited
  · intro advanced isAdvanced
    rw [← Option.some.inj isAdvanced]
    exact count

/-- An exchange that is due and survives has one wake-up less. -/
theorem survive_wakeUps
    {now : Nat} {exchange after : Exchange}
    (survived : exchange.survive now = some after) :
    (exchange.isDue now).toNat + after.wakeUps ≤ exchange.wakeUps := by
  rcases survive_cases survived with
    ⟨rfl, notDue⟩ | ⟨state, armed, due, count, rfl⟩
  · rw [isDue_eq_false notDue]
    simp
  · have atMostOne := Bool.toNat_le (exchange.isDue now)
    have below : state.retransmitCount < 4 := count
    simp only [wakeUps, armed]
    omega

/-- An exchange that is due has a wake-up left. -/
theorem wakeUps_pos_of_isDue
    {now : Nat} {exchange : Exchange}
    (limited : exchange.WithinLimit)
    (due : exchange.isDue now = true) :
    0 < exchange.wakeUps := by
  rcases exchange with ⟨responseTx, messageId, retransmit, expiresAt⟩
  cases retransmit with
  | none =>
      cases expiresAt with
      | none => cases due
      | some expiry => exact Nat.one_pos
  | some state =>
      have count : state.retransmitCount ≤ 4 := limited state rfl
      change 0 < 5 - state.retransmitCount
      omega

theorem cancelRetransmission_wakeUps
    {exchange : Exchange} (limited : exchange.WithinLimit) :
    exchange.cancelRetransmission.wakeUps ≤ exchange.wakeUps := by
  rcases exchange with ⟨responseTx, messageId, retransmit, expiresAt⟩
  cases retransmit with
  | none => exact le_rfl
  | some state =>
      have count : state.retransmitCount ≤ 4 := limited state rfl
      change (if expiresAt.isSome then 1 else 0) ≤
        5 - state.retransmitCount
      split <;> omega

end Exchange

theorem Opening.exchange_withinLimit
    (opening : Opening) (iteration : Iteration) :
    (opening.exchange iteration).WithinLimit := by
  intro state isState
  simp only [Opening.exchange] at isState
  split at isState
  · rw [← Option.some.inj isState]
    exact Nat.zero_le _
  · cases isState

/-! ## The table -/

namespace ExchangeTable

/-- How often the timer can still find an exchange of the table due. -/
def wakeUps (table : ExchangeTable) : Nat :=
  total Exchange.wakeUps table.exchanges

/-- The same for every exchange of a table. -/
def WithinLimit (table : ExchangeTable) : Prop :=
  ∀ token exchange, table.exchanges.lookup token = some exchange →
    exchange.WithinLimit

theorem Becomes.withinLimit
    {event : ClientEvent} {previous exchange : Exchange}
    (becomes : Becomes event previous exchange)
    (limited : previous.WithinLimit) :
    exchange.WithinLimit := by
  cases becomes with
  | kept => exact limited
  | cancelled isEvent => exact fun _ isState => nomatch isState
  | survived isEvent survives =>
      exact Exchange.withinLimit_of_survive limited survives

theorem Becomes.wakeUps_le
    {event : ClientEvent} {previous exchange : Exchange}
    (becomes : Becomes event previous exchange)
    (limited : previous.WithinLimit) :
    exchange.wakeUps ≤ previous.wakeUps := by
  cases becomes with
  | kept => exact le_rfl
  | cancelled isEvent => exact Exchange.cancelRetransmission_wakeUps limited
  | survived isEvent survives =>
      exact (Nat.le_add_left _ _).trans (Exchange.survive_wakeUps survives)

theorem WithinLimit.apply
    {table : ExchangeTable} {event : ClientEvent}
    (limited : table.WithinLimit)
    (opened : ∀ token exchange, event = .opened token exchange →
      exchange.WithinLimit) :
    (table.apply event).1.WithinLimit := by
  intro token exchange found
  rcases (table.step_apply event).becomes found with
    isOpened | ⟨previous, stored, becomes⟩
  · exact opened token exchange isOpened
  · exact becomes.withinLimit (limited token previous stored)

/-- Only an opening gives the timer more to do. -/
theorem weightAt_apply_le
    {table : ExchangeTable} {event : ClientEvent}
    (limited : table.WithinLimit)
    (notOpened : ∀ token exchange, event ≠ .opened token exchange)
    (token : Token) :
    weightAt Exchange.wakeUps (table.apply event).1.exchanges token ≤
      weightAt Exchange.wakeUps table.exchanges token := by
  simp only [weightAt]
  cases found : (table.apply event).1.exchanges.lookup token with
  | none => exact Nat.zero_le _
  | some exchange =>
      rcases (table.step_apply event).becomes found with
        isOpened | ⟨previous, stored, becomes⟩
      · exact absurd isOpened (notOpened token exchange)
      · rw [stored]
        exact becomes.wakeUps_le (limited token previous stored)

/-- A timer that finds an exchange due has less to do afterwards. -/
theorem weightAt_tick_lt
    {table : ExchangeTable} {now : Nat}
    (limited : table.WithinLimit)
    {token : Token} {exchange : Exchange}
    (found : table.exchanges.lookup token = some exchange)
    (due : exchange.isDue now = true) :
    weightAt Exchange.wakeUps (table.tick now).exchanges token <
      weightAt Exchange.wakeUps table.exchanges token := by
  simp only [weightAt]
  rw [tick_exchanges_lookup, found, Option.bind_some]
  cases survived : exchange.survive now with
  | none =>
      exact Exchange.wakeUps_pos_of_isDue (limited token exchange found) due
  | some after =>
      have paid := Exchange.survive_wakeUps survived
      rw [due, Bool.toNat_true] at paid
      change after.wakeUps < exchange.wakeUps
      omega

end ExchangeTable

/-! ## The loop -/

/-- How often the timer can still find an exchange of any session due. -/
def CoapStack.wakeUps (stack : CoapStack) : Nat :=
  total (fun session => session.client.wakeUps) stack.sessions

/-- The same for every session of the stack. -/
def CoapStack.WithinLimit (stack : CoapStack) : Prop :=
  ∀ peer, (stack.client peer).WithinLimit

/-- A peer without a session has an empty table. -/
theorem weightAt_sessions (stack : CoapStack) (peer : SocketAddr) :
    weightAt (fun session => session.client.wakeUps) stack.sessions
        peer =
      (stack.client peer).wakeUps := by
  rw [weightAt, CoapStack.client]
  cases stack.sessions.lookup peer <;> rfl

/-- The soonest deadline is that of an exchange the timer will find. -/
theorem exists_isDue_of_nextDeadline
    {stack : CoapStack} {now : Nat}
    (due : ∃ deadline ∈ stack.nextDeadline, deadline ≤ now) :
    ∃ peer token exchange,
      (stack.client peer).exchanges.lookup token = some exchange ∧
        exchange.isDue now = true := by
  rcases due with ⟨deadline, isNext, passed⟩
  rcases ((soonest_eq_some_iff _ _ _).mp isNext).1 with
    ⟨peer, session, stored, isSession⟩
  rcases ((soonest_eq_some_iff _ _ _).mp isSession).1 with
    ⟨token, exchange, found, isDeadline⟩
  refine ⟨peer, token, exchange, ?_, ?_⟩
  · rw [CoapStack.client, stored]
    exact found
  · rw [Exchange.isDue, isDeadline, Option.any_some]
    exact decide_eq_true passed

theorem withinLimit_step
    {codec : Codec} {before after : Loop} {iteration : Iteration}
    {effects : List Effect}
    (limited : before.stack.WithinLimit)
    (stepped : before.step codec iteration = some (after, effects)) :
    after.stack.WithinLimit := by
  intro peer
  rw [client_step (step_cases stepped).branch peer]
  apply (limited peer).apply
  intro token exchange isOpened
  rcases opening_of_opened isOpened with ⟨opening, _, _, _, rfl⟩
  exact opening.exchange_withinLimit iteration

theorem withinLimit_of_run
    {codec : Codec} {history : List LoopTransition} {loop : Loop}
    (run : LoopRun codec history loop) :
    loop.stack.WithinLimit := by
  refine run.invariant (fun _ loop => loop.stack.WithinLimit) ?_ ?_
  · rintro _ ⟨now, rfl⟩ peer token exchange found
    cases found
  · intro history before after iteration effects _ limited stepped
    exact withinLimit_step limited stepped

/-- The transition runs the retransmission branch. -/
def runsTimer (transition : LoopTransition) : Bool :=
  match transition.input.branch with
  | .retransmissionTimer _ => true
  | _ => false

/-- The transition takes no client request. -/
def TakesNoRequest (transition : LoopTransition) : Prop :=
  ∀ outbound, transition.input.branch ≠ .outboundRequest (some outbound)

/-- Without client requests the timer pays for every run with one of the
wake-ups that were left, and nothing adds any. -/
theorem wakeUps_step
    {codec : Codec} {transition : LoopTransition}
    (stepped : transition.before.step codec transition.input =
      some (transition.after, transition.output))
    (noRequest : TakesNoRequest transition)
    (limited : transition.before.stack.WithinLimit) :
    (runsTimer transition).toNat + transition.after.stack.wakeUps ≤
      transition.before.stack.wakeUps := by
  have branch := (step_cases stepped).branch
  have below (peer : SocketAddr) :
      weightAt (fun session => session.client.wakeUps)
          transition.after.stack.sessions peer ≤
        weightAt (fun session => session.client.wakeUps)
          transition.before.stack.sessions peer := by
    rw [weightAt_sessions, weightAt_sessions, client_step branch peer]
    exact total_le_total (ExchangeTable.weightAt_apply_le (limited peer)
      (clientEvent_ne_opened codec _ noRequest peer))
  unfold runsTimer
  split
  · next order isTimer =>
      rcases exists_isDue_of_nextDeadline (branch.of_timer isTimer).1 with
        ⟨peer, token, exchange, found, isDue⟩
      have lessAtPeer :
          weightAt (fun session => session.client.wakeUps)
              transition.after.stack.sessions peer <
            weightAt (fun session => session.client.wakeUps)
              transition.before.stack.sessions peer := by
        rw [weightAt_sessions, weightAt_sessions, client_step branch peer,
          clientEvent_timer isTimer]
        exact total_lt_total
          (ExchangeTable.weightAt_apply_le (limited peer) (by simp))
          (ExchangeTable.weightAt_tick_lt (limited peer) found isDue)
      have less := total_lt_total below lessAtPeer
      rw [Bool.toNat_true, Nat.add_comm]
      exact less
  · rw [Bool.toNat_false, Nat.zero_add]
    exact total_le_total below

/--
From every reachable state, as long as no client request is taken, the
retransmission branch runs at most as often as the open exchanges of that
state have wake-ups left.
-/
theorem timer_runs_le_wakeUps
    {codec : Codec} {history newer : List LoopTransition}
    {loop final : Loop}
    (run : LoopRun codec history loop)
    (continued : Run ((loopMachine codec).resumedAt loop) newer final)
    (noRequest : ∀ transition ∈ newer, TakesNoRequest transition) :
    newer.countP runsTimer ≤ loop.stack.wakeUps := by
  have spent := continued.countP_add_le TakesNoRequest runsTimer
    (fun state => state.stack.WithinLimit)
    (fun state => state.stack.wakeUps) loop.stack.wakeUps
    (by
      rintro state rfl
      exact ⟨withinLimit_of_run run, le_rfl⟩)
    (by
      intro transition stepped allowed limited
      exact ⟨withinLimit_step limited stepped,
        wakeUps_step stepped allowed limited⟩)
    noRequest
  exact (Nat.le_add_right _ _).trans spent.2

/-- A confirmable GET is the first thing the loop takes. -/
def firstGet : Iteration :=
  .plain (fromSecs 1)
    (.outboundRequest (some
      ⟨⟨.get, "", [], none, [], none, true⟩, .loopback 5683, ⟨0⟩⟩))

/-- The loop that took the first request. -/
def loopAfterGet : Loop :=
  (((Loop.start 0).step bareCodec firstGet).map Prod.fst).getD
    (Loop.start 0)

theorem exists_run_loopAfterGet :
    ∃ history, LoopRun bareCodec history loopAfterGet := by
  have stepped : ((Loop.start 0).step bareCodec firstGet).map Prod.fst =
      some loopAfterGet := by decide
  rcases Option.map_eq_some_iff.mp stepped with
    ⟨⟨after, effects⟩, isStep, isAfter⟩
  have started : LoopRun bareCodec [] (Loop.start 0) :=
    .start (Loop.initial_start bareCodec 0)
  have taken : LoopRun bareCodec
      [⟨Loop.start 0, firstGet, effects, after⟩] after :=
    started.extend isStep
  rw [show after = loopAfterGet from isAfter] at taken
  exact ⟨_, taken⟩

/-- A peer that never answers lets the timer run as often as it can. -/
theorem timer_runs_le_wakeUps_on_silence :
    ∃ newer final,
      Run ((loopMachine bareCodec).resumedAt loopAfterGet) newer final ∧
        newer.countP runsTimer = 5 ∧ 5 ≤ loopAfterGet.stack.wakeUps := by
  rcases exists_run_loopAfterGet with ⟨history, run⟩
  have resumes :
      ((loopMachine bareCodec).resumedAt loopAfterGet).Initial
        loopAfterGet := rfl
  rcases exists_run_of_replay resumes
      ([3, 7, 15, 31, 63].map fun seconds =>
        .plain (fromSecs seconds)
          (.retransmissionTimer [(.loopback 5683, [[0, 0, 0, 0]])]))
      (fun newer _ => newer.countP runsTimer = 5 ∧
        newer.all fun transition => transition.input.channelTaken.isNone)
      (by decide) with
    ⟨newer, final, continued, checked⟩
  rcases of_decide_eq_true checked with ⟨five, noChannel⟩
  refine ⟨newer, final, continued, five, ?_⟩
  rw [← five]
  apply timer_runs_le_wakeUps run continued
  intro transition member outbound isRequest
  have taken := List.all_eq_true.mp noChannel transition member
  rw [Iteration.channelTaken, isRequest] at taken
  cases taken

end Coapable.Transport
