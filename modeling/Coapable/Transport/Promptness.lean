import Coapable.Transport.Conservation
import Coapable.Transport.Silence
import Coapable.Transport.Backoff

/-!
# How long a request can be pending

The loop sleeps until the soonest deadline, but it is the runtime that wakes
it and that chooses among the branches that are ready.  `Prompt` says how late
an iteration may start while a deadline is pending.  The delays add up, one
for each copy and one for the timeout, and that is all that can be added to
the back-off schedule: after a fixed time every request has its result, unless
an empty ACK took the deadline of a CON.
-/

namespace Coapable.Transport

open Coapable.BareCodec
open Coapable.CoapLite
open Coapable.Foundation.Execution
open Coapable.Foundation.FiniteMap
open Coapable.Transport.Deadlines

/-! ## Intervals that are kept -/

/-- Each of the times, newest first, is late by the slack at most. -/
def Punctual (start timeout slack : Nat) : List Nat → Prop
  | [] => True
  | time :: older =>
      time ≤ older.head?.getD start + 2 ^ older.length * timeout + slack ∧
        Punctual start timeout slack older

/-- The delays add up. -/
theorem Punctual.elapsed
    {start timeout slack : Nat} {times : List Nat}
    (punctual : Punctual start timeout slack times) :
    times.head?.getD start + timeout ≤
      start + 2 ^ times.length * timeout + times.length * slack := by
  induction times with
  | nil => simp
  | cons time older induction =>
      have earlier := induction punctual.2
      have now := punctual.1
      rw [List.length_cons, Nat.pow_succ, Nat.mul_comm (2 ^ older.length) 2,
        Nat.mul_assoc, Nat.add_one_mul older.length slack]
      change time + timeout ≤ _
      omega

/-! ## A prompt loop -/

/-- The iteration starts at most the slack after any deadline that was pending
before it. -/
def Prompt (slack : Nat) (transition : LoopTransition) : Prop :=
  ∀ deadline ∈ transition.before.stack.nextDeadline,
    transition.input.now ≤ deadline + slack

/-- The latest deadline that the exchange of the request can have. -/
def Opening.latestDeadline (opening : Opening) (opener : LoopTransition)
    (slack : Nat) : Nat :=
  if opening.outbound.request.confirmable then
    opener.input.now + 31 * opener.input.ackTimeout.duration + 4 * slack
  else opener.input.now + nonLifetime

/-- The transition receives an empty ACK from the peer of the request, with an
MID that is indexed to its token. -/
def Opening.AcknowledgedBy (codec : Codec) (opening : Opening)
    (transition : LoopTransition) : Prop :=
  ∃ raw parsed,
    transition.input.branch = .inbound raw opening.outbound.peer ∧
      codec.fromBytes raw = some parsed ∧
        parsed.header.messageType = .acknowledgement ∧
          parsed.header.code = .empty ∧
    (transition.before.stack.client
      opening.outbound.peer).midToToken.lookup
        parsed.header.messageId = some opening.token

section Step

variable
  {codec : Codec} {transition : LoopTransition} {opening : Opening}
  {exchange : Exchange} {slack deadline : Nat}

theorem Prompt.now_le
    (prompt : Prompt slack transition)
    (isOpen :
      opening.exchangeIn transition.before.stack = some exchange)
    (isDeadline : exchange.deadline = some deadline) :
    transition.input.now ≤ deadline + slack := by
  rcases exists_nextDeadline_le
      ((opening.exchangeIn_eq_some_iff _ _).mp isOpen).1 isDeadline with
    ⟨least, isLeast, le⟩
  have inTime := prompt least isLeast
  omega

/-- A copy is a re-sending of the timer for the open exchange. -/
theorem exists_armed_of_copyIn
    {copy : Nat × Bytes} (copied : opening.copyIn transition = some copy) :
    ∃ exchange state,
      opening.exchangeIn transition.before.stack = some exchange ∧
        exchange.retransmit = some state ∧
          copy.1 = transition.input.now := by
  by_cases isTimer :
      ∃ order, transition.input.branch = .retransmissionTimer order
  · rcases isTimer with ⟨order, isTimer⟩
    rw [copyIn_of_timer opening isTimer, Option.bind_eq_some_iff] at copied
    rcases copied with ⟨exchange, isOpen, copied⟩
    rw [Option.map_eq_some_iff] at copied
    rcases copied with ⟨bytes, resends, rfl⟩
    rcases exchange.resend_cases transition.input.now with
      ⟨nothing, _⟩ | ⟨state, armed, _⟩
    · cases nothing.symm.trans resends
    · exact ⟨exchange, state, isOpen, armed, rfl⟩
  · rw [copyIn_of_not_timer opening (not_exists.mp isTimer)] at copied
    cases copied

/-- Before a CON was acknowledged, and for a NON always, there is a deadline,
and it is that of the schedule. -/
theorem Opening.Expects.deadline_cases
    {opener : LoopTransition} {times : List Nat}
    (expected : opening.Expects opener times exchange) :
    (opening.outbound.request.confirmable = true ∧
      (exchange.deadline = none ∨
        exchange.deadline = some (times.head?.getD opener.input.now +
          2 ^ times.length * opener.input.ackTimeout.duration))) ∨
    (opening.outbound.request.confirmable = false ∧
      exchange.deadline = some (opener.input.now + nonLifetime)) := by
  rw [Opening.Expects] at expected
  split at expected
  · next confirmable =>
      refine .inl ⟨confirmable, ?_⟩
      rw [Exchange.deadline, Exchange.retransmitDeadline,
        Exchange.expiryDeadline, expected.1]
      cases armed : exchange.retransmit with
      | none => exact .inl rfl
      | some state =>
          right
          rw [← (expected.2 state armed).nextRetransmit_eq]
          rfl
  · next nonConfirmable =>
      refine .inr ⟨Bool.eq_false_of_not_eq_true nonConfirmable, ?_⟩
      rw [Exchange.deadline, Exchange.retransmitDeadline,
        Exchange.expiryDeadline, expected.1, expected.2]
      rfl

/-- On a schedule that is kept no deadline is later than the latest. -/
theorem OnSchedule.deadline_le
    {opener : LoopTransition} {newer : List LoopTransition} {loop : Loop}
    (schedule : OnSchedule opener opening newer loop)
    (punctual : Punctual opener.input.now
      opener.input.ackTimeout.duration slack
      ((opening.copies newer).map Prod.fst))
    (isOpen : opening.exchangeIn loop.stack = some exchange)
    (isDeadline : exchange.deadline = some deadline) :
    deadline ≤ opening.latestDeadline opener slack := by
  have elapsed := punctual.elapsed
  have atMost : ((opening.copies newer).map Prod.fst).length ≤ 4 := by
    rw [List.length_map]
    exact schedule.atMost
  have expected := schedule.expects exchange isOpen
  generalize (opening.copies newer).map Prod.fst = times
    at elapsed atMost expected
  rw [Opening.latestDeadline]
  rcases expected.deadline_cases with
    ⟨confirmable, unarmed | scheduled⟩ | ⟨nonConfirmable, scheduled⟩
  · cases unarmed.symm.trans isDeadline
  · rw [if_pos confirmable,
      ← Option.some.inj (scheduled.symm.trans isDeadline)]
    have power : 2 ^ times.length ≤ 16 :=
      Nat.pow_le_pow_right (Nat.le_succ 1) atMost
    have intervals := Nat.mul_le_mul_right
      opener.input.ackTimeout.duration power
    have delays := Nat.mul_le_mul_right slack atMost
    omega
  · rw [if_neg (by simp [nonConfirmable]),
      ← Option.some.inj (scheduled.symm.trans isDeadline)]

theorem Opening.Expects.deadline_of_cancelled
    {opener : LoopTransition} {times : List Nat}
    (expected : opening.Expects opener times exchange)
    (isDeadline : exchange.cancelRetransmission.deadline = some deadline) :
    exchange.deadline = some deadline := by
  have isExpiry : exchange.expiresAt = some deadline := isDeadline
  rw [Opening.Expects] at expected
  split at expected
  · cases expected.1.symm.trans isExpiry
  · rw [Exchange.deadline, Exchange.retransmitDeadline, expected.1]
    exact isExpiry

/-- An exchange that is open after a step was opened by it or comes from the
one before. -/
theorem becomes_of_exchangeIn
    (stepped : transition.before.step codec transition.input =
      some (transition.after, transition.output))
    (old : opening.outbound.responseTx.channel <
      transition.before.channels)
    (isOpen : opening.exchangeIn transition.after.stack = some exchange) :
    ∃ previous,
      opening.exchangeIn transition.before.stack = some previous ∧
        ExchangeTable.Becomes
          (transition.before.stack.clientEvent codec transition.input
            opening.outbound.peer) previous exchange := by
  have facts := step_cases stepped
  rw [Opening.exchangeIn_eq_some_iff,
    client_step facts.branch opening.outbound.peer] at isOpen
  rcases (ExchangeTable.step_apply _ _).becomes isOpen.1 with
    isOpened | ⟨previous, stored, becomes⟩
  · -- The channel of a request that is opened now is a new one.
    rcases opening_of_opened isOpened with ⟨other, opens, _, _, rfl⟩
    rw [Opening.exchange_responseTx,
      (opens_channel facts opens).1] at isOpen
    rw [← isOpen.2] at old
    exact absurd old (Nat.lt_irrefl _)
  · exact ⟨previous, (opening.exchangeIn_eq_some_iff _ _).mpr
      ⟨stored, becomes.continues.responseTx.trans isOpen.2⟩, becomes⟩

/-- A prompt step starts in time for the deadlines that are left after it. -/
theorem OnSchedule.now_le
    {opener : LoopTransition} {newer : List LoopTransition}
    (schedule : OnSchedule opener opening newer transition.before)
    (prompt : Prompt slack transition)
    (stepped : transition.before.step codec transition.input =
      some (transition.after, transition.output))
    (old : opening.outbound.responseTx.channel <
      transition.before.channels)
    (isOpen : opening.exchangeIn transition.after.stack = some exchange)
    (isDeadline : exchange.deadline = some deadline) :
    transition.input.now ≤ deadline + slack := by
  rcases becomes_of_exchangeIn stepped old isOpen with
    ⟨previous, wasOpen, becomes⟩
  cases becomes with
  | kept => exact prompt.now_le wasOpen isDeadline
  | cancelled isEvent =>
      exact prompt.now_le wasOpen
        ((schedule.expects previous wasOpen).deadline_of_cancelled
          isDeadline)
  | @survived now after isEvent survives =>
      have origin := clientEvent_origin codec transition.before.stack
        transition.input opening.outbound.peer
      rw [isEvent] at origin
      cases origin
      rcases Exchange.survive_cases survives with
        ⟨rfl, _⟩ | ⟨state, _, _, _, rfl⟩
      · exact prompt.now_le wasOpen isDeadline
      · -- A new deadline is set from the time of the step.
        rw [← Option.some.inj isDeadline, Nat.add_assoc]
        exact Nat.le_add_right _ _

/-- An empty ACK touches the exchange that its MID is indexed to only. -/
theorem ExchangeTable.indexed_or_kept
    {table : ExchangeTable} {mid : UInt16} {token : Token}
    (found : (table.apply (.acknowledged mid)).1.exchanges.lookup token =
      some exchange) :
    table.midToToken.lookup mid = some token ∨
      table.exchanges.lookup token = some exchange := by
  simp only [ExchangeTable.apply] at found
  split at found
  · next other indexed =>
      rw [lookup_modify] at found
      split at found
      · next same => exact .inl (same ▸ indexed)
      · exact .inr found
  · exact .inr found

/-- Only an empty ACK takes the deadline of an exchange that stays open. -/
theorem acknowledgedBy_of_disarmed
    (stepped : transition.before.step codec transition.input =
      some (transition.after, transition.output))
    (old : opening.outbound.responseTx.channel <
      transition.before.channels)
    (isOpen : opening.exchangeIn transition.after.stack = some exchange)
    (unarmed : exchange.deadline = none) :
    opening.AcknowledgedBy codec transition ∨
      ∃ previous,
        opening.exchangeIn transition.before.stack = some previous ∧
          previous.deadline = none := by
  rcases becomes_of_exchangeIn stepped old isOpen with
    ⟨previous, wasOpen, becomes⟩
  cases becomes with
  | kept => exact .inr ⟨exchange, wasOpen, unarmed⟩
  | @cancelled mid isEvent =>
      rw [Opening.exchangeIn_eq_some_iff,
        client_step (step_cases stepped).branch, isEvent] at isOpen
      rcases ExchangeTable.indexed_or_kept isOpen.1 with indexed | kept
      · left
        have origin := clientEvent_origin codec transition.before.stack
          transition.input opening.outbound.peer
        rw [isEvent] at origin
        cases origin with
        | @acknowledged raw parsed taken parses kind code =>
            exact ⟨raw, parsed, taken, parses, kind, code, indexed⟩
      · exact .inr ⟨_, (opening.exchangeIn_eq_some_iff _ _).mpr
          ⟨kept, isOpen.2⟩, unarmed⟩
  | @survived now after isEvent survives =>
      rcases Exchange.survive_cases survives with
        ⟨rfl, _⟩ | ⟨state, _, _, _, rfl⟩
      · exact .inr ⟨exchange, wasOpen, unarmed⟩
      · cases unarmed

end Step

/-! ## Runs -/

section Run

variable
  {codec : Codec} {opener : LoopTransition} {opening : Opening}
  {newer older history : List LoopTransition} {loop : Loop}
  {exchange : Exchange} {slack deadline : Nat}

theorem exchangeIn_of_opens
    (stepped : opener.before.step codec opener.input =
      some (opener.after, opener.output))
    (opens : Opens codec opener opening) :
    opening.exchangeIn opener.after.stack =
      some (opening.exchange opener.input) := by
  rw [Opening.exchangeIn_eq_some_iff,
    client_step (step_cases stepped).branch, clientEvent_of_opening opens]
  refine ⟨?_, opening.exchange_responseTx opener.input⟩
  change ((opener.before.stack.client _).insert _ _).exchanges.lookup _ = _
  rw [ExchangeTable.insert_exchanges_lookup, if_pos rfl]

/-- In a prompt continuation the copies are punctual. -/
theorem punctual_of_run
    (run : LoopRun codec (newer ++ opener :: older) loop)
    (opens : Opens codec opener opening)
    (prompt : ∀ transition ∈ newer, Prompt slack transition) :
    Punctual opener.input.now opener.input.ackTimeout.duration slack
      ((opening.copies newer).map Prod.fst) := by
  induction newer generalizing loop with
  | nil => trivial
  | cons transition rest induction =>
      rcases run.last with ⟨earlier, _, _⟩
      have inTime := induction earlier fun transition member =>
        prompt transition (List.mem_cons_of_mem _ member)
      cases copied : opening.copyIn transition with
      | none =>
          rw [show opening.copies (transition :: rest) =
            opening.copies rest from List.filterMap_cons_none copied]
          exact inTime
      | some copy =>
          rw [show opening.copies (transition :: rest) =
            copy :: opening.copies rest from
              List.filterMap_cons_some copied]
          rcases exists_armed_of_copyIn copied with
            ⟨exchange, state, isOpen, armed, atNow⟩
          have follows := ((onSchedule_of_run earlier opens).2.expects
            exchange isOpen).follows armed
          have isDeadline :
              exchange.deadline = some state.nextRetransmit := by
            rw [Exchange.deadline, Exchange.retransmitDeadline, armed]
            rfl
          have now_le := (prompt transition List.mem_cons_self).now_le
            isOpen isDeadline
          rw [follows.2.2.nextRetransmit_eq, ← atNow] at now_le
          exact ⟨now_le, inTime⟩

/-- While the exchange of a request has a deadline, the clock is not beyond it
by more than the slack. -/
theorem clock_le_of_open
    (run : LoopRun codec (newer ++ opener :: older) loop)
    (opens : Opens codec opener opening)
    (prompt : ∀ transition ∈ newer, Prompt slack transition)
    (isOpen : opening.exchangeIn loop.stack = some exchange)
    (isDeadline : exchange.deadline = some deadline) :
    loop.clock ≤ deadline + slack := by
  have schedule := (onSchedule_of_run run opens).2
  cases newer with
  | nil =>
      rcases run.last with ⟨_, stepped, rfl⟩
      have now_le : opener.input.now ≤ deadline := by
        rcases (schedule.expects exchange isOpen).deadline_cases with
          ⟨_, unarmed | scheduled⟩ | ⟨_, scheduled⟩
        · cases unarmed.symm.trans isDeadline
        · rw [← Option.some.inj (scheduled.symm.trans isDeadline)]
          exact Nat.le_add_right _ _
        · rw [← Option.some.inj (scheduled.symm.trans isDeadline)]
          exact Nat.le_add_right _ _
      rw [(step_cases stepped).clock_after]
      exact now_le.trans (Nat.le_add_right _ _)
  | cons transition rest =>
      rcases run.last with ⟨earlier, stepped, rfl⟩
      rcases onSchedule_of_run earlier opens with ⟨old, schedule⟩
      rw [(step_cases stepped).clock_after]
      exact schedule.now_le (prompt _ List.mem_cons_self) stepped old
        isOpen isDeadline

/-- An exchange without a deadline was acknowledged. -/
theorem exists_acknowledgedBy
    (run : LoopRun codec (newer ++ opener :: older) loop)
    (opens : Opens codec opener opening)
    (isOpen : opening.exchangeIn loop.stack = some exchange)
    (unarmed : exchange.deadline = none) :
    ∃ transition ∈ newer, opening.AcknowledgedBy codec transition := by
  induction newer generalizing loop exchange with
  | nil =>
      rcases run.last with ⟨_, stepped, rfl⟩
      cases isOpen.symm.trans (exchangeIn_of_opens stepped opens)
      have armed := opening.exchange_deadline opener.input
      rw [unarmed] at armed
      cases armed
  | cons transition rest induction =>
      rcases run.last with ⟨earlier, stepped, rfl⟩
      have old := (onSchedule_of_run earlier opens).1
      rcases acknowledgedBy_of_disarmed stepped old isOpen unarmed with
        acknowledged | ⟨previous, wasOpen, wasUnarmed⟩
      · exact ⟨transition, List.mem_cons_self, acknowledged⟩
      · rcases induction earlier wasOpen wasUnarmed with
          ⟨earlierOne, member, acknowledged⟩
        exact ⟨earlierOne, List.mem_cons_of_mem _ member, acknowledged⟩

/-- Only the exchange of the request holds its channel. -/
theorem exchangeIn_of_holds
    (run : LoopRun codec history loop)
    (member : opener ∈ history) (opens : Opens codec opener opening)
    {peer : SocketAddr} {token : Token}
    (found :
      (loop.stack.client peer).exchanges.lookup token = some exchange)
    (holds : exchange.responseTx = opening.outbound.responseTx) :
    opening.outbound.peer = peer ∧ opening.token = token ∧
      opening.exchangeIn loop.stack = some exchange := by
  rcases exists_opening run found with ⟨other, openedFor⟩
  rcases openedFor.opened with ⟨otherOpener, otherMember, otherOpens⟩
  have same := opening_unique run otherMember member otherOpens opens
    (openedFor.responseTx.symm.trans holds)
  subst same
  refine ⟨openedFor.peer_eq, openedFor.token_eq,
    (other.exchangeIn_eq_some_iff _ _).mpr ⟨?_, holds⟩⟩
  rw [openedFor.peer_eq, openedFor.token_eq]
  exact found

/-- The channel of a request is held by one exchange or one result was sent
on it. -/
theorem senders_count_add_results
    (run : LoopRun codec history loop)
    (notExhausted : Along TokensNotExhausted history)
    (member : opener ∈ history) (opens : Opens codec opener opening) :
    loop.stack.senders.count opening.outbound.responseTx +
        (resultsOn opening.outbound.responseTx history).length = 1 := by
  have opened : opening.outbound.responseTx ∈ openedIn codec history := by
    refine List.mem_flatMap.mpr ⟨opener, member, ?_⟩
    rw [CoapStack.openedSenders, opens]
    exact List.mem_singleton_self _
  have once := List.count_eq_one_of_mem (openedIn_nodup run) opened
  rw [← Multiset.coe_count, ← senders_conserved run notExhausted,
    Multiset.count_add, ← length_resultsOn] at once
  exact once

/-- A request whose exchange is not open any more got one result. -/
theorem exists_result_of_closed
    (run : LoopRun codec history loop)
    (notExhausted : Along TokensNotExhausted history)
    (member : opener ∈ history) (opens : Opens codec opener opening)
    (closed : opening.exchangeIn loop.stack = none) :
    ∃ result,
      resultsOn opening.outbound.responseTx history = [result] := by
  have once := senders_count_add_results run notExhausted member opens
  have notHeld : opening.outbound.responseTx ∉ loop.stack.senders := by
    intro held
    rcases (mem_senders_iff _ _).mp held with
      ⟨peer, token, exchange, found, holds⟩
    cases closed.symm.trans
      (exchangeIn_of_holds run member opens found holds).2.2
  rw [Multiset.count_eq_zero.mpr notHeld, Nat.zero_add] at once
  exact List.length_eq_one_iff.mp once

/-- A timeout is delivered in time for the latest deadline. -/
theorem timeout_in_time
    (run : LoopRun codec (newer ++ opener :: older) loop)
    (opens : Opens codec opener opening)
    (prompt : ∀ transition ∈ newer, Prompt slack transition)
    {transition : LoopTransition} (member : transition ∈ newer)
    {retransmits : Nat}
    (timedOut : opening.timeout retransmits ∈ transition.output) :
    transition.input.now ≤
      opening.latestDeadline opener slack + slack := by
  rcases List.append_of_mem member with ⟨later, rest, isSplit⟩
  rcases onSchedule_of_timeout run opens isSplit timedOut with
    ⟨schedule, exchange, isOpen, ranOut, _⟩
  subst isSplit
  have suffix : transition :: (rest ++ opener :: older) <:+
      (later ++ transition :: rest) ++ opener :: older :=
    ⟨later, by simp⟩
  have punctual := punctual_of_run (run.of_suffix suffix).1 opens
    fun earlier isEarlier => prompt earlier
      (List.mem_append_right _ (List.mem_cons_of_mem _ isEarlier))
  cases isDeadline : exchange.deadline with
  | none =>
      rw [← Exchange.survive_eq_none_iff,
        exchange.survive_of_unarmed isDeadline] at ranOut
      cases ranOut
  | some deadline =>
      have now_le := (prompt transition member).now_le isOpen isDeadline
      have deadline_le := schedule.deadline_le punctual isOpen isDeadline
      omega

/--
If no iteration starts later than the slack after a pending deadline, then
every copy of a request is late by the slack at most, so is its timeout, and
once the latest deadline and the slack have passed the request has its one
result, or it is a CON whose exchange an empty ACK left without a deadline.
-/
theorem prompt_loop_keeps_time
    (run : LoopRun codec (newer ++ opener :: older) loop)
    (notExhausted :
      Along TokensNotExhausted (newer ++ opener :: older))
    (opens : Opens codec opener opening)
    (prompt : ∀ transition ∈ newer, Prompt slack transition) :
    Punctual opener.input.now opener.input.ackTimeout.duration slack
        ((opening.copies newer).map Prod.fst) ∧
      (∀ transition ∈ newer, ∀ retransmits,
        opening.timeout retransmits ∈ transition.output →
          transition.input.now ≤
            opening.latestDeadline opener slack + slack) ∧
      (opening.latestDeadline opener slack + slack < loop.clock →
        (∃ result, resultsOn opening.outbound.responseTx
            (newer ++ opener :: older) = [result]) ∨
        (opening.outbound.request.confirmable = true ∧
          (∃ exchange, opening.exchangeIn loop.stack = some exchange ∧
            exchange.deadline = none) ∧
          ∃ transition ∈ newer,
            opening.AcknowledgedBy codec transition)) := by
  have punctual := punctual_of_run run opens prompt
  refine ⟨punctual, ?_, ?_⟩
  · intro transition member retransmits timedOut
    exact timeout_in_time run opens prompt member timedOut
  · intro late
    have schedule := (onSchedule_of_run run opens).2
    cases isOpen : opening.exchangeIn loop.stack with
    | none =>
        exact .inl (exists_result_of_closed run notExhausted (by simp)
          opens isOpen)
    | some exchange =>
        cases isDeadline : exchange.deadline with
        | none =>
            refine .inr ⟨?_, ⟨exchange, rfl, isDeadline⟩,
              exists_acknowledgedBy run opens isOpen isDeadline⟩
            rcases (schedule.expects exchange isOpen).deadline_cases with
              ⟨confirmable, _⟩ | ⟨_, scheduled⟩
            · exact confirmable
            · cases isDeadline.symm.trans scheduled
        | some deadline =>
            have clock_le :=
              clock_le_of_open run opens prompt isOpen isDeadline
            have deadline_le :=
              schedule.deadline_le punctual isOpen isDeadline
            omega

end Run

/-- The seconds at which a timer that is a second late at times runs for an
unanswered GET. -/
def lateSeconds : List Nat := [4, 8, 17, 33, 66]

/-- No transition after the first is late by more than a second, and at the
end the latest deadline of the first request has passed. -/
def waitedLong : List LoopTransition → Bool
  | [last, fifth, fourth, third, second, first, opener] =>
      [last, fifth, fourth, third, second, first].all
        (fun transition =>
          transition.before.stack.nextDeadline.all fun deadline =>
            transition.input.now ≤ deadline + fromSecs 1) &&
      (opener.before.stack.opening bareCodec opener.input).any
        fun opening =>
          opening.latestDeadline opener (fromSecs 1) + fromSecs 1 <
            last.after.clock
  | _ => false

/-- A peer never answers, and the timer is late. -/
theorem prompt_loop_keeps_time_on_late_timer :
    ∃ newer opener opening loop,
      LoopRun bareCodec (newer ++ [opener]) loop ∧
        Opens bareCodec opener opening ∧
          (∀ transition ∈ newer, Prompt (fromSecs 1) transition) ∧
        ((∃ result, resultsOn opening.outbound.responseTx
            (newer ++ [opener]) = [result]) ∨
          ∃ transition ∈ newer,
            opening.AcknowledgedBy bareCodec transition) := by
  rcases exists_run_of_replay (Loop.initial_start bareCodec 0)
      (firstGet :: (lateSeconds.map fun seconds =>
        .plain (fromSecs seconds)
          (.retransmissionTimer [(.loopback 5683, [[0, 0, 0, 0]])])) ++
        [.plain (fromSecs 70) (.inbound [] (.loopback 5684))])
      (fun history _ => waitedLong history) (by decide) with
    ⟨history, loop, run, checked⟩
  unfold waitedLong at checked
  split at checked
  · next last fifth fourth third second first opener =>
      rw [Bool.and_eq_true, Option.any_eq_true] at checked
      rcases checked with ⟨inTime, opening, opens, late⟩
      let newer := [last, fifth, fourth, third, second, first]
      have kept : LoopRun bareCodec (newer ++ opener :: []) loop := run
      have prompt :
          ∀ transition ∈ newer, Prompt (fromSecs 1) transition := by
        intro transition member deadline isNext
        have checkedOne := List.all_eq_true.mp inTime transition member
        rw [Option.all_eq_true] at checkedOne
        exact of_decide_eq_true (checkedOne deadline isNext)
      have keepsTime := prompt_loop_keeps_time kept
        (tokensNotExhausted_of_length (show 7 < 2 ^ 32 by decide)) opens
        prompt
      rw [run.last.2.2] at keepsTime
      refine ⟨newer, opener, opening, loop, kept, opens, prompt, ?_⟩
      rcases keepsTime.2.2 (of_decide_eq_true late) with
        result | ⟨_, _, acknowledged⟩
      · exact .inl result
      · exact .inr acknowledged
  · cases checked

end Coapable.Transport
