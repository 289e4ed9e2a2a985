import Coapable.Transport.PacketOrigins
import Coapable.Transport.TimerBudget

/-!
# The back-off schedule of a client request

A request is identified by its channel, which no other request has.  The
copies its exchange causes are those that timer steps re-send for the exchange
that holds this channel.  The retransmission state of the exchange follows
from the times of these copies alone, so the schedule is an invariant of
everything that happens after the request was opened.
-/

namespace Coapable.Transport

open Coapable.BareCodec
open Coapable.CoapLite
open Coapable.Foundation.Execution
open Coapable.Foundation.FiniteMap

/-! ## Doubling intervals -/

/-- The times, newest first, start one timeout after the given time and keep
doubling their distance. -/
def Spaced (start timeout : Nat) : List Nat → Prop
  | [] => True
  | time :: older =>
      older.head?.getD start + 2 ^ older.length * timeout ≤ time ∧
        Spaced start timeout older

/-- The distances add up. -/
theorem Spaced.elapsed
    {start timeout : Nat} {times : List Nat}
    (spaced : Spaced start timeout times) :
    start + 2 ^ times.length * timeout ≤
      times.head?.getD start + timeout := by
  induction times with
  | nil => simp
  | cons time older induction =>
      have earlier := induction spaced.2
      have now := spaced.1
      rw [List.length_cons, Nat.pow_succ, Nat.mul_comm (2 ^ older.length) 2,
        Nat.mul_assoc]
      change _ ≤ time + timeout
      omega

namespace RetransmitState

/-- The state of an exchange that sent copies at these times. -/
structure Follows (packetBytes : Bytes) (start timeout : Nat)
    (times : List Nat) (state : RetransmitState) : Prop where
  packetBytes_eq : state.packetBytes = packetBytes
  count : state.retransmitCount = times.length
  currentTimeout_eq : state.currentTimeout = 2 ^ times.length * timeout
  nextRetransmit_eq : state.nextRetransmit =
    times.head?.getD start + 2 ^ times.length * timeout

theorem follows_new (packetBytes : Bytes) (timeout : AckTimeout)
    (now : Nat) :
    Follows packetBytes now timeout.duration []
      (new packetBytes timeout now) where
  packetBytes_eq := rfl
  count := rfl
  currentTimeout_eq := (Nat.one_mul _).symm
  nextRetransmit_eq := congrArg (now + ·) (Nat.one_mul _).symm

theorem Follows.advance
    {packetBytes : Bytes} {start timeout : Nat} {times : List Nat}
    {state : RetransmitState}
    (follows : Follows packetBytes start timeout times state)
    (allowed : state.retransmitCount < maxRetransmit) (now : Nat) :
    Follows packetBytes start timeout (now :: times)
      (state.advance now).2 := by
  have doubled : state.currentTimeout * 2 =
      2 ^ (now :: times).length * timeout := by
    rw [follows.currentTimeout_eq, List.length_cons, Nat.pow_succ]
    exact Nat.mul_right_comm _ _ _
  rw [RetransmitState.advance, if_neg (Nat.not_le.mpr allowed)]
  exact {
    packetBytes_eq := follows.packetBytes_eq
    count := congrArg (· + 1) follows.count
    currentTimeout_eq := doubled
    nextRetransmit_eq := congrArg (now + ·) doubled }

end RetransmitState

/-! ## The exchange of a request -/

namespace Opening

/-- The exchange of the request, while it is open. -/
def exchangeIn (opening : Opening) (stack : CoapStack) :
    Option Exchange :=
  ((stack.client opening.outbound.peer).exchanges.lookup
    opening.token).filter fun exchange =>
      exchange.responseTx = opening.outbound.responseTx

theorem exchangeIn_eq_some_iff
    (opening : Opening) (stack : CoapStack) (exchange : Exchange) :
    opening.exchangeIn stack = some exchange ↔
      (stack.client opening.outbound.peer).exchanges.lookup opening.token =
          some exchange ∧
        exchange.responseTx = opening.outbound.responseTx := by
  rw [exchangeIn, Option.filter_eq_some_iff, decide_eq_true_eq]

/-- The copy that a timer step re-sends for the exchange of the request, with
its time. -/
def copyIn (opening : Opening) (transition : LoopTransition) :
    Option (Nat × Bytes) :=
  match transition.input.branch with
  | .retransmissionTimer _ =>
      (opening.exchangeIn transition.before.stack).bind fun exchange =>
        (exchange.resend transition.input.now).map
          fun bytes => (transition.input.now, bytes)
  | _ => none

/-- The copies that the exchange of the request caused, newest first. -/
def copies (opening : Opening) (history : List LoopTransition) :
    List (Nat × Bytes) :=
  history.filterMap opening.copyIn

end Opening

/-! ## One step -/

section Step

variable {codec : Codec} {transition : LoopTransition}
  (opening : Opening)

theorem copyIn_of_timer
    {order : List (SocketAddr × List Token)}
    (isTimer : transition.input.branch = .retransmissionTimer order) :
    opening.copyIn transition =
      (opening.exchangeIn transition.before.stack).bind fun exchange =>
        (exchange.resend transition.input.now).map
          fun bytes => (transition.input.now, bytes) := by
  rw [Opening.copyIn, isTimer]

theorem copyIn_of_not_timer
    (noTimer : ∀ order,
      transition.input.branch ≠ .retransmissionTimer order) :
    opening.copyIn transition = none := by
  unfold Opening.copyIn
  split
  · next order isTimer => exact absurd isTimer (noTimer order)
  · rfl

theorem exchangeIn_of_timer
    (stepped : transition.before.step codec transition.input =
      some (transition.after, transition.output))
    {order : List (SocketAddr × List Token)}
    (isTimer : transition.input.branch = .retransmissionTimer order) :
    opening.exchangeIn transition.after.stack =
      (opening.exchangeIn transition.before.stack).bind
        (Exchange.survive transition.input.now) := by
  rw [Opening.exchangeIn, Opening.exchangeIn,
    client_step (step_cases stepped).branch, clientEvent_timer isTimer]
  change (((transition.before.stack.client
    opening.outbound.peer).tick _).exchanges.lookup _).filter _ = _
  rw [ExchangeTable.tick_exchanges_lookup]
  cases (transition.before.stack.client
      opening.outbound.peer).exchanges.lookup opening.token with
  | none => rfl
  | some exchange =>
      rw [Option.bind_some]
      cases survived : exchange.survive transition.input.now with
      | none =>
          simp only [Option.filter]
          split
          · exact survived.symm
          · rfl
      | some after =>
          have sameChannel :=
            (Exchange.continues_of_survive survived).responseTx
          simp only [Option.filter, ← sameChannel]
          split
          · exact survived.symm
          · rfl

/-- A step that is no timer step opens no exchange on an old channel, and
leaves the one of the request as it is or cancels its retransmission. -/
theorem exchangeIn_of_not_timer
    (stepped : transition.before.step codec transition.input =
      some (transition.after, transition.output))
    (old : opening.outbound.responseTx.channel <
      transition.before.channels)
    (noTimer : ∀ order,
      transition.input.branch ≠ .retransmissionTimer order)
    {exchange : Exchange}
    (found : opening.exchangeIn transition.after.stack = some exchange) :
    ∃ previous,
      opening.exchangeIn transition.before.stack = some previous ∧
        (exchange = previous ∨
          exchange = previous.cancelRetransmission) := by
  have facts := step_cases stepped
  rw [Opening.exchangeIn_eq_some_iff,
    client_step facts.branch opening.outbound.peer] at found
  rcases (ExchangeTable.step_apply _ _).becomes found.1 with
    isOpened | ⟨previous, stored, becomes⟩
  · -- The channel of a request that is opened now is a new one.
    rcases opening_of_opened isOpened with ⟨other, opens, _, _, isExchange⟩
    rw [← isExchange, Opening.exchange_responseTx,
      (opens_channel facts opens).1] at found
    rw [← found.2] at old
    exact absurd old (Nat.lt_irrefl _)
  · have sameChannel := becomes.continues.responseTx
    refine ⟨previous, (opening.exchangeIn_eq_some_iff _ _).mpr
      ⟨stored, sameChannel.trans found.2⟩, ?_⟩
    cases becomes with
    | kept => exact Or.inl rfl
    | cancelled isEvent => exact Or.inr rfl
    | survived isEvent survives =>
        have origin := clientEvent_origin codec transition.before.stack
          transition.input opening.outbound.peer
        rw [isEvent] at origin
        cases origin with
        | ticked isTimer => exact absurd isTimer (noTimer _)

end Step

/-! ## The invariant -/

section Invariant

variable
  {codec : Codec} {opener : LoopTransition} {opening : Opening}
  {newer older : List LoopTransition} {loop : Loop}

/-- What the exchange looks like after copies at these times: one of a CON is
retransmitted by the schedule or not at all, one of a NON only expires. -/
def Opening.Expects (opening : Opening) (opener : LoopTransition)
    (times : List Nat) (exchange : Exchange) : Prop :=
  if opening.outbound.request.confirmable then
    exchange.expiresAt = none ∧
      ∀ state ∈ exchange.retransmit,
        state.Follows opening.bytes opener.input.now
          opener.input.ackTimeout.duration times
  else
    exchange.retransmit = none ∧
      exchange.expiresAt = some (opener.input.now + nonLifetime)

theorem Opening.expects_exchange
    (opening : Opening) (opener : LoopTransition) :
    opening.Expects opener [] (opening.exchange opener.input) := by
  rw [Opening.Expects, Opening.exchange]
  split
  · refine ⟨rfl, ?_⟩
    intro state isState
    rw [← Option.some.inj isState]
    exact RetransmitState.follows_new _ _ _
  · exact ⟨rfl, rfl⟩

theorem Opening.Expects.cancelRetransmission
    {times : List Nat} {exchange : Exchange}
    (expected : opening.Expects opener times exchange) :
    opening.Expects opener times exchange.cancelRetransmission := by
  rw [Opening.Expects] at expected
  rw [Opening.Expects]
  split at expected
  · next confirmable =>
      rw [if_pos confirmable]
      exact ⟨expected.1, fun _ isState => nomatch isState⟩
  · next nonConfirmable =>
      rw [if_neg nonConfirmable]
      exact ⟨rfl, expected.2⟩

/-- What is retransmitted belongs to a CON and follows the schedule. -/
theorem Opening.Expects.follows
    {times : List Nat} {exchange : Exchange} {state : RetransmitState}
    (expected : opening.Expects opener times exchange)
    (armed : exchange.retransmit = some state) :
    opening.outbound.request.confirmable = true ∧
      exchange.expiresAt = none ∧
        state.Follows opening.bytes opener.input.now
          opener.input.ackTimeout.duration times := by
  rw [Opening.Expects] at expected
  split at expected
  · next confirmable =>
      exact ⟨confirmable, expected.1, expected.2 state armed⟩
  · rw [expected.1] at armed
    cases armed

/-- The copies so far and the state of the exchange are on schedule. -/
structure OnSchedule (opener : LoopTransition) (opening : Opening)
    (newer : List LoopTransition) (loop : Loop) : Prop where
  atMost : (opening.copies newer).length ≤ maxRetransmit
  identical : ∀ copy ∈ opening.copies newer, copy.2 = opening.bytes
  spaced : Spaced opener.input.now opener.input.ackTimeout.duration
    ((opening.copies newer).map Prod.fst)
  con_only : opening.outbound.request.confirmable = false →
    opening.copies newer = []
  expects : ∀ exchange, opening.exchangeIn loop.stack = some exchange →
    opening.Expects opener ((opening.copies newer).map Prod.fst) exchange

/-- A step without a copy keeps the schedule if the exchange stays as it was
or loses its retransmission. -/
theorem OnSchedule.of_no_copy
    {transition : LoopTransition}
    (schedule : OnSchedule opener opening newer transition.before)
    (noCopy : opening.copyIn transition = none)
    (unchanged : ∀ exchange,
      opening.exchangeIn transition.after.stack = some exchange →
        ∃ previous,
          opening.exchangeIn transition.before.stack = some previous ∧
            (exchange = previous ∨
              exchange = previous.cancelRetransmission)) :
    OnSchedule opener opening (transition :: newer) transition.after := by
  have sameCopies :
      opening.copies (transition :: newer) = opening.copies newer :=
    List.filterMap_cons_none noCopy
  refine ⟨?_, ?_, ?_, ?_, ?_⟩ <;> rw [sameCopies]
  · exact schedule.atMost
  · exact schedule.identical
  · exact schedule.spaced
  · exact schedule.con_only
  · intro exchange found
    rcases unchanged exchange found with ⟨previous, wasOpen, rfl | rfl⟩
    · exact schedule.expects exchange wasOpen
    · exact (schedule.expects previous wasOpen).cancelRetransmission

/-- A timer step that re-sends a copy does so when it is due. -/
theorem OnSchedule.of_copy
    {transition : LoopTransition} {exchange : Exchange}
    {state : RetransmitState}
    (schedule : OnSchedule opener opening newer transition.before)
    (wasOpen :
      opening.exchangeIn transition.before.stack = some exchange)
    (armed : exchange.retransmit = some state)
    (due : state.nextRetransmit ≤ transition.input.now)
    (allowed : state.retransmitCount < maxRetransmit)
    (copied : opening.copyIn transition =
      some (transition.input.now, state.packetBytes))
    (isOpen : opening.exchangeIn transition.after.stack =
      some { exchange with
        retransmit := some (state.advance transition.input.now).2 }) :
    OnSchedule opener opening (transition :: newer) transition.after := by
  rcases (schedule.expects exchange wasOpen).follows armed with
    ⟨confirmable, noExpiry, follows⟩
  have oneMore : opening.copies (transition :: newer) =
      (transition.input.now, state.packetBytes) :: opening.copies newer :=
    List.filterMap_cons_some copied
  have sent := follows.count
  rw [List.length_map] at sent
  refine ⟨?_, ?_, ?_, ?_, ?_⟩ <;> rw [oneMore]
  · rw [List.length_cons, ← sent]
    exact allowed
  · intro copy member
    rcases List.mem_cons.mp member with rfl | earlier
    · exact follows.packetBytes_eq
    · exact schedule.identical copy earlier
  · refine ⟨?_, schedule.spaced⟩
    rw [← follows.nextRetransmit_eq]
    exact due
  · intro isNon
    rw [confirmable] at isNon
    cases isNon
  · intro after found
    rw [← Option.some.inj (isOpen.symm.trans found), Opening.Expects,
      if_pos confirmable]
    refine ⟨noExpiry, ?_⟩
    intro advanced isAdvanced
    rw [← Option.some.inj isAdvanced]
    exact follows.advance allowed _

theorem OnSchedule.step
    {transition : LoopTransition}
    (schedule : OnSchedule opener opening newer transition.before)
    (stepped : transition.before.step codec transition.input =
      some (transition.after, transition.output))
    (old : opening.outbound.responseTx.channel <
      transition.before.channels) :
    OnSchedule opener opening (transition :: newer) transition.after := by
  by_cases isTimer :
      ∃ order, transition.input.branch = .retransmissionTimer order
  · rcases isTimer with ⟨order, isTimer⟩
    have copied := copyIn_of_timer opening isTimer
    have survives := exchangeIn_of_timer opening stepped isTimer
    cases wasOpen : opening.exchangeIn transition.before.stack with
    | none =>
        rw [wasOpen] at copied survives
        apply schedule.of_no_copy copied
        intro exchange found
        cases survives.symm.trans found
    | some exchange =>
        rw [wasOpen, Option.bind_some] at copied survives
        rcases exchange.resend_cases transition.input.now with
          ⟨nothing, kept⟩ |
            ⟨state, armed, due, allowed, resends, advances⟩
        · rw [nothing] at copied
          apply schedule.of_no_copy copied
          intro after found
          exact ⟨exchange, wasOpen,
            Or.inl (kept after (survives.symm.trans found)).1⟩
        · rw [resends] at copied
          exact schedule.of_copy wasOpen armed due allowed copied
            (survives.trans advances)
  · have noTimer := not_exists.mp isTimer
    exact schedule.of_no_copy (copyIn_of_not_timer opening noTimer)
      fun exchange found =>
        exchangeIn_of_not_timer opening stepped old noTimer found

theorem onSchedule_of_opens
    (stepped : opener.before.step codec opener.input =
      some (opener.after, opener.output))
    (opens : Opens codec opener opening) :
    OnSchedule opener opening [] opener.after where
  atMost := Nat.zero_le _
  identical := fun _ member => nomatch member
  spaced := trivial
  con_only := fun _ => rfl
  expects := by
    intro exchange found
    rw [Opening.exchangeIn_eq_some_iff,
      client_step (step_cases stepped).branch,
      clientEvent_of_opening opens] at found
    change ((opener.before.stack.client _).insert _ _).exchanges.lookup _ =
      _ ∧ _ at found
    rw [ExchangeTable.insert_exchanges_lookup, if_pos rfl] at found
    rw [← Option.some.inj found.1]
    exact opening.expects_exchange opener

/-- The channel of the request is an old one ever after. -/
theorem channel_lt_of_opens
    (stepped : opener.before.step codec opener.input =
      some (opener.after, opener.output))
    (opens : Opens codec opener opening) :
    opening.outbound.responseTx.channel < opener.after.channels := by
  rcases opens_channel (step_cases stepped) opens with
    ⟨channel, channels⟩
  rw [channel, channels]
  exact Nat.lt_succ_self _

theorem channels_le
    {transition : LoopTransition}
    (stepped : transition.before.step codec transition.input =
      some (transition.after, transition.output)) :
    transition.before.channels ≤ transition.after.channels := by
  rw [(step_cases stepped).channels_after]
  exact Nat.le_add_right _ _

/-- The schedule holds at every later moment. -/
theorem onSchedule_of_run
    (run : LoopRun codec (newer ++ opener :: older) loop)
    (opens : Opens codec opener opening) :
    opening.outbound.responseTx.channel < loop.channels ∧
      OnSchedule opener opening newer loop := by
  have stepped : opener.before.step codec opener.input =
      some (opener.after, opener.output) :=
    run.stepped_of_mem (by simp)
  refine run.resumed.invariant
    (fun newer loop =>
      opening.outbound.responseTx.channel < loop.channels ∧
        OnSchedule opener opening newer loop) ?_ ?_
  · rintro _ rfl
    exact ⟨channel_lt_of_opens stepped opens,
      onSchedule_of_opens stepped opens⟩
  · rintro newer before after iteration effects _ ⟨old, schedule⟩ isStep
    exact ⟨old.trans_le
        (@channels_le codec ⟨before, iteration, effects, after⟩ isStep),
      schedule.step isStep old⟩

/-! ## After a cancellation or removal -/

/-- The exchange of the request is open and still retransmitted. -/
def Opening.Retransmits (opening : Opening) (stack : CoapStack) : Prop :=
  ∃ exchange, opening.exchangeIn stack = some exchange ∧
    exchange.retransmit.isSome = true

/-- A step that finds no retransmission sends no copy and starts none. -/
theorem stopped_step
    {transition : LoopTransition}
    (stepped : transition.before.step codec transition.input =
      some (transition.after, transition.output))
    (old : opening.outbound.responseTx.channel <
      transition.before.channels)
    (stopped : ¬ opening.Retransmits transition.before.stack) :
    opening.copyIn transition = none ∧
      ¬ opening.Retransmits transition.after.stack := by
  by_cases isTimer :
      ∃ order, transition.input.branch = .retransmissionTimer order
  · rcases isTimer with ⟨order, isTimer⟩
    have copied := copyIn_of_timer opening isTimer
    have survives := exchangeIn_of_timer opening stepped isTimer
    cases wasOpen : opening.exchangeIn transition.before.stack with
    | none =>
        rw [wasOpen] at copied survives
        refine ⟨copied, ?_⟩
        rintro ⟨exchange, isOpen, _⟩
        cases survives.symm.trans isOpen
    | some exchange =>
        rw [wasOpen, Option.bind_some] at copied survives
        rcases exchange.resend_cases transition.input.now with
          ⟨nothing, kept⟩ | ⟨state, armed, _⟩
        · rw [nothing] at copied
          refine ⟨copied, ?_⟩
          rintro ⟨after, isOpen, retransmits⟩
          rw [(kept after (survives.symm.trans isOpen)).1] at retransmits
          exact stopped ⟨exchange, wasOpen, retransmits⟩
        · exact absurd ⟨exchange, wasOpen, by rw [armed]; rfl⟩ stopped
  · have noTimer := not_exists.mp isTimer
    refine ⟨copyIn_of_not_timer opening noTimer, ?_⟩
    rintro ⟨exchange, isOpen, retransmits⟩
    rcases exchangeIn_of_not_timer opening stepped old noTimer isOpen with
      ⟨previous, wasOpen, rfl | rfl⟩
    · exact stopped ⟨exchange, wasOpen, retransmits⟩
    · cases retransmits

/-- Once its retransmission was cancelled or its exchange removed, a request
causes no copy any more. -/
theorem copies_eq_nil_of_stopped
    {transition : LoopTransition}
    (continued : Run ((loopMachine codec).resumedAt transition.after)
      newer loop)
    (old : opening.outbound.responseTx.channel < transition.after.channels)
    (stopped : ¬ opening.Retransmits transition.after.stack) :
    opening.copies newer = [] := by
  have never := continued.invariant
    (fun newer loop => opening.copies newer = [] ∧
      opening.outbound.responseTx.channel < loop.channels ∧
        ¬ opening.Retransmits loop.stack)
    (by
      rintro _ rfl
      exact ⟨rfl, old, stopped⟩)
    (by
      rintro history before after iteration effects _
        ⟨none, stillOld, stillStopped⟩ stepped
      rcases @stopped_step codec opening
          ⟨before, iteration, effects, after⟩ stepped stillOld
          stillStopped with
        ⟨noCopy, stays⟩
      exact ⟨(List.filterMap_cons_none noCopy).trans none,
        stillOld.trans_le
          (@channels_le codec ⟨before, iteration, effects, after⟩
            stepped), stays⟩)
  exact never.1

end Invariant

/-! ## The timeout -/

section Timeout

variable
  {codec : Codec} {opener transition : LoopTransition} {opening : Opening}
  {newer older : List LoopTransition}

/-- The result `Timeout` of the request, with its number of
retransmissions. -/
def Opening.timeout (opening : Opening) (retransmits : Nat) : Effect :=
  .deliver ⟨opening.outbound.responseTx, .error (.timeout retransmits)⟩

/-- A request is timed out by a timer step that finds its exchange run out. -/
theorem runsOut_of_timeout
    {history : List LoopTransition}
    (run : LoopRun codec history transition.before)
    (stepped : transition.before.step codec transition.input =
      some (transition.after, transition.output))
    (member : opener ∈ history)
    (opens : Opens codec opener opening)
    {retransmits : Nat}
    (timedOut : opening.timeout retransmits ∈ transition.output) :
    ∃ exchange,
      opening.exchangeIn transition.before.stack = some exchange ∧
        exchange.runsOut transition.input.now = true ∧
          retransmits = exchange.retransmitCount := by
  have branch := (step_cases stepped).branch
  rw [Opening.timeout, ← mem_deliveriesOf,
    mem_deliveriesOf_iff branch] at timedOut
  rcases timedOut with ⟨peer, delivered⟩
  rcases (ExchangeTable.step_apply _ _).timedOut delivered rfl with
    ⟨now, token, exchange, isEvent, found, ranOut, sameChannel, count⟩
  have origin := clientEvent_origin codec transition.before.stack
    transition.input peer
  rw [isEvent] at origin
  cases origin with
  | ticked isTimer =>
      -- The exchange that holds the channel is the one of the request.
      rcases exists_opening run found with ⟨other, openedFor⟩
      rcases openedFor.opened with ⟨otherOpener, otherMember, otherOpens⟩
      obtain rfl : other = opening :=
        opening_unique run otherMember member otherOpens opens
          (openedFor.responseTx.symm.trans sameChannel.symm)
      refine ⟨exchange, (other.exchangeIn_eq_some_iff _ _).mpr ⟨?_, ?_⟩,
        ranOut, count⟩
      · rw [openedFor.peer_eq, openedFor.token_eq]
        exact found
      · exact openedFor.responseTx

/-- A CON runs out only after its last copy had its time. -/
theorem OnSchedule.runsOut_con
    {exchange : Exchange}
    (schedule : OnSchedule opener opening newer transition.before)
    (confirmable : opening.outbound.request.confirmable = true)
    (isOpen : opening.exchangeIn transition.before.stack = some exchange)
    (ranOut : exchange.runsOut transition.input.now = true) :
    exchange.retransmitCount = maxRetransmit ∧
      (opening.copies newer).length = maxRetransmit ∧
        opener.input.now + 31 * opener.input.ackTimeout.duration ≤
          transition.input.now := by
  have expected := schedule.expects exchange isOpen
  rcases Exchange.runsOut_cases ranOut with
    ⟨state, armed, due, exhausted⟩ | ⟨expiry, isExpiry, _⟩
  · have follows := (expected.follows armed).2.2
    have sent := follows.count
    rw [List.length_map] at sent
    have all : (opening.copies newer).length = maxRetransmit :=
      Nat.le_antisymm schedule.atMost (sent ▸ exhausted)
    refine ⟨?_, all, ?_⟩
    · rw [Exchange.retransmitCount, armed]
      exact sent.trans all
    · have elapsed := schedule.spaced.elapsed
      have last := follows.nextRetransmit_eq
      rw [List.length_map, all] at elapsed last
      simp only [maxRetransmit] at elapsed last
      omega
  · rw [Opening.Expects, if_pos confirmable, isExpiry] at expected
    cases expected.1

/-- A NON runs out after its lifetime, without a copy. -/
theorem OnSchedule.runsOut_non
    {exchange : Exchange}
    (schedule : OnSchedule opener opening newer transition.before)
    (nonConfirmable : opening.outbound.request.confirmable = false)
    (isOpen : opening.exchangeIn transition.before.stack = some exchange)
    (ranOut : exchange.runsOut transition.input.now = true) :
    exchange.retransmitCount = 0 ∧
      opener.input.now + nonLifetime ≤ transition.input.now := by
  have expected := schedule.expects exchange isOpen
  rw [Opening.Expects, if_neg (by simp [nonConfirmable])] at expected
  refine ⟨by rw [Exchange.retransmitCount, expected.1]; rfl, ?_⟩
  rcases Exchange.runsOut_cases ranOut with
    ⟨state, armed, _⟩ | ⟨expiry, isExpiry, passed⟩
  · rw [expected.1] at armed
    cases armed
  · rw [Option.some.inj (expected.2.symm.trans isExpiry)]
    exact passed

end Timeout

/-! ## Runs -/

section Run

variable
  {codec : Codec} {opener : LoopTransition} {opening : Opening}
  {newer older : List LoopTransition} {loop : Loop}

/-- The original datagram of a request is sent when it is opened. -/
theorem original_sent
    (stepped : opener.before.step codec opener.input =
      some (opener.after, opener.output))
    (opens : Opens codec opener opening) :
    .sendPacket opening.bytes opening.outbound.peer ∈ opener.output := by
  rcases opening_cases opens with ⟨taken, isToken, isMid, encoded⟩
  rw [isToken, isMid] at encoded
  rw [((step_cases stepped).branch.of_request taken).2,
    sendOutboundRequest]
  simp only [PeerSession.allocateToken, PeerSession.allocateMid]
  rw [encoded]
  exact List.mem_singleton_self _

/-- A copy is sent by the step that re-sends it, to the peer of the
request. -/
theorem copy_sent
    {transition : LoopTransition} {history : List LoopTransition}
    (run : LoopRun codec history transition.before)
    (stepped : transition.before.step codec transition.input =
      some (transition.after, transition.output))
    {copy : Nat × Bytes}
    (copied : opening.copyIn transition = some copy) :
    copy.1 = transition.input.now ∧
      .sendPacket copy.2 opening.outbound.peer ∈ transition.output := by
  simp only [Opening.copyIn] at copied
  split at copied
  · next order isTimer =>
      rcases Option.bind_eq_some_iff.mp copied with
        ⟨exchange, isOpen, made⟩
      rcases Option.map_eq_some_iff.mp made with ⟨bytes, resends, rfl⟩
      refine ⟨rfl, ?_⟩
      have timer := (step_cases stepped).branch.of_timer isTimer
      rw [timer.2.2.2, ← mem_packetsOf, ← Multiset.mem_coe,
        packetsOf_retransmit _ timer.2.1]
      rcases exists_session_of_open
          ((opening.exchangeIn_eq_some_iff _ _).mp isOpen).1 with
        ⟨session, stored, found⟩
      have named := peersMatch_of_run run _ _ stored
      refine Multiset.mem_bind.mpr ⟨session,
        (mem_values_iff _ _).mpr ⟨_, stored⟩, ?_⟩
      rw [PeerSession.resends, named]
      exact Multiset.mem_map_of_mem _ ((Multiset.mem_filterMap _ _).mpr
        ⟨exchange, (mem_values_iff _ _).mpr ⟨_, found⟩, resends⟩)
  · cases copied

/-- The retransmission timer sends the copies of the open exchanges and
nothing else. -/
def SendsOnlyCopies (transition : LoopTransition) : Prop :=
  ∀ order, transition.input.branch = .retransmissionTimer order →
    (packetsOf transition.output : Multiset (Bytes × SocketAddr)) =
      (values transition.before.stack.sessions).bind
        fun session => session.resends transition.input.now

/-- A step other than the timer's sends acknowledgements and messages under a
newly allocated MID, and no copy of a request. -/
def SendsNoCopy (codec : Codec) (transition : LoopTransition) : Prop :=
  (∀ order, transition.input.branch ≠ .retransmissionTimer order) →
    ∀ bytes peer, .sendPacket bytes peer ∈ transition.output →
      (∃ mid, ((transition.before.stack.server peer).apply
        (transition.before.stack.serverEvent codec transition.input
          peer)).2 = some ⟨mid, bytes⟩) ∨
      ∃ mid, transition.before.stack.newMessage codec transition.input =
        some ⟨peer, mid, bytes⟩

/-- Every copy that the exchange of the request causes is sent to the peer,
at the time of the step and as the bytes of the original datagram, and nothing
else is a copy of a request. -/
structure CopiesSent (codec : Codec) (opener : LoopTransition)
    (opening : Opening) (newer : List LoopTransition) : Prop where
  original : .sendPacket opening.bytes opening.outbound.peer ∈
    opener.output
  sent : ∀ transition ∈ newer, ∀ copy,
    opening.copyIn transition = some copy →
      copy = (transition.input.now, opening.bytes) ∧
        .sendPacket copy.2 opening.outbound.peer ∈ transition.output
  only_copies : ∀ transition ∈ newer, SendsOnlyCopies transition
  no_copy : ∀ transition ∈ newer, SendsNoCopy codec transition

/-- The back-off schedule of a CON. -/
structure ConSchedule (opener : LoopTransition) (opening : Opening)
    (newer : List LoopTransition) : Prop where
  atMost : (opening.copies newer).length ≤ maxRetransmit
  spaced : Spaced opener.input.now opener.input.ackTimeout.duration
    ((opening.copies newer).map Prod.fst)
  stopped : ∀ later transition rest,
    newer ++ [opener] = later ++ transition :: rest →
      ¬ opening.Retransmits transition.after.stack →
        opening.copies later = []
  timeout : ∀ later transition rest retransmits,
    newer = later ++ transition :: rest →
      opening.timeout retransmits ∈ transition.output →
        retransmits = maxRetransmit ∧
          (opening.copies rest).length = maxRetransmit ∧
            opener.input.now + 31 * opener.input.ackTimeout.duration ≤
              transition.input.now

/-- A NON is never re-sent, and fails after its lifetime only. -/
structure NonSchedule (opener : LoopTransition) (opening : Opening)
    (newer : List LoopTransition) : Prop where
  no_copies : opening.copies newer = []
  timeout : ∀ later transition rest retransmits,
    newer = later ++ transition :: rest →
      opening.timeout retransmits ∈ transition.output →
        retransmits = 0 ∧
          opener.input.now + nonLifetime ≤ transition.input.now

theorem copiesSent_of_run
    (run : LoopRun codec (newer ++ opener :: older) loop)
    (opens : Opens codec opener opening) :
    CopiesSent codec opener opening newer where
  original := original_sent (run.stepped_of_mem (by simp)) opens
  sent := by
    intro transition member copy copied
    rcases List.append_of_mem member with ⟨later, rest, rfl⟩
    have suffix : transition :: (rest ++ opener :: older) <:+
        (later ++ transition :: rest) ++ opener :: older :=
      ⟨later, by simp⟩
    rcases run.of_suffix suffix with ⟨earlier, stepped⟩
    rcases copy_sent earlier stepped copied with ⟨atNow, isSent⟩
    have identical := (onSchedule_of_run run opens).2.identical copy
      (List.mem_filterMap.mpr ⟨transition, member, copied⟩)
    exact ⟨Prod.ext atNow identical, isSent⟩
  only_copies := by
    intro transition member order isTimer
    have stepped := run.stepped_of_mem (List.mem_append_left _ member)
    have timer := (step_cases stepped).branch.of_timer isTimer
    rw [timer.2.2.2]
    exact packetsOf_retransmit _ timer.2.1
  no_copy := by
    intro transition member notTimer bytes peer sent
    have stepped := run.stepped_of_mem (List.mem_append_left _ member)
    have branch := (step_cases stepped).branch
    rcases (sendPacket_iff branch bytes peer).mp sent with
      acknowledges | isNew | copied
    · exact .inl acknowledges
    · exact .inr isNew
    · simp only [CoapStack.resends] at copied
      exact absurd copied (Multiset.notMem_zero _)

/-- The exchange of a timed-out request, and the schedule it was on. -/
theorem onSchedule_of_timeout
    {transition : LoopTransition} {later rest : List LoopTransition}
    {retransmits : Nat}
    (run : LoopRun codec (newer ++ opener :: older) loop)
    (opens : Opens codec opener opening)
    (isSplit : newer = later ++ transition :: rest)
    (timedOut : opening.timeout retransmits ∈ transition.output) :
    OnSchedule opener opening rest transition.before ∧
      ∃ exchange,
        opening.exchangeIn transition.before.stack = some exchange ∧
          exchange.runsOut transition.input.now = true ∧
            retransmits = exchange.retransmitCount := by
  subst isSplit
  have suffix : transition :: (rest ++ opener :: older) <:+
      (later ++ transition :: rest) ++ opener :: older :=
    ⟨later, by simp⟩
  rcases run.of_suffix suffix with ⟨earlier, stepped⟩
  exact ⟨(onSchedule_of_run earlier opens).2,
    runsOut_of_timeout earlier stepped (by simp) opens timedOut⟩

theorem stopped_of_run
    {transition : LoopTransition} {later rest : List LoopTransition}
    (run : LoopRun codec (newer ++ opener :: older) loop)
    (opens : Opens codec opener opening)
    (isSplit : newer ++ [opener] = later ++ transition :: rest)
    (stopped : ¬ opening.Retransmits transition.after.stack) :
    opening.copies later = [] := by
  have history : newer ++ opener :: older =
      later ++ transition :: (rest ++ older) := by
    rw [← List.singleton_append, ← List.append_assoc, isSplit]
    simp
  rw [history] at run
  have isLast := congrArg List.getLast? isSplit
  rw [List.getLast?_append_of_ne_nil _ (List.cons_ne_nil _ _),
    List.getLast?_append_of_ne_nil _ (List.cons_ne_nil _ _)] at isLast
  have member : opener ∈ transition :: rest :=
    List.mem_of_getLast? isLast.symm
  rcases run.of_suffix (List.suffix_append later _) with
    ⟨earlier, stepped⟩
  exact copies_eq_nil_of_stopped run.resumed
    (opens_channel_lt (earlier.extend stepped) opener
      (List.mem_append_left older member) opening opens)
    stopped

/--
The back-off schedule: the copies that the exchange of a request causes, when
they are sent, and when the request is timed out, after any continuation of
the run in which it was opened.
-/
theorem backoff_schedule
    (run : LoopRun codec (newer ++ opener :: older) loop)
    (opens : Opens codec opener opening) :
    CopiesSent codec opener opening newer ∧
      (opening.outbound.request.confirmable = true →
        ConSchedule opener opening newer) ∧
      (opening.outbound.request.confirmable = false →
        NonSchedule opener opening newer) := by
  have schedule := (onSchedule_of_run run opens).2
  refine ⟨copiesSent_of_run run opens, ?_, ?_⟩
  · intro confirmable
    refine ⟨schedule.atMost, schedule.spaced, ?_, ?_⟩
    · intro later transition rest isSplit stopped
      exact stopped_of_run run opens isSplit stopped
    · intro later transition rest retransmits isSplit timedOut
      rcases onSchedule_of_timeout run opens isSplit timedOut with
        ⟨before, exchange, isOpen, ranOut, rfl⟩
      exact before.runsOut_con confirmable isOpen ranOut
  · intro nonConfirmable
    refine ⟨schedule.con_only nonConfirmable, ?_⟩
    intro later transition rest retransmits isSplit timedOut
    rcases onSchedule_of_timeout run opens isSplit timedOut with
      ⟨before, exchange, isOpen, ranOut, rfl⟩
    exact before.runsOut_non nonConfirmable isOpen ranOut

/-- A CON request was opened and copied at these times, and the timer ran
once more. -/
def copiedFourTimes : List LoopTransition → Bool
  | [fifth, fourth, third, second, first, opener] =>
      (opener.before.stack.opening bareCodec opener.input).any
        fun opening =>
          opening.outbound.request.confirmable &&
            (opening.copies
              [fifth, fourth, third, second, first]).map Prod.fst =
                [31, 15, 7, 3].map fromSecs
  | _ => false

/-- A request whose peer never answers: four copies and the timeout. -/
theorem backoff_schedule_on_silence :
    ∃ newer opener opening loop,
      LoopRun bareCodec (newer ++ [opener]) loop ∧
        Opens bareCodec opener opening ∧
          (opening.copies newer).map Prod.fst =
              [31, 15, 7, 3].map fromSecs ∧
            ConSchedule opener opening newer := by
  rcases exists_run_of_replay (Loop.initial_start bareCodec 0)
      (firstGet :: [3, 7, 15, 31, 63].map fun seconds =>
        .plain (fromSecs seconds)
          (.retransmissionTimer [(.loopback 5683, [[0, 0, 0, 0]])]))
      (fun history _ => copiedFourTimes history) (by decide) with
    ⟨history, loop, run, checked⟩
  unfold copiedFourTimes at checked
  split at checked
  · next fifth fourth third second first opener =>
      rw [Option.any_eq_true] at checked
      rcases checked with ⟨opening, opens, checked⟩
      rw [Bool.and_eq_true, decide_eq_true_eq] at checked
      have kept : LoopRun bareCodec
          ([fifth, fourth, third, second, first] ++ opener :: []) loop :=
        run
      exact ⟨_, opener, opening, loop, kept, opens, checked.2,
        (backoff_schedule kept opens).2.1 checked.1⟩
  · cases checked

end Run

end Coapable.Transport
