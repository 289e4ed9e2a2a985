import Coapable.Transport.TimerBudget

/-!
# The timer does exactly what is due

An exchange of a session is that of a CON request, with or without its
retransmission, or that of a NON request with an expiry, and a retransmission
timeout is never zero.  On such exchanges `collect_retransmissions` and
`next_retransmit_deadline` agree on what is due: the former re-sends, fails
and advances exactly that, and leaves only later deadlines behind.
-/

namespace Coapable.Transport

open Coapable.BareCodec
open Coapable.CoapLite
open Coapable.Foundation.Execution
open Coapable.Foundation.FiniteMap

/-! ## One exchange -/

namespace Exchange

/-- The packet of a CON exchange whose retransmission is due, if another one
is left. -/
def dueCopy (now : Nat) (exchange : Exchange) : Option Bytes :=
  (exchange.retransmit.filter fun state =>
    state.nextRetransmit ≤ now ∧
      state.retransmitCount < maxRetransmit).map
    RetransmitState.packetBytes

/-- A CON exchange that is due without a retransmission left, or a NON
exchange at its expiry. -/
def TimesOut (now : Nat) (exchange : Exchange) : Prop :=
  (∃ state ∈ exchange.retransmit, state.nextRetransmit ≤ now ∧
    state.retransmitCount = maxRetransmit) ∨
  exchange.messageId = none ∧
    ∃ expiry ∈ exchange.expiresAt, expiry ≤ now

instance (now : Nat) (exchange : Exchange) :
    Decidable (exchange.TimesOut now) :=
  inferInstanceAs (Decidable (_ ∨ _))

/-- The exchanges that requests open, and what becomes of them. -/
inductive WellShaped : Exchange → Prop where
  | con {responseTx : ResponseSender} {mid : UInt16}
      {retransmit : Option RetransmitState}
      (limited : ∀ state ∈ retransmit,
        state.retransmitCount ≤ maxRetransmit)
      (positive : ∀ state ∈ retransmit, 0 < state.currentTimeout) :
      WellShaped ⟨responseTx, some mid, retransmit, none⟩
  | non {responseTx : ResponseSender} {expiry : Nat} :
      WellShaped ⟨responseTx, none, none, some expiry⟩

theorem resend_eq_dueCopy (now : Nat) (exchange : Exchange) :
    exchange.resend now = exchange.dueCopy now := by
  rcases exchange with ⟨responseTx, messageId, retransmit, expiresAt⟩
  cases retransmit with
  | none => rfl
  | some state =>
      by_cases due : state.nextRetransmit ≤ now
      · by_cases exhausted : maxRetransmit ≤ state.retransmitCount <;>
          simp [resend, dueCopy, needsRetransmit, RetransmitState.isDue,
            advanceRetransmit, RetransmitState.advance, Option.filter,
            due, exhausted]
      · simp [resend, dueCopy, needsRetransmit, RetransmitState.isDue,
          Option.filter, due]

/-- An exchange runs out exactly if it times out. -/
theorem WellShaped.runsOut_iff
    {exchange : Exchange} (shaped : exchange.WellShaped) (now : Nat) :
    exchange.runsOut now = true ↔ exchange.TimesOut now := by
  cases shaped with
  | @con responseTx mid retransmit limited positive =>
      cases retransmit with
      | none => simp [runsOut, needsRetransmit, isExpired, TimesOut]
      | some state =>
          have bounded := limited state rfl
          by_cases due : state.nextRetransmit ≤ now
          · by_cases exhausted : maxRetransmit ≤ state.retransmitCount
            · simp [runsOut, needsRetransmit, RetransmitState.isDue,
                advanceRetransmit, RetransmitState.advance, TimesOut,
                due, Nat.le_antisymm bounded exhausted]
            · have left : state.retransmitCount ≠ maxRetransmit :=
                fun equal => exhausted equal.ge
              simp [runsOut, needsRetransmit, RetransmitState.isDue,
                advanceRetransmit, RetransmitState.advance, TimesOut,
                due, exhausted, left]
          · simp [runsOut, needsRetransmit, RetransmitState.isDue,
              isExpired, TimesOut, due]
  | non => simp [runsOut, needsRetransmit, isExpired, TimesOut]

theorem WellShaped.cancelRetransmission
    {exchange : Exchange} (shaped : exchange.WellShaped) :
    exchange.cancelRetransmission.WellShaped := by
  cases shaped with
  | con limited positive =>
      exact .con (fun _ none => nomatch none) (fun _ none => nomatch none)
  | non => exact .non

/-- An exchange that survives keeps its shape, and its next deadline is in the
future. -/
theorem WellShaped.of_survive
    {now : Nat} {exchange after : Exchange}
    (shaped : exchange.WellShaped)
    (survived : exchange.survive now = some after) :
    after.WellShaped ∧ ∀ deadline ∈ after.deadline, now < deadline := by
  rcases survive_cases survived with
    ⟨rfl, later⟩ | ⟨state, armed, due, count, rfl⟩
  · exact ⟨shaped, later⟩
  · cases shaped with
    | con limited positive =>
        have positiveTimeout := positive state armed
        refine ⟨.con ?_ ?_, ?_⟩
        · rintro advanced ⟨rfl⟩
          exact count
        · rintro advanced ⟨rfl⟩
          simpa using positiveTimeout
        · rintro deadline ⟨rfl⟩
          change now < now + state.currentTimeout * 2
          omega
    | non => cases armed

/-- An exchange without a deadline that has passed is left alone. -/
theorem WellShaped.survive_of_later
    {now : Nat} {exchange : Exchange} (shaped : exchange.WellShaped)
    (later : ∀ deadline ∈ exchange.deadline, now < deadline) :
    exchange.survive now = some exchange ∧
      exchange.resend now = none := by
  cases shaped with
  | @con responseTx mid retransmit limited positive =>
      cases retransmit with
      | none => exact ⟨rfl, rfl⟩
      | some state =>
          have early : ¬ state.nextRetransmit ≤ now :=
            Nat.not_le.mpr (later state.nextRetransmit rfl)
          simp [survive, runsOut, resend, advanceIfDue, needsRetransmit,
            RetransmitState.isDue, isExpired, early]
  | @non responseTx expiry =>
      have early : ¬ expiry ≤ now := Nat.not_le.mpr (later expiry rfl)
      simp [survive, runsOut, resend, advanceIfDue, needsRetransmit,
        isExpired, early]

/-- An exchange with a copy to re-send is advanced. -/
theorem survive_of_dueCopy
    {now : Nat} {exchange : Exchange} {bytes : Bytes}
    (due : exchange.dueCopy now = some bytes) :
    ∃ state, exchange.retransmit = some state ∧
      exchange.survive now = some { exchange with
        retransmit := some {
          packetBytes := state.packetBytes
          retransmitCount := state.retransmitCount + 1
          currentTimeout := state.currentTimeout * 2
          nextRetransmit := now + state.currentTimeout * 2 } } := by
  rw [← resend_eq_dueCopy] at due
  rcases exchange.resend_cases now with
    ⟨nothing, _⟩ | ⟨state, armed, _, count, _, survived⟩
  · rw [nothing] at due
    cases due
  · refine ⟨state, armed, ?_⟩
    rw [survived, RetransmitState.advance, if_neg (Nat.not_le.mpr count)]

theorem WellShaped.survive_of_kept
    {now : Nat} {exchange : Exchange} (shaped : exchange.WellShaped)
    (notDue : exchange.dueCopy now = none)
    (lasts : ¬ exchange.TimesOut now) :
    exchange.survive now = some exchange := by
  rw [← shaped.runsOut_iff] at lasts
  rw [← resend_eq_dueCopy] at notDue
  have survived : exchange.survive now =
      some (exchange.advanceIfDue now) :=
    if_neg lasts
  rcases exchange.resend_cases now with
    ⟨_, kept⟩ | ⟨state, _, _, _, resent, _⟩
  · rw [survived, (kept _ survived).1]
  · rw [notDue] at resent
    cases resent

end Exchange

theorem Opening.exchange_wellShaped
    (opening : Opening) (iteration : Iteration) :
    (opening.exchange iteration).WellShaped := by
  simp only [Opening.exchange]
  split
  · refine .con ?_ ?_
    · rintro state ⟨rfl⟩
      exact Nat.zero_le _
    · rintro state ⟨rfl⟩
      exact Nat.lt_of_lt_of_le (by decide) iteration.ackTimeout.lower
  · exact .non

theorem ExchangeTable.Becomes.wellShaped
    {event : ClientEvent} {previous exchange : Exchange}
    (becomes : Becomes event previous exchange)
    (shaped : previous.WellShaped) : exchange.WellShaped := by
  cases becomes with
  | kept => exact shaped
  | cancelled isEvent => exact shaped.cancelRetransmission
  | survived isEvent survives => exact (shaped.of_survive survives).1

theorem wellShaped_of_run
    {codec : Codec} {history : List LoopTransition} {loop : Loop}
    (run : LoopRun codec history loop)
    {peer : SocketAddr} {session : PeerSession}
    (stored : loop.stack.sessions.lookup peer = some session)
    {token : Token} {exchange : Exchange}
    (found : session.exchanges.lookup token = some exchange) :
    exchange.WellShaped := by
  have isOpen : (loop.stack.client peer).exchanges.lookup token =
      some exchange := by
    rw [CoapStack.client, stored]
    exact found
  exact exchanges_of_run Exchange.WellShaped Opening.exchange_wellShaped
    (fun _ _ _ becomes => becomes.wellShaped) run isOpen

/-! ## One session -/

section Session

variable {session : PeerSession} {now : Nat} {order : List Token}

/-- The timer is one event of the two client tables, in any order, and leaves
everything else alone. -/
theorem collectRetransmissions_eq
    (enumerates : Enumerates order session.exchanges) :
    (session.collectRetransmissions now order).1 =
      session.withClient (session.client.tick now) := by
  have client : (session.collectRetransmissions now order).1.client =
      session.client.tick now :=
    tick_client now enumerates
  rcases collectRetransmissions_frame session now order with
    ⟨samePeer, sameDedup, sameConMids, sameMids, sameTokens⟩
  rw [← client]
  rcases after : (session.collectRetransmissions now order).1
  rw [after] at samePeer sameDedup sameConMids sameMids sameTokens
  simp only [PeerSession.withClient, PeerSession.client,
    PeerSession.mk.injEq, true_and]
  exact ⟨samePeer, sameMids, sameTokens, sameDedup, sameConMids⟩

/-- The exchange under a token afterwards. -/
theorem collectRetransmissions_exchange
    (enumerates : Enumerates order session.exchanges) (token : Token) :
    (session.collectRetransmissions now order).1.exchanges.lookup token =
      (session.exchanges.lookup token).bind (Exchange.survive now) := by
  rw [collectRetransmissions_eq enumerates]
  exact ExchangeTable.tick_exchanges_lookup _ _ _

end Session

/--
What `collect_retransmissions` does at a time: it re-sends one copy for each
CON exchange that is due and has one left, which advances it, removes and
fails the exchanges that time out, and touches nothing else.  Only later
deadlines remain, and where there are only later ones it does nothing.
-/
structure TimerExact (session : PeerSession) (now : Nat)
    (order : List Token) : Prop where
  copies : ((session.collectRetransmissions now order).2.1 :
      Multiset Bytes) =
    (values session.exchanges).filterMap (Exchange.dueCopy now)
  failures : ((session.collectRetransmissions now order).2.2 :
      Multiset Delivery) =
    ((values session.exchanges).filter (Exchange.TimesOut now)).map
      fun exchange =>
        ⟨exchange.responseTx,
          .error (.timeout exchange.retransmitCount)⟩
  removed : ∀ token,
    (session.collectRetransmissions now order).1.exchanges.lookup token =
        none ↔
      ∀ exchange, session.exchanges.lookup token = some exchange →
        exchange.TimesOut now
  advanced : ∀ token exchange bytes,
    session.exchanges.lookup token = some exchange →
      exchange.dueCopy now = some bytes →
        ∃ state, exchange.retransmit = some state ∧
          (session.collectRetransmissions now order).1.exchanges.lookup
              token =
            some { exchange with
              retransmit := some {
                packetBytes := state.packetBytes
                retransmitCount := state.retransmitCount + 1
                currentTimeout := state.currentTimeout * 2
                nextRetransmit := now + state.currentTimeout * 2 } }
  kept : ∀ token exchange,
    session.exchanges.lookup token = some exchange →
      exchange.dueCopy now = none → ¬ exchange.TimesOut now →
        (session.collectRetransmissions now order).1.exchanges.lookup
          token = some exchange
  index : ∀ mid token,
    (session.collectRetransmissions now order).1.midToToken.lookup mid =
        some token ↔
      session.midToToken.lookup mid = some token ∧
        ∀ other exchange,
          session.exchanges.lookup other = some exchange →
            exchange.TimesOut now → exchange.messageId ≠ some mid
  untouched : (session.collectRetransmissions now order).1 =
    session.withClient (session.collectRetransmissions now order).1.client
  later : ∀ deadline ∈
    (session.collectRetransmissions now order).1.nextRetransmitDeadline,
      now < deadline
  quiet : (∀ deadline ∈ session.nextRetransmitDeadline,
      now < deadline) →
    session.collectRetransmissions now order = (session, [], [])

section Exact

variable {session : PeerSession} {now : Nat} {order : List Token}

theorem copies_of_collect
    (enumerates : Enumerates order session.exchanges) :
    ((session.collectRetransmissions now order).2.1 : Multiset Bytes) =
      (values session.exchanges).filterMap (Exchange.dueCopy now) := by
  rw [collectRetransmissions_retransmits now enumerates,
    enumerates.values_eq, Multiset.filterMap_coe, List.filterMap_filterMap]
  simp only [← Exchange.resend_eq_dueCopy]

theorem failures_of_collect
    (enumerates : Enumerates order session.exchanges)
    (shaped : ∀ exchange ∈ values session.exchanges,
      exchange.WellShaped) :
    ((session.collectRetransmissions now order).2.2 :
        Multiset Delivery) =
      ((values session.exchanges).filter (Exchange.TimesOut now)).map
        Exchange.timeout := by
  rw [collectRetransmissions_deliveries now enumerates]
  apply congrArg (Multiset.map Exchange.timeout)
  apply Multiset.filter_congr
  intro exchange member
  exact (shaped exchange member).runsOut_iff now

/-- Where every deadline is later, the timer changes nothing. -/
theorem collect_of_later
    (enumerates : Enumerates order session.exchanges)
    (shaped : ∀ exchange ∈ values session.exchanges,
      exchange.WellShaped)
    (later : ∀ deadline ∈ session.nextRetransmitDeadline,
      now < deadline) :
    session.collectRetransmissions now order = (session, [], []) := by
  have untouched : ∀ exchange ∈ values session.exchanges,
      exchange.survive now = some exchange ∧
        exchange.resend now = none := by
    intro exchange member
    apply (shaped exchange member).survive_of_later
    intro deadline isDeadline
    rcases (mem_values_iff _ _).mp member with ⟨token, found⟩
    rcases exists_soonest_le Exchange.deadline session.exchanges found
        isDeadline with
      ⟨least, isLeast, le⟩
    exact Nat.lt_of_lt_of_le (later least isLeast) le
  have sameSession :
      (session.collectRetransmissions now order).1 = session := by
    rw [collectRetransmissions_eq enumerates, ExchangeTable.tick_eq_self]
    · rfl
    · intro token exchange found
      exact (untouched exchange
        ((mem_values_iff _ _).mpr ⟨token, found⟩)).1
  have noCopies :
      (session.collectRetransmissions now order).2.1 = [] := by
    rw [collectRetransmissions_retransmits now enumerates,
      List.filterMap_eq_nil_iff]
    intro token _
    cases found : session.exchanges.lookup token with
    | none => rfl
    | some exchange =>
        exact (untouched exchange
          ((mem_values_iff _ _).mpr ⟨token, found⟩)).2
  have noneRunsOut : ∀ exchange ∈ values session.exchanges,
      ¬ exchange.runsOut now = true := by
    intro exchange member ranOut
    have survived := (untouched exchange member).1
    rw [(Exchange.survive_eq_none_iff now exchange).mpr ranOut] at survived
    cases survived
  have noFailures :
      (session.collectRetransmissions now order).2.2 = [] := by
    rw [← Multiset.coe_eq_zero,
      collectRetransmissions_deliveries now enumerates,
      Multiset.filter_eq_nil.mpr noneRunsOut, Multiset.map_zero]
  exact Prod.ext sameSession (Prod.ext noCopies noFailures)

/-- What the timer leaves open is due later. -/
theorem later_of_collect
    (enumerates : Enumerates order session.exchanges)
    (shaped : ∀ exchange ∈ values session.exchanges,
      exchange.WellShaped)
    (deadline : Nat)
    (isNext : deadline ∈ (session.collectRetransmissions now
      order).1.nextRetransmitDeadline) :
    now < deadline := by
  rcases ((soonest_eq_some_iff _ _ _).mp isNext).1 with
    ⟨token, after, found, isDeadline⟩
  rw [collectRetransmissions_exchange enumerates,
    Option.bind_eq_some_iff] at found
  rcases found with ⟨exchange, stored, survived⟩
  exact ((shaped exchange ((mem_values_iff _ _).mpr
    ⟨token, stored⟩)).of_survive survived).2 deadline isDeadline

theorem index_of_collect
    (enumerates : Enumerates order session.exchanges)
    (shaped : ∀ exchange ∈ values session.exchanges,
      exchange.WellShaped)
    (mid : UInt16) (token : Token) :
    (session.collectRetransmissions now order).1.midToToken.lookup mid =
        some token ↔
      session.midToToken.lookup mid = some token ∧
        ∀ other exchange,
          session.exchanges.lookup other = some exchange →
            exchange.TimesOut now → exchange.messageId ≠ some mid := by
  have unbound : ¬ session.client.MidRunsOut now mid ↔
      ∀ other exchange,
        session.exchanges.lookup other = some exchange →
          exchange.TimesOut now → exchange.messageId ≠ some mid := by
    rw [ExchangeTable.midRunsOut_iff]
    constructor
    · intro none other exchange found timesOut bound
      have ranOut := ((shaped exchange ((mem_values_iff _ _).mpr
        ⟨other, found⟩)).runsOut_iff now).mpr timesOut
      exact none ⟨other, exchange, found, ranOut, bound⟩
    · rintro free ⟨other, exchange, found, ranOut, bound⟩
      have timesOut := ((shaped exchange ((mem_values_iff _ _).mpr
        ⟨other, found⟩)).runsOut_iff now).mp ranOut
      exact free other exchange found timesOut bound
  have indexed :
      (session.collectRetransmissions now order).1.midToToken.lookup mid =
        if session.client.MidRunsOut now mid then none
        else session.midToToken.lookup mid := by
    rw [collectRetransmissions_eq enumerates]
    exact ExchangeTable.tick_midToToken_lookup _ _ _
  rw [← unbound, indexed]
  split <;> simp_all

theorem timerExact_of_wellShaped
    (enumerates : Enumerates order session.exchanges)
    (shaped : ∀ exchange ∈ values session.exchanges,
      exchange.WellShaped) :
    TimerExact session now order where
  copies := copies_of_collect enumerates
  failures := failures_of_collect enumerates shaped
  removed := by
    intro token
    rw [collectRetransmissions_exchange enumerates]
    cases found : session.exchanges.lookup token with
    | none => simp
    | some exchange =>
        have isShaped :=
          shaped exchange ((mem_values_iff _ _).mpr ⟨token, found⟩)
        simp [Exchange.survive_eq_none_iff, isShaped.runsOut_iff]
  advanced := by
    intro token exchange bytes found due
    rcases Exchange.survive_of_dueCopy due with ⟨state, armed, survived⟩
    refine ⟨state, armed, ?_⟩
    rw [collectRetransmissions_exchange enumerates, found]
    exact survived
  kept := by
    intro token exchange found notDue lasts
    rw [collectRetransmissions_exchange enumerates, found]
    exact (shaped exchange ((mem_values_iff _ _).mpr
      ⟨token, found⟩)).survive_of_kept notDue lasts
  index := index_of_collect enumerates shaped
  untouched := by
    rw [collectRetransmissions_eq enumerates]
    rfl
  later := later_of_collect enumerates shaped
  quiet := collect_of_later enumerates shaped

end Exact

/-! ## The sessions of a run -/

/--
Of every session of a run, at every time and in every order of enumeration,
the timer processes exactly what is due, and the order does not show in the
session.
-/
theorem timer_exact
    {codec : Codec} {history : List LoopTransition} {loop : Loop}
    (run : LoopRun codec history loop)
    {peer : SocketAddr} {session : PeerSession}
    (stored : loop.stack.sessions.lookup peer = some session)
    (now : Nat) {order : List Token}
    (enumerates : Enumerates order session.exchanges) :
    TimerExact session now order ∧
      ∀ other, Enumerates other session.exchanges →
        (session.collectRetransmissions now other).1 =
          (session.collectRetransmissions now order).1 := by
  constructor
  · apply timerExact_of_wellShaped enumerates
    intro exchange member
    rcases (mem_values_iff _ _).mp member with ⟨token, found⟩
    exact wellShaped_of_run run stored found
  · intro other otherEnumerates
    rw [collectRetransmissions_eq otherEnumerates,
      collectRetransmissions_eq enumerates]

/-- A GET to the server, whose outcome goes to this channel. -/
def getTo (channel : Nat) (confirmable : Bool) : Branch :=
  .outboundRequest (some
    ⟨⟨.get, "", [], none, [], none, confirmable⟩, .loopback 5683,
      ⟨channel⟩⟩)

/-- The tokens of four requests to the server. -/
def fourTokens : List Token :=
  [[0, 0, 0, 0], [0, 0, 0, 1], [0, 0, 0, 2], [0, 0, 0, 3]]

/-- A NON GET that expires at 146 s, a CON GET whose retransmissions are
exhausted at 162 s, one that is due at 161 s and one that is due at 163 s. -/
def fourGetInputs : List Iteration :=
  let timer : Branch :=
    .retransmissionTimer [(.loopback 5683, fourTokens.take 2)]
  [.plain (fromSecs 1) (getTo 0 false),
    .plain (fromSecs 100) (getTo 1 true),
    .plain (fromSecs 102) timer,
    .plain (fromSecs 106) timer,
    .plain (fromSecs 114) timer,
    .plain (fromSecs 130) timer,
    .plain (fromSecs 159) (getTo 2 true),
    .plain (fromSecs 161) (getTo 3 true)]

/-- What is due in the session at 162 s. -/
def DueAtOnce (session : PeerSession) : Prop :=
  (Enumerates fourTokens session.exchanges ∧
    Enumerates fourTokens.reverse session.exchanges) ∧
  (values session.exchanges).filterMap (Exchange.dueCopy (fromSecs 162)) =
    {[0x44, 0x01, 0, 2, 0, 0, 0, 2]} ∧
  ((values session.exchanges).filter
      (Exchange.TimesOut (fromSecs 162))).map
        (fun exchange => (⟨exchange.responseTx,
          .error (.timeout exchange.retransmitCount)⟩ : Delivery)) =
    {⟨⟨0⟩, .error (.timeout 0)⟩, ⟨⟨1⟩, .error (.timeout 4)⟩}

instance (session : PeerSession) : Decidable (DueAtOnce session) :=
  inferInstanceAs (Decidable (_ ∧ _))

/-- The exchange of the last request is not due at 162 s. -/
def lastWaits (session : PeerSession) : Bool :=
  (session.exchanges.lookup [0, 0, 0, 3]).any fun exchange =>
    decide (exchange.dueCopy (fromSecs 162) = none ∧
      ¬ exchange.TimesOut (fromSecs 162))

/-- In both orders one GET is sent again, two fail and the fourth waits. -/
theorem timer_exact_on_four_gets :
    ∃ history loop session, LoopRun bareCodec history loop ∧
      loop.stack.sessions.lookup (.loopback 5683) = some session ∧
      (∀ order ∈ [fourTokens, fourTokens.reverse],
        ((session.collectRetransmissions (fromSecs 162) order).2.1 :
            Multiset Bytes) = {[0x44, 0x01, 0, 2, 0, 0, 0, 2]} ∧
        ((session.collectRetransmissions (fromSecs 162) order).2.2 :
            Multiset Delivery) =
          {⟨⟨0⟩, .error (.timeout 0)⟩, ⟨⟨1⟩, .error (.timeout 4)⟩} ∧
        (session.collectRetransmissions (fromSecs 162)
          order).1.exchanges.lookup [0, 0, 0, 3] =
            session.exchanges.lookup [0, 0, 0, 3]) ∧
      (session.collectRetransmissions (fromSecs 162)
          fourTokens.reverse).1 =
        (session.collectRetransmissions (fromSecs 162) fourTokens).1 := by
  rcases exists_run_of_replay (Loop.initial_start bareCodec 0)
      fourGetInputs
      (fun _ loop =>
        (loop.stack.sessions.lookup (SocketAddr.loopback 5683)).any
          fun session => decide (DueAtOnce session) && lastWaits session)
      (by decide +kernel) with
    ⟨history, loop, run, checked⟩
  rw [Option.any_eq_true] at checked
  rcases checked with ⟨session, stored, checked⟩
  rw [Bool.and_eq_true, decide_eq_true_eq, lastWaits,
    Option.any_eq_true] at checked
  rcases checked with
    ⟨⟨⟨forwards, backwards⟩, copies, failures⟩, waiting, found, isWaiting⟩
  rcases of_decide_eq_true isWaiting with ⟨notDue, lasts⟩
  refine ⟨history, loop, session, run, stored, ?_,
    (timer_exact run stored (fromSecs 162) forwards).2 _ backwards⟩
  intro order member
  have enumerates : Enumerates order session.exchanges := by
    rcases List.mem_pair.mp member with rfl | rfl
    · exact forwards
    · exact backwards
  have processed := (timer_exact run stored (fromSecs 162) enumerates).1
  refine ⟨processed.copies.trans copies, processed.failures.trans failures, ?_⟩
  rw [found]
  exact processed.kept _ waiting found notDue lasts

end Coapable.Transport
