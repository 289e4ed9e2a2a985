import Coapable.BareCodec
import Coapable.Transport.Openings

/-!
# Deadlines of the open exchanges

An exchange that has a deadline is accounted for by the timer of the loop and,
unless its peer answers, is timed out by the fifth retransmission-timer step
that finds it due.  Every operation keeps the deadline but one: an empty ACK
takes the retransmission deadline of a CON exchange and gives it nothing in
its place, while a NON exchange has an expiry from the start.  The exchanges of
a run keep their deadlines exactly as long as no such ACK arrives.
-/

namespace Coapable.Transport

open Coapable.CoapLite
open Coapable.Foundation.Execution
open Coapable.Foundation.FiniteMap

/-! ## One exchange -/

namespace Exchange

/-- The deadline has passed. -/
def isDue (exchange : Exchange) (now : Nat) : Bool :=
  exchange.deadline.any (· ≤ now)

theorem isDue_eq_false
    {exchange : Exchange} {now : Nat}
    (early : ∀ deadline ∈ exchange.deadline, now < deadline) :
    exchange.isDue now = false := by
  rw [isDue, Option.any_eq_false]
  intro deadline isDeadline
  exact decide_eq_false (Nat.not_le.mpr (early deadline isDeadline))

/-- How often the timer can still find the exchange due and keep it. -/
def retransmissionsLeft (exchange : Exchange) : Nat :=
  (exchange.retransmit.map fun state =>
    maxRetransmit - state.retransmitCount).getD 0

theorem retransmissionsLeft_le (exchange : Exchange) :
    exchange.retransmissionsLeft ≤ maxRetransmit := by
  simp only [retransmissionsLeft]
  cases exchange.retransmit with
  | none => exact Nat.zero_le _
  | some state => exact Nat.sub_le _ _

/-- The timer keeps the deadline armed and pays for every time it finds the
exchange due with one retransmission. -/
theorem survive_retransmissionsLeft
    {now : Nat} {exchange after : Exchange}
    (armed : exchange.deadline.isSome = true)
    (survived : exchange.survive now = some after) :
    after.deadline.isSome = true ∧
      (exchange.isDue now).toNat + after.retransmissionsLeft ≤
        exchange.retransmissionsLeft := by
  rcases survive_cases survived with
    ⟨rfl, notDue⟩ | ⟨state, armedState, due, count, rfl⟩
  · refine ⟨armed, ?_⟩
    rw [isDue_eq_false notDue]
    simp
  · refine ⟨rfl, ?_⟩
    simp only [isDue, retransmissionsLeft, deadline, retransmitDeadline,
      armedState, Option.map_some, Option.some_or, Option.any_some, due,
      decide_true, Bool.toNat_true, Option.getD_some]
    omega

theorem advanceIfDue_deadline
    {now : Nat} {exchange after : Exchange}
    (armed : exchange.deadline.isSome = true)
    (survived : exchange.survive now = some after) :
    after.deadline.isSome = true :=
  (survive_retransmissionsLeft armed survived).1

end Exchange

@[simp]
theorem Opening.exchange_deadline
    (opening : Opening) (iteration : Iteration) :
    (opening.exchange iteration).deadline.isSome = true := by
  simp only [Opening.exchange]
  split <;> rfl

/-! ## The table -/

namespace ExchangeTable

/-- Every open exchange has a deadline. -/
def Armed (table : ExchangeTable) : Prop :=
  ∀ token exchange, table.exchanges.lookup token = some exchange →
    exchange.deadline.isSome = true

/-- The event is an empty ACK for an exchange without an expiry. -/
def Disarms (table : ExchangeTable) (event : ClientEvent) : Prop :=
  ∃ mid token exchange, event = .acknowledged mid ∧
    table.midToToken.lookup mid = some token ∧
      table.exchanges.lookup token = some exchange ∧
        exchange.expiresAt = none

theorem Armed.step
    {table after : ExchangeTable} {event : ClientEvent}
    {deliveries : Multiset Delivery}
    (armed : table.Armed)
    (step : Step table event after deliveries)
    (opened : ∀ token exchange, event = .opened token exchange →
      exchange.deadline.isSome = true)
    (keeps : ¬ table.Disarms event) :
    after.Armed := by
  intro token exchange found
  cases step with
  | kept => exact armed token exchange found
  | opened openedToken openedExchange =>
      rw [insert_exchanges_lookup] at found
      split at found
      · rw [Option.some.injEq] at found
        subst found
        exact opened _ _ rfl
      · exact armed token exchange found
  | answered _ =>
      rw [remove_exchanges_lookup] at found
      split at found
      · cases found
      · exact armed token exchange found
  | @acknowledged mid acknowledgedToken indexed =>
      rw [lookup_modify] at found
      split at found
      · next equal =>
          subst equal
          rw [Option.map_eq_some_iff] at found
          rcases found with ⟨previous, stored, rfl⟩
          -- Only an expiry is left once the retransmission is cancelled.
          change previous.expiresAt.isSome = true
          rw [Option.isSome_iff_ne_none]
          intro noExpiry
          exact keeps ⟨mid, token, previous, rfl, indexed, stored, noExpiry⟩
      · exact armed token exchange found
  | piggybacked _ _ =>
      rw [remove_exchanges_lookup] at found
      split at found
      · cases found
      · exact armed token exchange found
  | reset _ _ =>
      rw [lookup_erase_eq] at found
      split at found
      · cases found
      · exact armed token exchange found
  | dangling _ _ => exact armed token exchange found
  | ticked now =>
      rw [tick_exchanges_lookup, Option.bind_eq_some_iff] at found
      rcases found with ⟨previous, stored, survived⟩
      exact Exchange.advanceIfDue_deadline (armed token previous stored)
        survived

theorem not_armed_of_disarms
    {table : ExchangeTable} {event : ClientEvent}
    (disarms : table.Disarms event) :
    ¬ (table.apply event).1.Armed := by
  rcases disarms with
    ⟨mid, token, exchange, rfl, indexed, stored, noExpiry⟩
  intro armed
  have unarmed := armed token exchange.cancelRetransmission (by
    simp only [apply, indexed]
    rw [lookup_modify, if_pos rfl, stored]
    rfl)
  change exchange.expiresAt.isSome = true at unarmed
  rw [noExpiry] at unarmed
  cases unarmed

end ExchangeTable

namespace Deadlines

open Coapable.BareCodec

/-! ## The timer of the loop -/

/-- The deadline of an open exchange is never before that of the loop. -/
theorem exists_nextDeadline_le
    {stack : CoapStack} {peer : SocketAddr} {token : Token}
    {exchange : Exchange} {deadline : Nat}
    (found : (stack.client peer).exchanges.lookup token = some exchange)
    (isDeadline : exchange.deadline = some deadline) :
    ∃ least, stack.nextDeadline = some least ∧ least ≤ deadline := by
  rw [CoapStack.client] at found
  cases stored : stack.sessions.lookup peer with
  | none =>
      rw [stored] at found
      cases found
  | some session =>
      rw [stored] at found
      rcases exists_soonest_le Exchange.deadline session.exchanges found
          isDeadline with
        ⟨sessionLeast, isSessionLeast, sessionLe⟩
      rcases exists_soonest_le PeerSession.nextRetransmitDeadline
          stack.sessions stored isSessionLeast with
        ⟨least, isLeast, le⟩
      exact ⟨least, isLeast, le.trans sessionLe⟩

/-! ## What a peer that never answers leads to -/

/-- The transition is no packet of the peer, and does not open another
exchange under the token. -/
def Quiet (codec : Codec) (peer : SocketAddr) (token : Token)
    (transition : LoopTransition) : Prop :=
  (∀ raw, transition.input.branch ≠ .inbound raw peer) ∧
    ∀ opening, Opens codec transition opening →
      opening.outbound.peer = peer → opening.token ≠ token

/-- The retransmission timer runs and finds the exchange due. -/
def findsDue (peer : SocketAddr) (token : Token)
    (transition : LoopTransition) : Bool :=
  match transition.input.branch with
  | .retransmissionTimer _ =>
      ((transition.before.stack.client peer).exchanges.lookup token).any
        (·.isDue transition.input.now)
  | _ => false

/-- The result on the channel is a timeout. -/
def TimedOut (sender : ResponseSender)
    (transition : LoopTransition) : Prop :=
  ∃ count, .deliver ⟨sender, .error (.timeout count)⟩ ∈
    transition.output

/-- The exchange is still open as `waiting`, which has a deadline and has
paid a retransmission for each time it was found due. -/
structure StillWaits (loop : Loop) (peer : SocketAddr) (token : Token)
    (exchange : Exchange) (timesDue : Nat) (waiting : Exchange) :
    Prop where
  isOpen :
    (loop.stack.client peer).exchanges.lookup token = some waiting
  sender : waiting.responseTx = exchange.responseTx
  armed : waiting.deadline.isSome = true
  paid :
    timesDue + waiting.retransmissionsLeft ≤ exchange.retransmissionsLeft

section Quiet

variable
  {codec : Codec} {transition : LoopTransition}
  {peer : SocketAddr} {token : Token} {exchange : Exchange}

/-- Only the retransmission timer concerns an exchange whose peer is
quiet. -/
theorem lookup_of_quiet
    (stepped : transition.before.step codec transition.input =
      some (transition.after, transition.output))
    (quiet : Quiet codec peer token transition)
    (noTimer : ∀ order,
      transition.input.branch ≠ .retransmissionTimer order)
    (found : (transition.before.stack.client peer).exchanges.lookup
      token = some exchange) :
    (transition.after.stack.client peer).exchanges.lookup token =
      some exchange := by
  have origin :=
    clientEvent_origin codec transition.before.stack transition.input peer
  rw [client_step (step_cases stepped).branch peer]
  cases isEvent :
      transition.before.stack.clientEvent codec transition.input peer with
  | idle => exact found
  | opened openedToken openedExchange =>
      rw [isEvent] at origin
      cases origin with
      | @opened opening opens isPeer =>
          change ((transition.before.stack.client peer).insert _
            _).exchanges.lookup token = _
          rw [ExchangeTable.insert_exchanges_lookup, if_neg]
          · exact found
          · exact (quiet.2 opening opens isPeer).symm
  | ticked now =>
      rw [isEvent] at origin
      cases origin with
      | ticked isTimer => exact absurd isTimer (noTimer _)
  | answered | acknowledged | piggybacked | reset =>
      rw [isEvent] at origin
      cases origin
      all_goals exact absurd ‹_› (quiet.1 _)

theorem timer_stillWaits
    (stepped : transition.before.step codec transition.input =
      some (transition.after, transition.output))
    {order : List (SocketAddr × List Token)}
    (isTimer : transition.input.branch = .retransmissionTimer order)
    (found : (transition.before.stack.client peer).exchanges.lookup
      token = some exchange)
    (armed : exchange.deadline.isSome = true) :
    TimedOut exchange.responseTx transition ∨
      ∃ waiting, StillWaits transition.after peer token exchange
        (findsDue peer token transition).toNat waiting := by
  have facts := step_cases stepped
  have applied := client_step facts.branch peer
  have ticked :=
    ExchangeTable.tick_exchanges_lookup
      (transition.before.stack.client peer) transition.input.now token
  rw [clientEvent_timer isTimer] at applied
  rw [found, Option.bind_some] at ticked
  cases survived : exchange.survive transition.input.now with
  | none =>
      refine Or.inl ⟨exchange.retransmitCount, ?_⟩
      rw [← mem_deliveriesOf, mem_deliveriesOf_iff facts.branch]
      refine ⟨peer, ?_⟩
      rw [clientEvent_timer isTimer]
      exact Multiset.mem_map.mpr ⟨exchange,
        Multiset.mem_filter.mpr
          ⟨(mem_values_iff _ _).mpr ⟨token, found⟩,
            (exchange.survive_eq_none_iff _).mp survived⟩, rfl⟩
  | some waiting =>
      have paid :=
        Exchange.survive_retransmissionsLeft armed survived
      refine Or.inr ⟨waiting, ?_, ?_, paid.1, ?_⟩
      · rw [applied]
        exact ticked.trans survived
      · rw [← ((exchange.survive_eq_some_iff _ _).mp survived).2]
        simp
      · rw [findsDue, isTimer]
        simpa [found] using paid.2

/-- A quiet transition leaves the exchange open with its deadline and pays
for finding it due, or times it out. -/
theorem quiet_step
    (stepped : transition.before.step codec transition.input =
      some (transition.after, transition.output))
    (quiet : Quiet codec peer token transition)
    (found : (transition.before.stack.client peer).exchanges.lookup
      token = some exchange)
    (armed : exchange.deadline.isSome = true) :
    TimedOut exchange.responseTx transition ∨
      ∃ waiting, StillWaits transition.after peer token exchange
        (findsDue peer token transition).toNat waiting := by
  by_cases isTimer :
      ∃ order, transition.input.branch = .retransmissionTimer order
  · rcases isTimer with ⟨order, isTimer⟩
    exact timer_stillWaits stepped isTimer found armed
  · have noTimer := not_exists.mp isTimer
    have silent : findsDue peer token transition = false := by
      unfold findsDue
      split
      · next order isTimer => exact absurd isTimer (noTimer order)
      · rfl
    refine Or.inr ⟨exchange,
      lookup_of_quiet stepped quiet noTimer found, rfl, armed, ?_⟩
    rw [silent]
    simp

end Quiet

/-- The same for a quiet continuation of any length. -/
theorem quiet_run
    {codec : Codec} {loop final : Loop} {newer : List LoopTransition}
    (run : Run ((loopMachine codec).resumedAt loop) newer final)
    {peer : SocketAddr} {token : Token} {exchange : Exchange}
    (quiet : ∀ transition ∈ newer, Quiet codec peer token transition)
    (found :
      (loop.stack.client peer).exchanges.lookup token = some exchange)
    (armed : exchange.deadline.isSome = true) :
    (∃ transition ∈ newer, TimedOut exchange.responseTx transition) ∨
      ∃ waiting, StillWaits final peer token exchange
        (newer.countP (findsDue peer token)) waiting := by
  induction run with
  | start initial =>
      cases initial
      exact Or.inr ⟨exchange, found, rfl, armed, by simp⟩
  | @extend history before after iteration effects earlier stepped
      induction =>
      have quietEarlier := fun transition member =>
        quiet transition (List.mem_cons_of_mem _ member)
      rcases induction quietEarlier with
        ⟨transition, member, timedOut⟩ | ⟨waiting, stillWaits⟩
      · exact Or.inl
          ⟨transition, List.mem_cons_of_mem _ member, timedOut⟩
      · rcases @quiet_step codec ⟨before, iteration, effects, after⟩ peer
            token waiting stepped (quiet _ List.mem_cons_self)
            stillWaits.isOpen stillWaits.armed with
          timedOut | ⟨later, laterWaits⟩
        · exact Or.inl
            ⟨_, List.mem_cons_self, stillWaits.sender ▸ timedOut⟩
        · refine Or.inr ⟨later, laterWaits.isOpen,
            laterWaits.sender.trans stillWaits.sender,
            laterWaits.armed, ?_⟩
          have paidBefore := stillWaits.paid
          have paidNow := laterWaits.paid
          rw [List.countP_cons]
          cases due : findsDue peer token
              ⟨before, iteration, effects, after⟩ <;>
            simp only [due, Bool.toNat_true, Bool.toNat_false, if_true,
              Bool.false_eq_true, if_false] at paidNow ⊢ <;>
            omega

/-! ## Runs -/

/--
After the transition every open exchange has a deadline, the timer of the loop
accounts for it, and in every continuation in which its peer is quiet it is
timed out before the timer finds it due more than `maxRetransmit` times.
-/
def DeadlinesArmed (codec : Codec) (transition : LoopTransition) : Prop :=
  ∀ peer token exchange,
    (transition.after.stack.client peer).exchanges.lookup token =
        some exchange →
      (∃ deadline least, exchange.deadline = some deadline ∧
        transition.after.stack.nextDeadline = some least ∧
          least ≤ deadline) ∧
      ∀ newer final,
        Run ((loopMachine codec).resumedAt transition.after) newer
            final →
          (∀ later ∈ newer, Quiet codec peer token later) →
            maxRetransmit < newer.countP (findsDue peer token) →
              ∃ later ∈ newer, TimedOut exchange.responseTx later

/-- The transition receives an empty ACK for an open exchange that has no
expiry, that is, for a CON. -/
def AcknowledgesOpenCon (codec : Codec)
    (transition : LoopTransition) : Prop :=
  ∃ raw peer parsed token exchange,
    transition.input.branch = .inbound raw peer ∧
      codec.fromBytes raw = some parsed ∧
        parsed.header.messageType = .acknowledgement ∧
          parsed.header.code = .empty ∧
    (transition.before.stack.client peer).midToToken.lookup
        parsed.header.messageId = some token ∧
      (transition.before.stack.client peer).exchanges.lookup token =
          some exchange ∧
        exchange.expiresAt = none

theorem disarms_iff
    (codec : Codec) (transition : LoopTransition) :
    (∃ peer, (transition.before.stack.client peer).Disarms
      (transition.before.stack.clientEvent codec transition.input
        peer)) ↔
      AcknowledgesOpenCon codec transition := by
  constructor
  · rintro ⟨peer, mid, token, exchange, isEvent, indexed, found,
      noExpiry⟩
    have origin :=
      clientEvent_origin codec transition.before.stack
        transition.input peer
    rw [isEvent] at origin
    cases origin with
    | @acknowledged raw parsed taken parses kind code =>
        exact ⟨raw, peer, parsed, token, exchange, taken, parses, kind,
          code, indexed, found, noExpiry⟩
  · rintro ⟨raw, peer, parsed, token, exchange, taken, parses, kind,
      code, indexed, found, noExpiry⟩
    refine ⟨peer, parsed.header.messageId, token, exchange, ?_, indexed,
      found, noExpiry⟩
    rw [clientEvent_inbound taken parses, if_pos rfl, packetEvent, kind]
    simp only [code]

/-- All the tables of the loop are armed. -/
def Armed (loop : Loop) : Prop :=
  ∀ peer, (loop.stack.client peer).Armed

theorem armed_step
    {codec : Codec} {before after : Loop} {iteration : Iteration}
    {effects : List Effect}
    (armed : Armed before)
    (stepped : before.step codec iteration = some (after, effects))
    (keeps : ¬ AcknowledgesOpenCon codec
      ⟨before, iteration, effects, after⟩) :
    Armed after := by
  intro peer
  rw [client_step (step_cases stepped).branch peer]
  apply (armed peer).step (ExchangeTable.step_apply _ _)
  · intro token exchange isOpened
    rcases opening_of_opened isOpened with ⟨opening, _, _, _, rfl⟩
    simp
  · intro disarms
    exact keeps ((disarms_iff codec
      ⟨before, iteration, effects, after⟩).mp ⟨peer, disarms⟩)

theorem deadlinesArmed_of_armed
    (codec : Codec) {transition : LoopTransition}
    (armed : Armed transition.after) :
    DeadlinesArmed codec transition := by
  intro peer token exchange found
  have isArmed := armed peer token exchange found
  constructor
  · rcases Option.isSome_iff_exists.mp isArmed with
      ⟨deadline, isDeadline⟩
    rcases exists_nextDeadline_le found isDeadline with
      ⟨least, isLeast, le⟩
    exact ⟨deadline, least, isDeadline, isLeast, le⟩
  · intro newer final run quiet often
    rcases quiet_run run quiet found isArmed with
      timedOut | ⟨waiting, stillWaits⟩
    · exact timedOut
    · have bound := exchange.retransmissionsLeft_le
      have paid := stillWaits.paid
      omega

theorem armed_of_deadlinesArmed
    {codec : Codec} {transition : LoopTransition}
    (armed : DeadlinesArmed codec transition) :
    Armed transition.after := by
  intro peer token exchange found
  rcases (armed peer token exchange found).1 with
    ⟨deadline, _, isDeadline, _⟩
  rw [isDeadline]
  rfl

theorem armed_start {codec : Codec} (loop : Loop)
    (initial : (loopMachine codec).Initial loop) : Armed loop := by
  rcases initial with ⟨now, rfl⟩
  intro peer token exchange found
  cases found

/--
The open exchanges of a run have their deadlines, and are timed out if their
peers never answer, exactly if no empty ACK acknowledges an open CON.
-/
theorem deadlines_armed_iff_no_con_acknowledged
    {codec : Codec} {history : List LoopTransition} {loop : Loop}
    (run : LoopRun codec history loop) :
    Along (fun _ transition => DeadlinesArmed codec transition)
        history ↔
      Along (fun _ transition => ¬ AcknowledgesOpenCon codec transition)
        history := by
  have sameArmed :
      Along (fun _ transition => DeadlinesArmed codec transition)
          history ↔
        Along (fun _ transition => Armed transition.after) history := by
    apply along_congr
    intro transition older _
    exact ⟨armed_of_deadlinesArmed, deadlinesArmed_of_armed codec⟩
  rw [sameArmed]
  apply run.along_after_iff armed_start
  intro history before after iteration effects _ armed stepped
  constructor
  · intro armedAfter acknowledges
    rcases (disarms_iff codec _).mpr acknowledges with ⟨peer, disarms⟩
    apply ExchangeTable.not_armed_of_disarms disarms
    rw [← client_step (step_cases stepped).branch peer]
    exact armedAfter peer
  · intro keeps
    exact armed_step armed stepped keeps

/-- A confirmable GET, and the empty ACK for its MID. -/
def acknowledgedInputs : List Iteration :=
  [.plain (fromSecs 1)
      (.outboundRequest (some
        ⟨⟨.get, "", [], none, [], none, true⟩, .loopback 5683, ⟨0⟩⟩)),
    .plain (fromSecs 2) (.inbound [0x60, 0, 0, 0] (.loopback 5683))]

theorem exists_unarmed :
    ∃ history loop, LoopRun bareCodec history loop ∧
      ¬ Along (fun _ transition => DeadlinesArmed bareCodec transition)
        history := by
  rcases exists_run_of_replay (Loop.initial_start bareCodec 0)
      acknowledgedInputs
      (fun history _ =>
        match history with
        | acknowledged :: _ =>
            ((acknowledged.after.stack.client
              (.loopback 5683)).exchanges.lookup [0, 0, 0, 0]).any
                (·.deadline = none)
        | [] => false)
      (by decide) with
    ⟨history, loop, run, checked⟩
  refine ⟨history, loop, run, ?_⟩
  cases history with
  | nil => cases checked
  | cons acknowledged older =>
      rw [Option.any_eq_true] at checked
      rcases checked with ⟨exchange, found, unarmed⟩
      rintro ⟨armed, _⟩
      rcases (armed _ _ exchange found).1 with
        ⟨deadline, _, isDeadline, _⟩
      rw [isDeadline] at unarmed
      cases unarmed

theorem not_every_deadline_armed :
    ¬ ∀ codec history loop, LoopRun codec history loop →
      Along (fun _ transition => DeadlinesArmed codec transition)
        history := by
  intro claimed
  rcases exists_unarmed with ⟨history, loop, run, unarmed⟩
  exact unarmed (claimed bareCodec history loop run)

theorem deadlines_armed_iff_no_con_acknowledged_on_ack :
    ∃ history loop, LoopRun bareCodec history loop ∧
      ¬ Along
        (fun _ transition => ¬ AcknowledgesOpenCon bareCodec transition)
        history := by
  rcases exists_unarmed with ⟨history, loop, run, unarmed⟩
  exact ⟨history, loop, run, fun keeps =>
    unarmed ((deadlines_armed_iff_no_con_acknowledged run).mpr keeps)⟩

end Deadlines

end Coapable.Transport
