import Coapable.BareCodec
import Coapable.Transport.EffectView

/-!
# At-most-once processing and what outlives its lifetime

Two laws of the deduplication table over whole runs.

* The table never forgets too early: two accepted packets of one peer with one
  MID are at least `exchangeLifetime` apart, whatever else happened between
  them.
* The table does forget too late.  Only the retransmission branch evicts, and
  it runs only while some exchange has a deadline, so an entry stays until the
  first retransmission-timer step after it went stale.  A packet is rejected
  although its MID may be reused exactly when that step has not run yet.
-/

namespace Coapable.Transport.AtMostOnce

open Coapable.BareCodec
open Coapable.CoapLite
open Coapable.Foundation.Execution
open Coapable.MessageTypes

/-! ## The table against the history -/

/-- A retransmission-timer step of the history ran at or after the end of the
lifetime of what was recorded at this time. -/
def Swept (history : List LoopTransition) (recorded : Nat) : Prop :=
  ∃ sweep ∈ history, sweep.input.IsTimer ∧
    recorded + exchangeLifetime ≤ sweep.input.now

theorem swept_cons_iff (transition : LoopTransition)
    (history : List LoopTransition) (recorded : Nat) :
    Swept (transition :: history) recorded ↔
      (transition.input.IsTimer ∧
        recorded + exchangeLifetime ≤ transition.input.now) ∨
      Swept history recorded := by
  simp only [Swept, List.exists_mem_cons_iff]

/--
How the table and the history fit together.

`kept` is what makes the table reliable: an accepted packet is remembered by
an entry at least as recent, unless a sweep has come by since it went stale.
`justified` and `unswept` say that there are no other entries.
-/
structure Remembers (codec : Codec) (history : List LoopTransition)
    (loop : Loop) : Prop where
  kept : ∀ accepted ∈ history, ∀ peer mid,
    Accepts codec accepted peer mid →
      Swept history accepted.input.now ∨
        ∃ created, loop.stack.created peer mid = some created ∧
          accepted.input.now ≤ created
  justified : ∀ peer mid created,
    loop.stack.created peer mid = some created →
      ∃ accepted ∈ history, Accepts codec accepted peer mid ∧
        accepted.input.now = created
  unswept : ∀ peer mid created,
    loop.stack.created peer mid = some created →
      ¬ Swept history created

theorem remembers_start (codec : Codec) (now : Nat) :
    Remembers codec [] (Loop.start now) where
  kept := by
    intro accepted member
    cases member
  justified := by
    intro peer mid created stored
    cases stored
  unswept := by
    intro peer mid created stored
    cases stored

section Step

variable
  {codec : Codec} {history : List LoopTransition}
  {before after : Loop} {iteration : Iteration} {effects : List Effect}

theorem kept_step
    (past : ∀ transition ∈ history,
      transition.input.now ≤ before.clock)
    (remembers : Remembers codec history before)
    (stepped : before.step codec iteration = some (after, effects))
    {accepted : LoopTransition}
    (member : accepted ∈ ⟨before, iteration, effects, after⟩ :: history)
    {peer : SocketAddr} {mid : UInt16}
    (accepts : Accepts codec accepted peer mid) :
    Swept (⟨before, iteration, effects, after⟩ :: history)
        accepted.input.now ∨
      ∃ created, after.stack.created peer mid = some created ∧
        accepted.input.now ≤ created := by
  have facts := step_cases stepped
  have changes := created_step facts.branch peer mid
  rw [swept_cons_iff]
  rcases List.mem_cons.mp member with rfl | older
  · -- The packet accepted now is recorded with the current time.
    rcases changes with
      ⟨_, _, recorded⟩ | ⟨isTimer, _⟩ | ⟨_, rejected, _⟩
    · exact Or.inr ⟨_, recorded, le_rfl⟩
    · exact absurd isTimer accepts.1.not_isTimer
    · exact absurd accepts rejected
  · rcases remembers.kept accepted older peer mid accepts with
      swept | ⟨created, stored, notOlder⟩
    · exact Or.inl (Or.inr swept)
    · rcases changes with
        ⟨_, _, recorded⟩ | ⟨isTimer, filtered⟩ | ⟨_, _, unchanged⟩
      · exact Or.inr ⟨_, recorded,
          (past accepted older).trans facts.clock_le⟩
      · rw [stored] at filtered
        by_cases recent : iteration.now - created < exchangeLifetime
        · refine Or.inr ⟨created, ?_, notOlder⟩
          simpa [Option.filter, recent] using filtered
        · refine Or.inl (Or.inl ⟨isTimer, ?_⟩)
          change accepted.input.now + exchangeLifetime ≤ iteration.now
          have positive : 0 < exchangeLifetime := by decide
          omega
      · exact Or.inr ⟨created, unchanged.trans stored, notOlder⟩

theorem justified_step
    (remembers : Remembers codec history before)
    (stepped : before.step codec iteration = some (after, effects))
    {peer : SocketAddr} {mid : UInt16} {created : Nat}
    (stored : after.stack.created peer mid = some created) :
    ∃ accepted ∈ ⟨before, iteration, effects, after⟩ :: history,
      Accepts codec accepted peer mid ∧
        accepted.input.now = created := by
  have earlier
      (storedBefore : before.stack.created peer mid = some created) :
      ∃ accepted ∈ ⟨before, iteration, effects, after⟩ :: history,
        Accepts codec accepted peer mid ∧
          accepted.input.now = created := by
    rcases remembers.justified peer mid created storedBefore with
      ⟨accepted, older, accepts⟩
    exact ⟨accepted, List.mem_cons_of_mem _ older, accepts⟩
  rcases created_step (step_cases stepped).branch peer mid with
    ⟨receives, fresh, recorded⟩ | ⟨_, filtered⟩ | ⟨_, _, unchanged⟩
  · rw [stored, Option.some.injEq] at recorded
    exact ⟨_, List.mem_cons_self, ⟨receives, fresh⟩, recorded.symm⟩
  · rw [filtered, Option.filter_eq_some_iff] at stored
    exact earlier stored.1
  · exact earlier (unchanged.symm.trans stored)

theorem unswept_step
    (past : ∀ transition ∈ history,
      transition.input.now ≤ before.clock)
    (remembers : Remembers codec history before)
    (stepped : before.step codec iteration = some (after, effects))
    {peer : SocketAddr} {mid : UInt16} {created : Nat}
    (stored : after.stack.created peer mid = some created) :
    ¬ Swept (⟨before, iteration, effects, after⟩ :: history)
      created := by
  have facts := step_cases stepped
  rw [swept_cons_iff]
  rcases created_step facts.branch peer mid with
    ⟨receives, _, recorded⟩ | ⟨_, filtered⟩ | ⟨notTimer, _, unchanged⟩
  · rw [stored, Option.some.injEq] at recorded
    have positive : 0 < exchangeLifetime := by decide
    rintro (⟨isTimer, _⟩ | ⟨sweep, older, _, late⟩)
    · exact absurd isTimer receives.not_isTimer
    · have early := (past sweep older).trans facts.clock_le
      omega
  · rw [filtered, Option.filter_eq_some_iff] at stored
    have recent := of_decide_eq_true stored.2
    rintro (⟨_, late⟩ | swept)
    · change created + exchangeLifetime ≤ iteration.now at late
      omega
    · exact remembers.unswept peer mid created stored.1 swept
  · rw [unchanged] at stored
    rintro (⟨isTimer, _⟩ | swept)
    · exact notTimer isTimer
    · exact remembers.unswept peer mid created stored swept

theorem remembers_step
    (past : ∀ transition ∈ history,
      transition.input.now ≤ before.clock)
    (remembers : Remembers codec history before)
    (stepped : before.step codec iteration = some (after, effects)) :
    Remembers codec
      (⟨before, iteration, effects, after⟩ :: history) after where
  kept _ member _ _ accepts :=
    kept_step past remembers stepped member accepts
  justified _ _ _ stored := justified_step remembers stepped stored
  unswept _ _ _ stored := unswept_step past remembers stepped stored

end Step

theorem remembers_of_run
    {codec : Codec} {history : List LoopTransition} {loop : Loop}
    (run : LoopRun codec history loop) :
    Remembers codec history loop := by
  refine run.invariant (Remembers codec) ?_ ?_
  · rintro loop ⟨now, rfl⟩
    exact remembers_start codec now
  · intro history before after iteration effects earlier remembers stepped
    exact remembers_step (LoopRun.now_le_clock earlier) remembers
      stepped

/-! ## At most once within a lifetime -/

/-- A MID that is accepted again was swept in between. -/
theorem accepted_swept
    {codec : Codec} {history : List LoopTransition} {loop : Loop}
    {later : LoopTransition} {older : List LoopTransition}
    (run : LoopRun codec history loop)
    (suffix : later :: older <:+ history)
    {peer : SocketAddr} {mid : UInt16}
    (accepts : Accepts codec later peer mid)
    {earlier : LoopTransition} (member : earlier ∈ older)
    (acceptedBefore : Accepts codec earlier peer mid) :
    Swept older earlier.input.now := by
  rcases run.of_suffix suffix with ⟨earlierRun, _⟩
  rcases (remembers_of_run earlierRun).kept earlier member peer mid
      acceptedBefore with
    swept | ⟨created, stored, _⟩
  · exact swept
  · have fresh := accepts.2
    rw [isDuplicate_eq_created, stored] at fresh
    cases fresh

/-- A response that is delivered came in an accepted packet or in an
acknowledgement. -/
theorem accepts_of_completed
    {codec : Codec} {transition : LoopTransition}
    (branch : BranchStep codec transition.before.stack transition.input
      transition.after.stack transition.output)
    {delivery : Delivery} {response : CoapResponse}
    (member : .deliver delivery ∈ transition.output)
    (completes : delivery.result = .ok response) :
    ∃ raw peer parsed, transition.input.branch = .inbound raw peer ∧
      codec.fromBytes raw = some parsed ∧
        (parsed.header.messageType = .acknowledgement ∨
          Accepts codec transition peer parsed.header.messageId) := by
  rw [← mem_deliveriesOf, mem_deliveriesOf_iff branch] at member
  rcases member with ⟨peer, member⟩
  rcases (ExchangeTable.step_apply _ _).completed member completes with
    ⟨_, _, _, _, isAnswered | ⟨mid, isPiggybacked, _⟩⟩
  · have origin := clientEvent_origin codec transition.before.stack
      transition.input peer
    rw [isAnswered] at origin
    cases origin with
    | @answered raw parsed _ taken parses kind fresh decoded =>
        exact ⟨raw, peer, parsed, taken, parses, .inr
          ⟨(transition.input.receives_iff codec peer _).mpr
            ⟨raw, parsed, taken, parses, kind, rfl⟩, fresh⟩⟩
  · have origin := clientEvent_origin codec transition.before.stack
      transition.input peer
    rw [isPiggybacked] at origin
    cases origin with
    | @piggybacked raw parsed _ taken parses kind decoded =>
        exact ⟨raw, peer, parsed, taken, parses, .inl kind⟩

/--
Between two accepted packets of one peer with one MID at least
`exchangeLifetime` elapses.  What the loop dispatches to the server and what
it passes to `completeExchange` as a separate response was accepted in that
very iteration, and so was every response that a request is completed with,
unless it came in an acknowledgement.
-/
theorem accepted_a_lifetime_apart
    {codec : Codec} {history : List LoopTransition} {loop : Loop}
    (run : LoopRun codec history loop) :
    (∀ later older, later :: older <:+ history →
      ∀ earlier ∈ older, ∀ peer mid,
        Accepts codec later peer mid →
          Accepts codec earlier peer mid →
            earlier.input.now + exchangeLifetime ≤ later.input.now) ∧
      ∀ transition ∈ history,
        (∀ request, .sendRequest request ∈ transition.output →
          ∃ mid, Accepts codec transition request.peer mid) ∧
        (∀ peer token response,
          transition.before.stack.clientEvent codec transition.input
              peer = .answered token response →
            ∃ mid, Accepts codec transition peer mid) ∧
        ∀ delivery response, .deliver delivery ∈ transition.output →
          delivery.result = .ok response →
            ∃ raw peer parsed,
              transition.input.branch = .inbound raw peer ∧
                codec.fromBytes raw = some parsed ∧
                  (parsed.header.messageType = .acknowledgement ∨
                    Accepts codec transition peer
                      parsed.header.messageId) := by
  constructor
  · intro later older suffix earlier member peer mid accepts
      acceptedBefore
    rcases accepted_swept run suffix accepts member acceptedBefore with
      ⟨sweep, sweepMember, _, late⟩
    exact late.trans
      (LoopRun.now_le_of_suffix run suffix sweep sweepMember)
  · intro transition member
    have facts := LoopRun.facts_of_mem run member
    refine ⟨?_, ?_, ?_⟩
    · intro request dispatched
      rcases sendRequest_dispatches facts.branch dispatched with
        ⟨raw, parsed, taken, parses, kind, fresh, _⟩
      exact ⟨parsed.header.messageId,
        (Iteration.receives_iff _ _ _ _).mpr
          ⟨raw, parsed, taken, parses, kind, rfl⟩, fresh⟩
    · intro peer token response answered
      exact accepts_of_answered answered
    · intro delivery response delivered completes
      exact accepts_of_completed facts.branch delivered completes

/-- A non-confirmable GET with message ID 7 and no token. -/
def getSeven : Bytes :=
  [0x50, 0x01, 0, 7]

/-- A MID is used again after its lifetime, a sweep having come by. -/
def reuseInputs : List Iteration :=
  [.plain (fromSecs 1) (.inbound getSeven (.loopback 5000)),
    .plain (fromSecs 250)
      (.outboundRequest (some
        ⟨⟨.get, "", [], none, [], none, true⟩, .loopback 6000, ⟨0⟩⟩)),
    .plain (fromSecs 252)
      (.retransmissionTimer
        [(.loopback 5000, []), (.loopback 6000, [[0, 0, 0, 0]])]),
    .plain (fromSecs 300) (.inbound getSeven (.loopback 5000))]

theorem exists_reuse :
    ∃ later older loop, LoopRun bareCodec (later :: older) loop ∧
      Accepts bareCodec later (.loopback 5000) 7 ∧
        ∃ earlier ∈ older, Accepts bareCodec earlier (.loopback 5000) 7 := by
  rcases exists_run_of_replay (Loop.initial_start bareCodec 0)
      reuseInputs
      (fun history _ =>
        match history with
        | [] => false
        | later :: older =>
            decide (Accepts bareCodec later (.loopback 5000) 7) &&
              older.any fun earlier =>
                decide (Accepts bareCodec earlier (.loopback 5000) 7))
      (by decide) with
    ⟨history, loop, run, checked⟩
  cases history with
  | nil => cases checked
  | cons later older =>
      simp only [Bool.and_eq_true, decide_eq_true_eq, List.any_eq_true]
        at checked
      exact ⟨later, older, loop, run, checked⟩

theorem accepted_a_lifetime_apart_on_reuse :
    ∃ later older loop, LoopRun bareCodec (later :: older) loop ∧
      ∃ earlier ∈ older,
        earlier.input.now + exchangeLifetime ≤ later.input.now := by
  rcases exists_reuse with
    ⟨later, older, loop, run, accepts, earlier, member, acceptedBefore⟩
  exact ⟨later, older, loop, run, earlier, member,
    (accepted_a_lifetime_apart run).1 later older List.suffix_rfl
      earlier member _ _ accepts acceptedBefore⟩

/-! ## What outlives its lifetime -/

/-- If the packet is treated as a duplicate, one with its MID was accepted
less than a lifetime ago. -/
def DuplicateJustified (codec : Codec) (older : List LoopTransition)
    (transition : LoopTransition) : Prop :=
  ∀ peer mid, TreatsAsDuplicate codec transition peer mid →
    ∃ accepted ∈ older, Accepts codec accepted peer mid ∧
      transition.input.now < accepted.input.now + exchangeLifetime

/-- Whatever was accepted with the MID of the packet and is a lifetime old
was swept since it went stale. -/
def SweptInTime (codec : Codec) (older : List LoopTransition)
    (transition : LoopTransition) : Prop :=
  ∀ peer mid, transition.input.Receives codec peer mid →
    ∀ accepted ∈ older, Accepts codec accepted peer mid →
      accepted.input.now + exchangeLifetime ≤ transition.input.now →
        Swept older accepted.input.now

theorem duplicateJustified_of_sweptInTime
    {codec : Codec} {history : List LoopTransition} {loop : Loop}
    {transition : LoopTransition} {older : List LoopTransition}
    (run : LoopRun codec history loop)
    (suffix : transition :: older <:+ history)
    (swept : SweptInTime codec older transition) :
    DuplicateJustified codec older transition := by
  intro peer mid duplicate
  have remembers := remembers_of_run (run.of_suffix suffix).1
  have stored := duplicate.2
  rw [isDuplicate_eq_created, Option.isSome_iff_exists] at stored
  rcases stored with ⟨created, stored⟩
  rcases remembers.justified peer mid created stored with
    ⟨accepted, member, accepts, rfl⟩
  refine ⟨accepted, member, accepts, ?_⟩
  by_contra stale
  exact remembers.unswept peer mid _ stored
    (swept peer mid duplicate.1 accepted member accepts
      (Nat.not_lt.mp stale))

/-- The later of two accepted packets came only after the earlier one was
swept. -/
theorem swept_of_accepted_later
    {codec : Codec} {history : List LoopTransition} {loop : Loop}
    (run : LoopRun codec history loop)
    {early late : LoopTransition}
    (earlyMember : early ∈ history) (lateMember : late ∈ history)
    (before : early.input.now < late.input.now)
    {peer : SocketAddr} {mid : UInt16}
    (earlyAccepts : Accepts codec early peer mid)
    (lateAccepts : Accepts codec late peer mid) :
    Swept history early.input.now := by
  rcases List.append_of_mem lateMember with ⟨newer, older, rfl⟩
  rcases List.mem_append.mp earlyMember with inNewer | inRest
  · rcases List.append_of_mem inNewer with ⟨newest, between, rfl⟩
    have suffix : early :: (between ++ late :: older) <:+
        newest ++ early :: between ++ late :: older := by
      rw [List.append_assoc, List.cons_append]
      exact List.suffix_append _ _
    have ordered := LoopRun.now_le_of_suffix run suffix late
      (List.mem_append_right _ List.mem_cons_self)
    omega
  · rcases List.mem_cons.mp inRest with rfl | inOlder
    · omega
    · rcases accepted_swept run (List.suffix_append newer _) lateAccepts
          inOlder earlyAccepts with
        ⟨sweep, sweepMember, isSweep⟩
      exact ⟨sweep, List.mem_append_right _
        (List.mem_cons_of_mem _ sweepMember), isSweep⟩

theorem sweptInTime_of_duplicateJustified
    {codec : Codec} {history : List LoopTransition} {loop : Loop}
    {transition : LoopTransition} {older : List LoopTransition}
    (run : LoopRun codec history loop)
    (suffix : transition :: older <:+ history)
    (justified : DuplicateJustified codec older transition) :
    SweptInTime codec older transition := by
  intro peer mid receives accepted member accepts stale
  have earlierRun := (run.of_suffix suffix).1
  rcases (remembers_of_run earlierRun).kept accepted member peer mid
      accepts with
    swept | ⟨created, stored, _⟩
  · exact swept
  · have duplicate : TreatsAsDuplicate codec transition peer mid := by
      refine ⟨receives, ?_⟩
      rw [isDuplicate_eq_created, stored]
      rfl
    rcases justified peer mid duplicate with
      ⟨recent, recentMember, recentAccepts, young⟩
    exact swept_of_accepted_later earlierRun member recentMember
      (by omega) accepts recentAccepts

/--
Exactly the runs in which every stale entry was swept before its MID came
again reject no fresh message.
-/
theorem duplicates_justified_iff_swept_in_time
    {codec : Codec} {history : List LoopTransition} {loop : Loop}
    (run : LoopRun codec history loop) :
    Along (DuplicateJustified codec) history ↔
      Along (SweptInTime codec) history := by
  apply along_congr
  intro transition older suffix
  exact ⟨sweptInTime_of_duplicateJustified run suffix,
    duplicateJustified_of_sweptInTime run suffix⟩

/-- A stack that only serves: the MID of a request answered at 2 s comes
again at 300 s, after nine cleanups. -/
def staleInputs : List Iteration :=
  [.plain (fromSecs 1) (.inbound getSeven (.loopback 5000)),
    .plain (fromSecs 2)
      (.outboundResponse (some
        ⟨⟨.content, none, []⟩, .loopback 5000, []⟩))] ++
    ((List.range 9).map fun round =>
      .plain (fromSecs (30 * (round + 1))) .cleanupTimer) ++
    [.plain (fromSecs 300) (.inbound getSeven (.loopback 5000))]

theorem exists_stale_rejection :
    ∃ history loop, LoopRun bareCodec history loop ∧
      ¬ Along (DuplicateJustified bareCodec) history := by
  rcases exists_run_of_replay (Loop.initial_start bareCodec 0)
      staleInputs
      (fun history _ =>
        match history with
        | [] => false
        | transition :: older =>
            decide (TreatsAsDuplicate bareCodec transition
              (.loopback 5000) 7) &&
            older.all fun accepted =>
              decide (Accepts bareCodec accepted (.loopback 5000) 7 →
                accepted.input.now + exchangeLifetime ≤
                  transition.input.now))
      (by decide) with
    ⟨history, loop, run, checked⟩
  refine ⟨history, loop, run, ?_⟩
  cases history with
  | nil => cases checked
  | cons transition older =>
      simp only [Bool.and_eq_true, decide_eq_true_eq, List.all_eq_true]
        at checked
      rintro ⟨justified, _⟩
      rcases justified _ _ checked.1 with ⟨accepted, member, accepts, young⟩
      have stale := checked.2 accepted member accepts
      omega

theorem not_every_duplicate_justified :
    ¬ ∀ codec history loop, LoopRun codec history loop →
      Along (DuplicateJustified codec) history := by
  intro claimed
  rcases exists_stale_rejection with ⟨history, loop, run, rejected⟩
  exact rejected (claimed bareCodec history loop run)

theorem duplicates_justified_iff_swept_in_time_on_stale :
    ∃ history loop, LoopRun bareCodec history loop ∧
      ¬ Along (SweptInTime bareCodec) history := by
  rcases exists_stale_rejection with ⟨history, loop, run, rejected⟩
  exact ⟨history, loop, run, fun swept =>
    rejected ((duplicates_justified_iff_swept_in_time run).mpr swept)⟩

end Coapable.Transport.AtMostOnce
