import Coapable.Transport.AtMostOnce
import Coapable.Transport.PendingRequests

/-!
# Which sessions a cleanup leaves behind

A session is of use while it has an open exchange, a CON request that waits
for its answer, or a packet accepted less than a lifetime ago.  Cleanup drops
a session only once its tables are empty, and the entries of old packets are
dropped by the retransmission branch alone.  So a session that is of no use
goes exactly if that branch came by in time.
-/

namespace Coapable.Transport.IdleSessions

open Coapable.BareCodec
open Coapable.CoapLite
open Coapable.Foundation.Execution
open Coapable.Foundation.FiniteMap
open Coapable.Transport.AtMostOnce

/-- What the session of a peer is still needed for at a time. -/
inductive InUse (codec : Codec) (history : List LoopTransition)
    (now : Nat) (peer : SocketAddr) (session : PeerSession) : Prop where
  | exchange (token : Token) (exchange : Exchange)
      (found : session.exchanges.lookup token = some exchange)
  | request (unanswered : Unanswered codec peer history)
  | packet (accepted : LoopTransition) (mid : UInt16)
      (member : accepted ∈ history)
      (accepts : Accepts codec accepted peer mid)
      (young : now < accepted.input.now + exchangeLifetime)

/-- Every session that a cleanup leaves is in use. -/
def ReclaimsIdle (codec : Codec) (older : List LoopTransition)
    (transition : LoopTransition) : Prop :=
  transition.input.branch = .cleanupTimer →
    ∀ peer session,
      transition.after.stack.sessions.lookup peer = some session →
        InUse codec older transition.input.now peer session

/-- When a cleanup comes, the sessions that are not in use have no MID index
left, and all their packets were swept. -/
def SweptBeforeCleanup (codec : Codec) (older : List LoopTransition)
    (transition : LoopTransition) : Prop :=
  transition.input.branch = .cleanupTimer →
    ∀ peer session,
      transition.before.stack.sessions.lookup peer = some session →
        ¬ InUse codec older transition.input.now peer session →
          (∀ mid, session.midToToken.lookup mid = none) ∧
            ∀ accepted ∈ older, ∀ mid,
              Accepts codec accepted peer mid →
                Swept older accepted.input.now

section Cleanup

variable {codec : Codec} {history older : List LoopTransition}
  {loop : Loop} {now : Nat} {peer : SocketAddr} {session : PeerSession}

theorem server_of_stored
    {stack : CoapStack}
    (stored : stack.sessions.lookup peer = some session) :
    stack.server peer = session.server := by
  rw [CoapStack.server, stored]

/-- Once all packets were swept no entry is left. -/
theorem dedup_absent
    (run : LoopRun codec history loop)
    (stored : loop.stack.sessions.lookup peer = some session)
    (swept : ∀ accepted ∈ history, ∀ mid,
      Accepts codec accepted peer mid → Swept history accepted.input.now)
    (mid : UInt16) :
    session.inboundDedup.lookup mid = none := by
  rw [Option.eq_none_iff_forall_ne_some]
  intro entry found
  have remembers := remembers_of_run run
  have created : loop.stack.created peer mid = some entry.created := by
    rw [created_eq_entry, server_of_stored stored]
    exact congrArg (Option.map DedupEntry.created) found
  rcases remembers.justified peer mid _ created with
    ⟨accepted, member, accepts, isCreated⟩
  have unswept := remembers.unswept peer mid _ created
  rw [← isCreated] at unswept
  exact unswept (swept accepted member mid accepts)

/-- A session that is not in use and whose packets were swept is idle. -/
theorem isIdle_of_swept
    (run : LoopRun codec history loop)
    (stored : loop.stack.sessions.lookup peer = some session)
    (notInUse : ¬ InUse codec history now peer session)
    (noIndex : ∀ mid, session.midToToken.lookup mid = none)
    (swept : ∀ accepted ∈ history, ∀ mid,
      Accepts codec accepted peer mid → Swept history accepted.input.now) :
    session.isIdle = true := by
  rw [isIdle_iff]
  refine ⟨?_, noIndex, dedup_absent run stored swept, ?_⟩
  · intro token
    rw [Option.eq_none_iff_forall_ne_some]
    intro exchange found
    exact notInUse (.exchange token exchange found)
  · intro token
    have noRequest := (conMids_empty_iff run peer).mpr
      fun unanswered => notInUse (.request unanswered)
    have absent := noRequest token
    rw [server_of_stored stored] at absent
    exact absent

/-- All packets of an idle session were swept. -/
theorem swept_of_isIdle
    (run : LoopRun codec history loop)
    (stored : loop.stack.sessions.lookup peer = some session)
    (idle : session.isIdle = true)
    {accepted : LoopTransition} (member : accepted ∈ history)
    {mid : UInt16} (accepts : Accepts codec accepted peer mid) :
    Swept history accepted.input.now := by
  rcases (remembers_of_run run).kept accepted member peer mid accepts with
    swept | ⟨created, kept, _⟩
  · exact swept
  · rw [created_eq_entry, server_of_stored stored] at kept
    rcases Option.map_eq_some_iff.mp kept with ⟨entry, found, _⟩
    have absent := ((isIdle_iff session).mp idle).2.2.1 mid
    cases absent.symm.trans found

end Cleanup

/--
Exactly the runs in which the retransmission branch sweeps the sessions that
are not in use before each cleanup reclaim those sessions.
-/
theorem reclaims_iff_swept_before_cleanup
    {codec : Codec} {history : List LoopTransition} {loop : Loop}
    (run : LoopRun codec history loop) :
    Along (ReclaimsIdle codec) history ↔
      Along (SweptBeforeCleanup codec) history := by
  apply along_congr
  intro transition older suffix
  rcases run.of_suffix suffix with ⟨earlier, stepped⟩
  have branch := (step_cases stepped).branch
  constructor
  · intro reclaims isCleanup peer session stored notInUse
    have idle : session.isIdle = true := by
      by_contra busy
      apply notInUse
      apply reclaims isCleanup peer session
      rw [branch.of_cleanup isCleanup, lookup_cleanup, stored]
      simp [Option.filter, busy]
    exact ⟨((isIdle_iff session).mp idle).2.1,
      fun accepted member mid accepts =>
        swept_of_isIdle earlier stored idle member accepts⟩
  · intro swept isCleanup peer session kept
    rw [branch.of_cleanup isCleanup, lookup_cleanup,
      Option.filter_eq_some_iff] at kept
    rcases kept with ⟨stored, busy⟩
    by_contra notInUse
    rcases swept isCleanup peer session stored notInUse with
      ⟨noIndex, packetsSwept⟩
    rw [isIdle_of_swept earlier stored notInUse noIndex packetsSwept]
      at busy
    cases busy

/-! ## A session that is never reclaimed -/

/-- A NON request is accepted at 1 s and answered at 2 s; nine cleanups come,
the last one at 270 s. -/
def servedInputs : List Iteration :=
  [.plain (fromSecs 1) (.inbound getSeven (.loopback 5000)),
    .plain (fromSecs 2)
      (.outboundResponse (some
        ⟨⟨.content, none, []⟩, .loopback 5000, []⟩))] ++
    (List.range 9).map fun round =>
      .plain (fromSecs (30 * (round + 1))) .cleanupTimer

/-- The session of the peer has no exchange and no waiting request. -/
def HoldsOnlyEntries (stack : CoapStack) (peer : SocketAddr) : Prop :=
  ∃ session ∈ stack.sessions.lookup peer,
    isEmpty session.exchanges = true ∧
      isEmpty session.inboundConMids = true

instance (stack : CoapStack) (peer : SocketAddr) :
    Decidable (HoldsOnlyEntries stack peer) :=
  inferInstanceAs (Decidable (∃ _ ∈ _, _))

/-- A session with entries of old packets only is not in use. -/
theorem not_inUse_of_holdsOnlyEntries
    {codec : Codec} {history : List LoopTransition} {loop : Loop}
    (run : LoopRun codec history loop) {now : Nat} {peer : SocketAddr}
    {session : PeerSession}
    (stored : loop.stack.sessions.lookup peer = some session)
    (entries : HoldsOnlyEntries loop.stack peer)
    (noneYoung : ∀ accepted ∈ history,
      now < accepted.input.now + exchangeLifetime →
        accepted.input.message? codec = none) :
    ¬ InUse codec history now peer session := by
  rcases entries with ⟨same, found, noExchange, noRequest⟩
  cases stored.symm.trans found
  rintro (⟨token, exchange, isOpen⟩ | unanswered |
    ⟨accepted, mid, member, accepts, young⟩)
  · rw [isEmpty_eq_true_iff] at noExchange
    cases (noExchange token).symm.trans isOpen
  · rw [isEmpty_eq_true_iff] at noRequest
    refine (conMids_empty_iff run peer).mp ?_ unanswered
    rw [server_of_stored stored]
    exact noRequest
  · cases (noneYoung accepted member young).symm.trans accepts.1

theorem exists_leak :
    ∃ history loop, LoopRun bareCodec history loop ∧
      ¬ Along (ReclaimsIdle bareCodec) history := by
  rcases exists_run_of_replay (Loop.initial_start bareCodec 0)
      servedInputs
      (fun history _ =>
        match history with
        | [] => false
        | transition :: older =>
            decide (transition.input.branch = .cleanupTimer ∧
              HoldsOnlyEntries transition.before.stack
                (.loopback 5000) ∧
              transition.after.stack.sessions =
                transition.before.stack.sessions ∧
              ∀ accepted ∈ older,
                transition.input.now <
                    accepted.input.now + exchangeLifetime →
                  accepted.input.message? bareCodec = none))
      (by decide) with
    ⟨history, loop, run, checked⟩
  refine ⟨history, loop, run, ?_⟩
  cases history with
  | nil => cases checked
  | cons transition older =>
      rcases of_decide_eq_true checked with
        ⟨isCleanup, entries, kept, noneYoung⟩
      rcases entries with ⟨session, stored, empty⟩
      rcases run.of_suffix List.suffix_rfl with ⟨earlier, _⟩
      rintro ⟨reclaims, _⟩
      exact not_inUse_of_holdsOnlyEntries earlier stored
        ⟨session, stored, empty⟩ noneYoung
        (reclaims isCleanup _ session (kept ▸ stored))

theorem not_always_reclaimed :
    ¬ ∀ codec history loop, LoopRun codec history loop →
      Along (ReclaimsIdle codec) history := by
  intro claimed
  rcases exists_leak with ⟨history, loop, run, leaks⟩
  exact leaks (claimed bareCodec history loop run)

theorem reclaims_iff_swept_before_cleanup_on_leak :
    ∃ history loop, LoopRun bareCodec history loop ∧
      ¬ Along (SweptBeforeCleanup bareCodec) history := by
  rcases exists_leak with ⟨history, loop, run, leaks⟩
  exact ⟨history, loop, run, fun swept =>
    leaks ((reclaims_iff_swept_before_cleanup run).mpr swept)⟩

end Coapable.Transport.IdleSessions
