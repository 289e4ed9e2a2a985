import Coapable.BareCodec
import Coapable.Transport.Allocators
import Coapable.Transport.EffectView

/-!
# When two messages carry the same MID

A session numbers its messages from the value it drew when it was created, and
a session that was evicted forgets where it stopped.  `MidCounter` is that
numbering seen from the history: the draw and how many MIDs came since.  So
two messages of one session have the same MID if a multiple of `2 ^ 16` MIDs
lies between them, and those of two sessions if their draws happen to fit.
-/

namespace Coapable.Transport.MidReuse

open Coapable.BareCodec
open Coapable.CoapLite
open Coapable.Foundation.Execution
open Coapable.Foundation.FiniteMap
open Coapable.MessageTypes

/-! ## The counter of a session -/

/-- Where the numbering of a session stands. -/
structure MidCounter where
  /-- The value drawn when the session was created. -/
  start : UInt16
  /-- How many MIDs the session has allocated. -/
  allocated : Nat

/-- The MID that the session allocates next. -/
def MidCounter.next (counter : MidCounter) : UInt16 :=
  counter.start + UInt16.ofNat counter.allocated

/-- A transition that finds no session of the peer starts a new counter. -/
def MidCounter.foundBy (counter : MidCounter) (peer : SocketAddr)
    (transition : LoopTransition) : MidCounter :=
  if (transition.before.stack.sessions.lookup peer).isSome then counter
  else ⟨transition.input.drawnMid, 0⟩

/-- The transition allocates a MID of the peer. -/
def allocates (peer : SocketAddr) (transition : LoopTransition) : Bool :=
  transition.before.stack.allocatesMid transition.input peer

/-- The counter of the session of the peer after a history. -/
def midCounter (peer : SocketAddr) : List LoopTransition → MidCounter
  | [] => ⟨0, 0⟩
  | transition :: older =>
      let found := (midCounter peer older).foundBy peer transition
      ⟨found.start,
        found.allocated + (allocates peer transition).toNat⟩

theorem sessionFor_mid
    {loop : Loop} {history : List LoopTransition} {peer : SocketAddr}
    (stored : ∀ session, loop.stack.sessions.lookup peer = some session →
      session.midAllocator.next = (midCounter peer history).next)
    (iteration : Iteration) (effects : List Effect) (after : Loop) :
    (loop.stack.sessionFor iteration peer).midAllocator.next =
      ((midCounter peer history).foundBy peer
        ⟨loop, iteration, effects, after⟩).next := by
  simp only [MidCounter.foundBy]
  cases found : loop.stack.sessions.lookup peer with
  | none =>
      rw [CoapStack.sessionFor, found]
      exact (UInt16.add_zero _).symm
  | some session =>
      rw [sessionFor_of_found iteration found]
      exact stored session found

/-- The counter of the history is the one that the session holds. -/
theorem midAllocator_of_run
    {codec : Codec} {history : List LoopTransition} {loop : Loop}
    (run : LoopRun codec history loop) {peer : SocketAddr} :
    ∀ session, loop.stack.sessions.lookup peer = some session →
      session.midAllocator.next = (midCounter peer history).next := by
  induction run with
  | start initial =>
      rcases initial with ⟨now, rfl⟩
      intro session found
      cases found
  | @extend history before after iteration effects earlier stepped
      induction =>
      intro session found
      rw [midAllocator_step (step_cases stepped).branch found,
        sessionFor_mid induction iteration effects after]
      simp only [MidCounter.next, midCounter, allocates, UInt16.ofNat_add,
        UInt16.add_assoc]

/-! ## Messages -/

/-- The transition sends the peer a new message with this MID. -/
def SendsNew (codec : Codec) (transition : LoopTransition)
    (peer : SocketAddr) (mid : UInt16) : Prop :=
  ∃ bytes, transition.before.stack.newMessage codec transition.input =
    some ⟨peer, mid, bytes⟩

/-- A new message carries what the counter shows. -/
theorem mid_of_sendsNew
    {codec : Codec} {history older : List LoopTransition} {loop : Loop}
    {transition : LoopTransition}
    (run : LoopRun codec history loop)
    (suffix : transition :: older <:+ history)
    {peer : SocketAddr} {mid : UInt16}
    (sends : SendsNew codec transition peer mid) :
    mid = ((midCounter peer older).foundBy peer transition).next := by
  rcases sends with ⟨bytes, sent⟩
  refine (newMessage_cases sent).1.trans ?_
  exact sessionFor_mid (midAllocator_of_run (run.of_suffix suffix).1)
    transition.input transition.output transition.after

/-- The peer had a session before each of the transitions. -/
def SameSession (peer : SocketAddr)
    (transitions : List LoopTransition) : Prop :=
  ∀ transition ∈ transitions,
    (transition.before.stack.sessions.lookup peer).isSome = true

/-- As long as a session is not evicted its counter only moves on. -/
theorem midCounter_of_sameSession
    {peer : SocketAddr} {newer : List LoopTransition}
    (same : SameSession peer newer)
    (earlier : LoopTransition) (oldest : List LoopTransition) :
    midCounter peer (newer ++ earlier :: oldest) =
      ⟨((midCounter peer oldest).foundBy peer earlier).start,
        ((midCounter peer oldest).foundBy peer earlier).allocated +
          (newer ++ [earlier]).countP (allocates peer)⟩ := by
  induction newer with
  | nil =>
      cases counted : allocates peer earlier <;>
        simp [midCounter, counted]
  | cons later newer induction =>
      rw [SameSession, List.forall_mem_cons] at same
      rw [List.cons_append, midCounter, MidCounter.foundBy,
        if_pos same.1, induction same.2, List.cons_append,
        List.countP_cons]
      cases allocates peer later <;> simp [Nat.add_assoc]

/-- Counting on by a multiple of `2 ^ 16`, and no other number, comes back to
the same MID. -/
theorem add_eq_iff_dvd (start : UInt16) (allocated count : Nat) :
    start + UInt16.ofNat (allocated + count) =
        start + UInt16.ofNat allocated ↔
      2 ^ 16 ∣ count := by
  rw [← UInt16.toNat_inj, UInt16.toNat_add, UInt16.toNat_add,
    UInt16.toNat_ofNat', UInt16.toNat_ofNat']
  have bound := start.toNat_lt
  omega

/-! ## Reuse -/

/-- No new message to the peer carried the MID less than a lifetime ago. -/
def FreshMid (codec : Codec) (older : List LoopTransition)
    (transition : LoopTransition) : Prop :=
  ∀ peer mid, SendsNew codec transition peer mid →
    ∀ earlier ∈ older, SendsNew codec earlier peer mid →
      earlier.input.now + exchangeLifetime ≤ transition.input.now

/-- From every message that was sent to the peer less than a lifetime ago: the
same session has not allocated a multiple of `2 ^ 16` MIDs since; of another
session, the draw and the MIDs allocated do not add up to those of this one. -/
def MidsSpread (codec : Codec) (older : List LoopTransition)
    (transition : LoopTransition) : Prop :=
  ∀ newer earlier oldest, older = newer ++ earlier :: oldest →
    ∀ peer, (∃ mid, SendsNew codec transition peer mid) →
      (∃ mid, SendsNew codec earlier peer mid) →
        transition.input.now < earlier.input.now + exchangeLifetime →
          (SameSession peer (transition :: newer) →
            ¬ 2 ^ 16 ∣ (newer ++ [earlier]).countP (allocates peer)) ∧
          (¬ SameSession peer (transition :: newer) →
            ((midCounter peer oldest).foundBy peer earlier).next ≠
              ((midCounter peer older).foundBy peer transition).next)

/-- Two messages of one session have the same MID exactly if a multiple of
`2 ^ 16` MIDs was allocated from the one to the other. -/
theorem next_eq_iff_of_sameSession
    {peer : SocketAddr} {transition earlier : LoopTransition}
    {newer oldest : List LoopTransition}
    (same : SameSession peer (transition :: newer)) :
    ((midCounter peer (newer ++ earlier :: oldest)).foundBy peer
          transition).next =
        ((midCounter peer oldest).foundBy peer earlier).next ↔
      2 ^ 16 ∣ (newer ++ [earlier]).countP (allocates peer) := by
  rw [SameSession, List.forall_mem_cons] at same
  have found : (midCounter peer (newer ++ earlier :: oldest)).foundBy
      peer transition = midCounter peer (newer ++ earlier :: oldest) :=
    if_pos same.1
  rw [found, midCounter_of_sameSession same.2]
  exact add_eq_iff_dvd _ _ _

theorem along_freshMid_iff
    {codec : Codec} {history : List LoopTransition} {loop : Loop}
    (run : LoopRun codec history loop) :
    Along (FreshMid codec) history ↔ Along (MidsSpread codec) history := by
  apply along_congr
  intro transition older suffix
  constructor
  · rintro fresh newer earlier oldest rfl peer ⟨mid, sends⟩
      ⟨earlierMid, sentEarlier⟩ young
    have earlierSuffix : earlier :: oldest <:+ history :=
      ((List.suffix_append newer _).trans (List.suffix_cons _ _)).trans
        suffix
    have isMid := mid_of_sendsNew run suffix sends
    have isEarlier := mid_of_sendsNew run earlierSuffix sentEarlier
    have distinct : earlierMid ≠ mid := by
      rintro rfl
      have old := fresh peer _ sends earlier
        (List.mem_append_right _ List.mem_cons_self) sentEarlier
      omega
    refine ⟨fun same multiple => distinct ?_, fun _ => ?_⟩
    · rw [isMid, isEarlier]
      exact ((next_eq_iff_of_sameSession same).mpr multiple).symm
    · rw [← isMid, ← isEarlier]
      exact distinct
  · intro spread peer mid sends earlier member sentEarlier
    rcases List.append_of_mem member with ⟨newer, oldest, rfl⟩
    have earlierSuffix : earlier :: oldest <:+ history :=
      ((List.suffix_append newer _).trans (List.suffix_cons _ _)).trans
        suffix
    have isMid := mid_of_sendsNew run suffix sends
    have isEarlier := mid_of_sendsNew run earlierSuffix sentEarlier
    by_contra young
    have apart := spread newer earlier oldest rfl peer ⟨mid, sends⟩
      ⟨mid, sentEarlier⟩ (Nat.not_le.mp young)
    by_cases same : SameSession peer (transition :: newer)
    · exact apart.1 same ((next_eq_iff_of_sameSession same).mp
        (isMid.symm.trans isEarlier))
    · exact apart.2 same (isEarlier.symm.trans isMid)

/--
Exactly the runs whose counters are spread out never use a MID again within
`exchangeLifetime`.  The new messages are among the datagrams of the steps, and
every other datagram is an acknowledgement or a copy of an earlier request.
-/
theorem mids_fresh_iff_spread
    {codec : Codec} {history : List LoopTransition} {loop : Loop}
    (run : LoopRun codec history loop) :
    (Along (FreshMid codec) history ↔ Along (MidsSpread codec) history) ∧
      ∀ transition ∈ history, ∀ peer,
        (∀ mid, SendsNew codec transition peer mid →
          ∃ bytes, .sendPacket bytes peer ∈ transition.output) ∧
        ∀ bytes, .sendPacket bytes peer ∈ transition.output →
          (∃ mid, SendsNew codec transition peer mid) ∨
          (∃ mid, ((transition.before.stack.server peer).apply
            (transition.before.stack.serverEvent codec transition.input
              peer)).2 = some ⟨mid, bytes⟩) ∨
          (bytes, peer) ∈
            transition.before.stack.resends transition.input := by
  refine ⟨along_freshMid_iff run, ?_⟩
  intro transition member peer
  have branch := (step_cases (run.stepped_of_mem member)).branch
  constructor
  · rintro mid ⟨bytes, isNew⟩
    exact ⟨bytes, (sendPacket_iff branch bytes peer).mpr
      (.inr (.inl ⟨mid, isNew⟩))⟩
  · intro bytes sent
    rcases (sendPacket_iff branch bytes peer).mp sent with
      acknowledges | ⟨mid, isNew⟩ | copied
    · exact .inr (.inl acknowledges)
    · exact .inl ⟨mid, bytes, isNew⟩
    · exact .inr (.inr copied)

/-! ## A MID that comes back with a new session -/

/-- A CON GET to a server. -/
def getFrom (channel : Nat) : OutboundRequest :=
  ⟨⟨.get, "", [], none, [], none, true⟩, .loopback 5683, ⟨channel⟩⟩

/-- The request is answered at 2 s, the session is evicted at 30 s, and the
session of the next request draws the same MID. -/
def evictedInputs : List Iteration :=
  [.plain (fromSecs 1) (.outboundRequest (some (getFrom 0))),
    .plain (fromSecs 2)
      (.inbound [0x64, 0x45, 0, 0, 0, 0, 0, 0] (.loopback 5683)),
    .plain (fromSecs 30) .cleanupTimer,
    .plain (fromSecs 31) (.outboundRequest (some (getFrom 1)))]

instance (codec : Codec) (transition : LoopTransition)
    (peer : SocketAddr) (mid : UInt16) :
    Decidable (SendsNew codec transition peer mid) :=
  match sent :
      transition.before.stack.newMessage codec transition.input with
  | none => .isFalse fun ⟨_, made⟩ => nomatch sent.symm.trans made
  | some message =>
      if same : message.peer = peer ∧ message.mid = mid then
        .isTrue ⟨message.bytes, by rw [sent, ← same.1, ← same.2]⟩
      else
        .isFalse fun ⟨_, made⟩ => same (by
          cases sent.symm.trans made
          exact ⟨rfl, rfl⟩)

theorem exists_reuse :
    ∃ history loop, LoopRun bareCodec history loop ∧
      ¬ Along (FreshMid bareCodec) history := by
  rcases exists_run_of_replay (Loop.initial_start bareCodec 0)
      evictedInputs
      (fun history _ =>
        match history with
        | [] => false
        | transition :: older =>
            decide (SendsNew bareCodec transition (.loopback 5683) 0 ∧
              ∃ earlier ∈ older,
                SendsNew bareCodec earlier (.loopback 5683) 0 ∧
                  transition.input.now <
                    earlier.input.now + exchangeLifetime))
      (by decide) with
    ⟨history, loop, run, checked⟩
  refine ⟨history, loop, run, ?_⟩
  cases history with
  | nil => cases checked
  | cons transition older =>
      rcases of_decide_eq_true checked with
        ⟨sends, earlier, member, sentEarlier, young⟩
      rintro ⟨fresh, _⟩
      have old := fresh _ _ sends earlier member sentEarlier
      omega

theorem not_always_fresh :
    ¬ ∀ codec history loop, LoopRun codec history loop →
      Along (FreshMid codec) history := by
  intro claimed
  rcases exists_reuse with ⟨history, loop, run, reused⟩
  exact reused (claimed bareCodec history loop run)

theorem mids_fresh_iff_spread_on_eviction :
    ∃ history loop, LoopRun bareCodec history loop ∧
      ¬ Along (MidsSpread bareCodec) history := by
  rcases exists_reuse with ⟨history, loop, run, reused⟩
  exact ⟨history, loop, run, fun spread =>
    reused ((mids_fresh_iff_spread run).1.mpr spread)⟩

end Coapable.Transport.MidReuse
