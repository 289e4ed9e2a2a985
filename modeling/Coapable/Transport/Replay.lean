import Coapable.Transport.AtMostOnce
import Coapable.Transport.MessageHeaders

/-!
# What a duplicate is answered with

The answer cached for a MID follows what was really sent: from the moment a
packet is accepted until its entry goes stale, the table holds the newest ACK
that was sent to the peer under this MID, and nothing before there was one.
So a duplicate CON gets those bytes again and a duplicate NON gets nothing,
whatever else the loop did in between.
-/

namespace Coapable.Transport.Replay

open Coapable.BareCodec
open Coapable.CoapLite
open Coapable.Foundation.Execution
open Coapable.Foundation.FiniteMap
open Coapable.MessageTypes
open Coapable.Transport.AtMostOnce

/-! ## The table follows the ACKs of its events -/

/-- An ACK that is sent is what is cached for its MID, if the MID is in the
table. -/
theorem cachedResponse_of_sent
    {table : ServerTable} {event : ServerEvent} {mid : UInt16}
    {bytes : Bytes}
    (kept : ((table.apply event).1.inboundDedup.lookup mid).isSome)
    (sent : (table.apply event).2 = some ⟨mid, bytes⟩) :
    (table.apply event).1.cachedResponse mid = some bytes := by
  cases event with
  | idle => cases sent
  | duplicated recorded confirmable =>
      simp only [ServerTable.apply] at sent ⊢
      split at sent
      · rcases Option.map_eq_some_iff.mp sent with ⟨_, cached, equal⟩
        cases equal
        exact cached
      · cases sent
  | accepted recorded now request ack =>
      rcases Option.map_eq_some_iff.mp sent with ⟨_, rfl, equal⟩
      cases equal
      simp [ServerTable.apply, ServerTable.cachedResponse]
  | responded token encode =>
      cases found : table.piggyback token encode with
      | none => simp [ServerTable.apply, found] at sent
      | some ack =>
          simp only [ServerTable.apply, found] at sent kept ⊢
          cases sent
          rw [ServerTable.cache_entry, if_pos rfl, Option.isSome_map]
            at kept
          rcases Option.isSome_iff_exists.mp kept with ⟨entry, stored⟩
          rw [ServerTable.cachedResponse_cache, if_pos rfl, stored]
          rfl
  | ticked now => cases sent

/-- Without an ACK for the MID nothing changes in what is cached for it. -/
theorem cachedResponse_of_unsent
    {table : ServerTable} {event : ServerEvent} {mid : UInt16}
    (kept : ((table.apply event).1.inboundDedup.lookup mid).isSome)
    (unsent : ∀ bytes, (table.apply event).2 ≠ some ⟨mid, bytes⟩)
    (notAccepted : ∀ now request ack,
      event ≠ .accepted mid now request ack) :
    (table.apply event).1.cachedResponse mid =
      table.cachedResponse mid := by
  cases event with
  | idle => rfl
  | duplicated recorded confirmable => rfl
  | accepted recorded now request ack =>
      have other : mid ≠ recorded := by
        rintro rfl
        exact notAccepted _ _ _ rfl
      simp only [ServerTable.apply, ServerTable.cachedResponse,
        lookup_insert_eq, if_neg other]
  | responded token encode =>
      cases found : table.piggyback token encode with
      | none =>
          simp only [ServerTable.apply, found]
          rfl
      | some ack =>
          simp only [ServerTable.apply, found] at unsent ⊢
          have other : mid ≠ ack.mid := by
            rintro rfl
            exact unsent ack.bytes rfl
          rw [ServerTable.cachedResponse_cache, if_neg other]
          rfl
  | ticked now =>
      rw [ServerTable.ticked_entry] at kept
      rw [ServerTable.cachedResponse, ServerTable.ticked_entry]
      rcases Option.isSome_iff_exists.mp kept with ⟨entry, isKept⟩
      rw [isKept, ServerTable.cachedResponse,
        (Option.filter_eq_some_iff.mp isKept).1]

/-! ## The ACKs of a run -/

/-- The transition sends the peer an ACK with this MID. -/
def SendsAck (codec : Codec) (transition : LoopTransition)
    (peer : SocketAddr) (mid : UInt16) (bytes : Bytes) : Prop :=
  .sendPacket bytes peer ∈ transition.output ∧
    codec.Encodes .acknowledgement mid bytes

/-- The newest ACK with the MID that the transitions sent to the peer, if
they sent one at all. -/
def LastAck (codec : Codec) (peer : SocketAddr) (mid : UInt16)
    (transitions : List LoopTransition) : Option Bytes → Prop
  | none =>
      ∀ transition ∈ transitions, ∀ bytes,
        ¬ SendsAck codec transition peer mid bytes
  | some bytes =>
      Since
        (fun later => ∀ other, ¬ SendsAck codec later peer mid other)
        (fun transition => SendsAck codec transition peer mid bytes)
        transitions

theorem lastAck_cons_iff
    {codec : Codec} {peer : SocketAddr} {mid : UInt16}
    {transition : LoopTransition} {older : List LoopTransition}
    (answer : Option Bytes) :
    LastAck codec peer mid (transition :: older) answer ↔
      (∃ bytes, answer = some bytes ∧
        SendsAck codec transition peer mid bytes) ∨
      (∀ bytes, ¬ SendsAck codec transition peer mid bytes) ∧
        LastAck codec peer mid older answer := by
  cases answer with
  | none =>
      rw [LastAck, List.forall_mem_cons, LastAck]
      simp
  | some bytes =>
      rw [LastAck, Since, LastAck]
      simp

/-! ## While the entry lasts -/

section Window

variable {codec : Codec} {history newer older : List LoopTransition}
  {loop : Loop} {accepted : LoopTransition} {peer : SocketAddr}
  {mid : UInt16}

/-- What was accepted is in the table for a lifetime. -/
theorem isDuplicate_of_young
    (run : LoopRun codec history loop)
    (member : accepted ∈ history)
    (accepts : Accepts codec accepted peer mid)
    (young : loop.clock < accepted.input.now + exchangeLifetime) :
    loop.stack.isDuplicate peer mid = true := by
  rcases (remembers_of_run run).kept accepted member peer mid accepts with
    ⟨sweep, sweepMember, _, late⟩ | ⟨created, stored, _⟩
  · have notLater := LoopRun.now_le_clock run sweep sweepMember
    omega
  · rw [isDuplicate_eq_created, stored]
    rfl

/-- As long as the MID is in the table, a step that does not accept it leaves
the newest ACK cached. -/
theorem lastAck_step
    (keeps : codec.KeepsHeader) (headers : codec.HeaderDetermined)
    {before after : Loop} {iteration : Iteration} {effects : List Effect}
    (run : LoopRun codec history before)
    (stepped : before.step codec iteration = some (after, effects))
    (kept : after.stack.isDuplicate peer mid = true)
    {transitions : List LoopTransition}
    (notAccepted : ¬ Accepts codec
      ⟨before, iteration, effects, after⟩ peer mid)
    (last : ∀ answer, LastAck codec peer mid transitions answer ↔
      answer = before.stack.cachedResponse peer mid)
    (answer : Option Bytes) :
    LastAck codec peer mid
        (⟨before, iteration, effects, after⟩ :: transitions) answer ↔
      answer = after.stack.cachedResponse peer mid := by
  have branch := (step_cases stepped).branch
  have sends (bytes : Bytes) :
      SendsAck codec ⟨before, iteration, effects, after⟩ peer mid bytes ↔
        ((before.stack.server peer).apply
          (before.stack.serverEvent codec iteration peer)).2 =
            some ⟨mid, bytes⟩ :=
    sendsAck_iff keeps headers run branch peer mid bytes
  rw [isDuplicate_eq_entry, server_step branch] at kept
  rw [lastAck_cons_iff, last, cachedResponse_eq after.stack,
    server_step branch]
  simp only [sends]
  by_cases sent : ∃ bytes, ((before.stack.server peer).apply
      (before.stack.serverEvent codec iteration peer)).2 =
        some ⟨mid, bytes⟩
  · rcases sent with ⟨bytes, sent⟩
    rw [cachedResponse_of_sent kept sent, sent]
    constructor
    · rintro (⟨other, rfl, same⟩ | ⟨unsent, _⟩)
      · cases same
        rfl
      · exact absurd rfl (unsent bytes)
    · rintro rfl
      exact Or.inl ⟨bytes, rfl, rfl⟩
  · have unsent := not_exists.mp sent
    rw [cachedResponse_of_unsent kept unsent ?_, ← cachedResponse_eq]
    · constructor
      · rintro (⟨bytes, _, same⟩ | ⟨_, same⟩)
        · exact absurd same (unsent bytes)
        · exact same
      · exact fun same => Or.inr ⟨unsent, same⟩
    · intro now request ack event
      have facts := accepted_of_serverEvent event
      exact notAccepted ⟨facts.1, facts.2.1⟩

/-- Accepting a packet caches the ACK that it is answered with at once. -/
theorem lastAck_accepted
    (keeps : codec.KeepsHeader) (headers : codec.HeaderDetermined)
    {before after : Loop} {iteration : Iteration} {effects : List Effect}
    (run : LoopRun codec history before)
    (stepped : before.step codec iteration = some (after, effects))
    (accepts : Accepts codec ⟨before, iteration, effects, after⟩ peer mid)
    (answer : Option Bytes) :
    LastAck codec peer mid [⟨before, iteration, effects, after⟩] answer ↔
      answer = after.stack.cachedResponse peer mid := by
  have branch := (step_cases stepped).branch
  rcases serverEvent_of_accepted accepts.1 accepts.2 with
    ⟨request, ack, event⟩
  have sends (bytes : Bytes) :
      SendsAck codec ⟨before, iteration, effects, after⟩ peer mid bytes ↔
        ack = some bytes := by
    refine (sendsAck_iff keeps headers run branch peer mid bytes).trans ?_
    rw [event]
    cases ack <;> simp [ServerTable.apply]
  have cached : after.stack.cachedResponse peer mid = ack := by
    rw [cachedResponse_eq, server_step branch, event]
    simp [ServerTable.apply, ServerTable.cachedResponse]
  rw [lastAck_cons_iff, cached]
  simp only [sends]
  cases ack with
  | none => cases answer <;> simp [LastAck, Since]
  | some bytes => simp

/-- From an acceptance on, the newest ACK is the one that is cached. -/
theorem lastAck_iff_cached
    (keeps : codec.KeepsHeader) (headers : codec.HeaderDetermined)
    (run : LoopRun codec (newer ++ accepted :: older) loop)
    (accepts : Accepts codec accepted peer mid)
    (newest : ∀ transition ∈ newer, ¬ Accepts codec transition peer mid)
    (young : loop.clock < accepted.input.now + exchangeLifetime)
    (answer : Option Bytes) :
    LastAck codec peer mid (newer ++ [accepted]) answer ↔
      answer = loop.stack.cachedResponse peer mid := by
  induction newer generalizing loop answer with
  | nil =>
      cases run with
      | extend earlier stepped =>
          exact lastAck_accepted keeps headers earlier stepped accepts
            answer
  | cons transition newer induction =>
      rw [List.forall_mem_cons] at newest
      have member : accepted ∈ transition :: newer ++ accepted :: older :=
        List.mem_append_right _ List.mem_cons_self
      have kept := isDuplicate_of_young run member accepts young
      cases run with
      | @extend _ before _ iteration effects earlier stepped =>
          have facts := step_cases stepped
          have notLater := facts.clock_le
          rw [← facts.clock_after] at notLater
          exact lastAck_step keeps headers earlier stepped kept newest.1
            (induction earlier newest.2 (by omega)) answer

end Window

/-! ## Duplicates -/

/-- The iteration receives a packet of this type from the peer. -/
def ReceivesAs (codec : Codec) (iteration : Iteration)
    (messageType : MessageType) (peer : SocketAddr) (mid : UInt16) :
    Prop :=
  ∃ raw parsed, iteration.branch = .inbound raw peer ∧
    codec.fromBytes raw = some parsed ∧
      parsed.header.messageType = messageType ∧
        parsed.header.messageId = mid

/-- A peer with a duplicate has a session. -/
theorem putSession_of_duplicate
    {stack : CoapStack} {peer : SocketAddr} {mid : UInt16}
    (iteration : Iteration)
    (duplicate : stack.isDuplicate peer mid = true) :
    stack.putSession peer (stack.sessionFor iteration peer) = stack := by
  rw [CoapStack.isDuplicate, Option.any_eq_true] at duplicate
  rcases duplicate with ⟨session, stored, _⟩
  rw [sessionFor_of_found iteration stored]
  exact putSession_stored stored

/-- A duplicate changes nothing; a CON is answered from the cache. -/
theorem duplicate_step
    {codec : Codec} {stack after : CoapStack} {iteration : Iteration}
    {effects : List Effect}
    (branch : BranchStep codec stack iteration after effects)
    {messageType : MessageType} {peer : SocketAddr} {mid : UInt16}
    (kind : messageType = .confirmable ∨ messageType = .nonConfirmable)
    (receives : ReceivesAs codec iteration messageType peer mid)
    (duplicate : stack.isDuplicate peer mid = true) :
    after = stack ∧
      effects =
        if messageType = .confirmable then
          (stack.cachedResponse peer mid).toList.map
            fun bytes => .sendPacket bytes peer
        else [] := by
  rcases receives with ⟨raw, parsed, isInbound, parses, rfl, rfl⟩
  rcases branch.of_inbound isInbound parses with
    ⟨session, isStack, received⟩
  rcases receivePacket_cases received with
    ⟨_, finished⟩ | ⟨other, _⟩ | ⟨other, _⟩
  · rcases receiveMessage_cases finished with
      ⟨_, isSession, isReplay⟩ | ⟨fresh, _⟩
    · refine ⟨?_, ?_⟩
      · rw [isStack, isSession]
        exact putSession_of_duplicate iteration duplicate
      · rw [isReplay, replayCached, sessionFor_getCachedResponse]
        cases stack.cachedResponse peer parsed.header.messageId <;> rfl
    · rw [sessionFor_isDuplicate, duplicate] at fresh
      cases fresh
  · simp [other] at kind
  · simp [other] at kind

/--
A CON that repeats a packet accepted less than a lifetime ago is answered with
exactly the newest ACK sent for it since, and a NON is dropped; neither
changes the stack.
-/
theorem duplicate_replayed
    {codec : Codec} (keeps : codec.KeepsHeader)
    (headers : codec.HeaderDetermined)
    {history : List LoopTransition} {loop : Loop}
    (run : LoopRun codec history loop)
    {duplicate accepted : LoopTransition}
    {newer older : List LoopTransition}
    (suffix : duplicate :: (newer ++ accepted :: older) <:+ history)
    {peer : SocketAddr} {mid : UInt16}
    (accepts : Accepts codec accepted peer mid)
    (newest : ∀ transition ∈ newer, ¬ Accepts codec transition peer mid)
    (young :
      duplicate.input.now < accepted.input.now + exchangeLifetime) :
    ∃ answer,
      (∀ other, LastAck codec peer mid (newer ++ [accepted]) other ↔
        other = answer) ∧
      (ReceivesAs codec duplicate.input .confirmable peer mid →
        duplicate.after.stack = duplicate.before.stack ∧
          duplicate.output =
            answer.toList.map fun bytes => .sendPacket bytes peer) ∧
      (ReceivesAs codec duplicate.input .nonConfirmable peer mid →
        duplicate.after.stack = duplicate.before.stack ∧
          duplicate.output = []) := by
  rcases run.of_suffix suffix with ⟨earlier, stepped⟩
  have facts := step_cases stepped
  have notLater := facts.clock_le
  have isDuplicate := isDuplicate_of_young earlier
    (List.mem_append_right _ List.mem_cons_self) accepts (by omega)
  refine ⟨duplicate.before.stack.cachedResponse peer mid, ?_, ?_, ?_⟩
  · exact lastAck_iff_cached keeps headers earlier accepts newest
      (by omega)
  · exact fun receives =>
      duplicate_step facts.branch (Or.inl rfl) receives isDuplicate
  · exact fun receives =>
      duplicate_step facts.branch (Or.inr rfl) receives isDuplicate

/-- A CON GET with message ID 7 and no token. -/
def conGetSeven : Bytes :=
  [0x40, 0x01, 0, 7]

/-- The request is answered at 2 s and comes again at 3 s. -/
def retransmittedInputs : List Iteration :=
  [.plain (fromSecs 1) (.inbound conGetSeven (.loopback 5000)),
    .plain (fromSecs 2)
      (.outboundResponse (some
        ⟨⟨.content, none, [1]⟩, .loopback 5000, []⟩)),
    .plain (fromSecs 3) (.inbound conGetSeven (.loopback 5000))]

/-- The request is accepted, not accepted again when it is answered, and
repeated within its lifetime. -/
def repeatsInTime : List LoopTransition → Bool
  | [duplicate, answered, accepted] =>
      decide (Accepts bareCodec accepted (.loopback 5000) 7 ∧
        ¬ Accepts bareCodec answered (.loopback 5000) 7 ∧
        duplicate.input.branch = .inbound conGetSeven (.loopback 5000) ∧
        duplicate.input.now < accepted.input.now + exchangeLifetime ∧
        duplicate.output ≠ [])
  | _ => false

theorem duplicate_replayed_on_retransmission :
    ∃ duplicate answered accepted loop,
      LoopRun bareCodec [duplicate, answered, accepted] loop ∧
      ∃ bytes,
        LastAck bareCodec (.loopback 5000) 7 [answered, accepted]
          (some bytes) ∧
        duplicate.output = [.sendPacket bytes (.loopback 5000)] := by
  rcases exists_run_of_replay (Loop.initial_start bareCodec 0)
      retransmittedInputs
      (fun history _ => repeatsInTime history) (by decide) with
    ⟨history, loop, run, checked⟩
  unfold repeatsInTime at checked
  split at checked
  · next duplicate answered accepted =>
      rcases of_decide_eq_true checked with
        ⟨accepts, newest, isInbound, young, sent⟩
      have newestAll : ∀ transition ∈ [answered],
          ¬ Accepts bareCodec transition (.loopback 5000) 7 := by
        simpa using newest
      rcases duplicate_replayed
          bareCodec_lawful.setContentFormat_header
          bareCodec_headerDetermined
          run (List.suffix_refl [duplicate, answered, accepted]) accepts
          newestAll young with
        ⟨answer, last, replayed, _⟩
      have output := (replayed ⟨_, _, isInbound, rfl, rfl, rfl⟩).2
      cases answer with
      | none => exact absurd output sent
      | some bytes =>
          exact ⟨duplicate, answered, accepted, loop, run, bytes,
            (last _).mpr rfl, output⟩
  · cases checked

end Coapable.Transport.Replay
