import Coapable.BareCodec
import Coapable.Transport.Openings

/-!
# The MID index

The index leads from a MID to a token exactly when an exchange is open under
this token, bears this MID and is still retransmitted.  An acknowledged
exchange leaves the index but keeps its MID for as long as it stays open, and
removing it removes whatever entry its MID has by then.  So the index is kept
in every run in which no request is opened over, or with the MID of, an
exchange that is still retransmitted, and no separate response ends an
acknowledged exchange whose MID has been given out again, and in no other run.
-/

namespace Coapable.Transport

open Coapable.CoapLite
open Coapable.Foundation.Execution
open Coapable.Foundation.FiniteMap
open Coapable.MessageTypes

/-- The exchange bears this MID and its retransmission state is armed. -/
def Exchange.Awaits (exchange : Exchange) (mid : UInt16) : Prop :=
  exchange.messageId = some mid ∧ exchange.retransmit.isSome = true

theorem Exchange.Awaits.not_acknowledged
    {exchange : Exchange} {mid : UInt16} (awaits : exchange.Awaits mid) :
    exchange.retransmit ≠ none := by
  intro acknowledged
  have armed := awaits.2
  rw [acknowledged] at armed
  cases armed

/-- An exchange with a MID has no expiry. -/
def Exchange.MidOrExpiry (exchange : Exchange) : Prop :=
  exchange.messageId ≠ none → exchange.expiresAt = none

theorem Exchange.isSome_of_runsOut
    {exchange : Exchange} {now : Nat}
    (ranOut : exchange.runsOut now = true)
    (noExpiry : exchange.expiresAt = none) :
    exchange.retransmit.isSome = true := by
  cases isArmed : exchange.retransmit with
  | some state => rfl
  | none =>
      simp [runsOut, needsRetransmit, isArmed, isExpired, noExpiry] at ranOut

theorem Opening.exchange_isSome
    {opening : Opening} {iteration : Iteration} {mid : UInt16}
    (bears : (opening.exchange iteration).messageId = some mid) :
    (opening.exchange iteration).retransmit.isSome = true := by
  simp only [Opening.exchange] at bears ⊢
  split at bears
  · next confirmable => simp [confirmable, Exchange.newCon]
  · cases bears

theorem Opening.exchange_midOrExpiry
    (opening : Opening) (iteration : Iteration) :
    (opening.exchange iteration).MidOrExpiry := by
  simp only [Exchange.MidOrExpiry, Opening.exchange]
  split
  · intro _
    rfl
  · intro absurdMid
    exact absurd rfl absurdMid

theorem Exchange.Continues.midOrExpiry
    {previous exchange : Exchange}
    (continues : previous.Continues exchange)
    (shaped : previous.MidOrExpiry) : exchange.MidOrExpiry := by
  intro bears
  rw [← continues.expiresAt]
  exact shaped (continues.messageId ▸ bears)

namespace ExchangeTable

/-- The index holds exactly the MIDs of the exchanges that are retransmitted,
each with the token of its exchange. -/
def IndexMatches (table : ExchangeTable) : Prop :=
  ∀ mid token, table.midToToken.lookup mid = some token ↔
    ∃ exchange, table.exchanges.lookup token = some exchange ∧
      exchange.Awaits mid

/-- The same for every exchange of a table. -/
def MidOrExpiry (table : ExchangeTable) : Prop :=
  ∀ token exchange, table.exchanges.lookup token = some exchange →
    exchange.MidOrExpiry

/--
The event breaks the index.

A new exchange does if it overwrites an exchange that is retransmitted under
another MID, or takes the MID of one under another token.  A separate response
does if the exchange it ends was acknowledged and its MID is that of another
exchange that is retransmitted.
-/
def Clashes (table : ExchangeTable) : ClientEvent → Prop
  | .opened token exchange =>
      ∃ other held mid, table.exchanges.lookup other = some held ∧
        held.Awaits mid ∧
          (other = token ↔ exchange.messageId ≠ some mid)
  | .answered token _ =>
      ∃ exchange mid, table.exchanges.lookup token = some exchange ∧
        exchange.messageId = some mid ∧ exchange.retransmit = none ∧
          ∃ other held, table.exchanges.lookup other = some held ∧
            held.Awaits mid
  | _ => False

section Step

variable {table : ExchangeTable}

/-- No two exchanges are retransmitted under one MID. -/
theorem IndexMatches.token_unique
    (isMatch : table.IndexMatches)
    {mid : UInt16} {left right : Token}
    {leftExchange rightExchange : Exchange}
    (leftFound : table.exchanges.lookup left = some leftExchange)
    (leftAwaits : leftExchange.Awaits mid)
    (rightFound : table.exchanges.lookup right = some rightExchange)
    (rightAwaits : rightExchange.Awaits mid) : left = right := by
  have leftIndexed :=
    (isMatch mid left).mpr ⟨leftExchange, leftFound, leftAwaits⟩
  have rightIndexed :=
    (isMatch mid right).mpr ⟨rightExchange, rightFound, rightAwaits⟩
  rw [leftIndexed, Option.some.injEq] at rightIndexed
  exact rightIndexed

theorem opened_indexMatches_iff
    (isMatch : table.IndexMatches)
    {token : Token} {exchange : Exchange}
    (retransmitted : ∀ mid, exchange.messageId = some mid →
      exchange.retransmit.isSome = true) :
    (table.insert token exchange).IndexMatches ↔
      ¬ table.Clashes (.opened token exchange) := by
  constructor
  · rintro kept ⟨other, held, mid, found, awaits, clash⟩
    have indexed := (isMatch mid other).mpr ⟨held, found, awaits⟩
    have keptHere := kept mid other
    rw [insert_midToToken_lookup, insert_exchanges_lookup] at keptHere
    by_cases same : other = token
    · rw [if_pos same, if_neg (clash.mp same)] at keptHere
      rcases keptHere.mp indexed with ⟨new, isNew, newAwaits⟩
      rw [Option.some.injEq] at isNew
      subst isNew
      exact clash.mp same newAwaits.1
    · have sameMid : exchange.messageId = some mid := by
        by_contra different
        exact same (clash.mpr different)
      rw [if_neg same, if_pos sameMid, Option.some.injEq] at keptHere
      exact same (keptHere.mpr ⟨held, found, awaits⟩).symm
  · intro noClash mid other
    rw [insert_midToToken_lookup, insert_exchanges_lookup]
    by_cases sameMid : exchange.messageId = some mid
    · rw [if_pos sameMid, Option.some.injEq]
      constructor
      · rintro rfl
        rw [if_pos rfl]
        exact ⟨exchange, rfl, sameMid, retransmitted mid sameMid⟩
      · rintro ⟨held, found, awaits⟩
        by_contra different
        have other_ne : other ≠ token := fun equal => different equal.symm
        rw [if_neg other_ne] at found
        exact noClash ⟨other, held, mid, found, awaits,
          fun equal => absurd equal other_ne,
          fun differentMid => absurd sameMid differentMid⟩
    · rw [if_neg sameMid, isMatch mid other]
      constructor
      · rintro ⟨held, found, awaits⟩
        have other_ne : other ≠ token := by
          intro equal
          exact noClash ⟨other, held, mid, found, awaits,
            fun _ => sameMid, fun _ => equal⟩
        rw [if_neg other_ne]
        exact ⟨held, found, awaits⟩
      · rintro ⟨held, found, awaits⟩
        split at found
        · rw [Option.some.injEq] at found
          subst found
          exact absurd awaits.1 sameMid
        · exact ⟨held, found, awaits⟩

/-- Removing an exchange with its MID keeps the index unless the MID is that
of another exchange. -/
theorem remove_indexMatches_iff
    (isMatch : table.IndexMatches)
    {token : Token} {exchange : Exchange}
    (stored : table.exchanges.lookup token = some exchange) :
    (table.remove token exchange).IndexMatches ↔
      ¬ ∃ mid, exchange.messageId = some mid ∧
        exchange.retransmit = none ∧
          ∃ other held, table.exchanges.lookup other = some held ∧
            held.Awaits mid := by
  constructor
  · rintro kept ⟨mid, bears, acknowledged, other, held, found, awaits⟩
    have other_ne : other ≠ token := by
      rintro rfl
      rw [stored, Option.some.injEq] at found
      subst found
      exact awaits.not_acknowledged acknowledged
    have keptHere := kept mid other
    rw [remove_midToToken_lookup, if_pos bears, remove_exchanges_lookup,
      if_neg other_ne] at keptHere
    have impossible := keptHere.mpr ⟨held, found, awaits⟩
    cases impossible
  · intro noClash mid other
    rw [remove_midToToken_lookup, remove_exchanges_lookup]
    by_cases bears : exchange.messageId = some mid
    · rw [if_pos bears]
      constructor
      · intro impossible
        cases impossible
      · rintro ⟨held, found, awaits⟩
        split at found
        · cases found
        · next other_ne =>
            exfalso
            cases armed : exchange.retransmit with
            | none =>
                exact noClash
                  ⟨mid, bears, armed, other, held, found, awaits⟩
            | some state =>
                have ownAwaits : exchange.Awaits mid :=
                  ⟨bears, by rw [armed]; rfl⟩
                exact other_ne
                  (isMatch.token_unique found awaits stored ownAwaits)
    · rw [if_neg bears, isMatch mid other]
      constructor
      · rintro ⟨held, found, awaits⟩
        have other_ne : other ≠ token := by
          rintro rfl
          rw [stored, Option.some.injEq] at found
          subst found
          exact bears awaits.1
        rw [if_neg other_ne]
        exact ⟨held, found, awaits⟩
      · rintro ⟨held, found, awaits⟩
        split at found
        · cases found
        · exact ⟨held, found, awaits⟩

/-- An indexed MID leaves the index together with its exchange, however the
exchange is changed as long as it is no longer retransmitted. -/
theorem unindexed_indexMatches
    (isMatch : table.IndexMatches)
    {mid : UInt16} {token : Token}
    (indexed : table.midToToken.lookup mid = some token)
    {after : ExchangeTable}
    (index : ∀ other, after.midToToken.lookup other =
      if other = mid then none else table.midToToken.lookup other)
    (exchanges : ∀ other, other ≠ token →
      after.exchanges.lookup other = table.exchanges.lookup other)
    (released : ∀ exchange,
      after.exchanges.lookup token = some exchange →
        exchange.retransmit = none) :
    after.IndexMatches := by
  rcases (isMatch mid token).mp indexed with ⟨owner, stored, ownerAwaits⟩
  intro otherMid other
  rw [index otherMid]
  have notReleased {held : Exchange}
      (found : after.exchanges.lookup other = some held)
      (awaits : held.Awaits otherMid) : other ≠ token := by
    rintro rfl
    exact awaits.not_acknowledged (released held found)
  by_cases sameMid : otherMid = mid
  · subst sameMid
    rw [if_pos rfl]
    constructor
    · intro impossible
      cases impossible
    · rintro ⟨held, found, awaits⟩
      have other_ne := notReleased found awaits
      rw [exchanges other other_ne] at found
      exact absurd
        (isMatch.token_unique found awaits stored ownerAwaits) other_ne
  · rw [if_neg sameMid, isMatch otherMid other]
    constructor
    · rintro ⟨held, found, awaits⟩
      have other_ne : other ≠ token := by
        rintro rfl
        rw [stored, Option.some.injEq] at found
        subst found
        have bears := awaits.1
        rw [ownerAwaits.1, Option.some.injEq] at bears
        exact sameMid bears.symm
      rw [exchanges other other_ne]
      exact ⟨held, found, awaits⟩
    · rintro ⟨held, found, awaits⟩
      rw [exchanges other (notReleased found awaits)] at found
      exact ⟨held, found, awaits⟩

theorem tick_indexMatches
    (isMatch : table.IndexMatches) (shaped : table.MidOrExpiry)
    (now : Nat) : (table.tick now).IndexMatches := by
  intro mid token
  rw [tick_midToToken_lookup, tick_exchanges_lookup]
  split
  · next ranOut =>
      rcases (table.midRunsOut_iff now mid).mp ranOut with
        ⟨owner, exchange, stored, exchangeRanOut, bears⟩
      have awaits : exchange.Awaits mid :=
        ⟨bears, Exchange.isSome_of_runsOut exchangeRanOut
          (shaped owner exchange stored (by simp [bears]))⟩
      constructor
      · intro impossible
        cases impossible
      · rintro ⟨survivor, found, survivorAwaits⟩
        rcases Option.bind_eq_some_iff.mp found with
          ⟨previous, previousFound, survived⟩
        have frame := Exchange.survive_frame survived
        have previousAwaits : previous.Awaits mid :=
          ⟨frame.1 ▸ survivorAwaits.1, frame.2 ▸ survivorAwaits.2⟩
        have same := isMatch.token_unique stored awaits previousFound
          previousAwaits
        subst same
        rw [stored, Option.some.injEq] at previousFound
        subst previousFound
        have lasts := ((exchange.survive_eq_some_iff now _).mp survived).1
        rw [exchangeRanOut] at lasts
        cases lasts
  · next kept =>
      rw [isMatch mid token]
      constructor
      · rintro ⟨exchange, found, awaits⟩
        cases survived : exchange.survive now with
        | none =>
            exact absurd
              ((table.midRunsOut_iff now mid).mpr ⟨token, exchange, found,
                (exchange.survive_eq_none_iff now).mp survived, awaits.1⟩)
              kept
        | some survivor =>
            have frame := Exchange.survive_frame survived
            refine ⟨survivor, ?_, ?_, ?_⟩
            · rw [found, Option.bind_some, survived]
            · rw [frame.1]
              exact awaits.1
            · rw [frame.2]
              exact awaits.2
      · rintro ⟨survivor, found, survivorAwaits⟩
        rcases Option.bind_eq_some_iff.mp found with
          ⟨previous, previousFound, survived⟩
        have frame := Exchange.survive_frame survived
        exact ⟨previous, previousFound, frame.1 ▸ survivorAwaits.1,
          frame.2 ▸ survivorAwaits.2⟩

/-- The events that break the index are exactly those that clash. -/
theorem indexMatches_apply_iff
    (isMatch : table.IndexMatches) (shaped : table.MidOrExpiry)
    {event : ClientEvent}
    (retransmitted : ∀ token exchange mid,
      event = .opened token exchange → exchange.messageId = some mid →
        exchange.retransmit.isSome = true) :
    (table.apply event).1.IndexMatches ↔ ¬ table.Clashes event := by
  have unharmed {after : ExchangeTable} (kept : after.IndexMatches) :
      after.IndexMatches ↔ ¬ False :=
    ⟨fun _ => not_false, fun _ => kept⟩
  cases event with
  | idle => exact unharmed isMatch
  | opened token exchange =>
      exact opened_indexMatches_iff isMatch
        fun mid bears => retransmitted token exchange mid rfl bears
  | answered token response =>
      simp only [apply, answer]
      split
      · next exchange stored =>
          rw [remove_indexMatches_iff isMatch stored]
          simp only [Clashes, stored, Option.some.injEq]
          simp
      · next absent =>
          simp only [Clashes, absent]
          simpa using isMatch
  | acknowledged mid =>
      simp only [apply]
      split
      · next token indexed =>
          apply unharmed
          apply unindexed_indexMatches isMatch indexed
          · intro other
            exact lookup_erase_eq _ _ _
          · intro other different
            rw [lookup_modify, if_neg different]
          · intro exchange found
            rw [lookup_modify, if_pos rfl, Option.map_eq_some_iff] at found
            rcases found with ⟨previous, _, rfl⟩
            rfl
      · exact unharmed isMatch
  | piggybacked mid response =>
      simp only [apply, answer, unindex_exchanges]
      split
      · next token indexed =>
          rcases (isMatch mid token).mp indexed with
            ⟨exchange, stored, awaits⟩
          rw [stored]
          apply unharmed
          apply unindexed_indexMatches isMatch indexed
          · intro other
            rw [remove_midToToken_lookup, unindex_midToToken_lookup,
              awaits.1]
            by_cases equal : other = mid
            · simp [equal]
            · have differs : ¬ mid = other := fun same => equal same.symm
              simp [equal, differs]
          · intro other different
            rw [remove_exchanges_lookup, if_neg different]
            rfl
          · intro other found
            rw [remove_exchanges_lookup, if_pos rfl] at found
            cases found
      · exact unharmed isMatch
  | reset mid =>
      simp only [apply]
      split
      · next token indexed =>
          rcases (isMatch mid token).mp indexed with
            ⟨exchange, stored, awaits⟩
          rw [stored]
          apply unharmed
          apply unindexed_indexMatches isMatch indexed
          · intro other
            exact lookup_erase_eq _ _ _
          · intro other different
            exact Finmap.lookup_erase_ne different
          · intro other found
            have absent : (table.exchanges.erase token).lookup token =
                none := Finmap.lookup_erase token _
            rw [absent] at found
            cases found
      · exact unharmed isMatch
  | ticked now => exact unharmed (tick_indexMatches isMatch shaped now)

end Step

end ExchangeTable

namespace MidIndex

open Coapable.BareCodec

/-! ## Runs -/

/-- The index of every session matches its exchanges. -/
def Indexed (loop : Loop) : Prop :=
  ∀ peer, (loop.stack.client peer).IndexMatches

/-- The transition breaks the index of some session. -/
def IndexClashes (codec : Codec) (transition : LoopTransition) : Prop :=
  ∃ peer, (transition.before.stack.client peer).Clashes
    (transition.before.stack.clientEvent codec transition.input peer)

theorem indexed_start {codec : Codec} (loop : Loop)
    (initial : (loopMachine codec).Initial loop) : Indexed loop := by
  rcases initial with ⟨now, rfl⟩
  intro peer mid token
  simp [Loop.start, CoapStack.client]

section Run

variable {codec : Codec} {history : List LoopTransition} {loop : Loop}

theorem midOrExpiry_of_run (run : LoopRun codec history loop) :
    ∀ peer, (loop.stack.client peer).MidOrExpiry := by
  intro peer token exchange found
  exact exchanges_of_run Exchange.MidOrExpiry
    Opening.exchange_midOrExpiry
    (fun _ _ _ becomes => becomes.continues.midOrExpiry) run found

theorem indexed_step_iff
    {before after : Loop} {iteration : Iteration}
    {effects : List Effect}
    (run : LoopRun codec history before)
    (stepped : before.step codec iteration = some (after, effects))
    (indexed : Indexed before) :
    Indexed after ↔
      ¬ IndexClashes codec ⟨before, iteration, effects, after⟩ := by
  rw [IndexClashes, not_exists]
  apply forall_congr'
  intro peer
  rw [client_step (step_cases stepped).branch peer]
  apply ExchangeTable.indexMatches_apply_iff (indexed peer)
    (midOrExpiry_of_run run peer)
  intro token exchange mid isOpened bears
  rcases opening_of_opened isOpened with ⟨opening, _, _, _, rfl⟩
  exact Opening.exchange_isSome bears

/--
The index of every session matches its exchanges all along a run exactly if
no transition of the run clashes.
-/
theorem indexed_iff_no_clash (run : LoopRun codec history loop) :
    Along (fun _ transition => Indexed transition.after) history ↔
      Along (fun _ transition => ¬ IndexClashes codec transition)
        history := by
  apply run.along_after_iff indexed_start
  intro history before after iteration effects earlier indexed stepped
  exact indexed_step_iff earlier stepped indexed

/-! ## A sufficient condition on the requests -/

/-- A request is given neither the token of an exchange that is still open
nor, if it is confirmable, its MID. -/
def FreshIdentifiers (codec : Codec) (transition : LoopTransition) :
    Prop :=
  ∀ opening, Opens codec transition opening →
    ∀ token held,
      (transition.before.stack.client
          opening.outbound.peer).exchanges.lookup token = some held →
        token ≠ opening.token ∧
          (opening.outbound.request.confirmable = true →
            held.messageId ≠ some opening.mid)

/-- No two open exchanges of a session bear one MID. -/
def DistinctMids (loop : Loop) : Prop :=
  ∀ peer left right leftExchange rightExchange mid,
    (loop.stack.client peer).exchanges.lookup left =
        some leftExchange →
      (loop.stack.client peer).exchanges.lookup right =
          some rightExchange →
        leftExchange.messageId = some mid →
          rightExchange.messageId = some mid → left = right

theorem distinctMids_step
    {before after : Loop} {iteration : Iteration}
    {effects : List Effect}
    (distinct : DistinctMids before)
    (stepped : before.step codec iteration = some (after, effects))
    (fresh : FreshIdentifiers codec ⟨before, iteration, effects, after⟩) :
    DistinctMids after := by
  intro peer left right leftExchange rightExchange mid leftFound
    rightFound leftBears rightBears
  rw [client_step (step_cases stepped).branch peer] at leftFound rightFound
  have step := ExchangeTable.step_apply (before.stack.client peer)
    (before.stack.clientEvent codec iteration peer)
  have origin := clientEvent_origin codec before.stack iteration peer
  -- A request that was just opened has a MID of its own.
  have apart {token other : Token} {opened previous : Exchange}
      (isOpened : before.stack.clientEvent codec iteration peer =
        .opened token opened)
      (bears : opened.messageId = some mid)
      (stored : (before.stack.client peer).exchanges.lookup other =
        some previous) :
      previous.messageId ≠ some mid := by
    rw [isOpened] at origin
    cases origin with
    | @opened opening opens isPeer =>
        subst isPeer
        have new := fresh opening opens other previous stored
        rw [Opening.exchange_messageId] at bears
        split at bears
        · next confirmable =>
            rw [← bears]
            exact new.2 confirmable
        · cases bears
  rcases step.origin leftFound with
    leftOpened | ⟨leftPrevious, leftStored, _, leftMid, _⟩
  · rcases step.origin rightFound with
      rightOpened | ⟨rightPrevious, rightStored, _, rightMid, _⟩
    · rw [leftOpened] at rightOpened
      injection rightOpened
    · exact absurd (rightMid.trans rightBears)
        (apart leftOpened leftBears rightStored)
  · rcases step.origin rightFound with
      rightOpened | ⟨rightPrevious, rightStored, _, rightMid, _⟩
    · exact absurd (leftMid.trans leftBears)
        (apart rightOpened rightBears leftStored)
    · exact distinct peer left right leftPrevious rightPrevious mid
        leftStored rightStored (leftMid.trans leftBears)
        (rightMid.trans rightBears)

theorem no_clash_of_freshIdentifiers
    {transition : LoopTransition}
    (distinct : DistinctMids transition.before)
    (fresh : FreshIdentifiers codec transition) :
    ¬ IndexClashes codec transition := by
  rintro ⟨peer, clash⟩
  have origin :=
    clientEvent_origin codec transition.before.stack transition.input peer
  cases isEvent :
      transition.before.stack.clientEvent codec transition.input peer with
  | opened token exchange =>
      rw [isEvent] at origin clash
      rcases clash with ⟨other, held, mid, found, awaits, iff⟩
      cases origin with
      | @opened opening opens isPeer =>
          subst isPeer
          have new := fresh opening opens other held found
          have sameMid :
              (opening.exchange transition.input).messageId =
                some mid := by
            by_contra different
            exact new.1 (iff.mpr different)
          rw [Opening.exchange_messageId] at sameMid
          split at sameMid
          · next confirmable =>
              exact new.2 confirmable (awaits.1.trans sameMid.symm)
          · cases sameMid
  | answered token response =>
      rw [isEvent] at clash
      rcases clash with
        ⟨exchange, mid, found, bears, acknowledged, other, held,
          heldFound, awaits⟩
      have same := distinct peer token other exchange held mid found
        heldFound bears awaits.1
      subst same
      rw [found, Option.some.injEq] at heldFound
      subst heldFound
      exact awaits.not_acknowledged acknowledged
  | idle | acknowledged | piggybacked | reset | ticked =>
      rw [isEvent] at clash
      exact clash

/-- Requests with fresh identifiers keep the index. -/
theorem indexed_of_freshIdentifiers
    (run : LoopRun codec history loop)
    (fresh : Along
      (fun _ transition => FreshIdentifiers codec transition) history) :
    Indexed loop ∧ DistinctMids loop := by
  refine run.invariant_along
    (fun _ loop => Indexed loop ∧ DistinctMids loop) ?_ ?_ fresh
  · intro loop initial
    refine ⟨indexed_start loop initial, ?_⟩
    rcases initial with ⟨now, rfl⟩
    intro peer left right leftExchange rightExchange mid leftFound
    cases leftFound
  · intro history before after iteration effects earlier both new stepped
    exact ⟨(indexed_step_iff earlier stepped both.1).mpr
      (no_clash_of_freshIdentifiers both.2 new),
      distinctMids_step both.2 stepped new⟩

end Run

/-! ## A MID that comes round again -/

/-- A confirmable GET to port 5683. -/
def getRequest (channel : Nat) : OutboundRequest :=
  ⟨⟨.get, "", [], none, [], none, true⟩, .loopback 5683, ⟨channel⟩⟩

/-- The loop at 2 s, the first request acknowledged and the MID counter
somewhere. -/
def acknowledgedLoop (mid : UInt16) : Loop where
  stack := {
    sessions := (∅ : Table SocketAddr PeerSession).insert
      (.loopback 5683) {
        peer := .loopback 5683
        exchanges := (∅ : Table Token Exchange).insert [0, 0, 0, 0]
          ⟨⟨0⟩, some 0, none, none⟩
        midToToken := ∅
        midAllocator := ⟨mid⟩
        tokenAllocator := ⟨1⟩
        inboundDedup := ∅
        inboundConMids := ∅ }
    nextCleanup := fromSecs 30 }
  clock := fromSecs 2
  channels := 1

/-- A response to the peer that was not asked for by a CON takes one MID. -/
def answer : Iteration :=
  .plain (fromSecs 2)
    (.outboundResponse (some ⟨⟨.content, none, []⟩, .loopback 5683, []⟩))

theorem acknowledgedLoop_step (mid : UInt16) :
    ∃ effects,
      (loopMachine bareCodec).step (acknowledgedLoop mid) answer =
        some (acknowledgedLoop (mid + 1), effects) :=
  ⟨_, rfl⟩

theorem exists_run_acknowledged (answers : Nat) :
    ∃ history, LoopRun bareCodec history
      (acknowledgedLoop (UInt16.ofNat (answers + 1))) := by
  induction answers with
  | zero =>
      rcases exists_run_of_replay (Loop.initial_start bareCodec 0)
          [.plain (fromSecs 1) (.outboundRequest (some (getRequest 0))),
            .plain (fromSecs 2)
              (.inbound [0x60, 0, 0, 0] (.loopback 5683))]
          (fun _ final => decide (final = acknowledgedLoop 1))
          (by decide) with
        ⟨history, final, run, isFinal⟩
      exact ⟨history, of_decide_eq_true isFinal ▸ run⟩
  | succ answers induction =>
      rcases induction with ⟨history, run⟩
      rcases acknowledgedLoop_step (UInt16.ofNat (answers + 1)) with
        ⟨effects, stepped⟩
      have next : UInt16.ofNat (answers + 1 + 1) =
          UInt16.ofNat (answers + 1) + 1 := UInt16.ofNat_add _ _
      rw [next]
      exact ⟨_, run.extend stepped⟩

/--
After 65535 answers the second request bears the MID of the first one, and the
separate response to the first one removes its index entry.
-/
theorem exists_unindexed :
    ∃ history loop, LoopRun bareCodec history loop ∧
      ¬ Along (fun _ transition => Indexed transition.after) history := by
  rcases exists_run_acknowledged 65535 with ⟨history, run⟩
  rcases run.exists_of_replay
      [.plain (fromSecs 2) (.outboundRequest (some (getRequest 1))),
        .plain (fromSecs 3)
          (.inbound [0x54, 0x45, 1, 0, 0, 0, 0, 0] (.loopback 5683))]
      (fun newer _ =>
        match newer with
        | answered :: _ =>
            let table := answered.after.stack.client (.loopback 5683)
            decide (table.midToToken.lookup 0 = none) &&
              (table.exchanges.lookup [0, 0, 0, 1]).any fun exchange =>
                decide (exchange.messageId = some 0) &&
                  exchange.retransmit.isSome
        | [] => false)
      (by decide) with
    ⟨newer, loop, extended, checked⟩
  refine ⟨newer ++ history, loop, extended, ?_⟩
  cases newer with
  | nil => cases checked
  | cons answered older =>
      simp only [Bool.and_eq_true, decide_eq_true_eq, Option.any_eq_true]
        at checked
      rcases checked with ⟨absent, exchange, found, awaits⟩
      rintro ⟨indexed, _⟩
      have present :=
        (indexed (.loopback 5683) 0 _).mpr ⟨exchange, found, awaits⟩
      rw [absent] at present
      cases present

theorem not_always_indexed :
    ¬ ∀ codec history loop, LoopRun codec history loop →
      Along (fun _ transition => Indexed transition.after) history := by
  intro claimed
  rcases exists_unindexed with ⟨history, loop, run, unindexed⟩
  exact unindexed (claimed bareCodec history loop run)

theorem indexed_iff_no_clash_on_reused_mid :
    ∃ history loop, LoopRun bareCodec history loop ∧
      ¬ Along (fun _ transition => ¬ IndexClashes bareCodec transition)
        history := by
  rcases exists_unindexed with ⟨history, loop, run, unindexed⟩
  exact ⟨history, loop, run, fun keeps =>
    unindexed ((indexed_iff_no_clash run).mpr keeps)⟩

end MidIndex

end Coapable.Transport
