import Coapable.Transport.Session

/-!
# What the timer does to one session

`collect_retransmissions` advances exchanges while it iterates over them and
removes the ones that ran out in a second loop.  This module proves what the
two loops compute together: each exchange is treated on its own by
`Exchange.survive`, whatever the order of the enumeration.
-/

namespace Coapable.Transport

open Coapable.CoapLite
open Coapable.Foundation.FiniteMap
open Coapable.MessageTypes

/-! ## One exchange -/

namespace Exchange

@[simp]
theorem cancelRetransmission_responseTx (exchange : Exchange) :
    exchange.cancelRetransmission.responseTx = exchange.responseTx :=
  rfl

/-- The exchange after the first loop. -/
def advanceIfDue (now : Nat) (exchange : Exchange) : Exchange :=
  if exchange.needsRetransmit now then (exchange.advanceRetransmit now).2
  else exchange

/-- The bytes the first loop re-sends for the exchange. -/
def resend (now : Nat) (exchange : Exchange) : Option Bytes :=
  if exchange.needsRetransmit now then (exchange.advanceRetransmit now).1
  else none

/-- The exchange ran out: its retransmissions or its lifetime. -/
def runsOut (now : Nat) (exchange : Exchange) : Bool :=
  if exchange.needsRetransmit now then
    (exchange.advanceRetransmit now).1.isNone
  else exchange.isExpired now

/-- The exchange after the timer, `none` if it was failed. -/
def survive (now : Nat) (exchange : Exchange) : Option Exchange :=
  if exchange.runsOut now then none else some (exchange.advanceIfDue now)

/-- The failure delivered for an exchange that ran out. -/
def timeout (exchange : Exchange) : Delivery :=
  exchange.fail (.timeout exchange.retransmitCount)

theorem survive_eq_none_iff (now : Nat) (exchange : Exchange) :
    exchange.survive now = none ↔ exchange.runsOut now = true := by
  simp [survive]

theorem survive_eq_some_iff
    (now : Nat) (exchange after : Exchange) :
    exchange.survive now = some after ↔
      exchange.runsOut now = false ∧
        exchange.advanceIfDue now = after := by
  simp [survive]

/-- Advancing touches nothing but the retransmission state. -/
theorem advanceRetransmit_frame (now : Nat) (exchange : Exchange) :
    (exchange.advanceRetransmit now).2.responseTx = exchange.responseTx ∧
      (exchange.advanceRetransmit now).2.messageId = exchange.messageId ∧
        (exchange.advanceRetransmit now).2.expiresAt =
          exchange.expiresAt := by
  simp only [advanceRetransmit]
  split
  · exact ⟨rfl, rfl, rfl⟩
  · split <;> exact ⟨rfl, rfl, rfl⟩

@[simp]
theorem advanceIfDue_responseTx (now : Nat) (exchange : Exchange) :
    (exchange.advanceIfDue now).responseTx = exchange.responseTx := by
  simp only [advanceIfDue]
  split
  · exact (exchange.advanceRetransmit_frame now).1
  · rfl

@[simp]
theorem advanceIfDue_messageId (now : Nat) (exchange : Exchange) :
    (exchange.advanceIfDue now).messageId = exchange.messageId := by
  simp only [advanceIfDue]
  split
  · exact (exchange.advanceRetransmit_frame now).2.1
  · rfl

/-- A retransmission that is refused leaves the exchange as it was. -/
theorem advanceRetransmit_refused
    (now : Nat) (exchange : Exchange)
    (refused : (exchange.advanceRetransmit now).1 = none) :
    (exchange.advanceRetransmit now).2 = exchange := by
  rcases exchange with ⟨responseTx, messageId, retransmit, expiresAt⟩
  cases retransmit with
  | none => rfl
  | some state =>
      simp only [advanceRetransmit, RetransmitState.advance] at refused ⊢
      split at refused
      · next unreachable =>
          split at unreachable
          · cases unreachable
          · simp at refused
      · next unchanged advanced =>
          split at advanced
          · next exhausted =>
              injection advanced with _ equal
              subst equal
              simp
          · cases advanced

theorem advanceIfDue_of_runsOut
    (now : Nat) (exchange : Exchange)
    (ranOut : exchange.runsOut now = true) :
    exchange.advanceIfDue now = exchange := by
  simp only [advanceIfDue]
  split
  · next due =>
      rw [runsOut, if_pos due, Option.isNone_iff_eq_none] at ranOut
      exact exchange.advanceRetransmit_refused now ranOut
  · rfl

/-- The timer re-sends nothing for an exchange, and keeps it only if it is not
due, or it re-sends what is stored and advances. -/
theorem resend_cases (now : Nat) (exchange : Exchange) :
    (exchange.resend now = none ∧
      ∀ after, exchange.survive now = some after →
        after = exchange ∧
          ∀ deadline ∈ exchange.deadline, now < deadline) ∨
    ∃ state, exchange.retransmit = some state ∧
      state.nextRetransmit ≤ now ∧
        state.retransmitCount < maxRetransmit ∧
          exchange.resend now = some state.packetBytes ∧
            exchange.survive now = some { exchange with
              retransmit := some (state.advance now).2 } := by
  rcases exchange with ⟨responseTx, messageId, retransmit, expiresAt⟩
  cases retransmit with
  | none =>
      refine Or.inl ⟨rfl, ?_⟩
      intro after survived
      rcases (survive_eq_some_iff _ _ _).mp survived with ⟨lasts, same⟩
      refine ⟨same.symm, ?_⟩
      intro deadline isDeadline
      have isExpiry : expiresAt = some deadline := isDeadline
      subst isExpiry
      simpa [runsOut, needsRetransmit, isExpired] using lasts
  | some state =>
      by_cases due : state.nextRetransmit ≤ now
      · by_cases exhausted : maxRetransmit ≤ state.retransmitCount
        · left
          simp [resend, survive, runsOut, needsRetransmit,
            RetransmitState.isDue, due, advanceRetransmit,
            RetransmitState.advance, exhausted]
        · refine Or.inr ⟨state, rfl, due, Nat.not_le.mp exhausted, ?_⟩
          simp [resend, survive, runsOut, advanceIfDue, needsRetransmit,
            RetransmitState.isDue, due, advanceRetransmit,
            RetransmitState.advance, exhausted]
      · left
        have early : needsRetransmit
            ⟨responseTx, messageId, some state, expiresAt⟩ now = false :=
          decide_eq_false due
        refine ⟨by rw [resend, early]; rfl, ?_⟩
        intro after survived
        rw [survive_eq_some_iff, advanceIfDue, early] at survived
        refine ⟨survived.2.symm, ?_⟩
        intro deadline isDeadline
        rw [← Option.some.inj (show some state.nextRetransmit = some _
          from isDeadline)]
        exact Nat.not_le.mp due

/-- An exchange that survives either was not due or is re-sent. -/
theorem survive_cases
    {now : Nat} {exchange after : Exchange}
    (survived : exchange.survive now = some after) :
    (after = exchange ∧
      ∀ deadline ∈ exchange.deadline, now < deadline) ∨
    ∃ state, exchange.retransmit = some state ∧
      state.nextRetransmit ≤ now ∧
        state.retransmitCount < maxRetransmit ∧
          after = { exchange with
            retransmit := some {
              packetBytes := state.packetBytes
              retransmitCount := state.retransmitCount + 1
              currentTimeout := state.currentTimeout * 2
              nextRetransmit := now + state.currentTimeout * 2 } } := by
  rcases exchange.resend_cases now with
    ⟨_, kept⟩ | ⟨state, armed, due, count, _, advances⟩
  · exact Or.inl (kept after survived)
  · refine Or.inr ⟨state, armed, due, count, ?_⟩
    rw [Option.some.inj (survived.symm.trans advances),
      RetransmitState.advance, if_neg (Nat.not_le.mpr count)]

/-- An exchange runs out of retransmissions or of its lifetime. -/
theorem runsOut_cases
    {now : Nat} {exchange : Exchange}
    (ranOut : exchange.runsOut now = true) :
    (∃ state, exchange.retransmit = some state ∧
      state.nextRetransmit ≤ now ∧
        maxRetransmit ≤ state.retransmitCount) ∨
    ∃ expiry, exchange.expiresAt = some expiry ∧ expiry ≤ now := by
  rw [runsOut] at ranOut
  split at ranOut
  · next due =>
      rw [needsRetransmit, Option.any_eq_true] at due
      rcases due with ⟨state, armed, isDue⟩
      refine Or.inl ⟨state, armed, of_decide_eq_true isDue, ?_⟩
      rw [advanceRetransmit, armed] at ranOut
      simp only [RetransmitState.advance] at ranOut
      split at ranOut
      · next advanced isAdvanced =>
          cases ranOut
      · next unchanged refused =>
          split at refused
          · next exhausted => exact exhausted
          · cases refused
  · rw [isExpired, Option.any_eq_true] at ranOut
    rcases ranOut with ⟨expiry, isExpiry, passed⟩
    exact Or.inr ⟨expiry, isExpiry, of_decide_eq_true passed⟩

/-- The packet the exchange keeps for its retransmissions. -/
def storedPacket (exchange : Exchange) : Option Bytes :=
  exchange.retransmit.map RetransmitState.packetBytes

/-- What is re-sent is the stored packet. -/
theorem storedPacket_of_resend
    {now : Nat} {exchange : Exchange} {bytes : Bytes}
    (resends : exchange.resend now = some bytes) :
    exchange.storedPacket = some bytes := by
  rcases exchange.resend_cases now with
    ⟨nothing, _⟩ | ⟨state, armed, _, _, isResent, _⟩
  · rw [nothing] at resends
    cases resends
  · rw [storedPacket, armed, ← resends, isResent]
    rfl

/-- The later state of an exchange that stayed open. -/
structure Continues (previous exchange : Exchange) : Prop where
  responseTx : previous.responseTx = exchange.responseTx
  messageId : previous.messageId = exchange.messageId
  expiresAt : previous.expiresAt = exchange.expiresAt
  storedPacket : ∀ bytes, exchange.storedPacket = some bytes →
    previous.storedPacket = some bytes

theorem Continues.refl (exchange : Exchange) :
    Continues exchange exchange :=
  ⟨rfl, rfl, rfl, fun _ stored => stored⟩

theorem continues_cancelRetransmission (exchange : Exchange) :
    Continues exchange exchange.cancelRetransmission :=
  ⟨rfl, rfl, rfl, fun _ stored => nomatch stored⟩

theorem continues_of_survive
    {now : Nat} {exchange after : Exchange}
    (survived : exchange.survive now = some after) :
    Continues exchange after := by
  rcases survive_cases survived with
    ⟨rfl, _⟩ | ⟨state, armed, _, _, rfl⟩
  · exact .refl after
  · exact ⟨rfl, rfl, rfl, fun bytes stored => by
      rw [storedPacket, armed]
      exact stored⟩

/-- The timer changes neither the MID of an exchange that survives nor
whether it is still retransmitted. -/
theorem survive_frame
    {now : Nat} {exchange after : Exchange}
    (survived : exchange.survive now = some after) :
    after.messageId = exchange.messageId ∧
      after.retransmit.isSome = exchange.retransmit.isSome := by
  rcases survive_cases survived with
    ⟨rfl, _⟩ | ⟨state, armed, _, _, rfl⟩
  · exact ⟨rfl, rfl⟩
  · exact ⟨rfl, by rw [armed]; rfl⟩

end Exchange

/-! ## The first loop -/

theorem scanExchanges_retransmits_and_expired
    (now : Nat) (order : List Token)
    (exchanges : Table Token Exchange)
    (distinct : order.Nodup) :
    (PeerSession.scanExchanges now order exchanges).2 =
      (order.filterMap fun token =>
          (exchanges.lookup token).bind (Exchange.resend now),
        order.filter fun token =>
          (exchanges.lookup token).any (Exchange.runsOut now)) := by
  induction order generalizing exchanges with
  | nil => rfl
  | cons token rest induction =>
      rw [List.nodup_cons] at distinct
      have unvisited (advanced : Exchange) (other : Token)
          (member : other ∈ rest) :
          (exchanges.insert token advanced).lookup other =
            exchanges.lookup other := by
        rw [lookup_insert_eq, if_neg]
        rintro rfl
        exact distinct.1 member
      cases found : exchanges.lookup token with
      | none =>
          simp only [PeerSession.scanExchanges, found,
            induction exchanges distinct.2, List.filterMap_cons,
            List.filter_cons, Option.bind_none, Option.any_none]
          simp
      | some exchange =>
          by_cases due : exchange.needsRetransmit now = true
          · have tail :=
              induction
                (exchanges.insert token (exchange.advanceRetransmit now).2)
                distinct.2
            rw [List.filterMap_congr fun other member => by
                rw [unvisited _ other member],
              List.filter_congr fun other member => by
                rw [unvisited _ other member]] at tail
            simp only [PeerSession.scanExchanges, found, due, if_true,
              tail, List.filterMap_cons, List.filter_cons,
              Option.bind_some, Option.any_some, Exchange.resend,
              Exchange.runsOut]
            cases (exchange.advanceRetransmit now).1 <;> simp
          · have notDue : exchange.needsRetransmit now = false :=
              Bool.eq_false_of_not_eq_true due
            simp only [PeerSession.scanExchanges, found, notDue,
              induction exchanges distinct.2, List.filterMap_cons,
              List.filter_cons, Option.bind_some, Option.any_some,
              Exchange.resend, Exchange.runsOut]
            cases exchange.isExpired now <;> simp

theorem scanExchanges_lookup
    (now : Nat) (order : List Token)
    (exchanges : Table Token Exchange)
    (distinct : order.Nodup) (token : Token) :
    (PeerSession.scanExchanges now order exchanges).1.lookup token =
      if token ∈ order then
        (exchanges.lookup token).map (Exchange.advanceIfDue now)
      else exchanges.lookup token := by
  induction order generalizing exchanges with
  | nil => simp [PeerSession.scanExchanges]
  | cons head rest induction =>
      rw [List.nodup_cons] at distinct
      cases found : exchanges.lookup head with
      | none =>
          simp only [PeerSession.scanExchanges, found,
            induction exchanges distinct.2, List.mem_cons]
          by_cases equal : token = head
          · subst equal
            simp [found]
          · simp [equal]
      | some exchange =>
          by_cases due : exchange.needsRetransmit now = true
          · have scanned :
                (PeerSession.scanExchanges now (head :: rest)
                    exchanges).1 =
                  (PeerSession.scanExchanges now rest
                    (exchanges.insert head
                      (exchange.advanceRetransmit now).2)).1 := by
              simp only [PeerSession.scanExchanges, found, due, if_true]
              cases (exchange.advanceRetransmit now).1 <;> rfl
            rw [scanned, induction _ distinct.2, lookup_insert_eq]
            by_cases equal : token = head
            · subst equal
              simp [distinct.1, found, Exchange.advanceIfDue, due]
            · simp [equal]
          · have notDue : exchange.needsRetransmit now = false :=
              Bool.eq_false_of_not_eq_true due
            have scanned :
                (PeerSession.scanExchanges now (head :: rest)
                    exchanges).1 =
                  (PeerSession.scanExchanges now rest exchanges).1 := by
              simp only [PeerSession.scanExchanges, found, notDue]
              cases exchange.isExpired now <;> rfl
            rw [scanned, induction _ distinct.2]
            by_cases equal : token = head
            · subst equal
              simp [distinct.1, found, Exchange.advanceIfDue, notDue]
            · simp [equal]

/-! ## The second loop -/

theorem lookup_removeExchange
    (session : PeerSession) (token other : Token) (exchange : Exchange) :
    (session.removeExchange token exchange).exchanges.lookup other =
      if other = token then none else session.exchanges.lookup other :=
  lookup_erase_eq _ _ _

theorem lookup_removeExchange_index
    (session : PeerSession) (token : Token) (exchange : Exchange)
    (mid : UInt16) :
    (session.removeExchange token exchange).midToToken.lookup mid =
      if exchange.messageId = some mid then none
      else session.midToToken.lookup mid := by
  simp only [PeerSession.removeExchange]
  cases bound : exchange.messageId with
  | none => simp
  | some other =>
      simp only [Option.some.injEq]
      rw [lookup_erase_eq]
      by_cases equal : mid = other
      · subst equal
        simp
      · rw [if_neg equal, if_neg fun same => equal same.symm]

theorem failExpired_deliveries
    (expired : List Token) (session : PeerSession)
    (distinct : expired.Nodup) :
    (PeerSession.failExpired expired session).2 =
      expired.filterMap fun token =>
        (session.exchanges.lookup token).map Exchange.timeout := by
  induction expired generalizing session with
  | nil => rfl
  | cons token rest induction =>
      rw [List.nodup_cons] at distinct
      cases found : session.exchanges.lookup token with
      | none =>
          simp [PeerSession.failExpired, found,
            induction session distinct.2]
      | some exchange =>
          simp only [PeerSession.failExpired, found,
            induction _ distinct.2, List.filterMap_cons, Option.map_some,
            Exchange.timeout, List.cons.injEq, true_and]
          apply List.filterMap_congr
          intro other member
          rw [lookup_removeExchange, if_neg]
          rintro rfl
          exact distinct.1 member

theorem failExpired_lookup
    (expired : List Token) (session : PeerSession) (token : Token) :
    (PeerSession.failExpired expired session).1.exchanges.lookup token =
      if token ∈ expired then none
      else session.exchanges.lookup token := by
  induction expired generalizing session with
  | nil => simp [PeerSession.failExpired]
  | cons head rest induction =>
      cases found : session.exchanges.lookup head with
      | none =>
          simp only [PeerSession.failExpired, found, induction,
            List.mem_cons]
          by_cases equal : token = head
          · subst equal
            simp [found]
          · simp [equal]
      | some exchange =>
          simp only [PeerSession.failExpired, found, induction,
            lookup_removeExchange, List.mem_cons]
          by_cases equal : token = head <;> simp [equal]

/-- One of the tokens has an exchange with the MID. -/
def PeerSession.bindsMid (session : PeerSession) (tokens : List Token)
    (mid : UInt16) : Bool :=
  tokens.any fun token =>
    (session.exchanges.lookup token).any (·.messageId = some mid)

theorem bindsMid_iff
    (session : PeerSession) (tokens : List Token) (mid : UInt16) :
    session.bindsMid tokens mid = true ↔
      ∃ token ∈ tokens, ∃ exchange,
        session.exchanges.lookup token = some exchange ∧
          exchange.messageId = some mid := by
  simp only [PeerSession.bindsMid, List.any_eq_true, Option.any_eq_true,
    decide_eq_true_eq]

/-- The index loses exactly the MIDs of the exchanges that were failed. -/
theorem failExpired_index
    (expired : List Token) (session : PeerSession)
    (distinct : expired.Nodup) (mid : UInt16) :
    (PeerSession.failExpired expired session).1.midToToken.lookup mid =
      if session.bindsMid expired mid then none
      else session.midToToken.lookup mid := by
  induction expired generalizing session with
  | nil => simp [PeerSession.failExpired, PeerSession.bindsMid]
  | cons head rest induction =>
      rw [List.nodup_cons] at distinct
      cases found : session.exchanges.lookup head with
      | none =>
          simp only [PeerSession.failExpired, found,
            induction session distinct.2]
          simp [PeerSession.bindsMid, found]
      | some removed =>
          -- No token of the rest is the one removed.
          have unvisited :
              (session.removeExchange head removed).bindsMid rest mid =
                session.bindsMid rest mid := by
            rw [Bool.eq_iff_iff, bindsMid_iff, bindsMid_iff]
            apply exists_congr
            intro token
            apply and_congr_right
            intro member
            rw [lookup_removeExchange, if_neg]
            rintro rfl
            exact distinct.1 member
          have bindsHead :
              session.bindsMid (head :: rest) mid =
                (decide (removed.messageId = some mid) ||
                  session.bindsMid rest mid) := by
            simp [PeerSession.bindsMid, found]
          simp only [PeerSession.failExpired, found,
            induction _ distinct.2, unvisited, bindsHead,
            lookup_removeExchange_index]
          by_cases bound : removed.messageId = some mid <;> simp [bound]

theorem failExpired_frame
    (expired : List Token) (session : PeerSession) :
    (PeerSession.failExpired expired session).1.peer = session.peer ∧
      (PeerSession.failExpired expired session).1.inboundDedup =
        session.inboundDedup ∧
      (PeerSession.failExpired expired session).1.inboundConMids =
        session.inboundConMids ∧
      (PeerSession.failExpired expired session).1.midAllocator =
        session.midAllocator ∧
      (PeerSession.failExpired expired session).1.tokenAllocator =
        session.tokenAllocator := by
  induction expired generalizing session with
  | nil => exact ⟨rfl, rfl, rfl, rfl, rfl⟩
  | cons head rest induction =>
      cases found : session.exchanges.lookup head with
      | none =>
          simp only [PeerSession.failExpired, found]
          exact induction session
      | some removed =>
          simp only [PeerSession.failExpired, found]
          exact induction (session.removeExchange head removed)

/-! ## Both loops -/

section Collect

variable {session : PeerSession} {order : List Token} (now : Nat)

private abbrev afterScan (session : PeerSession) (now : Nat)
    (order : List Token) : PeerSession :=
  { session with
    exchanges :=
      (PeerSession.scanExchanges now order session.exchanges).1 }

private abbrev expiredTokens (session : PeerSession) (now : Nat)
    (order : List Token) : List Token :=
  (PeerSession.scanExchanges now order session.exchanges).2.2

theorem mem_expiredTokens_iff
    (enumerates : Enumerates order session.exchanges) (token : Token) :
    token ∈ expiredTokens session now order ↔
      ∃ exchange, session.exchanges.lookup token = some exchange ∧
        exchange.runsOut now = true := by
  have scanned :=
    scanExchanges_retransmits_and_expired now order session.exchanges
      enumerates.nodup
  rw [expiredTokens, scanned, List.mem_filter, enumerates.mem_iff]
  constructor
  · rintro ⟨⟨exchange, found⟩, ranOut⟩
    exact ⟨exchange, found, by simpa [found] using ranOut⟩
  · rintro ⟨exchange, found, ranOut⟩
    exact ⟨⟨exchange, found⟩, by simpa [found] using ranOut⟩

theorem expiredTokens_nodup
    (enumerates : Enumerates order session.exchanges) :
    (expiredTokens session now order).Nodup := by
  rw [expiredTokens,
    scanExchanges_retransmits_and_expired now order session.exchanges
      enumerates.nodup]
  exact enumerates.nodup.filter _

/-- An exchange that ran out reaches the second loop unchanged. -/
theorem lookup_afterScan
    (enumerates : Enumerates order session.exchanges) (token : Token) :
    (afterScan session now order).exchanges.lookup token =
      (session.exchanges.lookup token).map (Exchange.advanceIfDue now) := by
  rw [scanExchanges_lookup now order session.exchanges enumerates.nodup]
  split
  · rfl
  · next unvisited =>
      rw [enumerates.mem_iff] at unvisited
      cases found : session.exchanges.lookup token with
      | none => rfl
      | some exchange => exact absurd ⟨exchange, found⟩ unvisited

/-- Every exchange is treated on its own. -/
theorem collectRetransmissions_lookup
    (enumerates : Enumerates order session.exchanges) (token : Token) :
    (session.collectRetransmissions now order).1.exchanges.lookup token =
      (session.exchanges.lookup token).bind (Exchange.survive now) := by
  have expired := mem_expiredTokens_iff now enumerates token
  change (PeerSession.failExpired (expiredTokens session now order)
    (afterScan session now order)).1.exchanges.lookup token = _
  rw [failExpired_lookup, lookup_afterScan now enumerates]
  cases found : session.exchanges.lookup token with
  | none => simp
  | some exchange =>
      by_cases ranOut : exchange.runsOut now = true
      · rw [if_pos (expired.mpr ⟨exchange, found, ranOut⟩)]
        simp [Exchange.survive, ranOut]
      · rw [if_neg]
        · simp [Exchange.survive, ranOut]
        · rw [expired]
          rintro ⟨other, stored, otherRanOut⟩
          rw [found, Option.some.injEq] at stored
          subst stored
          exact ranOut otherRanOut

/-- The index loses exactly the MIDs of the exchanges that ran out. -/
theorem collectRetransmissions_index
    (enumerates : Enumerates order session.exchanges) (mid : UInt16) :
    ((∃ token exchange,
        session.exchanges.lookup token = some exchange ∧
          exchange.runsOut now = true ∧ exchange.messageId = some mid) →
      (session.collectRetransmissions now order).1.midToToken.lookup mid =
        none) ∧
    ((∀ token exchange,
        session.exchanges.lookup token = some exchange →
          exchange.runsOut now = true → exchange.messageId ≠ some mid) →
      (session.collectRetransmissions now order).1.midToToken.lookup mid =
        session.midToToken.lookup mid) := by
  have failed := failExpired_index (expiredTokens session now order)
    (afterScan session now order) (expiredTokens_nodup now enumerates) mid
  constructor
  · rintro ⟨token, exchange, found, ranOut, bound⟩
    refine failed.trans (if_pos ?_)
    refine (bindsMid_iff _ _ _).mpr ⟨token,
      (mem_expiredTokens_iff now enumerates token).mpr
        ⟨exchange, found, ranOut⟩,
      exchange.advanceIfDue now, ?_, ?_⟩
    · rw [lookup_afterScan now enumerates, found]
      rfl
    · rw [Exchange.advanceIfDue_messageId, bound]
  · intro unbound
    refine failed.trans (if_neg ?_)
    rw [bindsMid_iff]
    rintro ⟨token, member, exchange, found, bound⟩
    rcases (mem_expiredTokens_iff now enumerates token).mp member with
      ⟨original, stored, ranOut⟩
    rw [lookup_afterScan now enumerates, stored, Option.map_some,
      Option.some.injEq] at found
    subst found
    rw [Exchange.advanceIfDue_messageId] at bound
    exact unbound token original stored ranOut bound

theorem collectRetransmissions_retransmits
    (enumerates : Enumerates order session.exchanges) :
    (session.collectRetransmissions now order).2.1 =
      order.filterMap fun token =>
        (session.exchanges.lookup token).bind (Exchange.resend now) := by
  change (PeerSession.scanExchanges now order session.exchanges).2.1 = _
  rw [scanExchanges_retransmits_and_expired now order session.exchanges
    enumerates.nodup]

private theorem filterMap_filter_any
    {Source Value Target : Type} (source : List Source)
    (lookup : Source → Option Value) (keep : Value → Bool)
    (advance : Value → Value) (make : Value → Target)
    (fixed : ∀ value, keep value = true → advance value = value) :
    (source.filter fun element => (lookup element).any keep).filterMap
        (fun element => ((lookup element).map advance).map make) =
      ((source.filterMap lookup).filter keep).map make := by
  induction source with
  | nil => rfl
  | cons element rest induction =>
      cases found : lookup element with
      | none => simpa [found] using induction
      | some value =>
          by_cases kept : keep value = true
          · rw [List.filter_cons_of_pos (by simpa [found] using kept),
              List.filterMap_cons_some (by rw [found]; rfl),
              List.filterMap_cons_some found,
              List.filter_cons_of_pos kept, List.map_cons, induction,
              fixed value kept]
          · rw [List.filter_cons_of_neg (by simpa [found] using kept),
              List.filterMap_cons_some found,
              List.filter_cons_of_neg kept, induction]

/-- The results of the second loop, in any order: one timeout for each
exchange that ran out. -/
theorem collectRetransmissions_deliveries
    (enumerates : Enumerates order session.exchanges) :
    ((session.collectRetransmissions now order).2.2 : Multiset Delivery) =
      ((values session.exchanges).filter
        fun exchange => exchange.runsOut now).map Exchange.timeout := by
  have expired : expiredTokens session now order =
      order.filter fun token =>
        (session.exchanges.lookup token).any (Exchange.runsOut now) := by
    rw [expiredTokens,
      scanExchanges_retransmits_and_expired now order session.exchanges
        enumerates.nodup]
  change ((PeerSession.failExpired (expiredTokens session now order)
    (afterScan session now order)).2 : Multiset Delivery) = _
  rw [failExpired_deliveries _ _ (expiredTokens_nodup now enumerates),
    enumerates.values_eq, Multiset.filter_coe, Multiset.map_coe, expired]
  simp only [lookup_afterScan now enumerates]
  rw [filterMap_filter_any order (fun token =>
    session.exchanges.lookup token) (Exchange.runsOut now)
    (Exchange.advanceIfDue now) Exchange.timeout
    (Exchange.advanceIfDue_of_runsOut now)]
  simp only [Bool.decide_eq_true]

theorem collectRetransmissions_frame
    (session : PeerSession) (now : Nat) (order : List Token) :
    (session.collectRetransmissions now order).1.peer = session.peer ∧
      (session.collectRetransmissions now order).1.inboundDedup =
        session.inboundDedup ∧
      (session.collectRetransmissions now order).1.inboundConMids =
        session.inboundConMids ∧
      (session.collectRetransmissions now order).1.midAllocator =
        session.midAllocator ∧
      (session.collectRetransmissions now order).1.tokenAllocator =
        session.tokenAllocator :=
  failExpired_frame _ _

end Collect

end Coapable.Transport
