import Coapable.Transport.Timers

/-!
# The exchange table of one peer, abstractly

What a session does for a client is to keep two tables in step: the open
exchanges under their tokens and the index from MIDs to tokens.  This module
states that purpose on its own: an `ExchangeTable` changes only by the seven
`ClientEvent`s, and `ExchangeTable.apply` says what each does and which
results it delivers.

The timer event is a plain function here: it treats every exchange on its own
and mentions no order of enumeration.  `ClientView` proves that the loop
refines this machine for every order.
-/

namespace Coapable.Transport

open Coapable.CoapLite
open Coapable.Foundation.FiniteMap
open Coapable.MessageTypes

/-- The part of a session that client requests use. -/
structure ExchangeTable where
  exchanges : Table Token Exchange
  midToToken : Table UInt16 Token
  deriving DecidableEq

/-- What can happen to the exchanges with one peer. -/
inductive ClientEvent where
  | idle
  /-- A client request was encoded and its exchange opened. -/
  | opened (token : Token) (exchange : Exchange)
  /-- A separate response arrived. -/
  | answered (token : Token) (response : CoapResponse)
  /-- An empty ACK arrived. -/
  | acknowledged (mid : UInt16)
  /-- An ACK with a response code arrived. -/
  | piggybacked (mid : UInt16) (response : CoapResponse)
  | reset (mid : UInt16)
  /-- The retransmission timer ran. -/
  | ticked (now : Nat)

namespace ExchangeTable

/-- No exchange. -/
def empty : ExchangeTable := ⟨∅, ∅⟩

/-- Open an exchange, and index it by its MID if it has one. -/
def insert (table : ExchangeTable) (token : Token)
    (exchange : Exchange) : ExchangeTable where
  exchanges := table.exchanges.insert token exchange
  midToToken :=
    match exchange.messageId with
    | some mid => table.midToToken.insert mid token
    | none => table.midToToken

/-- Remove an exchange together with its MID. -/
def remove (table : ExchangeTable) (token : Token)
    (exchange : Exchange) : ExchangeTable where
  exchanges := table.exchanges.erase token
  midToToken :=
    match exchange.messageId with
    | some mid => table.midToToken.erase mid
    | none => table.midToToken

/-- Forget a MID. -/
def unindex (table : ExchangeTable) (mid : UInt16) : ExchangeTable :=
  { table with midToToken := table.midToToken.erase mid }

/-- Deliver a response to the exchange under a token. -/
def answer (table : ExchangeTable) (token : Token)
    (response : CoapResponse) : ExchangeTable × Multiset Delivery :=
  match table.exchanges.lookup token with
  | some exchange =>
      (table.remove token exchange, {exchange.complete response})
  | none => (table, 0)

/-- The MID belongs to an exchange that runs out at this time. -/
def MidRunsOut (table : ExchangeTable) (now : Nat)
    (mid : UInt16) : Prop :=
  ∃ exchange ∈ values table.exchanges,
    exchange.runsOut now = true ∧ exchange.messageId = some mid

instance (table : ExchangeTable) (now : Nat) (mid : UInt16) :
    Decidable (table.MidRunsOut now mid) :=
  Multiset.decidableExistsMultiset

/-- Run the timer: what runs out is gone, and so are the MIDs it had. -/
def tick (table : ExchangeTable) (now : Nat) : ExchangeTable where
  exchanges :=
    filterMapValues (Exchange.survive now) table.exchanges
  midToToken :=
    retain (fun mid _ => !decide (table.MidRunsOut now mid))
      table.midToToken

/-- One event: the table afterwards and the results delivered. -/
def apply (table : ExchangeTable) :
    ClientEvent → ExchangeTable × Multiset Delivery
  | .idle => (table, 0)
  | .opened token exchange => (table.insert token exchange, 0)
  | .answered token response => table.answer token response
  | .acknowledged mid =>
      match table.midToToken.lookup mid with
      | some token =>
          ({ exchanges :=
              modify token Exchange.cancelRetransmission table.exchanges
             midToToken := table.midToToken.erase mid }, 0)
      | none => (table, 0)
  | .piggybacked mid response =>
      match table.midToToken.lookup mid with
      | some token => (table.unindex mid).answer token response
      | none => (table, 0)
  | .reset mid =>
      match table.midToToken.lookup mid with
      | some token =>
          match table.exchanges.lookup token with
          | some exchange =>
              ({ exchanges := table.exchanges.erase token
                 midToToken := table.midToToken.erase mid },
                {exchange.fail .reset})
          | none => (table.unindex mid, 0)
      | none => (table, 0)
  | .ticked now =>
      (table.tick now,
        ((values table.exchanges).filter
          fun exchange => exchange.runsOut now).map Exchange.timeout)

/-! ## Lookups after an event -/

@[simp]
theorem lookup_empty_exchanges (token : Token) :
    empty.exchanges.lookup token = none :=
  rfl

@[simp]
theorem lookup_empty_midToToken (mid : UInt16) :
    empty.midToToken.lookup mid = none :=
  rfl

theorem ext_lookup {left right : ExchangeTable}
    (exchanges : ∀ token,
      left.exchanges.lookup token = right.exchanges.lookup token)
    (index : ∀ mid,
      left.midToToken.lookup mid = right.midToToken.lookup mid) :
    left = right := by
  rcases left with ⟨leftExchanges, leftIndex⟩
  rcases right with ⟨rightExchanges, rightIndex⟩
  rw [mk.injEq]
  exact ⟨Finmap.ext_lookup exchanges, Finmap.ext_lookup index⟩

theorem insert_exchanges_lookup
    (table : ExchangeTable) (token other : Token) (exchange : Exchange) :
    (table.insert token exchange).exchanges.lookup other =
      if other = token then some exchange
      else table.exchanges.lookup other :=
  lookup_insert_eq _ _ _ _

theorem insert_midToToken_lookup
    (table : ExchangeTable) (token : Token) (exchange : Exchange)
    (mid : UInt16) :
    (table.insert token exchange).midToToken.lookup mid =
      if exchange.messageId = some mid then some token
      else table.midToToken.lookup mid := by
  simp only [insert]
  cases bound : exchange.messageId with
  | none => simp
  | some other =>
      simp only [Option.some.injEq]
      rw [lookup_insert_eq]
      by_cases equal : mid = other
      · subst equal
        simp
      · rw [if_neg equal, if_neg fun same => equal same.symm]

theorem remove_exchanges_lookup
    (table : ExchangeTable) (token other : Token) (exchange : Exchange) :
    (table.remove token exchange).exchanges.lookup other =
      if other = token then none else table.exchanges.lookup other :=
  lookup_erase_eq _ _ _

theorem remove_midToToken_lookup
    (table : ExchangeTable) (token : Token) (exchange : Exchange)
    (mid : UInt16) :
    (table.remove token exchange).midToToken.lookup mid =
      if exchange.messageId = some mid then none
      else table.midToToken.lookup mid := by
  simp only [remove]
  cases bound : exchange.messageId with
  | none => simp
  | some other =>
      simp only [Option.some.injEq]
      rw [lookup_erase_eq]
      by_cases equal : mid = other
      · subst equal
        simp
      · rw [if_neg equal, if_neg fun same => equal same.symm]

@[simp]
theorem unindex_exchanges (table : ExchangeTable) (mid : UInt16) :
    (table.unindex mid).exchanges = table.exchanges :=
  rfl

theorem unindex_midToToken_lookup
    (table : ExchangeTable) (mid other : UInt16) :
    (table.unindex mid).midToToken.lookup other =
      if other = mid then none else table.midToToken.lookup other :=
  lookup_erase_eq _ _ _

theorem tick_exchanges_lookup
    (table : ExchangeTable) (now : Nat) (token : Token) :
    (table.tick now).exchanges.lookup token =
      (table.exchanges.lookup token).bind (Exchange.survive now) :=
  lookup_filterMapValues _ _ _

theorem midRunsOut_iff
    (table : ExchangeTable) (now : Nat) (mid : UInt16) :
    table.MidRunsOut now mid ↔
      ∃ token exchange, table.exchanges.lookup token = some exchange ∧
        exchange.runsOut now = true ∧ exchange.messageId = some mid := by
  simp only [MidRunsOut, mem_values_iff]
  constructor
  · rintro ⟨exchange, ⟨token, found⟩, ranOut⟩
    exact ⟨token, exchange, found, ranOut⟩
  · rintro ⟨token, exchange, found, ranOut⟩
    exact ⟨exchange, ⟨token, found⟩, ranOut⟩

theorem tick_midToToken_lookup
    (table : ExchangeTable) (now : Nat) (mid : UInt16) :
    (table.tick now).midToToken.lookup mid =
      if table.MidRunsOut now mid then none
      else table.midToToken.lookup mid := by
  rw [tick, lookup_retain]
  split
  · next ranOut => simp [ranOut]
  · next kept =>
      cases stored : table.midToToken.lookup mid <;>
        simp [kept, Option.filter]

/-- The timer leaves a table alone if it leaves every exchange alone. -/
theorem tick_eq_self
    {table : ExchangeTable} {now : Nat}
    (untouched : ∀ token exchange,
      table.exchanges.lookup token = some exchange →
        exchange.survive now = some exchange) :
    table.tick now = table := by
  apply ext_lookup
  · intro token
    rw [tick_exchanges_lookup]
    cases found : table.exchanges.lookup token with
    | none => rfl
    | some exchange => exact untouched token exchange found
  · intro mid
    rw [tick_midToToken_lookup, if_neg]
    rw [midRunsOut_iff]
    rintro ⟨token, exchange, found, ranOut, _⟩
    have survived := untouched token exchange found
    rw [(Exchange.survive_eq_none_iff now exchange).mpr ranOut] at survived
    cases survived

/-! ## The ways an event can go -/

/--
The seven events with what they found, as one case analysis.  Every
constructor states the table afterwards; an event that finds nothing keeps
it, except that a MID whose exchange is gone leaves the index.
-/
inductive Step (table : ExchangeTable) :
    ClientEvent → ExchangeTable → Multiset Delivery → Prop where
  | kept {event : ClientEvent} : Step table event table 0
  | opened (token : Token) (exchange : Exchange) :
      Step table (.opened token exchange) (table.insert token exchange) 0
  | answered {token : Token} {exchange : Exchange}
      {response : CoapResponse}
      (found : table.exchanges.lookup token = some exchange) :
      Step table (.answered token response)
        (table.remove token exchange) {exchange.complete response}
  | acknowledged {mid : UInt16} {token : Token}
      (indexed : table.midToToken.lookup mid = some token) :
      Step table (.acknowledged mid)
        { exchanges :=
            modify token Exchange.cancelRetransmission table.exchanges
          midToToken := table.midToToken.erase mid } 0
  | piggybacked {mid : UInt16} {token : Token} {exchange : Exchange}
      {response : CoapResponse}
      (indexed : table.midToToken.lookup mid = some token)
      (found : table.exchanges.lookup token = some exchange) :
      Step table (.piggybacked mid response)
        ((table.unindex mid).remove token exchange)
        {exchange.complete response}
  | reset {mid : UInt16} {token : Token} {exchange : Exchange}
      (indexed : table.midToToken.lookup mid = some token)
      (found : table.exchanges.lookup token = some exchange) :
      Step table (.reset mid)
        { exchanges := table.exchanges.erase token
          midToToken := table.midToToken.erase mid }
        {exchange.fail .reset}
  | dangling {event : ClientEvent} {mid : UInt16} {token : Token}
      (indexed : table.midToToken.lookup mid = some token)
      (gone : table.exchanges.lookup token = none) :
      Step table event (table.unindex mid) 0
  | ticked (now : Nat) :
      Step table (.ticked now) (table.tick now)
        (((values table.exchanges).filter
          fun exchange => exchange.runsOut now).map Exchange.timeout)

theorem step_apply (table : ExchangeTable) (event : ClientEvent) :
    Step table event (table.apply event).1 (table.apply event).2 := by
  cases event with
  | idle => exact .kept
  | opened token exchange => exact .opened token exchange
  | answered token response =>
      simp only [apply, answer]
      split
      · next exchange found => exact .answered found
      · exact .kept
  | acknowledged mid =>
      simp only [apply]
      split
      · next token indexed => exact .acknowledged indexed
      · exact .kept
  | piggybacked mid response =>
      simp only [apply, answer, unindex_exchanges]
      split
      · next token indexed =>
          split
          · next exchange found => exact .piggybacked indexed found
          · next gone => exact .dangling indexed gone
      · exact .kept
  | reset mid =>
      simp only [apply]
      split
      · next token indexed =>
          split
          · next exchange found => exact .reset indexed found
          · next gone => exact .dangling indexed gone
      · exact .kept
  | ticked now => exact .ticked now

/-- What an event makes of an exchange that it leaves open. -/
inductive Becomes (event : ClientEvent) (previous : Exchange) :
    Exchange → Prop where
  | kept : Becomes event previous previous
  | cancelled {mid : UInt16} (isEvent : event = .acknowledged mid) :
      Becomes event previous previous.cancelRetransmission
  | survived {now : Nat} {after : Exchange}
      (isEvent : event = .ticked now)
      (survives : previous.survive now = some after) :
      Becomes event previous after

theorem Becomes.continues
    {event : ClientEvent} {previous exchange : Exchange}
    (becomes : Becomes event previous exchange) :
    previous.Continues exchange := by
  cases becomes with
  | kept => exact .refl previous
  | cancelled isEvent => exact previous.continues_cancelRetransmission
  | survived isEvent survives =>
      exact Exchange.continues_of_survive survives

/-- Where an exchange of the new table comes from: it was just opened, or it
was there before. -/
theorem Step.becomes
    {table after : ExchangeTable} {event : ClientEvent}
    {deliveries : Multiset Delivery}
    (step : Step table event after deliveries)
    {token : Token} {exchange : Exchange}
    (found : after.exchanges.lookup token = some exchange) :
    event = .opened token exchange ∨
      ∃ previous, table.exchanges.lookup token = some previous ∧
        Becomes event previous exchange := by
  have unchanged (stored : table.exchanges.lookup token = some exchange) :
      event = .opened token exchange ∨
        ∃ previous, table.exchanges.lookup token = some previous ∧
          Becomes event previous exchange :=
    Or.inr ⟨exchange, stored, .kept⟩
  cases step with
  | kept => exact unchanged found
  | opened openedToken openedExchange =>
      rw [insert_exchanges_lookup] at found
      split at found
      · next equal =>
          rw [Option.some.injEq] at found
          subst equal
          subst found
          exact Or.inl rfl
      · exact unchanged found
  | answered _ =>
      rw [remove_exchanges_lookup] at found
      split at found
      · cases found
      · exact unchanged found
  | acknowledged _ =>
      rw [lookup_modify] at found
      split at found
      · rw [Option.map_eq_some_iff] at found
        rcases found with ⟨previous, stored, rfl⟩
        exact Or.inr ⟨previous, stored, .cancelled rfl⟩
      · exact unchanged found
  | piggybacked _ _ =>
      rw [remove_exchanges_lookup] at found
      split at found
      · cases found
      · exact unchanged found
  | reset _ _ =>
      rw [lookup_erase_eq] at found
      split at found
      · cases found
      · exact unchanged found
  | dangling _ _ => exact unchanged found
  | ticked now =>
      rw [tick_exchanges_lookup, Option.bind_eq_some_iff] at found
      rcases found with ⟨previous, stored, survives⟩
      exact Or.inr ⟨previous, stored, .survived rfl survives⟩

/-- An exchange that was not just opened continues an earlier one. -/
theorem Step.origin
    {table after : ExchangeTable} {event : ClientEvent}
    {deliveries : Multiset Delivery}
    (step : Step table event after deliveries)
    {token : Token} {exchange : Exchange}
    (found : after.exchanges.lookup token = some exchange) :
    event = .opened token exchange ∨
      ∃ previous, table.exchanges.lookup token = some previous ∧
        previous.Continues exchange := by
  rcases step.becomes found with isOpened | ⟨previous, stored, becomes⟩
  · exact Or.inl isOpened
  · exact Or.inr ⟨previous, stored, becomes.continues⟩

/-- A response completes the exchange under its token, or under the token
that the MID index gives for its MID. -/
theorem Step.completed
    {table after : ExchangeTable} {event : ClientEvent}
    {deliveries : Multiset Delivery}
    (step : Step table event after deliveries)
    {delivery : Delivery} {response : CoapResponse}
    (member : delivery ∈ deliveries)
    (completes : delivery.result = .ok response) :
    ∃ token exchange, table.exchanges.lookup token = some exchange ∧
      delivery.sender = exchange.responseTx ∧
        (event = .answered token response ∨
          ∃ mid, event = .piggybacked mid response ∧
            table.midToToken.lookup mid = some token) := by
  cases step with
  | @answered token exchange given found =>
      rcases Multiset.mem_singleton.mp member with rfl
      injection completes with equal
      subst equal
      exact ⟨token, exchange, found, rfl, Or.inl rfl⟩
  | @piggybacked mid token exchange given indexed found =>
      rcases Multiset.mem_singleton.mp member with rfl
      injection completes with equal
      subst equal
      exact ⟨token, exchange, found, rfl, Or.inr ⟨mid, rfl, indexed⟩⟩
  | reset indexed found =>
      rcases Multiset.mem_singleton.mp member with rfl
      cases completes
  | ticked now =>
      rcases Multiset.mem_map.mp member with ⟨exchange, _, rfl⟩
      cases completes
  | kept | opened | acknowledged | dangling =>
      exact absurd member (Multiset.notMem_zero _)

/-- A timeout is delivered by the timer, for an exchange that ran out. -/
theorem Step.timedOut
    {table after : ExchangeTable} {event : ClientEvent}
    {deliveries : Multiset Delivery}
    (step : Step table event after deliveries)
    {delivery : Delivery} {retransmits : Nat}
    (member : delivery ∈ deliveries)
    (isTimeout : delivery.result = .error (.timeout retransmits)) :
    ∃ now token exchange, event = .ticked now ∧
      table.exchanges.lookup token = some exchange ∧
        exchange.runsOut now = true ∧
          delivery.sender = exchange.responseTx ∧
            retransmits = exchange.retransmitCount := by
  cases step with
  | ticked now =>
      rcases Multiset.mem_map.mp member with ⟨exchange, expired, rfl⟩
      rcases Multiset.mem_filter.mp expired with ⟨isOpen, ranOut⟩
      rcases (mem_values_iff _ _).mp isOpen with ⟨token, found⟩
      injection isTimeout with equal
      injection equal with same
      exact ⟨now, token, exchange, rfl, found, ranOut, rfl, same.symm⟩
  | answered found | piggybacked indexed found | reset indexed found =>
      rcases Multiset.mem_singleton.mp member with rfl
      cases isTimeout
  | kept | opened | acknowledged | dangling =>
      exact absurd member (Multiset.notMem_zero _)

/-- What can be sent to the caller of a request. -/
def IsOutcome : Except TransportError CoapResponse → Prop
  | .ok _ => True
  | .error .reset => True
  | .error (.timeout _) => True
  | .error _ => False

theorem Step.isOutcome
    {table after : ExchangeTable} {event : ClientEvent}
    {deliveries : Multiset Delivery}
    (step : Step table event after deliveries)
    {delivery : Delivery} (member : delivery ∈ deliveries) :
    IsOutcome delivery.result := by
  cases step with
  | answered found | piggybacked indexed found | reset indexed found =>
      rcases Multiset.mem_singleton.mp member with rfl
      trivial
  | ticked now =>
      rcases Multiset.mem_map.mp member with ⟨exchange, _, rfl⟩
      trivial
  | kept | opened | acknowledged | dangling =>
      exact absurd member (Multiset.notMem_zero _)

end ExchangeTable

end Coapable.Transport
