import Coapable.Transport.MidIndex
import Coapable.Transport.Promptness

/-!
# The life of a request

To its caller and its peer a client request is a small automaton: it waits
with some number of copies sent, is acknowledged, and has its result.
`LifeStep` draws the automaton, each edge with the message that causes it and
with what is sent or delivered.  The loop refines it: whatever else goes on,
every iteration takes each request along one edge.

In particular an acknowledged request can be completed by a separate response
only, since the empty ACK takes its MID out of the index.
-/

namespace Coapable.Transport

open Coapable.BareCodec
open Coapable.CoapLite
open Coapable.Foundation.Execution
open Coapable.Foundation.FiniteMap
open Coapable.MessageTypes

/-! ## The index -/

namespace ExchangeTable

/-- Whatever is indexed is open, bears the MID and is retransmitted. -/
def IndexAwaits (table : ExchangeTable) : Prop :=
  ∀ mid token, table.midToToken.lookup mid = some token →
    ∃ exchange, table.exchanges.lookup token = some exchange ∧
      exchange.Awaits mid

theorem IndexAwaits.step
    {table after : ExchangeTable} {event : ClientEvent}
    {deliveries : Multiset Delivery}
    (awaits : table.IndexAwaits)
    (step : Step table event after deliveries)
    (fresh : ∀ token exchange, event = .opened token exchange →
      table.exchanges.lookup token = none)
    (armed : ∀ token exchange mid, event = .opened token exchange →
      exchange.messageId = some mid → exchange.Awaits mid) :
    after.IndexAwaits := by
  intro mid token indexed
  cases step with
  | kept => exact awaits mid token indexed
  | opened newToken newExchange =>
      rw [insert_midToToken_lookup] at indexed
      rw [insert_exchanges_lookup]
      split at indexed
      · next bears =>
          cases indexed
          exact ⟨newExchange, if_pos rfl, armed _ _ _ rfl bears⟩
      · rcases awaits mid token indexed with ⟨exchange, found, isAwaited⟩
        refine ⟨exchange, ?_, isAwaited⟩
        rw [if_neg]
        · exact found
        · rintro rfl
          cases (fresh _ _ rfl).symm.trans found
  | @answered answeredToken answeredExchange response found =>
      rw [remove_midToToken_lookup] at indexed
      split at indexed
      · cases indexed
      · next notBearing =>
          rcases awaits mid token indexed with
            ⟨exchange, stored, isAwaited⟩
          refine ⟨exchange, ?_, isAwaited⟩
          rw [remove_exchanges_lookup, if_neg]
          · exact stored
          · rintro rfl
            cases found.symm.trans stored
            exact notBearing isAwaited.1
  | @acknowledged acknowledgedMid acknowledgedToken isIndexed =>
      rw [lookup_erase_eq] at indexed
      split at indexed
      · cases indexed
      · next otherMid =>
          rcases awaits mid token indexed with
            ⟨exchange, stored, isAwaited⟩
          refine ⟨exchange, ?_, isAwaited⟩
          rw [lookup_modify, if_neg]
          · exact stored
          · rintro rfl
            rcases awaits _ _ isIndexed with ⟨same, sameStored, bears⟩
            cases stored.symm.trans sameStored
            exact otherMid
              (Option.some.inj (isAwaited.1.symm.trans bears.1))
  | @piggybacked answeredMid answeredToken answeredExchange response
      isIndexed found =>
      rw [remove_midToToken_lookup] at indexed
      split at indexed
      · cases indexed
      · next notBearing =>
          rw [unindex_midToToken_lookup] at indexed
          split at indexed
          · cases indexed
          · rcases awaits mid token indexed with
              ⟨exchange, stored, isAwaited⟩
            refine ⟨exchange, ?_, isAwaited⟩
            rw [remove_exchanges_lookup, if_neg]
            · exact stored
            · rintro rfl
              cases found.symm.trans stored
              exact notBearing isAwaited.1
  | @reset resetMid resetToken resetExchange isIndexed found =>
      rw [lookup_erase_eq] at indexed
      split at indexed
      · cases indexed
      · next otherMid =>
          rcases awaits mid token indexed with
            ⟨exchange, stored, isAwaited⟩
          refine ⟨exchange, ?_, isAwaited⟩
          rw [lookup_erase_eq, if_neg]
          · exact stored
          · rintro rfl
            rcases awaits _ _ isIndexed with ⟨same, sameStored, bears⟩
            cases stored.symm.trans sameStored
            exact otherMid
              (Option.some.inj (isAwaited.1.symm.trans bears.1))
  | @dangling _ danglingMid danglingToken isIndexed gone =>
      rcases awaits _ _ isIndexed with ⟨_, found, _⟩
      cases gone.symm.trans found
  | ticked now =>
      rw [tick_midToToken_lookup] at indexed
      split at indexed
      · cases indexed
      · next notRunOut =>
          rcases awaits mid token indexed with
            ⟨exchange, stored, isAwaited⟩
          cases survived : exchange.survive now with
          | none =>
              -- The MID of an exchange that runs out leaves the index.
              have ranOut := (exchange.survive_eq_none_iff now).mp survived
              exact absurd ((table.midRunsOut_iff now mid).mpr
                ⟨token, exchange, stored, ranOut, isAwaited.1⟩) notRunOut
          | some survivor =>
              have frame := Exchange.survive_frame survived
              refine ⟨survivor, ?_, frame.1.trans isAwaited.1,
                frame.2.trans isAwaited.2⟩
              rw [tick_exchanges_lookup, stored]
              exact survived

/-- How an event ends the exchange under a token, with the result. -/
inductive Ends (table : ExchangeTable) (token : Token)
    (exchange : Exchange) :
    ClientEvent → Except TransportError CoapResponse → Prop where
  | answered (response : CoapResponse) :
      Ends table token exchange (.answered token response) (.ok response)
  | piggybacked {mid : UInt16} (response : CoapResponse)
      (indexed : table.midToToken.lookup mid = some token) :
      Ends table token exchange (.piggybacked mid response) (.ok response)
  | reset {mid : UInt16}
      (indexed : table.midToToken.lookup mid = some token) :
      Ends table token exchange (.reset mid) (.error .reset)
  | ranOut {now : Nat} (ranOut : exchange.runsOut now = true) :
      Ends table token exchange (.ticked now)
        (.error (.timeout exchange.retransmitCount))

theorem Step.ends
    {table after : ExchangeTable} {event : ClientEvent}
    {deliveries : Multiset Delivery} {delivery : Delivery}
    (step : Step table event after deliveries)
    (member : delivery ∈ deliveries) :
    ∃ token exchange, table.exchanges.lookup token = some exchange ∧
      exchange.responseTx = delivery.sender ∧
        Ends table token exchange event delivery.result := by
  cases step with
  | @answered token exchange response found =>
      rcases Multiset.mem_singleton.mp member with rfl
      exact ⟨token, exchange, found, rfl, .answered response⟩
  | @piggybacked mid token exchange response indexed found =>
      rcases Multiset.mem_singleton.mp member with rfl
      exact ⟨token, exchange, found, rfl, .piggybacked response indexed⟩
  | @reset mid token exchange indexed found =>
      rcases Multiset.mem_singleton.mp member with rfl
      exact ⟨token, exchange, found, rfl, .reset indexed⟩
  | ticked now =>
      rcases Multiset.mem_map.mp member with ⟨exchange, expired, rfl⟩
      rcases Multiset.mem_filter.mp expired with ⟨isOpen, ranOut⟩
      rcases (mem_values_iff _ _).mp isOpen with ⟨token, found⟩
      exact ⟨token, exchange, found, rfl, .ranOut ranOut⟩
  | kept | opened | acknowledged | dangling =>
      exact absurd member (Multiset.notMem_zero _)

end ExchangeTable

/-- In every session whatever is indexed is open and retransmitted. -/
theorem indexAwaits_of_run
    {codec : Codec} {history : List LoopTransition} {loop : Loop}
    (run : LoopRun codec history loop)
    (notExhausted : Along TokensNotExhausted history)
    (peer : SocketAddr) :
    (loop.stack.client peer).IndexAwaits := by
  refine run.invariant_along
    (fun _ loop => (loop.stack.client peer).IndexAwaits) ?_ ?_
    notExhausted
  · rintro _ ⟨now, rfl⟩ mid token indexed
    cases indexed
  · intro history before after iteration effects earlier awaits fresh
      stepped
    rw [client_step (step_cases stepped).branch peer]
    apply awaits.step (ExchangeTable.step_apply _ _)
    · intro token exchange isOpened
      rcases opening_of_opened isOpened with ⟨opening, opens, rfl, rfl, _⟩
      exact token_fresh earlier stepped fresh opens
    · intro token exchange mid isOpened bears
      rcases opening_of_opened isOpened with ⟨opening, _, _, _, rfl⟩
      exact ⟨bears, Opening.exchange_isSome bears⟩

/-! ## The automaton -/

/-- Where the life of a request stands. -/
inductive Life where
  /-- The request and this number of copies were sent. -/
  | waiting (copies : Nat)
  /-- An empty ACK came; only a separate response is awaited. -/
  | acknowledged
  | finished (result : Except TransportError CoapResponse)

/-- How far the request is while its exchange is open. -/
def Opening.progress (opening : Opening) (exchange : Exchange) : Life :=
  match exchange.retransmit with
  | some state => .waiting state.retransmitCount
  | none =>
      if opening.outbound.request.confirmable then .acknowledged
      else .waiting 0

/-- The life of the request: where its exchange is, or the result that was
sent to the caller. -/
def Opening.life (opening : Opening) (history : List LoopTransition)
    (loop : Loop) : Option Life :=
  match opening.exchangeIn loop.stack with
  | some exchange => some (opening.progress exchange)
  | none =>
      (resultsOn opening.outbound.responseTx history).head?.map
        Life.finished

/-- The transition receives this packet from the peer of the request. -/
def Opening.Receives (codec : Codec) (opening : Opening)
    (transition : LoopTransition) (parsed : Packet) : Prop :=
  ∃ raw, transition.input.branch = .inbound raw opening.outbound.peer ∧
    codec.fromBytes raw = some parsed

/-- A separate response that is no duplicate bears the token. -/
def Opening.AnsweredBy (codec : Codec) (opening : Opening)
    (transition : LoopTransition) (response : CoapResponse) : Prop :=
  ∃ parsed, opening.Receives codec transition parsed ∧
    (parsed.header.messageType = .confirmable ∨
      parsed.header.messageType = .nonConfirmable) ∧
    transition.before.stack.isDuplicate opening.outbound.peer
      parsed.header.messageId = false ∧
    CoapResponse.fromPacket codec parsed = .ok response ∧
    parsed.token = opening.token

/-- An ACK with a response bears the MID. -/
def Opening.PiggybackedBy (codec : Codec) (opening : Opening)
    (transition : LoopTransition) (response : CoapResponse) : Prop :=
  ∃ parsed, opening.Receives codec transition parsed ∧
    parsed.header.messageType = .acknowledgement ∧
    CoapResponse.fromPacket codec parsed = .ok response ∧
    parsed.header.messageId = opening.mid

/-- An empty ACK or an RST bears the MID. -/
def Opening.SignalledBy (codec : Codec) (opening : Opening)
    (transition : LoopTransition) (kind : MessageType) : Prop :=
  ∃ parsed, opening.Receives codec transition parsed ∧
    parsed.header.messageType = kind ∧
    (kind = .acknowledgement → parsed.header.code = .empty) ∧
    parsed.header.messageId = opening.mid

/-- The result is sent to the caller. -/
def Opening.delivers (opening : Opening) (transition : LoopTransition)
    (result : Except TransportError CoapResponse) : Prop :=
  .deliver ⟨opening.outbound.responseTx, result⟩ ∈ transition.output

/--
The edges of the automaton.

Only a CON is copied, acknowledged, answered by a piggybacked response or
reset, and none of these happens once it is acknowledged.
-/
inductive LifeStep (codec : Codec) (opening : Opening)
    (transition : LoopTransition) : Life → Life → Prop where
  | kept {life : Life}
      (silent : ∀ result, ¬ opening.delivers transition result)
      (noCopy : opening.copyIn transition = none)
      (unanswered : ∀ response,
        opening.AnsweredBy codec transition response →
          ∃ result, life = .finished result) :
      LifeStep codec opening transition life life
  | copied {copies : Nat} {order : List (SocketAddr × List Token)}
      (confirmable : opening.outbound.request.confirmable = true)
      (isTimer : transition.input.branch = .retransmissionTimer order)
      (allowed : copies < maxRetransmit)
      (sent : .sendPacket opening.bytes opening.outbound.peer ∈
        transition.output) :
      LifeStep codec opening transition (.waiting copies)
        (.waiting (copies + 1))
  | acknowledged {copies : Nat}
      (confirmable : opening.outbound.request.confirmable = true)
      (signalled :
        opening.SignalledBy codec transition .acknowledgement) :
      LifeStep codec opening transition (.waiting copies) .acknowledged
  | answered {life : Life} {response : CoapResponse}
      (unfinished : ∀ result, life ≠ .finished result)
      (answers : opening.AnsweredBy codec transition response)
      (delivered : opening.delivers transition (.ok response)) :
      LifeStep codec opening transition life (.finished (.ok response))
  | piggybacked {copies : Nat} {response : CoapResponse}
      (confirmable : opening.outbound.request.confirmable = true)
      (answers : opening.PiggybackedBy codec transition response)
      (delivered : opening.delivers transition (.ok response)) :
      LifeStep codec opening transition (.waiting copies)
        (.finished (.ok response))
  | reset {copies : Nat}
      (confirmable : opening.outbound.request.confirmable = true)
      (signalled : opening.SignalledBy codec transition .reset)
      (delivered : opening.delivers transition (.error .reset)) :
      LifeStep codec opening transition (.waiting copies)
        (.finished (.error .reset))
  | expired {copies : Nat} {order : List (SocketAddr × List Token)}
      (isTimer : transition.input.branch = .retransmissionTimer order)
      (spent : copies =
        if opening.outbound.request.confirmable then maxRetransmit else 0)
      (delivered :
        opening.delivers transition (.error (.timeout copies))) :
      LifeStep codec opening transition (.waiting copies)
        (.finished (.error (.timeout copies)))

/-! ## One step -/

section Step

variable
  {codec : Codec} {opener transition : LoopTransition} {opening : Opening}
  {history : List LoopTransition} {loop : Loop} {exchange : Exchange}

theorem Opening.delivers_iff
    (opening : Opening) (transition : LoopTransition)
    (result : Except TransportError CoapResponse) :
    opening.delivers transition result ↔
      result ∈ resultsOn opening.outbound.responseTx [transition] := by
  rw [Opening.delivers, ← mem_deliveriesOf, resultsOn, List.mem_map]
  simp only [deliveredIn, List.flatMap_cons, List.flatMap_nil,
    List.append_nil, List.mem_filter, decide_eq_true_eq]
  constructor
  · intro member
    exact ⟨_, ⟨member, rfl⟩, rfl⟩
  · rintro ⟨⟨sender, result⟩, ⟨member, rfl⟩, rfl⟩
    exact member

theorem resultsOn_cons
    (sender : ResponseSender) (transition : LoopTransition)
    (history : List LoopTransition) :
    resultsOn sender (transition :: history) =
      resultsOn sender [transition] ++ resultsOn sender history := by
  simp [resultsOn, deliveredIn]

/-- No result was sent for a request whose exchange is open. -/
theorem resultsOn_of_open
    (run : LoopRun codec history loop)
    (notExhausted : Along TokensNotExhausted history)
    (member : opener ∈ history) (opens : Opens codec opener opening)
    (isOpen : opening.exchangeIn loop.stack = some exchange) :
    resultsOn opening.outbound.responseTx history = [] := by
  have once := senders_count_add_results run notExhausted member opens
  rcases (opening.exchangeIn_eq_some_iff _ _).mp isOpen with
    ⟨found, holds⟩
  have held := Multiset.count_pos.mpr
    ((mem_senders_iff loop.stack _).mpr ⟨_, _, _, found, holds⟩)
  exact List.eq_nil_of_length_eq_zero (by omega)

theorem messageId_of_open
    (run : LoopRun codec history loop)
    (member : opener ∈ history) (opens : Opens codec opener opening)
    (isOpen : opening.exchangeIn loop.stack = some exchange) :
    exchange.messageId =
      if opening.outbound.request.confirmable then some opening.mid
      else none := by
  rcases (opening.exchangeIn_eq_some_iff _ _).mp isOpen with
    ⟨found, holds⟩
  rcases exists_opening run found with ⟨other, openedFor⟩
  rcases openedFor.opened with ⟨otherOpener, otherMember, otherOpens⟩
  have same := opening_unique run otherMember member otherOpens opens
    (openedFor.responseTx.symm.trans holds)
  rw [← same]
  exact openedFor.messageId

/-- Only a CON that is not acknowledged is indexed, under its own MID. -/
theorem waiting_of_indexed
    (run : LoopRun codec history loop)
    (notExhausted : Along TokensNotExhausted history)
    (member : opener ∈ history) (opens : Opens codec opener opening)
    (isOpen : opening.exchangeIn loop.stack = some exchange)
    {mid : UInt16}
    (indexed : (loop.stack.client
      opening.outbound.peer).midToToken.lookup mid = some opening.token) :
    opening.outbound.request.confirmable = true ∧ mid = opening.mid ∧
      ∃ copies, opening.progress exchange = .waiting copies := by
  rcases indexAwaits_of_run run notExhausted _ mid _ indexed with
    ⟨stored, found, bears, armed⟩
  rw [((opening.exchangeIn_eq_some_iff _ _).mp isOpen).1,
    Option.some.injEq] at found
  subst found
  rw [messageId_of_open run member opens isOpen] at bears
  split at bears
  · next confirmable =>
      refine ⟨confirmable, (Option.some.inj bears).symm, ?_⟩
      rcases Option.isSome_iff_exists.mp armed with ⟨state, isArmed⟩
      exact ⟨state.retransmitCount, by rw [Opening.progress, isArmed]⟩
  · cases bears

/-- The life of a request before and after a step. -/
def LivesOn (codec : Codec) (opening : Opening)
    (older : List LoopTransition) (transition : LoopTransition) : Prop :=
  ∃ before after, opening.life older transition.before = some before ∧
    opening.life (transition :: older) transition.after = some after ∧
      LifeStep codec opening transition before after

theorem life_of_open
    (isOpen : opening.exchangeIn loop.stack = some exchange) :
    opening.life history loop = some (opening.progress exchange) := by
  rw [Opening.life, isOpen]

theorem life_of_closed
    (closed : opening.exchangeIn loop.stack = none)
    {result : Except TransportError CoapResponse}
    (results :
      resultsOn opening.outbound.responseTx history = [result]) :
    opening.life history loop = some (.finished result) := by
  rw [Opening.life, closed, results]
  rfl

theorem Opening.progress_ne_finished
    (opening : Opening) (exchange : Exchange)
    (result : Except TransportError CoapResponse) :
    opening.progress exchange ≠ .finished result := by
  rw [Opening.progress]
  split
  · exact nofun
  · split <;> exact nofun

theorem answeredBy_of_origin
    {response : CoapResponse}
    (isEvent : transition.before.stack.clientEvent codec transition.input
      opening.outbound.peer = .answered opening.token response) :
    opening.AnsweredBy codec transition response := by
  have origin := clientEvent_origin codec transition.before.stack
    transition.input opening.outbound.peer
  rw [isEvent] at origin
  generalize isToken : opening.token = token at origin
  cases origin with
  | @answered raw parsed _ taken parses kind fresh decoded =>
      exact ⟨parsed, ⟨raw, taken, parses⟩, kind, fresh, decoded,
        isToken.symm⟩

theorem clientEvent_of_answeredBy
    {response : CoapResponse}
    (answers : opening.AnsweredBy codec transition response) :
    transition.before.stack.clientEvent codec transition.input
      opening.outbound.peer = .answered opening.token response := by
  rcases answers with
    ⟨parsed, ⟨raw, taken, parses⟩, kind, fresh, decoded, isToken⟩
  rw [clientEvent_inbound taken parses, if_pos rfl, fresh, ← isToken]
  rcases kind with kind | kind <;>
    simp [packetEvent, kind, decoded]

/-- A separate response closes the exchange under its token. -/
theorem closed_of_answeredBy
    (stepped : transition.before.step codec transition.input =
      some (transition.after, transition.output))
    {response : CoapResponse}
    (answers : opening.AnsweredBy codec transition response) :
    opening.exchangeIn transition.after.stack = none := by
  rw [Opening.exchangeIn, client_step (step_cases stepped).branch,
    clientEvent_of_answeredBy answers]
  simp only [ExchangeTable.apply, ExchangeTable.answer]
  split
  · rw [ExchangeTable.remove_exchanges_lookup, if_pos rfl]
    rfl
  · next absent =>
      rw [absent]
      rfl

/-- What runs out is a CON with all its copies sent, or a NON. -/
theorem OnSchedule.progress_of_runsOut
    {newer : List LoopTransition}
    (schedule : OnSchedule opener opening newer transition.before)
    (isOpen :
      opening.exchangeIn transition.before.stack = some exchange)
    (ranOut : exchange.runsOut transition.input.now = true) :
    opening.progress exchange = .waiting exchange.retransmitCount ∧
      exchange.retransmitCount =
        if opening.outbound.request.confirmable then maxRetransmit
        else 0 := by
  by_cases confirmable : opening.outbound.request.confirmable = true
  · have spent := (schedule.runsOut_con confirmable isOpen ranOut).1
    rw [if_pos confirmable]
    refine ⟨?_, spent⟩
    rw [Exchange.retransmitCount] at spent
    rw [Opening.progress, Exchange.retransmitCount]
    cases armed : exchange.retransmit with
    | none =>
        rw [armed] at spent
        cases spent
    | some state => rfl
  · have isNon := Bool.eq_false_of_not_eq_true confirmable
    have unsent := (schedule.runsOut_non isNon isOpen ranOut).1
    have expected := schedule.expects exchange isOpen
    rw [Opening.Expects, if_neg confirmable] at expected
    rw [if_neg confirmable]
    refine ⟨?_, unsent⟩
    rw [Opening.progress, expected.1, unsent]
    exact if_neg confirmable

/-- What the event ends with is the edge that the life of the request goes
along. -/
theorem lifeStep_of_ends
    {newer older : List LoopTransition}
    {result : Except TransportError CoapResponse}
    (run : LoopRun codec (newer ++ opener :: older) transition.before)
    (notExhausted :
      Along TokensNotExhausted (newer ++ opener :: older))
    (opens : Opens codec opener opening)
    (isOpen :
      opening.exchangeIn transition.before.stack = some exchange)
    (delivered : opening.delivers transition result)
    (ends : ExchangeTable.Ends
      (transition.before.stack.client opening.outbound.peer)
      opening.token exchange
      (transition.before.stack.clientEvent codec transition.input
        opening.outbound.peer) result) :
    LifeStep codec opening transition (opening.progress exchange)
      (.finished result) := by
  have origin := clientEvent_origin codec transition.before.stack
    transition.input opening.outbound.peer
  have indexedOnly {mid : UInt16}
      (indexed : (transition.before.stack.client
        opening.outbound.peer).midToToken.lookup mid =
          some opening.token) :=
    waiting_of_indexed run notExhausted (by simp) opens isOpen indexed
  generalize isEvent : transition.before.stack.clientEvent codec
    transition.input opening.outbound.peer = event at ends origin
  cases ends with
  | answered response =>
      exact .answered (opening.progress_ne_finished exchange)
        (answeredBy_of_origin isEvent) delivered
  | @piggybacked mid response indexed =>
      rcases indexedOnly indexed with
        ⟨confirmable, sameMid, copies, isWaiting⟩
      rw [isWaiting]
      cases origin with
      | @piggybacked raw parsed _ taken parses kind decoded =>
          exact .piggybacked confirmable
            ⟨parsed, ⟨raw, taken, parses⟩, kind, decoded, sameMid⟩
            delivered
  | @reset mid indexed =>
      rcases indexedOnly indexed with
        ⟨confirmable, sameMid, copies, isWaiting⟩
      rw [isWaiting]
      cases origin with
      | @reset raw parsed taken parses kind =>
          exact .reset confirmable
            ⟨parsed, ⟨raw, taken, parses⟩, kind, nofun, sameMid⟩
            delivered
  | @ranOut now ranOut =>
      cases origin with
      | ticked isTimer =>
          rcases (onSchedule_of_run run opens).2.progress_of_runsOut isOpen
            ranOut with ⟨isWaiting, spent⟩
          rw [isWaiting]
          exact .expired isTimer spent delivered

variable {newer older : List LoopTransition}

theorem lifeStep_of_acknowledged
    (run : LoopRun codec (newer ++ opener :: older) transition.before)
    (notExhausted :
      Along TokensNotExhausted (newer ++ opener :: older))
    (opens : Opens codec opener opening)
    (isOpen :
      opening.exchangeIn transition.before.stack = some exchange)
    {mid : UInt16}
    (isEvent : transition.before.stack.clientEvent codec transition.input
      opening.outbound.peer = .acknowledged mid)
    (indexed : (transition.before.stack.client
      opening.outbound.peer).midToToken.lookup mid = some opening.token) :
    LifeStep codec opening transition (opening.progress exchange)
      (opening.progress exchange.cancelRetransmission) := by
  rcases waiting_of_indexed run notExhausted (by simp) opens isOpen
    indexed with ⟨confirmable, sameMid, copies, isWaiting⟩
  have isAcknowledged :
      opening.progress exchange.cancelRetransmission =
        .acknowledged := if_pos confirmable
  rw [isWaiting, isAcknowledged]
  have origin := clientEvent_origin codec transition.before.stack
    transition.input opening.outbound.peer
  rw [isEvent] at origin
  cases origin with
  | @acknowledged raw parsed taken parses kind code =>
      exact .acknowledged confirmable
        ⟨parsed, ⟨raw, taken, parses⟩, kind, fun _ => code, sameMid⟩

/-- A request that is finished stays finished with the same result. -/
theorem livesOn_of_finished
    (run : LoopRun codec (newer ++ opener :: older) transition.before)
    (stepped : transition.before.step codec transition.input =
      some (transition.after, transition.output))
    (notExhausted :
      Along TokensNotExhausted (transition :: newer ++ opener :: older))
    (opens : Opens codec opener opening)
    (closed : opening.exchangeIn transition.before.stack = none) :
    LivesOn codec opening (newer ++ opener :: older) transition := by
  have old := (onSchedule_of_run run opens).1
  have staysClosed : opening.exchangeIn transition.after.stack = none := by
    rw [Option.eq_none_iff_forall_ne_some]
    intro exchange isOpen
    rcases becomes_of_exchangeIn stepped old isOpen with
      ⟨previous, wasOpen, _⟩
    cases closed.symm.trans wasOpen
  rcases exists_result_of_closed run notExhausted.2 (by simp) opens
    closed with ⟨result, results⟩
  rcases exists_result_of_closed (run.extend stepped) notExhausted
    (by simp) opens staysClosed with ⟨other, resultsAfter⟩
  -- There is one result, so the step delivers none.
  rw [resultsOn_cons, results] at resultsAfter
  have none_now :
      resultsOn opening.outbound.responseTx [transition] = [] :=
    List.eq_nil_of_length_eq_zero (by
      have length := congrArg List.length resultsAfter
      rw [List.length_append] at length
      exact Nat.add_right_cancel length)
  have same :
      resultsOn opening.outbound.responseTx
        (transition :: (newer ++ opener :: older)) = [result] := by
    rw [resultsOn_cons, none_now, results]
    rfl
  refine ⟨_, _, life_of_closed closed results,
    life_of_closed staysClosed same, .kept ?_ ?_ ?_⟩
  · intro late delivered
    rw [opening.delivers_iff, none_now] at delivered
    cases delivered
  · cases copied : opening.copyIn transition with
    | none => rfl
    | some copy =>
        rcases exists_armed_of_copyIn copied with
          ⟨exchange, _, wasOpen, _⟩
        cases closed.symm.trans wasOpen
  · intro response _
    exact ⟨result, rfl⟩

/-- A step that closes the exchange finishes the request. -/
theorem livesOn_of_closing
    (run : LoopRun codec (newer ++ opener :: older) transition.before)
    (stepped : transition.before.step codec transition.input =
      some (transition.after, transition.output))
    (notExhausted :
      Along TokensNotExhausted (transition :: newer ++ opener :: older))
    (opens : Opens codec opener opening)
    (isOpen :
      opening.exchangeIn transition.before.stack = some exchange)
    (closed : opening.exchangeIn transition.after.stack = none) :
    LivesOn codec opening (newer ++ opener :: older) transition := by
  rcases exists_result_of_closed (run.extend stepped) notExhausted
    (by simp) opens closed with ⟨result, results⟩
  have delivered : opening.delivers transition result := by
    rw [resultsOn_cons, resultsOn_of_open run notExhausted.2 (by simp)
      opens isOpen, List.append_nil] at results
    rw [opening.delivers_iff, results]
    exact List.mem_singleton_self _
  refine ⟨_, _, life_of_open isOpen, life_of_closed closed results, ?_⟩
  have delivers := delivered
  rw [Opening.delivers, ← mem_deliveriesOf,
    mem_deliveriesOf_iff (step_cases stepped).branch] at delivers
  rcases delivers with ⟨peer, delivers⟩
  rcases (ExchangeTable.step_apply _ _).ends delivers with
    ⟨token, ended, found, holds, ends⟩
  rcases exchangeIn_of_holds run (by simp) opens found holds with
    ⟨rfl, rfl, endedIsOpen⟩
  cases isOpen.symm.trans endedIsOpen
  exact lifeStep_of_ends run notExhausted.2 opens isOpen delivered ends

/-- A request that stays open goes along an edge between open lives. -/
theorem livesOn_of_open
    (run : LoopRun codec (newer ++ opener :: older) transition.before)
    (stepped : transition.before.step codec transition.input =
      some (transition.after, transition.output))
    (notExhausted :
      Along TokensNotExhausted (transition :: newer ++ opener :: older))
    (opens : Opens codec opener opening) {later : Exchange}
    (isOpen :
      opening.exchangeIn transition.before.stack = some exchange)
    (staysOpen :
      opening.exchangeIn transition.after.stack = some later) :
    LivesOn codec opening (newer ++ opener :: older) transition := by
  refine ⟨_, _, life_of_open isOpen, life_of_open staysOpen, ?_⟩
  have silent (result : Except TransportError CoapResponse) :
      ¬ opening.delivers transition result := by
    have results := resultsOn_of_open (run.extend stepped) notExhausted
      (by simp) opens staysOpen
    rw [resultsOn_cons, List.append_eq_nil_iff] at results
    rw [opening.delivers_iff, results.1]
    exact List.not_mem_nil
  have unanswered (response : CoapResponse)
      (answers : opening.AnsweredBy codec transition response) :
      ∃ result, opening.progress exchange = .finished result := by
    cases staysOpen.symm.trans (closed_of_answeredBy stepped answers)
  by_cases isTimer :
      ∃ order, transition.input.branch = .retransmissionTimer order
  · rcases isTimer with ⟨order, isTimer⟩
    have copied := copyIn_of_timer opening isTimer
    have survives := exchangeIn_of_timer opening stepped isTimer
    rw [isOpen, Option.bind_some] at copied survives
    rw [staysOpen] at survives
    rcases exchange.resend_cases transition.input.now with
      ⟨nothing, kept⟩ | ⟨state, armed, _, allowed, resends, advances⟩
    · rw [(kept later survives.symm).1]
      rw [nothing] at copied
      exact .kept silent copied unanswered
    · rw [advances, Option.some.injEq] at survives
      subst survives
      rw [resends, Option.map_some] at copied
      have follows := ((onSchedule_of_run run opens).2.expects exchange
        isOpen).follows armed
      have sent := (copy_sent run stepped copied).2
      rw [follows.2.2.packetBytes_eq] at sent
      have isWaiting : opening.progress exchange =
          .waiting state.retransmitCount := by
        rw [Opening.progress, armed]
      rw [isWaiting, Opening.progress, RetransmitState.advance,
        if_neg (Nat.not_le.mpr allowed)]
      exact .copied follows.1 isTimer allowed sent
  · have noCopy := copyIn_of_not_timer opening (not_exists.mp isTimer)
    rcases becomes_of_exchangeIn stepped (onSchedule_of_run run opens).1
      staysOpen with ⟨previous, wasOpen, becomes⟩
    rw [isOpen, Option.some.injEq] at wasOpen
    subst wasOpen
    cases becomes with
    | kept => exact .kept silent noCopy unanswered
    | @cancelled mid isEvent =>
        rcases (opening.exchangeIn_eq_some_iff _ _).mp staysOpen with
          ⟨found, _⟩
        rw [client_step (step_cases stepped).branch, isEvent] at found
        rcases ExchangeTable.indexed_or_kept found with indexed | kept
        · exact lifeStep_of_acknowledged run notExhausted.2 opens isOpen
            isEvent indexed
        · rw [((opening.exchangeIn_eq_some_iff _ _).mp isOpen).1,
            Option.some.injEq] at kept
          rw [← kept]
          exact .kept silent noCopy unanswered
    | survived isEvent _ =>
        have origin := clientEvent_origin codec transition.before.stack
          transition.input opening.outbound.peer
        rw [isEvent] at origin
        cases origin with
        | ticked taken => exact absurd ⟨_, taken⟩ isTimer

end Step

/-! ## Runs -/

section Run

variable
  {codec : Codec} {opener transition : LoopTransition} {opening : Opening}
  {newer older later rest : List LoopTransition} {loop : Loop}

theorem livesOn_of_run
    (run : LoopRun codec (newer ++ opener :: older) transition.before)
    (stepped : transition.before.step codec transition.input =
      some (transition.after, transition.output))
    (notExhausted :
      Along TokensNotExhausted (transition :: newer ++ opener :: older))
    (opens : Opens codec opener opening) :
    LivesOn codec opening (newer ++ opener :: older) transition := by
  cases wasOpen : opening.exchangeIn transition.before.stack with
  | none =>
      exact livesOn_of_finished run stepped notExhausted opens wasOpen
  | some exchange =>
      cases staysOpen : opening.exchangeIn transition.after.stack with
      | none =>
          exact livesOn_of_closing run stepped notExhausted opens wasOpen
            staysOpen
      | some later =>
          exact livesOn_of_open run stepped notExhausted opens wasOpen
            staysOpen

theorem life_of_opener
    (run : LoopRun codec (opener :: older) loop)
    (opens : Opens codec opener opening) :
    opening.life (opener :: older) opener.after = some (.waiting 0) := by
  rw [life_of_open (exchangeIn_of_opens run.last.2.1 opens),
    Opening.exchange]
  split
  · rfl
  · next nonConfirmable => exact congrArg some (if_neg nonConfirmable)

theorem lives_of_run
    (run : LoopRun codec (newer ++ opener :: older) loop)
    (notExhausted :
      Along TokensNotExhausted (newer ++ opener :: older))
    (opens : Opens codec opener opening) :
    Along (fun rest transition =>
      LivesOn codec opening (rest ++ opener :: older) transition) newer := by
  induction newer generalizing loop with
  | nil => trivial
  | cons transition rest induction =>
      rcases run.last with ⟨earlier, stepped, rfl⟩
      exact ⟨livesOn_of_run earlier stepped notExhausted opens,
        induction earlier notExhausted.2⟩

/-- From an acknowledged life there is one edge, the separate response. -/
theorem LifeStep.of_acknowledged
    {life : Life}
    (step : LifeStep codec opening transition .acknowledged life)
    (unanswered : ∀ response,
      ¬ opening.AnsweredBy codec transition response) :
    life = .acknowledged := by
  cases step with
  | kept => rfl
  | answered _ answers _ => exact absurd answers (unanswered _)

theorem acknowledged_of_unanswered
    (run : LoopRun codec
      ((later ++ transition :: rest) ++ opener :: older) loop)
    (notExhausted : Along TokensNotExhausted
      ((later ++ transition :: rest) ++ opener :: older))
    (opens : Opens codec opener opening)
    (acknowledged :
      opening.life (transition :: rest ++ opener :: older)
        transition.after = some .acknowledged)
    (unanswered : ∀ next ∈ later, ∀ response,
      ¬ opening.AnsweredBy codec next response) :
    opening.life ((later ++ transition :: rest) ++ opener :: older) loop =
      some .acknowledged := by
  induction later generalizing loop with
  | nil =>
      rcases run.last with ⟨_, _, rfl⟩
      exact acknowledged
  | cons next later induction =>
      rcases run.last with ⟨earlier, stepped, rfl⟩
      have before := induction earlier notExhausted.2
        fun other member =>
          unanswered other (List.mem_cons_of_mem _ member)
      rcases livesOn_of_run earlier stepped notExhausted opens with
        ⟨lifeBefore, lifeAfter, isBefore, isAfter, step⟩
      cases before.symm.trans isBefore
      rw [step.of_acknowledged (unanswered next List.mem_cons_self)]
        at isAfter
      exact isAfter

/--
A request begins its life waiting, and every iteration takes it along an edge
of the automaton.  Once it is acknowledged it stays so until a separate
response bears its token, in every continuation.
-/
theorem request_lives
    (run : LoopRun codec (newer ++ opener :: older) loop)
    (notExhausted :
      Along TokensNotExhausted (newer ++ opener :: older))
    (opens : Opens codec opener opening) :
    opening.life (opener :: older) opener.after = some (.waiting 0) ∧
      Along (fun rest transition =>
        LivesOn codec opening (rest ++ opener :: older) transition)
        newer ∧
      ∀ later transition rest,
        newer = later ++ transition :: rest →
          opening.life (transition :: rest ++ opener :: older)
              transition.after = some .acknowledged →
            (∀ next ∈ later, ∀ response,
              ¬ opening.AnsweredBy codec next response) →
            opening.life (newer ++ opener :: older) loop =
              some .acknowledged := by
  refine ⟨?_, lives_of_run run notExhausted opens, ?_⟩
  · have suffix : opener :: older <:+ newer ++ opener :: older :=
      List.suffix_append _ _
    rcases run.of_suffix suffix with ⟨earlier, stepped⟩
    exact life_of_opener (earlier.extend stepped) opens
  · rintro later transition rest rfl acknowledged unanswered
    exact acknowledged_of_unanswered run notExhausted opens acknowledged
      unanswered

end Run

/-- A request is taken, acknowledged and answered by a separate response. -/
def acknowledgedThenAnswered : List LoopTransition → Bool
  | [answered, acknowledged, opener] =>
      (opener.before.stack.opening bareCodec opener.input).any
        fun opening =>
          decide (resultsOn opening.outbound.responseTx
            [answered, acknowledged] ≠ []) &&
          (opening.exchangeIn acknowledged.after.stack).any
            fun exchange => exchange.retransmit.isNone
  | _ => false

/-- A request that goes from waiting over acknowledged to finished. -/
theorem request_lives_on_separate_response :
    ∃ answered acknowledged opener opening loop,
      LoopRun bareCodec [answered, acknowledged, opener] loop ∧
        Opens bareCodec opener opening ∧
        opening.life [opener] opener.after = some (.waiting 0) ∧
          LivesOn bareCodec opening [opener] acknowledged ∧
            LivesOn bareCodec opening [acknowledged, opener] answered ∧
        (opening.exchangeIn acknowledged.after.stack).any
          (fun exchange => exchange.retransmit.isNone) = true ∧
          resultsOn opening.outbound.responseTx
            [answered, acknowledged] ≠ [] := by
  rcases exists_run_of_replay (Loop.initial_start bareCodec 0)
      [firstGet,
        .plain (fromSecs 2) (.inbound [0x60, 0, 0, 0] (.loopback 5683)),
        .plain (fromSecs 3)
          (.inbound [0x54, 0x45, 1, 0, 0, 0, 0, 0] (.loopback 5683))]
      (fun history _ => acknowledgedThenAnswered history) (by decide) with
    ⟨history, loop, run, checked⟩
  unfold acknowledgedThenAnswered at checked
  split at checked
  · next answered acknowledged opener =>
      rw [Option.any_eq_true] at checked
      rcases checked with ⟨opening, opens, checked⟩
      rw [Bool.and_eq_true, decide_eq_true_eq] at checked
      have kept : LoopRun bareCodec
          ([answered, acknowledged] ++ opener :: []) loop := run
      rcases request_lives kept
          (tokensNotExhausted_of_length (show 3 < 2 ^ 32 by decide))
          opens with
        ⟨begins, ⟨answeredStep, acknowledgedStep, _⟩, _⟩
      exact ⟨answered, acknowledged, opener, opening, loop, run, opens,
        begins, acknowledgedStep, answeredStep, checked.2, checked.1⟩
  · cases checked

end Coapable.Transport
