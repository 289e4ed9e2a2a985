import Coapable.Transport.ClientView

/-!
# The client requests behind the open exchanges

An exchange is opened by one transition of the history and keeps, as long as
it is open, the channel, the peer, the token and the MID it was opened with.
Channels are never handed out twice, so a result names the request it is for.
-/

namespace Coapable.Transport

open Coapable.CoapLite
open Coapable.Foundation.Execution
open Coapable.Foundation.FiniteMap
open Coapable.MessageTypes

/-- The transition takes a client request and opens its exchange. -/
def Opens (codec : Codec) (transition : LoopTransition)
    (opening : Opening) : Prop :=
  transition.before.stack.opening codec transition.input = some opening

/-- An opening is a request that was taken, under the next token and the next
MID of its session. -/
theorem opening_cases
    {codec : Codec} {stack : CoapStack} {iteration : Iteration}
    {opening : Opening}
    (opens : stack.opening codec iteration = some opening) :
    iteration.branch = .outboundRequest (some opening.outbound) ∧
      opening.token =
        (stack.sessionFor iteration
          opening.outbound.peer).tokenAllocator.allocate.1 ∧
      opening.mid =
        (stack.sessionFor iteration
          opening.outbound.peer).midAllocator.allocate.1 ∧
      codec.toBytes (opening.outbound.request.toPacket codec
        opening.token opening.mid) = some opening.bytes := by
  simp only [CoapStack.opening] at opens
  split at opens
  · next outbound taken =>
      rw [Option.map_eq_some_iff] at opens
      rcases opens with ⟨bytes, encoded, rfl⟩
      exact ⟨taken, rfl, rfl, encoded⟩
  · cases opens

theorem opening_token_length
    {codec : Codec} {stack : CoapStack} {iteration : Iteration} {opening : Opening}
    (opens : stack.opening codec iteration = some opening) :
    opening.token.length ≤ 8 := by
  rw [(opening_cases opens).2.1]
  simp [TokenAllocator.allocate, toBeBytes]

theorem clientEvent_of_opening
    {codec : Codec} {stack : CoapStack} {iteration : Iteration}
    {opening : Opening}
    (opens : stack.opening codec iteration = some opening) :
    stack.clientEvent codec iteration opening.outbound.peer =
      .opened opening.token (opening.exchange iteration) := by
  rw [CoapStack.clientEvent, (opening_cases opens).1]
  simp only [opens, if_true]

/-- Only a client request opens an exchange. -/
theorem opening_eq_none
    (codec : Codec) (stack : CoapStack) {iteration : Iteration}
    (noRequest : ∀ outbound,
      iteration.branch ≠ .outboundRequest (some outbound)) :
    stack.opening codec iteration = none := by
  rw [Option.eq_none_iff_forall_ne_some]
  intro opening opens
  exact noRequest _ (opening_cases opens).1

/-- What is opened is the exchange of a request that was encoded. -/
theorem opening_of_opened
    {codec : Codec} {stack : CoapStack} {iteration : Iteration}
    {peer : SocketAddr} {token : Token} {exchange : Exchange}
    (isOpened : stack.clientEvent codec iteration peer =
      .opened token exchange) :
    ∃ opening, stack.opening codec iteration = some opening ∧
      opening.outbound.peer = peer ∧ opening.token = token ∧
        opening.exchange iteration = exchange := by
  have origin := clientEvent_origin codec stack iteration peer
  rw [isOpened] at origin
  cases origin with
  | @opened opening opens isPeer => exact ⟨opening, opens, isPeer, rfl, rfl⟩

theorem clientEvent_ne_opened
    (codec : Codec) (stack : CoapStack) {iteration : Iteration}
    (noRequest : ∀ outbound,
      iteration.branch ≠ .outboundRequest (some outbound))
    (peer : SocketAddr) (token : Token) (exchange : Exchange) :
    stack.clientEvent codec iteration peer ≠ .opened token exchange := by
  intro isOpened
  rcases opening_of_opened isOpened with ⟨opening, opens, _⟩
  rw [opening_eq_none codec stack noRequest] at opens
  cases opens

@[simp]
theorem Opening.exchange_responseTx
    (opening : Opening) (iteration : Iteration) :
    (opening.exchange iteration).responseTx =
      opening.outbound.responseTx := by
  simp only [Opening.exchange]
  split <;> rfl

@[simp]
theorem Opening.exchange_messageId
    (opening : Opening) (iteration : Iteration) :
    (opening.exchange iteration).messageId =
      if opening.outbound.request.confirmable then some opening.mid
      else none := by
  simp only [Opening.exchange]
  split <;> rfl

theorem Opening.exchange_storedPacket
    {opening : Opening} {iteration : Iteration} {bytes : Bytes}
    (stored : (opening.exchange iteration).storedPacket = some bytes) :
    opening.bytes = bytes := by
  simp only [Opening.exchange] at stored
  split at stored
  · exact Option.some.inj stored
  · cases stored

/-! ## Channels -/

theorem opens_channel
    {codec : Codec} {before after : Loop} {iteration : Iteration}
    {effects : List Effect} {opening : Opening}
    (facts : StepFacts codec before iteration after effects)
    (opens : before.stack.opening codec iteration = some opening) :
    opening.outbound.responseTx = ⟨before.channels⟩ ∧
      after.channels = before.channels + 1 := by
  have taken : iteration.channelTaken =
      some opening.outbound.responseTx := by
    rw [Iteration.channelTaken, (opening_cases opens).1]
  refine ⟨facts.channel_fresh _ taken, ?_⟩
  rw [facts.channels_after, taken]
  rfl

/-- The channels of the past were numbered before the next one. -/
theorem opens_channel_lt
    {codec : Codec} {history : List LoopTransition} {loop : Loop}
    (run : LoopRun codec history loop) :
    ∀ transition ∈ history, ∀ opening, Opens codec transition opening →
      opening.outbound.responseTx.channel < loop.channels := by
  refine run.invariant
    (fun history loop =>
      ∀ transition ∈ history, ∀ opening,
        Opens codec transition opening →
          opening.outbound.responseTx.channel < loop.channels) ?_ ?_
  · intro loop _ transition member
    cases member
  · intro history before after iteration effects _ earlier stepped
      transition member opening opens
    have facts := step_cases stepped
    rcases List.mem_cons.mp member with rfl | older
    · rcases opens_channel facts opens with ⟨channel, channels⟩
      rw [channel, channels]
      exact Nat.lt_succ_self _
    · have bound := earlier transition older opening opens
      rw [facts.channels_after]
      omega

/-- Two requests that share their channel are one. -/
theorem opening_unique
    {codec : Codec} {history : List LoopTransition} {loop : Loop}
    (run : LoopRun codec history loop)
    {left right : LoopTransition} {leftOpening rightOpening : Opening}
    (leftMember : left ∈ history) (rightMember : right ∈ history)
    (leftOpens : Opens codec left leftOpening)
    (rightOpens : Opens codec right rightOpening)
    (sameChannel : leftOpening.outbound.responseTx =
      rightOpening.outbound.responseTx) :
    leftOpening = rightOpening := by
  induction run with
  | start initial => cases leftMember
  | @extend history before after iteration effects earlier stepped
      induction =>
      have facts := step_cases stepped
      have apart
          {transition : LoopTransition} {opening current : Opening}
          (older : transition ∈ history)
          (opens : Opens codec transition opening)
          (opensNow :
            before.stack.opening codec iteration = some current) :
          opening.outbound.responseTx ≠
            current.outbound.responseTx := by
        have bound := opens_channel_lt earlier transition older opening
          opens
        rw [(opens_channel facts opensNow).1]
        intro equal
        rw [equal] at bound
        exact absurd bound (Nat.lt_irrefl _)
      rcases List.mem_cons.mp leftMember with rfl | leftOlder
      · rcases List.mem_cons.mp rightMember with rfl | rightOlder
        · exact Option.some.inj (leftOpens.symm.trans rightOpens)
        · exact absurd sameChannel.symm
            (apart rightOlder rightOpens leftOpens)
      · rcases List.mem_cons.mp rightMember with rfl | rightOlder
        · exact absurd sameChannel (apart leftOlder leftOpens rightOpens)
        · exact induction leftOlder rightOlder

/-! ## Open exchanges -/

/-- The exchange under the token of the peer was opened for this request. -/
structure OpenedFor (codec : Codec) (history : List LoopTransition)
    (peer : SocketAddr) (token : Token) (exchange : Exchange)
    (opening : Opening) : Prop where
  opened : ∃ transition ∈ history, Opens codec transition opening
  peer_eq : opening.outbound.peer = peer
  token_eq : opening.token = token
  responseTx : exchange.responseTx = opening.outbound.responseTx
  messageId : exchange.messageId =
    if opening.outbound.request.confirmable then some opening.mid else none

theorem OpenedFor.cons
    {codec : Codec} {history : List LoopTransition} {peer : SocketAddr}
    {token : Token} {exchange : Exchange} {opening : Opening}
    (openedFor :
      OpenedFor codec history peer token exchange opening)
    (transition : LoopTransition) :
    OpenedFor codec (transition :: history) peer token exchange
      opening := by
  rcases openedFor.opened with ⟨opener, member, opens⟩
  exact { openedFor with
    opened := ⟨opener, List.mem_cons_of_mem _ member, opens⟩ }

/-- Every open exchange was opened for a request of the history. -/
theorem exists_opening
    {codec : Codec} {history : List LoopTransition} {loop : Loop}
    (run : LoopRun codec history loop)
    {peer : SocketAddr} {token : Token} {exchange : Exchange}
    (found :
      (loop.stack.client peer).exchanges.lookup token = some exchange) :
    ∃ opening, OpenedFor codec history peer token exchange opening := by
  induction run generalizing exchange with
  | start initial =>
      rcases initial with ⟨now, rfl⟩
      cases found
  | @extend history before after iteration effects earlier stepped
      induction =>
      have facts := step_cases stepped
      rw [client_step facts.branch peer] at found
      rcases ((before.stack.client peer).step_apply _).origin found with
        isOpened | ⟨previous, stored, responseTx, messageId, _⟩
      · rcases opening_of_opened isOpened with
          ⟨opening, opens, isPeer, isToken, rfl⟩
        exact ⟨opening, {
          opened := ⟨_, List.mem_cons_self, opens⟩
          peer_eq := isPeer
          token_eq := isToken
          responseTx := by simp
          messageId := by simp }⟩
      · rcases induction stored with ⟨opening, openedFor⟩
        refine ⟨opening, {
          openedFor.cons _ with
          responseTx := responseTx ▸ openedFor.responseTx
          messageId := messageId ▸ openedFor.messageId }⟩

/-- What holds of every exchange that is opened, and of what an event makes of
an exchange, holds of every exchange of a run. -/
theorem exchanges_of_run
    {codec : Codec} {history : List LoopTransition} {loop : Loop}
    (holds : Exchange → Prop)
    (opened : ∀ (opening : Opening) (iteration : Iteration),
      holds (opening.exchange iteration))
    (kept : ∀ event previous exchange,
      ExchangeTable.Becomes event previous exchange →
        holds previous → holds exchange)
    (run : LoopRun codec history loop)
    {peer : SocketAddr} {token : Token} {exchange : Exchange}
    (found : (loop.stack.client peer).exchanges.lookup token =
      some exchange) :
    holds exchange := by
  induction run generalizing exchange with
  | start initial =>
      rcases initial with ⟨now, rfl⟩
      cases found
  | @extend history before after iteration effects earlier stepped
      induction =>
      rw [client_step (step_cases stepped).branch peer] at found
      rcases (ExchangeTable.step_apply _ _).becomes found with
        isOpened | ⟨previous, stored, becomes⟩
      · rcases opening_of_opened isOpened with ⟨opening, _, _, _, rfl⟩
        exact opened opening iteration
      · exact kept _ _ _ becomes (induction stored)

end Coapable.Transport
