import Coapable.BareCodec
import Coapable.Transport.Tokens
import Mathlib.Algebra.Order.Group.Multiset

/-!
# Conservation of client requests

The channels that are held by open exchanges and the channels on which a
result was sent make up, as multisets, the channels of the requests that were
opened.  Every operation moves channels from the one side to the other or
leaves them where they are; only opening an exchange adds one.  As no channel
is opened twice, every request either still waits or got exactly one result.
-/

namespace Coapable.Transport

open Coapable.CoapLite
open Coapable.Foundation
open Coapable.Foundation.Execution
open Coapable.Foundation.FiniteMap
open Coapable.MessageTypes

/-! ## One peer -/

/-- The channel of the exchange that the event opens. -/
def ClientEvent.opens : ClientEvent → Multiset ResponseSender
  | .opened _ exchange => {exchange.responseTx}
  | _ => 0

namespace ExchangeTable

/-- The channels that the open exchanges hold. -/
def senders (table : ExchangeTable) : Multiset ResponseSender :=
  (values table.exchanges).map Exchange.responseTx

theorem senders_insert
    {table : ExchangeTable} {token : Token} {exchange : Exchange}
    (absent : table.exchanges.lookup token = none) :
    (table.insert token exchange).senders =
      exchange.responseTx ::ₘ table.senders := by
  change (values (table.exchanges.insert token exchange)).map
    Exchange.responseTx = _
  rw [values_insert_of_absent _ _ _ absent, Multiset.map_cons]
  rfl

theorem senders_of_erased
    {table after : ExchangeTable} {token : Token} {exchange : Exchange}
    (found : table.exchanges.lookup token = some exchange)
    (erased : after.exchanges = table.exchanges.erase token) :
    exchange.responseTx ::ₘ after.senders = table.senders := by
  rw [senders, senders, erased, values_eq_cons_erase _ _ _ found,
    Multiset.map_cons]

/-- Changing an exchange that keeps its channel keeps the channels. -/
theorem senders_of_modified
    {table after : ExchangeTable} {token : Token}
    {change : Exchange → Exchange}
    (keeps : ∀ exchange,
      (change exchange).responseTx = exchange.responseTx)
    (modified : after.exchanges =
      FiniteMap.modify token change table.exchanges) :
    after.senders = table.senders := by
  rw [senders, senders, modified, FiniteMap.modify]
  split
  · next exchange found =>
      have exchanged := congrArg (Multiset.map Exchange.responseTx)
        (values_insert_of_present _ _ _ (change exchange) found)
      rw [Multiset.map_cons, Multiset.map_cons, keeps,
        Multiset.cons_inj_right] at exchanged
      exact exchanged
  · rfl

/-- The timer keeps the channel of an exchange or sends a timeout on it. -/
theorem senders_tick (table : ExchangeTable) (now : Nat) :
    (table.tick now).senders +
        (((values table.exchanges).filter
          fun exchange => exchange.runsOut now).map
            Exchange.timeout).map Delivery.sender =
      table.senders := by
  rw [senders, senders, tick, values_filterMapValues]
  induction values table.exchanges using Multiset.induction_on with
  | empty => rfl
  | cons exchange rest induction =>
      rw [Multiset.map_cons, ← induction]
      cases survived : exchange.survive now with
      | none =>
          have ranOut := (exchange.survive_eq_none_iff now).mp survived
          rw [Multiset.filterMap_cons_none _ _ survived,
            Multiset.filter_cons_of_pos
              (p := fun exchange : Exchange =>
                exchange.runsOut now = true) _ ranOut,
            Multiset.map_cons,
            Multiset.map_cons, Multiset.add_cons]
          rfl
      | some after =>
          rcases (exchange.survive_eq_some_iff now after).mp survived with
            ⟨lasts, isAfter⟩
          rw [Multiset.filterMap_cons_some _ _ _ survived,
            Multiset.filter_cons_of_neg
              (p := fun exchange : Exchange =>
                exchange.runsOut now = true) _ (by simp [lasts]),
            Multiset.map_cons, Multiset.cons_add, ← isAfter,
            Exchange.advanceIfDue_responseTx]

/-- What an event does to the channels of one peer. -/
theorem senders_apply
    (table : ExchangeTable) (event : ClientEvent)
    (fresh : ∀ token exchange, event = .opened token exchange →
      table.exchanges.lookup token = none) :
    (table.apply event).1.senders +
        (table.apply event).2.map Delivery.sender =
      table.senders + event.opens := by
  have removed {after : ExchangeTable} {token : Token}
      {exchange : Exchange} {delivery : Delivery}
      (found : table.exchanges.lookup token = some exchange)
      (erased : after.exchanges = table.exchanges.erase token)
      (sender : delivery.sender = exchange.responseTx) :
      after.senders + Multiset.map Delivery.sender {delivery} =
        table.senders + 0 := by
    rw [Multiset.map_singleton, sender, Multiset.add_comm,
      Multiset.singleton_add, senders_of_erased found erased,
      Multiset.add_zero]
  cases event with
  | idle => rfl
  | opened token exchange =>
      change (table.insert token exchange).senders + 0 = _
      rw [senders_insert (fresh token exchange rfl), Multiset.add_zero,
        Multiset.add_comm, ClientEvent.opens, Multiset.singleton_add]
  | answered token response =>
      simp only [apply, answer]
      split
      · next exchange found => exact removed found rfl rfl
      · rfl
  | acknowledged mid =>
      simp only [apply]
      split
      · next token indexed =>
          rw [senders_of_modified Exchange.cancelRetransmission_responseTx
            rfl]
          rfl
      · rfl
  | piggybacked mid response =>
      simp only [apply, answer, unindex_exchanges]
      split
      · next token indexed =>
          split
          · next exchange found => exact removed found rfl rfl
          · rfl
      · rfl
  | reset mid =>
      simp only [apply]
      split
      · next token indexed =>
          split
          · next exchange found => exact removed found rfl rfl
          · rfl
      · rfl
  | ticked now =>
      exact (senders_tick table now).trans (Multiset.add_zero _).symm

end ExchangeTable

/-! ## All peers -/

/-- The channels that the open exchanges of all sessions hold. -/
def sendersOf (sessions : Table SocketAddr PeerSession) :
    Multiset ResponseSender :=
  (values sessions).bind fun session => session.client.senders

/-- The one-shot channels that the exchanges of the stack hold. -/
def CoapStack.senders (stack : CoapStack) : Multiset ResponseSender :=
  sendersOf stack.sessions

/-- The channels of one peer; one without a session holds none. -/
def sendersAt (sessions : Table SocketAddr PeerSession)
    (peer : SocketAddr) : Multiset ResponseSender :=
  match sessions.lookup peer with
  | some session => session.client.senders
  | none => 0

theorem sendersAt_sessions (stack : CoapStack) (peer : SocketAddr) :
    sendersAt stack.sessions peer = (stack.client peer).senders := by
  rw [sendersAt, CoapStack.client]
  cases stack.sessions.lookup peer <;> rfl

theorem sendersOf_insert
    (sessions : Table SocketAddr PeerSession) (peer : SocketAddr)
    (session : PeerSession) :
    sendersOf (sessions.insert peer session) + sendersAt sessions peer =
      sendersOf sessions + session.client.senders := by
  simp only [sendersOf, sendersAt]
  cases found : sessions.lookup peer with
  | none =>
      simp only
      rw [values_insert_of_absent _ _ _ found, Multiset.cons_bind,
        Multiset.add_zero, Multiset.add_comm]
  | some previous =>
      simp only
      have exchanged := congrArg
        (fun all => Multiset.bind all
          fun session => session.client.senders)
        (values_insert_of_present _ _ _ session found)
      simp only [Multiset.cons_bind] at exchanged
      rw [Multiset.add_comm, exchanged, Multiset.add_comm]

/-- What moves for one peer moves for all of them. -/
theorem sendersOf_moved
    {sessions : Table SocketAddr PeerSession} {peer : SocketAddr}
    {session : PeerSession} {delivered opened : Multiset ResponseSender}
    (moved : session.client.senders + delivered =
      sendersAt sessions peer + opened) :
    sendersOf (sessions.insert peer session) + delivered =
      sendersOf sessions + opened := by
  have inserted := sendersOf_insert sessions peer session
  have balanced :
      sendersOf (sessions.insert peer session) + delivered +
          sendersAt sessions peer =
        sendersOf sessions + opened + sendersAt sessions peer := by
    calc
      _ = sendersOf (sessions.insert peer session) +
            sendersAt sessions peer + delivered := add_right_comm _ _ _
      _ = sendersOf sessions + (session.client.senders + delivered) := by
          rw [inserted, Multiset.add_assoc]
      _ = _ := by
          rw [moved, Multiset.add_comm (sendersAt sessions peer),
            Multiset.add_assoc]
  exact add_right_cancel balanced

/-- A branch that works on one session moves the channels of its peer. -/
theorem putSession_senders
    {stack : CoapStack} {peer : SocketAddr} {session : PeerSession}
    {event : ClientEvent} {deliveries : Multiset Delivery}
    (fresh : ∀ token exchange, event = .opened token exchange →
      (stack.client peer).exchanges.lookup token = none)
    (applied : session.client = ((stack.client peer).apply event).1)
    (delivered : deliveries = ((stack.client peer).apply event).2) :
    (stack.putSession peer session).senders +
        deliveries.map Delivery.sender =
      stack.senders + event.opens := by
  have conserved :=
    ExchangeTable.senders_apply (stack.client peer) event fresh
  rw [← applied, ← delivered, ← sendersAt_sessions] at conserved
  exact sendersOf_moved conserved

theorem tickSessions_senders
    (now : Nat) (order : List (SocketAddr × List Token))
    (sessions : Table SocketAddr PeerSession)
    (distinct : (order.map Prod.fst).Nodup)
    (enumerates : ∀ visit ∈ order,
      ∀ session ∈ sessions.lookup visit.1,
        Enumerates visit.2 session.exchanges) :
    sendersOf (tickSessions now order sessions).1 +
        ((tickSessions now order sessions).2.2 :
          Multiset Delivery).map Delivery.sender =
      sendersOf sessions := by
  induction order generalizing sessions with
  | nil => exact Multiset.add_zero _
  | cons visit rest induction =>
      rcases visit with ⟨peer, exchangeOrder⟩
      rw [List.map_cons, List.nodup_cons] at distinct
      cases found : sessions.lookup peer with
      | none =>
          simp only [tickSessions, found]
          exact induction sessions distinct.2 fun visit member =>
            enumerates visit (List.mem_cons_of_mem _ member)
      | some session =>
          have visits : Enumerates exchangeOrder session.exchanges :=
            enumerates _ List.mem_cons_self session found
          have delivered := tick_deliveries now visits
          have ticked :
              (session.tick now exchangeOrder).1.client.senders +
                  Multiset.map Delivery.sender
                    (session.client.apply (.ticked now)).2 =
                sendersAt sessions peer + 0 := by
            rw [tick_client now visits, sendersAt, found,
              Multiset.add_zero]
            exact session.client.senders_tick now
          have moved := sendersOf_moved ticked
          have later := induction
            (sessions.insert peer (session.tick now exchangeOrder).1)
            distinct.2 (by
              intro visit member other stored
              rw [lookup_insert_eq, if_neg] at stored
              · exact enumerates visit (List.mem_cons_of_mem _ member)
                  other stored
              · intro equal
                exact distinct.1
                  (List.mem_map.mpr ⟨visit, member, equal⟩))
          simp only [tickSessions, found]
          rw [← Multiset.coe_add, Multiset.map_add, delivered,
            Multiset.add_comm (Multiset.map Delivery.sender
              (session.client.apply (.ticked now)).2),
            ← Multiset.add_assoc, later]
          exact moved.trans (Multiset.add_zero _)

theorem cleanup_senders (stack : CoapStack) (now : Nat) :
    (stack.cleanup now).senders = stack.senders := by
  have split := values_retain_add
    (fun _ session => !PeerSession.isIdle session) stack.sessions
  have dropped :
      sendersOf (retain (fun _ session => !!PeerSession.isIdle session)
        stack.sessions) = 0 := by
    rw [sendersOf, Multiset.eq_zero_iff_forall_notMem]
    intro sender member
    rcases Multiset.mem_bind.mp member with ⟨session, kept, held⟩
    rcases (mem_values_iff _ session).mp kept with ⟨peer, found⟩
    rw [lookup_retain, Option.filter_eq_some_iff, Bool.not_not] at found
    rcases Multiset.mem_map.mp held with ⟨exchange, stored, _⟩
    rcases (mem_values_iff _ exchange).mp stored with ⟨token, isOpen⟩
    have absent := ((isIdle_iff session).mp found.2).1 token
    change session.exchanges.lookup token = some exchange at isOpen
    rw [absent] at isOpen
    cases isOpen
  have bound := congrArg
    (fun all => Multiset.bind all fun session => session.client.senders)
    split
  simp only [Multiset.add_bind] at bound
  change sendersOf _ + sendersOf _ = sendersOf _ at bound
  rw [dropped, Multiset.add_zero] at bound
  exact bound

/-! ## One step -/

/-- The channel of the request that the iteration opens. -/
def CoapStack.openedSenders (codec : Codec) (stack : CoapStack)
    (iteration : Iteration) : List ResponseSender :=
  ((stack.opening codec iteration).map
    fun opening => opening.outbound.responseTx).toList

theorem openedSenders_eq_nil
    (codec : Codec) (stack : CoapStack) {iteration : Iteration}
    (noRequest : ∀ outbound,
      iteration.branch ≠ .outboundRequest (some outbound)) :
    stack.openedSenders codec iteration = [] := by
  rw [CoapStack.openedSenders, opening_eq_none codec stack noRequest]
  rfl

theorem ClientEvent.opens_eq_zero
    {event : ClientEvent}
    (notOpened : ∀ token exchange, event ≠ .opened token exchange) :
    event.opens = 0 := by
  cases event with
  | opened token exchange => exact absurd rfl (notOpened token exchange)
  | _ => rfl

theorem request_opens
    (codec : Codec) (stack : CoapStack) (iteration : Iteration)
    {outbound : OutboundRequest}
    (taken : iteration.branch = .outboundRequest (some outbound)) :
    (stack.clientEvent codec iteration outbound.peer).opens =
      stack.openedSenders codec iteration := by
  rw [CoapStack.openedSenders, CoapStack.clientEvent, taken]
  cases opens : stack.opening codec iteration with
  | none => rfl
  | some opening =>
      have isOutbound := (opening_cases opens).1.symm.trans taken
      rw [Branch.outboundRequest.injEq, Option.some.injEq] at isOutbound
      simp [isOutbound, ClientEvent.opens]

/-- A step moves channels from the exchanges to the results; a request that
is opened adds its own. -/
theorem senders_step
    {codec : Codec} {stack after : CoapStack} {iteration : Iteration}
    {effects : List Effect}
    (branch : BranchStep codec stack iteration after effects)
    (fresh : ∀ opening, stack.opening codec iteration = some opening →
      (stack.client opening.outbound.peer).exchanges.lookup
        opening.token = none) :
    after.senders +
        (deliveriesOf effects : Multiset Delivery).map Delivery.sender =
      stack.senders + stack.openedSenders codec iteration := by
  cases branch with
  | unparsed taken unparseable =>
      rw [openedSenders_eq_nil codec stack (by simp [taken])]
      rfl
  | @inbound raw source parsed session effects taken parses received =>
      have noRequest : ∀ outbound,
          iteration.branch ≠ .outboundRequest (some outbound) := by
        simp [taken]
      have refined := inbound_refines taken parses received
      have notOpened :=
        clientEvent_ne_opened codec stack noRequest source
      have moved := putSession_senders
        (fun token exchange isOpened =>
          absurd isOpened (notOpened token exchange)) refined.1 refined.2
      rw [ClientEvent.opens_eq_zero notOpened] at moved
      rw [openedSenders_eq_nil codec stack noRequest]
      exact moved
  | @request outbound taken =>
      have moved := putSession_senders
        (by
          intro token exchange isOpened
          rcases opening_of_opened isOpened with
            ⟨opening, opens, isPeer, rfl, _⟩
          exact isPeer ▸ fresh opening opens)
        (request_client codec stack iteration taken)
        (show 0 = _ by
          simp only [CoapStack.clientEvent, taken]
          split
          · split <;> rfl
          · rfl)
      rw [request_opens codec stack iteration taken] at moved
      rw [request_deliveries]
      exact moved
  | @response outbound taken =>
      have kept := sendOutboundResponse_client codec
        (stack.sessionFor iteration outbound.peer) outbound
      rw [sessionFor_client] at kept
      have moved := putSession_senders
        (show ∀ token exchange,
          ClientEvent.idle = .opened token exchange → _ by simp) kept rfl
      rw [openedSenders_eq_nil codec stack (by simp [taken]),
        sendOutboundResponse_deliveries]
      exact moved
  | @timer order taken due enumerates =>
      rw [openedSenders_eq_nil codec stack (by simp [taken]),
        retransmit_deliveries]
      exact (tickSessions_senders _ _ _ enumerates.1.nodup
        enumerates.2).trans (Multiset.add_zero _).symm
  | cleanup taken due =>
      rw [openedSenders_eq_nil codec stack (by simp [taken]),
        cleanup_senders]
      rfl

/-! ## Runs -/

/-- Everything the history delivered, newest first. -/
def deliveredIn (history : List LoopTransition) : List Delivery :=
  history.flatMap fun transition => deliveriesOf transition.output

/-- The channels of all requests that the history opened. -/
def openedIn (codec : Codec) (history : List LoopTransition) :
    List ResponseSender :=
  history.flatMap fun transition =>
    transition.before.stack.openedSenders codec transition.input

section Run

variable {codec : Codec} {history : List LoopTransition} {loop : Loop}

/-- What is held and what was delivered is what was opened. -/
theorem senders_conserved
    (run : LoopRun codec history loop)
    (notExhausted : Along TokensNotExhausted history) :
    loop.stack.senders +
        (deliveredIn history : Multiset Delivery).map Delivery.sender =
      openedIn codec history := by
  refine run.invariant_along
    (fun history loop =>
      loop.stack.senders +
          (deliveredIn history : Multiset Delivery).map Delivery.sender =
        (openedIn codec history : Multiset ResponseSender)) ?_ ?_
    notExhausted
  · rintro loop ⟨now, rfl⟩
    rfl
  · intro history before after iteration effects earlier conserved
      exhausts stepped
    have moved := senders_step (step_cases stepped).branch
      fun opening opens => token_fresh earlier stepped exhausts opens
    simp only [deliveredIn, openedIn, List.flatMap_cons,
      ← Multiset.coe_add, Multiset.map_add] at conserved ⊢
    rw [← Multiset.add_assoc, moved, ← conserved,
      Multiset.add_comm before.stack.senders, Multiset.add_assoc]

theorem openedIn_bound
    (run : LoopRun codec history loop) :
    ∀ sender ∈ openedIn codec history, sender.channel < loop.channels := by
  intro sender member
  rcases List.mem_flatMap.mp member with ⟨opener, openerMember, opened⟩
  rw [CoapStack.openedSenders, Option.mem_toList,
    Option.map_eq_some_iff] at opened
  rcases opened with ⟨opening, opens, rfl⟩
  exact opens_channel_lt run opener openerMember opening opens

/-- No channel is opened twice. -/
theorem openedIn_nodup (run : LoopRun codec history loop) :
    (openedIn codec history).Nodup := by
  refine run.invariant
    (fun history _ => (openedIn codec history).Nodup) ?_ ?_
  · intro loop _
    exact List.nodup_nil
  · intro history before after iteration effects earlier distinct stepped
    change (before.stack.openedSenders codec iteration ++
      openedIn codec history).Nodup
    rw [CoapStack.openedSenders]
    cases opens : before.stack.opening codec iteration with
    | none => exact distinct
    | some opening =>
        refine List.nodup_cons.mpr ⟨?_, distinct⟩
        intro member
        have bound := openedIn_bound earlier _ member
        change opening.outbound.responseTx.channel < before.channels
          at bound
        rw [(opens_channel (step_cases stepped) opens).1] at bound
        exact Nat.lt_irrefl _ bound

theorem isOutcome_of_delivered
    (run : LoopRun codec history loop) {delivery : Delivery}
    (member : delivery ∈ deliveredIn history) :
    ExchangeTable.IsOutcome delivery.result := by
  rcases List.mem_flatMap.mp member with ⟨transition, older, delivered⟩
  have facts := LoopRun.facts_of_mem run older
  rw [mem_deliveriesOf_iff facts.branch] at delivered
  rcases delivered with ⟨peer, delivered⟩
  exact (ExchangeTable.step_apply _ _).isOutcome delivered

/-- The results that were sent on the channel. -/
def resultsOn (sender : ResponseSender)
    (history : List LoopTransition) :
    List (Except TransportError CoapResponse) :=
  ((deliveredIn history).filter fun delivery =>
    delivery.sender = sender).map Delivery.result

theorem length_resultsOn
    (sender : ResponseSender) (history : List LoopTransition) :
    (resultsOn sender history).length =
      ((deliveredIn history : Multiset Delivery).map
        Delivery.sender).count sender := by
  rw [resultsOn, List.length_map, ← List.countP_eq_length_filter,
    Multiset.map_coe, Multiset.coe_count, List.count,
    List.countP_map]
  apply List.countP_congr
  intro delivery _
  simp

/-- The exchange under the token of the request holds its channel, and no
other exchange of any session does. -/
def HeldOnce (loop : Loop) (opening : Opening) : Prop :=
  (∃ exchange,
    (loop.stack.client opening.outbound.peer).exchanges.lookup
        opening.token = some exchange ∧
      exchange.responseTx = opening.outbound.responseTx) ∧
  ∀ peer token exchange,
    (loop.stack.client peer).exchanges.lookup token = some exchange →
      exchange.responseTx = opening.outbound.responseTx →
        peer = opening.outbound.peer ∧ token = opening.token

/-- No exchange of any session holds the channel of the request. -/
def NotHeld (loop : Loop) (opening : Opening) : Prop :=
  ∀ peer token exchange,
    (loop.stack.client peer).exchanges.lookup token = some exchange →
      exchange.responseTx ≠ opening.outbound.responseTx

theorem mem_senders_iff (stack : CoapStack) (sender : ResponseSender) :
    sender ∈ stack.senders ↔
      ∃ peer token exchange,
        (stack.client peer).exchanges.lookup token = some exchange ∧
          exchange.responseTx = sender := by
  rw [CoapStack.senders, sendersOf, Multiset.mem_bind]
  constructor
  · rintro ⟨session, stored, held⟩
    rcases (mem_values_iff _ session).mp stored with ⟨peer, found⟩
    rcases Multiset.mem_map.mp held with ⟨exchange, isOpen, isSender⟩
    rcases (mem_values_iff _ exchange).mp isOpen with ⟨token, foundOpen⟩
    refine ⟨peer, token, exchange, ?_, isSender⟩
    rw [CoapStack.client, found]
    exact foundOpen
  · rintro ⟨peer, token, exchange, foundOpen, isSender⟩
    rcases exists_session_of_open foundOpen with ⟨session, found, isOpen⟩
    exact ⟨session, (mem_values_iff _ session).mpr ⟨peer, found⟩,
      Multiset.mem_map.mpr ⟨exchange,
        (mem_values_iff _ exchange).mpr ⟨token, isOpen⟩, isSender⟩⟩

/--
Every request that was taken and encoded either waits in exactly one open
exchange, that of its peer and token, and no result was sent, or exactly one
result was sent and nothing holds its channel.
-/
theorem request_conserved
    (run : LoopRun codec history loop)
    (notExhausted : Along TokensNotExhausted history) :
    ∀ opener ∈ history, ∀ opening, Opens codec opener opening →
      (HeldOnce loop opening ∧
        resultsOn opening.outbound.responseTx history = []) ∨
      (NotHeld loop opening ∧
        ∃ result, resultsOn opening.outbound.responseTx history =
            [result] ∧ ExchangeTable.IsOutcome result) := by
  intro opener openerMember opening opens
  have member : opening.outbound.responseTx ∈ openedIn codec history := by
    rw [openedIn, List.mem_flatMap]
    refine ⟨opener, openerMember, ?_⟩
    rw [CoapStack.openedSenders, opens]
    exact List.mem_singleton_self _
  have once := List.count_eq_one_of_mem (openedIn_nodup run) member
  rw [← Multiset.coe_count, ← senders_conserved run notExhausted,
    Multiset.count_add, ← length_resultsOn] at once
  have located {peer : SocketAddr} {token : Token} {exchange : Exchange}
      (found : (loop.stack.client peer).exchanges.lookup token =
        some exchange)
      (holds : exchange.responseTx = opening.outbound.responseTx) :
      peer = opening.outbound.peer ∧ token = opening.token := by
    rcases exists_opening run found with ⟨other, openedFor⟩
    rcases openedFor.opened with ⟨otherOpener, otherMember, otherOpens⟩
    have same := opening_unique run otherMember openerMember otherOpens
      opens (openedFor.responseTx.symm.trans holds)
    subst same
    exact ⟨openedFor.peer_eq.symm, openedFor.token_eq.symm⟩
  cases results : resultsOn opening.outbound.responseTx history with
  | nil =>
      rw [results, List.length_nil, Nat.add_zero] at once
      have held : opening.outbound.responseTx ∈ loop.stack.senders := by
        rw [← Multiset.count_pos, once]
        exact Nat.one_pos
      rcases (mem_senders_iff _ _).mp held with
        ⟨peer, token, exchange, found, holds⟩
      refine Or.inl ⟨⟨?_, fun _ _ _ => located⟩, rfl⟩
      rcases located found holds with ⟨rfl, rfl⟩
      exact ⟨exchange, found, holds⟩
  | cons result rest =>
      rw [results, List.length_cons] at once
      have noMore : rest = [] :=
        List.eq_nil_of_length_eq_zero (by omega)
      subst noMore
      refine Or.inr ⟨?_, result, rfl, ?_⟩
      · intro peer token exchange found holds
        have held := (mem_senders_iff _ _).mpr
          ⟨peer, token, exchange, found, holds⟩
        rw [← Multiset.count_pos] at held
        rw [List.length_nil] at once
        omega
      · have sent : result ∈
            resultsOn opening.outbound.responseTx history := by
          rw [results]
          exact List.mem_singleton_self _
        rcases List.mem_map.mp sent with ⟨delivery, filtered, rfl⟩
        exact isOutcome_of_delivered run (List.mem_filter.mp filtered).1

end Run

open Coapable.BareCodec in
/-- The first of two transitions opens a request. -/
def opensFirst : List LoopTransition → Bool
  | [_, opener] =>
      (opener.before.stack.opening bareCodec opener.input).isSome
  | _ => false

open Coapable.BareCodec in
/-- A request that is answered by a piggybacked response. -/
theorem request_conserved_on_answer :
    ∃ history loop, LoopRun bareCodec history loop ∧
      ∃ opener ∈ history, ∃ opening, Opens bareCodec opener opening ∧
        ((HeldOnce loop opening ∧
          resultsOn opening.outbound.responseTx history = []) ∨
        (NotHeld loop opening ∧
          ∃ result, resultsOn opening.outbound.responseTx history =
              [result] ∧ ExchangeTable.IsOutcome result)) := by
  rcases exists_run_of_replay (Loop.initial_start bareCodec 0)
      [.plain (fromSecs 1)
          (.outboundRequest (some
            ⟨⟨.get, "", [], none, [], none, true⟩, .loopback 5683, ⟨0⟩⟩)),
        .plain (fromSecs 2)
          (.inbound [0x64, 0x45, 0, 0, 0, 0, 0, 0] (.loopback 5683))]
      (fun history _ => opensFirst history) (by decide) with
    ⟨history, loop, run, checked⟩
  unfold opensFirst at checked
  split at checked
  · next answered opener =>
      rcases Option.isSome_iff_exists.mp checked with ⟨opening, opens⟩
      have member : opener ∈ [answered, opener] := by simp
      exact ⟨_, loop, run, opener, member, opening, opens,
        request_conserved run
          (tokensNotExhausted_of_length (show 2 < 2 ^ 32 by decide))
          opener member opening opens⟩
  · cases checked

end Coapable.Transport
