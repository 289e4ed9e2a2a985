import Coapable.EndToEnd.Application
import Coapable.Transport.AtMostOnce

/-!
# How often a request is handled

The network repeats and reorders datagrams, and a stack retransmits.  The
deduplication of the receiving stack and the order of its queues make up for
it: a handler gets what was dispatched, once and in order, and two dispatches
for one request of a client are at least `exchangeLifetime` apart on the clock
of the server.  So a request that is completed with a response was handled, and
within that time it was handled exactly once.
-/

namespace Coapable.EndToEnd

open Coapable.BareCodec
open Coapable.CoapLite
open Coapable.Foundation.Execution
open Coapable.MessageTypes
open Coapable.Transport
open Coapable.Transport.AtMostOnce

/-! ## From the stack to the handler -/

/-- The dispatches that a move hands to the server task at the address. -/
def dispatchedBy (address : SocketAddr)
    (transition : NetworkTransition) : List Dispatch :=
  match transition.input.iteration? with
  | some (active, iteration) =>
      if active = address then
        transition.output.filterMap (dispatch? (receivedBytes iteration))
      else []
  | none => []

/-- The dispatch that the handler at the address is finished with. -/
def handledBy (address : SocketAddr)
    (transition : NetworkTransition) : List Dispatch :=
  match transition.input with
  | .answer acting _ =>
      if acting = address then
        (transition.before.nodes address).handling.toList
      else []
  | _ => []

/-- The dispatches that the handler is not finished with, oldest first. -/
def Node.underway (node : Node) : List Dispatch :=
  node.handling.toList ++ node.requests

section Order

variable {codec : Codec} {history : List NetworkTransition}
  {network after : Network}

theorem underway_of_iterated
    {active : SocketAddr} {iteration : Iteration} {effects : List Effect}
    (iterated : Network.Iterated codec network active iteration after
      effects)
    (address : SocketAddr) :
    (after.nodes address).underway =
      (network.nodes address).underway ++
        if active = address then
          effects.filterMap (dispatch? (receivedBytes iteration))
        else [] := by
  by_cases here : active = address
  · subst here
    rw [Node.underway, iterated.handling, iterated.requests, if_pos rfl,
      ← List.append_assoc]
    rfl
  · rw [if_neg here, List.append_nil,
      iterated.others address (Ne.symm here)]

/-- A move takes from the front of what is underway and adds at its end. -/
theorem underway_step
    {move : Move} {effects : List Effect} (address : SocketAddr)
    (stepped : network.step codec move = some (after, effects)) :
    handledBy address ⟨network, move, effects, after⟩ ++
        (after.nodes address).underway =
      (network.nodes address).underway ++
        dispatchedBy address ⟨network, move, effects, after⟩ := by
  cases Network.step_cases stepped with
  | delivered inFlight taken iterated =>
      exact underway_of_iterated iterated address
  | ran notInbound iterated =>
      exact underway_of_iterated iterated address
  | @accepted acting oldest rest free queued =>
      by_cases here : address = acting
      · subst here
        simp [handledBy, dispatchedBy, Move.iteration?, Node.underway,
          free, queued]
      · simp [handledBy, dispatchedBy, Move.iteration?, here]
  | @answered acting response dispatch handles =>
      by_cases here : address = acting
      · subst here
        simp [handledBy, dispatchedBy, Move.iteration?, Node.underway,
          handles]
      · simp [handledBy, dispatchedBy, Move.iteration?, here,
          Ne.symm here]

/-- The handler finishes with what was dispatched, once and in order. -/
theorem handled_append_underway
    (run : NetworkRun codec history network) (address : SocketAddr) :
    collected (handledBy address) history ++
        (network.nodes address).underway =
      collected (dispatchedBy address) history := by
  refine run.collected_append
    (fun network => (network.nodes address).underway)
    (dispatchedBy address) (handledBy address) ?_ ?_
  · intro network fresh
    rcases fresh.nodes address with ⟨now, isNode⟩
    show (network.nodes address).underway = []
    rw [isNode]
    rfl
  · intro transition stepped
    exact underway_step address stepped

end Order

/-! ## One dispatch at a time -/

section Single

variable {codec : Codec}

theorem filterMap_dispatch?_eq_nil
    {effects : List Effect} {datagram : Bytes}
    (none : ∀ request, .sendRequest request ∉ effects) :
    effects.filterMap (dispatch? datagram) = [] := by
  rw [List.filterMap_eq_nil_iff]
  intro effect member
  cases effect with
  | sendRequest request => exact absurd member (none request)
  | sendPacket _ _ | deliver _ => rfl

theorem dispatch?_of_message
    {session after : PeerSession} {peer : SocketAddr} {parsed : Packet}
    {effects : List Effect} (datagram : Bytes)
    (dispatched :
      dispatchMessage codec session peer parsed = .ok (after, effects)) :
    (effects.filterMap (dispatch? datagram)).length ≤ 1 := by
  simp only [dispatchMessage] at dispatched
  split at dispatched
  · split at dispatched
    · cases dispatched
    · cases dispatched
      exact le_rfl
    · cases dispatched
      exact Nat.zero_le 1
  · split at dispatched
    · injection dispatched with equal
      have isEffects := congrArg Prod.snd equal
      subst isEffects
      rw [filterMap_dispatch?_eq_nil]
      · exact Nat.zero_le 1
      · intro request member
        rcases List.mem_map.mp member with ⟨delivery, _, impossible⟩
        cases impossible
    · cases dispatched
      exact Nat.zero_le 1
  · cases dispatched
    exact Nat.zero_le 1

/-- A branch dispatches at most one request. -/
theorem dispatch?_of_branch
    {stack after : CoapStack} {iteration : Iteration}
    {effects : List Effect}
    (branch : BranchStep codec stack iteration after effects)
    (datagram : Bytes) :
    (effects.filterMap (dispatch? datagram)).length ≤ 1 := by
  by_cases dispatches : ∃ request, .sendRequest request ∈ effects
  · rcases dispatches with ⟨request, member⟩
    rcases sendRequest_dispatches branch member with
      ⟨raw, parsed, taken, parses, kind, fresh, _⟩
    rcases branch.of_inbound taken parses with ⟨session, _, received⟩
    rcases receivePacket_cases received with
      ⟨_, finished⟩ | ⟨other, _⟩ | ⟨other, _⟩
    · rcases receiveMessage_cases finished with
        ⟨duplicate, _⟩ | ⟨_, dispatched, dispatches, rfl⟩
      · rw [sessionFor_isDuplicate, fresh] at duplicate
        cases duplicate
      · rw [List.filterMap_append, filterMap_dispatch?_eq_nil,
          List.nil_append]
        · exact dispatch?_of_message datagram dispatches
        · intro sent isSent
          rw [recordMessage_effects _ _ _ kind] at isSent
          rcases List.mem_map.mp isSent with ⟨ack, _, impossible⟩
          cases impossible
    · simp [other] at kind
    · simp [other] at kind
  · rw [filterMap_dispatch?_eq_nil fun request member =>
      dispatches ⟨request, member⟩]
    exact Nat.zero_le 1

end Single

/-! ## The requests of a client -/

/-- The dispatch is for the request of the client with this token. -/
def IsFor (client : SocketAddr) (token : Token) (dispatch : Dispatch) :
    Prop :=
  dispatch.request.peer = client ∧ dispatch.request.token = token

instance (client : SocketAddr) (token : Token) (dispatch : Dispatch) :
    Decidable (IsFor client token dispatch) :=
  inferInstanceAs (Decidable (_ ∧ _))

/-- The stack dispatches the request of the client with this token. -/
def DispatchesFor (client : SocketAddr) (token : Token)
    (transition : LoopTransition) : Prop :=
  ∃ request, .sendRequest request ∈ transition.output ∧
    request.peer = client ∧ request.token = token

section Client

variable {codec : Codec} {history : List NetworkTransition}
  {network : Network} {client server : SocketAddr} {token : Token}

/-- A dispatch for a request accepts its datagram, under its MID. -/
theorem accepts_of_dispatchesFor
    (lawful : codec.Lawful) (run : NetworkRun codec history network)
    (whole : Along (fun _ transition => ArrivesWhole client transition)
      history)
    {seen : LoopTransition} (member : seen ∈ loopHistory server history)
    (dispatches : DispatchesFor client token seen) :
    ∃ opener ∈ loopHistory client history, ∃ opening parsed,
      Opens codec opener opening ∧ opening.outbound.peer = server ∧
        opening.token = token ∧
        codec.fromBytes opening.bytes = some parsed ∧
        Accepts codec seen client parsed.header.messageId := by
  rcases dispatches with ⟨request, emitted, rfl, rfl⟩
  rcases sendRequest_dispatches
      ((run_loopHistory run server).facts_of_mem member).branch emitted with
    ⟨raw, parsed, taken, parses, kind, fresh, decoded, isToken⟩
  have composed := composed_of_received run whole member taken (.inl rfl)
  rcases opening_of_composed lawful run composed parses
      (CoapRequest.isRequest_of_fromPacket_ok decoded) with
    ⟨opener, isOpener, opening, opens, isPeer, rfl, ownToken⟩
  exact ⟨opener, isOpener, opening, parsed, opens, isPeer,
    ownToken.trans isToken.symm, parses,
    (Iteration.receives_iff _ _ _ _).mpr
      ⟨_, parsed, taken, parses, kind, rfl⟩, fresh⟩

/-- Two dispatches for one request are a lifetime apart. -/
theorem dispatches_apart
    (lawful : codec.Lawful) (run : NetworkRun codec history network)
    (whole : Along (fun _ transition => ArrivesWhole client transition)
      history)
    (fresh : Along (FreshToken codec) (loopHistory client history))
    {later earlier : LoopTransition} {older : List LoopTransition}
    (suffix : later :: older <:+ loopHistory server history)
    (member : earlier ∈ older)
    (laterDispatches : DispatchesFor client token later)
    (earlierDispatches : DispatchesFor client token earlier) :
    earlier.input.now + exchangeLifetime ≤ later.input.now := by
  have serverRun := run_loopHistory run server
  rcases accepts_of_dispatchesFor lawful run whole
      (suffix.subset List.mem_cons_self) laterDispatches with
    ⟨opener, isOpener, opening, parsed, opens, isPeer, isToken, parses,
      accepts⟩
  rcases accepts_of_dispatchesFor lawful run whole
      (suffix.subset (List.mem_cons_of_mem _ member))
      earlierDispatches with
    ⟨origin, isOrigin, other, otherParsed, otherOpens, otherPeer,
      otherToken, otherParses, acceptedBefore⟩
  -- One token means one request, one datagram and one MID.
  have same : other = opening :=
    opening_eq_of_token fresh isOrigin isOpener otherOpens opens
      (otherPeer.trans isPeer.symm) (otherToken.trans isToken.symm)
  subst same
  cases parses.symm.trans otherParses
  rcases accepted_swept serverRun suffix accepts member acceptedBefore with
    ⟨sweep, sweepMember, _, late⟩
  exact late.trans
    (LoopRun.now_le_of_suffix serverRun suffix sweep sweepMember)

theorem dispatchesFor_of_mem
    {transition : NetworkTransition} {dispatch : Dispatch}
    (member : dispatch ∈ dispatchedBy server transition)
    (isFor : IsFor client token dispatch) :
    ∃ seen, loopTransition? server transition = some seen ∧
      DispatchesFor client token seen := by
  simp only [dispatchedBy] at member
  split at member
  · next active iteration runs =>
      split at member
      · next here =>
          subst here
          rcases List.mem_filterMap.mp member with
            ⟨effect, emitted, isDispatch⟩
          cases effect with
          | sendPacket _ _ | deliver _ => cases isDispatch
          | sendRequest request =>
              cases isDispatch
              exact ⟨_, loopTransition?_of_runs runs, request, emitted,
                isFor⟩
      · cases member
  · cases member

theorem length_dispatchedBy
    {before after : Network} {move : Move} {effects : List Effect}
    (stepped : before.step codec move = some (after, effects)) :
    (dispatchedBy server ⟨before, move, effects, after⟩).length ≤ 1 := by
  simp only [dispatchedBy]
  split
  · next active iteration runs =>
      split
      · have iterated :=
          (Network.step_cases stepped).iterated_of_iteration? runs
        exact dispatch?_of_branch
          (Transport.step_cases iterated.stepped).branch _
      · exact Nat.zero_le 1
  · exact Nat.zero_le 1

/-- No lifetime has passed on the clock of the server since it dispatched the
request. -/
def Young (history : List NetworkTransition) (network : Network)
    (client server : SocketAddr) (token : Token) : Prop :=
  ∀ dispatcher ∈ loopHistory server history,
    DispatchesFor client token dispatcher →
      (network.nodes server).loop.clock <
        dispatcher.input.now + exchangeLifetime

/-- A request is dispatched at most once within a lifetime. -/
theorem dispatched_at_most_once
    (lawful : codec.Lawful) (run : NetworkRun codec history network)
    (whole : Along (fun _ transition => ArrivesWhole client transition)
      history)
    (fresh : Along (FreshToken codec) (loopHistory client history))
    (young : Young history network client server token) :
    (collected (dispatchedBy server) history).countP
      (IsFor client token) ≤ 1 := by
  have serverRun := run_loopHistory run server
  suffices bounded : ∀ older : List NetworkTransition,
      older <:+ history →
        (collected (dispatchedBy server) older).countP
          (IsFor client token) ≤ 1 from
    bounded history List.suffix_rfl
  intro older
  induction older with
  | nil => exact fun _ => Nat.zero_le 1
  | cons transition rest induction =>
      intro suffix
      have before := induction ((List.suffix_cons _ _).trans suffix)
      have single : ((dispatchedBy server transition).countP
          (IsFor client token)) ≤ 1 :=
        List.countP_le_length.trans
          (length_dispatchedBy (run.of_suffix suffix).2)
      rw [collected_cons, List.countP_append]
      by_cases now : (dispatchedBy server transition).countP
          (IsFor client token) = 0
      · rw [now, Nat.add_zero]
        exact before
      · rcases List.countP_pos_iff.mp (Nat.pos_of_ne_zero now) with
          ⟨dispatch, member, isFor⟩
        rcases dispatchesFor_of_mem member (of_decide_eq_true isFor) with
          ⟨seen, isSeen, dispatches⟩
        -- An earlier dispatch would be a lifetime ago.
        have none : (collected (dispatchedBy server) rest).countP
            (IsFor client token) = 0 := by
          by_contra some
          rcases List.countP_pos_iff.mp (Nat.pos_of_ne_zero some) with
            ⟨other, otherMember, otherFor⟩
          rcases List.mem_flatMap.mp otherMember with
            ⟨origin, isOrigin, isOther⟩
          rcases dispatchesFor_of_mem isOther
              (of_decide_eq_true otherFor) with
            ⟨earlier, isEarlier, dispatchedBefore⟩
          have inRest : earlier ∈ loopHistory server rest :=
            List.mem_filterMap.mpr
              ⟨origin, List.mem_reverse.mp isOrigin, isEarlier⟩
          have seenSuffix : seen :: loopHistory server rest <:+
              loopHistory server history := by
            have observed := suffix.filterMap (loopTransition? server)
            rw [List.filterMap_cons_some isSeen] at observed
            exact observed
          have apart := dispatches_apart lawful run whole fresh seenSuffix
            inRest dispatches dispatchedBefore
          have inTime := young earlier
            (seenSuffix.subset (List.mem_cons_of_mem _ inRest))
            dispatchedBefore
          have past := LoopRun.now_le_clock serverRun seen
            (seenSuffix.subset List.mem_cons_self)
          omega
        rw [none, Nat.zero_add]
        exact single

/-- What the handler at the address was run for, oldest first. -/
def handledAt (address : SocketAddr)
    (history : List NetworkTransition) : List Dispatch :=
  collected (handledBy address) history

theorem mem_handledAt
    {dispatch : Dispatch} {response : CoapResponse}
    (handled : Handled history server dispatch response) :
    dispatch ∈ handledAt server history := by
  rcases handled with ⟨finish, member, answers, handles⟩
  refine List.mem_flatMap.mpr ⟨finish, List.mem_reverse.mpr member, ?_⟩
  simp [handledBy, answers, handles]

end Client

/--
Along an undisturbed run, as long as no lifetime has passed since a server
dispatched a request of the client, its handler has run at most once for it;
and for a request that was completed with a response the handler of its peer
was run.
-/
theorem requests_handled_once
    {codec : Codec} (lawful : codec.Lawful)
    {history : List NetworkTransition} {network : Network}
    (run : NetworkRun codec history network)
    {client : SocketAddr}
    (undisturbed : Along (Undisturbed codec client) history) :
    (∀ server token, Young history network client server token →
      (handledAt server history).countP (IsFor client token) ≤ 1) ∧
    ∀ seen ∈ loopHistory client history, ∀ delivery response,
      .deliver delivery ∈ seen.output → delivery.result = .ok response →
        ∃ opener ∈ loopHistory client history, ∃ opening,
          Opens codec opener opening ∧
            opening.outbound.responseTx = delivery.sender ∧
            1 ≤ (handledAt opening.outbound.peer history).countP
              (IsFor client opening.token) := by
  have whole : Along (fun _ transition => ArrivesWhole client transition)
      history :=
    undisturbed.mono fun _ _ here => here.1
  have fresh : Along (FreshToken codec) (loopHistory client history) :=
    Along.component (undisturbed.mono fun _ _ here seen isSeen =>
      (here.2 seen isSeen).2)
  constructor
  · intro server token young
    have once := dispatched_at_most_once lawful run whole fresh young
    rw [← handled_append_underway run server, List.countP_append] at once
    exact (Nat.le_add_right _ _).trans once
  · intro seen member delivery response delivered completes
    rcases handled_of_completed lawful run undisturbed member delivered
        completes with
      ⟨opener, isOpener, opening, dispatch, opens, isSender, dispatched,
        fromClient, sameDatagram, handled⟩
    refine ⟨opener, isOpener, opening, opens, isSender, ?_⟩
    rcases decoded_of_dispatched run dispatched with
      ⟨parsed, parses, isRequest, isToken⟩
    rw [sameDatagram] at parses
    have ownToken :=
      (decoded_opening lawful opens parses (.inl isRequest)).2
    exact List.countP_pos_iff.mpr ⟨dispatch, mem_handledAt handled,
      decide_eq_true ⟨fromClient, isToken.trans ownToken⟩⟩

namespace TwoStacks

/-- The datagram of a NON GET arrives three times before it is answered. -/
def repeatedMoves : List Move :=
  let get : UdpDatagram :=
    ⟨clientAddress, serverAddress, [0x54, 1, 0, 0, 0, 0, 0, 0]⟩
  [runs clientAddress 1 (.outboundRequest
      (some ⟨⟨.get, "", [], none, [], none, false⟩, serverAddress, ⟨0⟩⟩)),
    arrives 1 get,
    arrives 1 get,
    .accept serverAddress,
    .answer serverAddress (some answer),
    arrives 2 get,
    runs serverAddress 2 (.outboundResponse (some answerToClient)),
    arrives 2 ⟨serverAddress, clientAddress,
      [0x54, 0x45, 0, 0, 0, 0, 0, 0, 0xFF, 1]⟩]

/-- What is checked of the run: nothing disturbs it, and the GET is handled
and completed. -/
def getIsHandled (history : List NetworkTransition) : Bool :=
  decide (Along AcksAgree history) &&
  decide ((handledAt serverAddress history).length = 1) &&
  decide (∃ seen ∈ loopHistory clientAddress history,
    .deliver ⟨⟨0⟩, .ok answer⟩ ∈ seen.output)

theorem requests_handled_once_on_repeated_get :
    ∃ (history : List NetworkTransition) (network : Network),
      (handledAt serverAddress history).length = 1 ∧
      (∀ server token,
        Young history network clientAddress server token →
          (handledAt server history).countP
            (IsFor clientAddress token) ≤ 1) ∧
      ∃ opener ∈ loopHistory clientAddress history, ∃ opening,
        Opens bareCodec opener opening ∧
          opening.outbound.responseTx = ⟨0⟩ ∧
          1 ≤ (handledAt opening.outbound.peer history).countP
            (IsFor clientAddress opening.token) := by
  rcases exists_run_of_replay
      (show (networkMachine bareCodec).Initial spawned from spawned_fresh)
      repeatedMoves (fun history _ => getIsHandled history) (by decide) with
    ⟨history, network, run, checked⟩
  rw [getIsHandled, Bool.and_eq_true, Bool.and_eq_true, decide_eq_true_eq,
    decide_eq_true_eq, decide_eq_true_eq] at checked
  rcases checked with ⟨⟨agree, one⟩, seen, member, delivered⟩
  have once := requests_handled_once bareCodec_lawful run
    (undisturbed_of_acksAgree agree)
  exact ⟨history, network, one, once.1,
    once.2 seen member _ answer delivered rfl⟩

end TwoStacks

end Coapable.EndToEnd
