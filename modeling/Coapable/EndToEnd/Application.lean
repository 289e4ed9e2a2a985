import Coapable.EndToEnd.Integrity
import Coapable.RequestRoundTrip
import Coapable.Server.Router

/-!
# What a client gets from a server with a router

A server task answers with what its router returns, and the router returns
what the handler of the route returns for the request, or one of its two error
responses.  Between the caller and the handler lie two stacks and the network.
Along an undisturbed run they make no difference: a request that is completed
with a response gets what the router of its peer returns for this request, as
if the caller had handed it over directly.  Only the path of the request may be
written differently, with the same segments.
-/

namespace Coapable.EndToEnd

open Coapable.BareCodec
open Coapable.CoapLite
open Coapable.Foundation.Execution
open Coapable.MessageTypes
open Coapable.Server (Router HandlerRequest)
open Coapable.Transport
open Coapable.Transport.ResponseMatching

variable {Handler State : Type}

/-! ## Routers -/

/-- What the router may answer, given what its handlers may return. -/
def Serves (router : Router Handler State)
    (returns : Handler → HandlerRequest → State → CoapResponse → Prop)
    (request : CoapRequest) (peer : SocketAddr)
    (response : Option CoapResponse) : Prop :=
  match router.dispatch request peer with
  | .notFound => response = some ⟨.notFound, none, []⟩
  | .methodNotAllowed => response = some ⟨.methodNotAllowed, none, []⟩
  | .invoked handler handlerRequest =>
      ∃ returned, response = some returned ∧
        returns handler handlerRequest router.state returned

/-- Handlers that are functions answer as `handle` does. -/
theorem serves_iff_handle
    (router : Router Handler State)
    (call : Handler → HandlerRequest → State → CoapResponse)
    (request : CoapRequest) (peer : SocketAddr)
    (response : Option CoapResponse) :
    Serves router (fun handler handlerRequest state returned =>
        returned = call handler handlerRequest state)
      request peer response ↔
      response = router.handle call request peer := by
  simp only [Serves, Router.handle]
  cases router.dispatch request peer <;> simp

/-- Every answer of a server task is one of the router at its address. -/
def Routed (routers : SocketAddr → Router Handler State)
    (returns : Handler → HandlerRequest → State → CoapResponse → Prop)
    (transition : NetworkTransition) : Prop :=
  ∀ address response, transition.input = .answer address response →
    ∀ dispatch ∈ (transition.before.nodes address).handling,
      Serves (routers address) returns dispatch.request.request
        dispatch.request.peer response

/-! ## The request that is handled -/

section Own

variable {codec : Codec} {history : List NetworkTransition}
  {network : Network} {client : SocketAddr}

/-- The datagram of a request is dispatched as the request, but for the way
its path is written. -/
theorem dispatched_request
    (lawful : codec.Lawful) (options : codec.OptionsLawful)
    (run : NetworkRun codec history network)
    {opener : LoopTransition} {opening : Opening}
    (opens : Opens codec opener opening)
    {address : SocketAddr} {dispatch : Dispatch}
    (dispatched : Dispatched history address dispatch)
    (sameDatagram : dispatch.datagram = opening.bytes) :
    dispatch.request.request = opening.outbound.request.normalized := by
  rcases dispatched with ⟨receiver, member, taken, emitted⟩
  have facts := (run_loopHistory run address).facts_of_mem member
  rcases sendRequest_dispatches facts.branch emitted with
    ⟨raw, parsed, isTaken, parses, _, _, decoded, _⟩
  injection taken.symm.trans isTaken with isRaw
  rw [← isRaw, sameDatagram] at parses
  have carries : Carries
      (opening.outbound.request.toPacket codec opening.token opening.mid)
      _ opening.token :=
    CoapRequest.toPacket_carries lawful (opening_token_length opens)
      opening.outbound.request
  have isPacket := lawful.decode_encode _ _ parsed carries.wellFormed
    (opening_cases opens).2.2.2 parses
    (.inl (CoapRequest.isRequest_of_fromPacket_ok decoded))
  rw [isPacket, CoapRequest.fromPacket_toPacket lawful.toFormatFrame
    lawful.toFormatRead options] at decoded
  injection decoded with same
  injection same with same
  exact same.symm

/-- A request that is completed with a response was dispatched by its peer,
and the response is what the handler of this dispatch returned. -/
theorem handled_of_completed
    (lawful : codec.Lawful) (run : NetworkRun codec history network)
    (undisturbed : Along (Undisturbed codec client) history)
    {seen : LoopTransition} (member : seen ∈ loopHistory client history)
    {delivery : Delivery} {response : CoapResponse}
    (delivered : .deliver delivery ∈ seen.output)
    (completes : delivery.result = .ok response) :
    ∃ opener ∈ loopHistory client history, ∃ opening dispatch,
      Opens codec opener opening ∧
        opening.outbound.responseTx = delivery.sender ∧
        Dispatched history opening.outbound.peer dispatch ∧
        dispatch.request.peer = client ∧
        dispatch.datagram = opening.bytes ∧
        Handled history opening.outbound.peer dispatch response := by
  have whole : Along (fun _ transition => ArrivesWhole client transition)
      history :=
    undisturbed.mono fun _ _ here => here.1
  have fresh : Along (FreshToken codec) (loopHistory client history) :=
    Along.component (undisturbed.mono fun _ _ here seen isSeen =>
      (here.2 seen isSeen).2)
  have agrees : Along (PiggybackAgrees codec)
      (loopHistory client history) :=
    Along.component (undisturbed.mono fun _ _ here seen isSeen =>
      (here.2 seen isSeen).1)
  have clientRun := run_loopHistory run client
  rcases List.append_of_mem member with ⟨newer, older, split⟩
  have suffix : seen :: older <:+ loopHistory client history :=
    split ▸ List.suffix_append newer _
  rcases responseMatches_of_piggybackAgrees clientRun suffix
      (agrees.of_suffix suffix).1 delivery response delivered completes with
    ⟨opening, ⟨opener, past, opens⟩, isSender, raw, parsed, taken,
      parses, isResponse, isToken, _⟩
  have isOpener : opener ∈ loopHistory client history :=
    suffix.subset (List.mem_cons_of_mem _ past)
  rcases answer_of_composed lawful run
      (composed_of_received run whole member taken (.inr rfl)) parses
      isResponse with
    ⟨answer, ⟨dispatch, dispatched, handled, isPeer, echoes⟩, toClient,
      carries, decoded⟩
  have isDecoded := decoded_of_completed (clientRun.facts_of_mem member)
    delivered completes taken parses
  rw [decoded] at isDecoded
  injection isDecoded with isAnswer
  have fromClient : dispatch.request.peer = client :=
    isPeer.symm.trans toClient
  rcases decoded_of_dispatched run dispatched with
    ⟨received, receives, isRequest, dispatchToken⟩
  -- The dispatched datagram is that of the request with the same token.
  have composed :
      Composed codec (loopHistory client history) opening.outbound.peer
        dispatch.datagram := by
    rcases dispatched with ⟨receiver, isReceiver, receiverTaken, _⟩
    rw [fromClient] at receiverTaken
    exact composed_of_received run whole isReceiver receiverTaken (.inl rfl)
  rcases opening_of_composed lawful run composed receives isRequest with
    ⟨origin, isOrigin, own, ownOpens, ownPeer, ownBytes, ownToken⟩
  have isOwn : own = opening :=
    opening_eq_of_token fresh isOrigin isOpener ownOpens opens ownPeer
      (by rw [ownToken, ← isToken, ← carries, echoes, dispatchToken])
  exact ⟨opener, isOpener, opening, dispatch, opens, isSender, dispatched,
    fromClient, by rw [← ownBytes, isOwn], isAnswer ▸ handled⟩

end Own

/--
Along an undisturbed run in which the servers answer with what their routers
return, a request that is completed with a response is completed with what the
router of its peer returns for it.
-/
theorem routed_responses
    {codec : Codec} (lawful : codec.Lawful)
    (options : codec.OptionsLawful)
    {history : List NetworkTransition} {network : Network}
    (run : NetworkRun codec history network)
    {client : SocketAddr}
    (undisturbed : Along (Undisturbed codec client) history)
    {routers : SocketAddr → Router Handler State}
    {returns : Handler → HandlerRequest → State → CoapResponse → Prop}
    (routed : ∀ transition ∈ history, Routed routers returns transition) :
    ∀ seen ∈ loopHistory client history, ∀ delivery response,
      .deliver delivery ∈ seen.output → delivery.result = .ok response →
        ∃ opener ∈ loopHistory client history, ∃ opening,
          Opens codec opener opening ∧
            opening.outbound.responseTx = delivery.sender ∧
            Serves (routers opening.outbound.peer) returns
              opening.outbound.request.normalized client
              (some response) := by
  intro seen member delivery response delivered completes
  rcases handled_of_completed lawful run undisturbed member delivered
      completes with
    ⟨opener, isOpener, opening, dispatch, opens, isSender, dispatched,
      fromClient, sameDatagram, finish, isFinish, answers, handles⟩
  have served := routed finish isFinish _ _ answers dispatch handles
  rw [dispatched_request lawful options run opens dispatched sameDatagram,
    fromClient] at served
  exact ⟨opener, isOpener, opening, opens, isSender, served⟩

/-! ## A routed GET -/

namespace TwoStacks

/-- A router with one handler, at the root. -/
def rootRouter : Router Unit Unit :=
  Router.routes () [("/", Server.get ())]

/-- What the handler of the root returns. -/
def rootCall (_ : Unit) (_ : HandlerRequest) (_ : Unit) : CoapResponse :=
  answer

/-- The server answers with what the router returns. -/
def answersRouted (transition : NetworkTransition) : Bool :=
  match transition.input with
  | .answer address response =>
      (transition.before.nodes address).handling.all fun dispatch =>
        decide (response = rootRouter.handle rootCall
          dispatch.request.request dispatch.request.peer)
  | _ => true

theorem routed_of_answersRouted
    {transition : NetworkTransition}
    (checked : answersRouted transition = true) :
    Routed (fun _ => rootRouter)
      (fun handler handlerRequest state returned =>
        returned = rootCall handler handlerRequest state)
      transition := by
  intro address response answers dispatch handles
  rw [serves_iff_handle]
  have isHandling : (transition.before.nodes address).handling =
      some dispatch := handles
  simp only [answersRouted, answers, isHandling, Option.all_some]
    at checked
  exact of_decide_eq_true checked

/-- What is checked of the run: nothing disturbs it, the router answers and
the GET is completed. -/
def getIsRouted (history : List NetworkTransition) : Bool :=
  decide (Along AcksAgree history) &&
  history.all answersRouted &&
  decide (∃ seen ∈ loopHistory clientAddress history,
    .deliver ⟨⟨0⟩, .ok answer⟩ ∈ seen.output)

theorem routed_responses_on_answered_get :
    ∃ (history : List NetworkTransition) (opener : LoopTransition)
        (opening : Opening),
      opener ∈ loopHistory clientAddress history ∧
        Opens bareCodec opener opening ∧
        opening.outbound.responseTx = ⟨0⟩ ∧
        Serves rootRouter
          (fun handler handlerRequest state returned =>
            returned = rootCall handler handlerRequest state)
          opening.outbound.request.normalized clientAddress
          (some answer) := by
  rcases exists_run_of_replay
      (show (networkMachine bareCodec).Initial spawned from spawned_fresh)
      answeredMoves (fun history _ => getIsRouted history) (by decide) with
    ⟨history, network, run, checked⟩
  rw [getIsRouted, Bool.and_eq_true, Bool.and_eq_true, decide_eq_true_eq,
    decide_eq_true_eq, List.all_eq_true] at checked
  rcases checked with ⟨⟨agree, routes⟩, seen, member, delivered⟩
  rcases routed_responses bareCodec_lawful bareCodec_optionsLawful run
      (undisturbed_of_acksAgree agree)
      (fun transition isMember =>
        routed_of_answersRouted (routes transition isMember))
      seen member _ answer delivered rfl with
    ⟨opener, isOpener, opening, opens, isSender, served⟩
  exact ⟨history, opener, opening, isOpener, opens, isSender, served⟩

end TwoStacks

end Coapable.EndToEnd
