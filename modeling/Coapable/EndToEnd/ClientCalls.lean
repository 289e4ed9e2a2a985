import Coapable.Client.CallOutcomes
import Coapable.EndToEnd.Application

/-!
# What a call of `send` returns

Callers, the task of the stack they share, the network, and the stack, the
server task and the router of a peer are one system.  The callers see it
through the loop of their stack, and the network sees the same loop, so the
two views fit together along its history.

Put together they say what a caller relies on: a call that returns a response
returns what the router of its peer returns for the request it was built with.
-/

namespace Coapable.EndToEnd

open Coapable.BareCodec
open Coapable.Client
open Coapable.CoapLite
open Coapable.Foundation.Execution
open Coapable.MessageTypes
open Coapable.Server (Router HandlerRequest)
open Coapable.Transport
open Coapable.Transport.ResponseMatching

variable {Handler State : Type}

/-- The callers at the address of a client, and the network: the task of the
stack that the callers share runs the loop of the node. -/
structure Joined (codec : Codec) (client : SocketAddr)
    (moves : List ClientTransition) (tasks : ClientTasks)
    (history : List NetworkTransition) (network : Network) : Prop where
  callers : ClientRun codec moves tasks
  around : NetworkRun codec history network
  sameLoop : ClientTasks.loopHistory moves = loopHistory client history

section Joined

variable {codec : Codec} {client : SocketAddr}
  {moves : List ClientTransition} {tasks : ClientTasks}
  {history : List NetworkTransition} {network : Network}

/-- A call that returned a response was handed over with its own request, and
the loop sent the response to its channel. -/
theorem delivered_of_returned
    (joined : Joined codec client moves tasks history network)
    (notExhausted :
      Along TokensNotExhausted (ClientTasks.loopHistory moves))
    {index : Nat} {response : CoapResponse}
    (returned : tasks.calls[index]? = some (.done (.ok response))) :
    ∃ builder handed,
      (ClientTasks.calledIn moves)[index]? = some builder ∧
        handed ∈ ClientTasks.handedIn moves ∧
        handed.request = builder.clientRequest ∧
        ∃ seen ∈ loopHistory client history, ∃ delivery,
          .deliver delivery ∈ seen.output ∧
            delivery.result = .ok response ∧
            delivery.sender = handed.receiver := by
  rcases ClientTasks.outcome_of_done joined.callers notExhausted
      returned with
    ⟨builder, isBuilder, outcome⟩
  generalize isResult : Except.ok response = result at outcome
  cases outcome with
  | @delivered handed opener opening delivery handedOver member opens own
      isDelivery sender =>
      rcases List.mem_flatMap.mp isDelivery with
        ⟨seen, isSeen, delivered⟩
      rw [joined.sameLoop] at isSeen
      refine ⟨builder, handed, isBuilder, handedOver.member,
        handedOver.request_eq, seen, isSeen, delivery,
        (mem_deliveriesOf _ _).mp delivered, ?_, sender⟩
      rw [ClientTasks.received] at isResult
      cases isOk : delivery.result with
      | ok sent =>
          rw [isOk] at isResult
          cases isResult
          rfl
      | error error =>
          rw [isOk] at isResult
          cases isResult
  | notHanded | timedOut | dropped => cases isResult

/-- The exchange that answers on the channel of a request that was handed over
is the one opened for it. -/
theorem opened_for_handed
    (joined : Joined codec client moves tasks history network)
    {handed : ClientTasks.Handed}
    (handedOver : handed ∈ ClientTasks.handedIn moves)
    {opener : LoopTransition}
    (member : opener ∈ loopHistory client history)
    {opening : Opening} (opens : Opens codec opener opening)
    (sameChannel : opening.outbound.responseTx = handed.receiver) :
    opening.outbound = handed.outbound := by
  rw [← joined.sameLoop] at member
  rcases ClientTasks.exists_handed_of_opens joined.callers member opens
    with ⟨other, otherMember, isOutbound⟩
  have same : other = handed := by
    refine ClientTasks.handed_unique joined.callers otherMember handedOver
      ?_
    rw [← sameChannel, ← isOutbound]
    rfl
  rw [← isOutbound, same]

end Joined

/--
Along an undisturbed run in which the servers answer with what their routers
return, a call of `send` that returns a response returns what the router of
its peer returns for the request that the caller built.
-/
theorem calls_return_routed_responses
    {codec : Codec} (lawful : codec.Lawful)
    (options : codec.OptionsLawful)
    {client : SocketAddr}
    {moves : List ClientTransition} {tasks : ClientTasks}
    {history : List NetworkTransition} {network : Network}
    (joined : Joined codec client moves tasks history network)
    (notExhausted :
      Along TokensNotExhausted (ClientTasks.loopHistory moves))
    (undisturbed : Along (Undisturbed codec client) history)
    {routers : SocketAddr → Router Handler State}
    {returns : Handler → HandlerRequest → State → CoapResponse → Prop}
    (routed : ∀ transition ∈ history, Routed routers returns transition) :
    ∀ (index : Nat) (response : CoapResponse),
      tasks.calls[index]? = some (.done (.ok response)) →
      ∃ builder, (ClientTasks.calledIn moves)[index]? = some builder ∧
        Serves (routers builder.peer) returns
          builder.base.build.normalized client (some response) := by
  intro index response returned
  rcases delivered_of_returned joined notExhausted returned with
    ⟨builder, handed, isBuilder, handedOver, isRequest, seen, isSeen,
      delivery, delivered, completes, sender⟩
  rcases handled_of_completed lawful joined.around undisturbed isSeen
      delivered completes with
    ⟨opener, isOpener, opening, dispatch, opens, isSender, dispatched,
      fromClient, sameDatagram, finish, isFinish, answers, handles⟩
  have own : opening.outbound = handed.outbound :=
    opened_for_handed joined handedOver isOpener opens
      (isSender.trans sender)
  have served := routed finish isFinish _ _ answers dispatch handles
  rw [dispatched_request lawful options joined.around opens dispatched
    sameDatagram, fromClient, own] at served
  refine ⟨builder, isBuilder, ?_⟩
  rw [ClientTasks.Handed.outbound, isRequest] at served
  exact served

/-! ## A call that is answered -/

namespace TwoStacks

deriving instance DecidableEq for AckTimeout, Iteration, Transition

/-- The call of the CON GET. -/
def getCall : ClientRequestBuilder :=
  CoapClient.get serverAddress

/-- The call as its caller and the task of the stack see it. -/
def getMoves : List ClientTasks.Move :=
  [.call getCall,
    .hand 0 (fromSecs 1),
    .take (.plain (fromSecs 1)
      (.outboundRequest (some (ClientTasks.outboundOf getCall 0)))),
    .perform,
    .take (.plain (fromSecs 2)
      (.inbound [0x64, 0x45, 0, 0, 0, 0, 0, 0, 0xFF, 1] serverAddress)),
    .perform,
    .settle 0 (fromSecs 2)]

theorem calls_return_routed_responses_on_answered_get :
    ∃ (moves : List ClientTransition) (tasks : ClientTasks),
      tasks.calls = [.done (.ok answer)] ∧
      ∃ builder, (ClientTasks.calledIn moves)[0]? = some builder ∧
        Serves rootRouter
          (fun handler handlerRequest state returned =>
            returned = rootCall handler handlerRequest state)
          builder.base.build.normalized clientAddress (some answer) := by
  rcases exists_runs_of_replays
      (show (clientMachine bareCodec).Initial (ClientTasks.start 0)
        from ⟨0, rfl⟩)
      (show (networkMachine bareCodec).Initial spawned from spawned_fresh)
      getMoves answeredMoves
      (fun moves tasks history _ =>
        getIsRouted history &&
          decide (tasks.calls = [.done (.ok answer)] ∧
            (ClientTasks.loopHistory moves).length < 2 ^ 32 ∧
              ClientTasks.loopHistory moves =
                loopHistory clientAddress history))
      (by decide) with
    ⟨moves, tasks, history, network, callers, around, checked⟩
  rw [Bool.and_eq_true, decide_eq_true_eq] at checked
  rcases checked with ⟨isRouted, ends, short, sameLoop⟩
  rw [getIsRouted, Bool.and_eq_true, Bool.and_eq_true, decide_eq_true_eq,
    List.all_eq_true] at isRouted
  rcases isRouted with ⟨⟨agree, routes⟩, _⟩
  refine ⟨moves, tasks, ends, ?_⟩
  exact calls_return_routed_responses bareCodec_lawful
    bareCodec_optionsLawful ⟨callers, around, sameLoop⟩
    (tokensNotExhausted_of_length short)
    (undisturbed_of_acksAgree agree)
    (fun transition isMember =>
      routed_of_answersRouted (routes transition isMember))
    0 answer (by rw [ends]; rfl)

end TwoStacks

end Coapable.EndToEnd
