import Coapable.Server.ServerOrder
import Coapable.Transport.EffectView

/-!
# Winding up

Left to themselves, with no packet, no client request and no timer, the server
task and the task of the stack finish what is underway: the stack completes
the sends of its body and takes answers, the server handles what waits.  That
always comes to an end, and whether anything is left over does not depend on
who moves first.  It is decided by the state it begins in: something is left
exactly if both channels are full, the server has an answer to give and the
body of the stack has a request to dispatch.

The sends of a body to the endpoint are taken to complete here; a stack that
waits for the endpoint is a matter of all tasks.
-/

namespace Coapable.Server

open Coapable.CoapLite
open Coapable.Foundation
open Coapable.Foundation.Execution
open Coapable.MessageTypes
open Coapable.Transport

/-! ## One dispatch for each body -/

section Dispatch

variable {codec : Codec} {before after : Loop} {iteration : Iteration}
  {effects : List Effect}

theorem dispatched_eq_none
    {effect : Effect}
    (elsewhere : ∀ request, effect ≠ .sendRequest request) :
    dispatched? effect = none := by
  cases effect with
  | sendRequest request => exact absurd rfl (elsewhere request)
  | sendPacket _ _ | deliver _ => rfl

theorem filterMap_dispatched_eq_nil
    (noRequest : ∀ request, .sendRequest request ∉ effects) :
    effects.filterMap dispatched? = [] := by
  rw [List.filterMap_eq_nil_iff]
  rintro effect member
  exact dispatched_eq_none fun request isRequest =>
    noRequest request (isRequest ▸ member)

/-- A body that dispatches a request does nothing else. -/
def DispatchesAlone (effects : List Effect) : Prop :=
  ∀ request, .sendRequest request ∈ effects →
    effects = [.sendRequest request]

theorem DispatchesAlone.one
    (alone : DispatchesAlone effects) :
    (effects.filterMap dispatched?).length ≤ 1 := by
  by_cases dispatches : ∃ request, .sendRequest request ∈ effects
  · rcases dispatches with ⟨request, member⟩
    rw [alone request member]
    exact le_rfl
  · rw [filterMap_dispatched_eq_nil (not_exists.mp dispatches)]
    exact Nat.zero_le 1

/-- An ACK is sent for what is no request. -/
theorem recordMessage_effects_of_request
    {session : PeerSession} {now : Nat} {peer : SocketAddr}
    {parsed : Packet} {method : RequestType}
    (code : parsed.header.code = .request method) :
    (recordMessage codec session now peer parsed).2 = [] := by
  simp only [recordMessage, acknowledgeCon, code]
  split <;> rfl

theorem dispatchMessage_dispatches
    {session dispatched : PeerSession} {peer : SocketAddr}
    {parsed : Packet} {request : ServerRequest}
    (dispatches : dispatchMessage codec session peer parsed =
      .ok (dispatched, effects))
    (member : .sendRequest request ∈ effects) :
    effects = [.sendRequest request] ∧
      ∃ method, parsed.header.code = .request method := by
  simp only [dispatchMessage] at dispatches
  split at dispatches
  · next method code =>
      split at dispatches
      · cases dispatches
      · cases dispatches
        rw [List.mem_singleton] at member
        exact ⟨by rw [member], method, code⟩
      · cases dispatches
        cases member
  · split at dispatches
    · cases dispatches
      simp at member
    · cases dispatches
      cases member
  · cases dispatches
    cases member

theorem receiveMessage_dispatchesAlone
    {session received : PeerSession} {now : Nat} {peer : SocketAddr}
    {parsed : Packet}
    (kind : parsed.header.messageType = .confirmable ∨
      parsed.header.messageType = .nonConfirmable)
    (receives : receiveMessage codec session now peer parsed =
      .ok (received, effects)) :
    DispatchesAlone effects := by
  intro request member
  rcases receiveMessage_cases receives with
    ⟨_, _, rfl⟩ | ⟨_, dispatched, dispatches, rfl⟩
  · simp only [replayCached] at member
    split at member
    · split at member <;> simp at member
    · cases member
  · rw [List.mem_append] at member
    rcases member with isAck | isDispatched
    · rw [recordMessage_effects session now peer kind] at isAck
      simp [SentAck.effect] at isAck
    · rcases dispatchMessage_dispatches dispatches isDispatched with
        ⟨only, method, code⟩
      rw [recordMessage_effects_of_request code, only]
      rfl

/-- The body of a branch that dispatches a request does nothing else. -/
theorem dispatchesAlone_of_step
    (stepped : before.step codec iteration = some (after, effects)) :
    DispatchesAlone effects := by
  intro request member
  have branch := (Transport.step_cases stepped).branch
  rcases sendRequest_dispatches branch member with
    ⟨raw, parsed, taken, parses, _⟩
  rcases branch.of_inbound taken parses with ⟨session, _, received⟩
  rcases receivePacket_cases received with
    ⟨kind, receives⟩ | ⟨_, _, rfl⟩ | ⟨_, _, rfl⟩
  · exact receiveMessage_dispatchesAlone kind receives request member
  · rcases receiveAck_effects codec _ parsed member with ⟨_, ⟨⟩⟩
  · simp at member

/-- The body of the branch that takes an answer sends one packet at most. -/
theorem effects_of_answer
    {response : ServerResponse}
    (taken : iteration.branch = .outboundResponse (some response))
    (stepped : before.step codec iteration = some (after, effects)) :
    effects.length ≤ 1 ∧ effects.filterMap dispatched? = [] := by
  have isEffects :=
    ((Transport.step_cases stepped).branch.of_response taken).2
  simp only [sendOutboundResponse, PeerSession.takeInboundConMid]
    at isEffects
  subst isEffects
  split <;> split <;> simp [dispatched?]

end Dispatch

/-- The server has an answer to give, or the handler will return one. -/
def CoapServer.Owes (handler : ServerRequest → Option CoapResponse) :
    CoapServer → Prop
  | .receiving => False
  | .handling request => (handler request).isSome = true
  | .responding _ => True

namespace ServerTasks

/-- The requests that the body of the stack still has to dispatch. -/
def toDispatch (tasks : ServerTasks) : List ServerRequest :=
  tasks.stack.pending.filterMap dispatched?

/-- The moves that finish what is underway: the handler returns what it
returns, and the stack takes nothing but answers. -/
def WindsUp (handler : ServerRequest → Option CoapResponse)
    (tasks : ServerTasks) : Move → Prop
  | .finish response =>
      ∀ request, tasks.server = .handling request →
        response = handler request
  | .take iteration =>
      ∃ response, iteration.branch = .outboundResponse (some response)
  | .receive | .respond | .perform => True

/-- Both channels are full, the server is about to send an answer and the
stack is about to dispatch a request. -/
structure Doomed (handler : ServerRequest → Option CoapResponse)
    (tasks : ServerTasks) : Prop where
  owes : tasks.server.Owes handler
  responses : tasks.responses.Full
  requests : tasks.requests.Full
  dispatches : tasks.toDispatch ≠ []

/-- Nothing is underway. -/
structure Settled (tasks : ServerTasks) : Prop where
  server : tasks.server = .receiving
  requests : tasks.requests.items = []
  responses : tasks.responses.items = []
  stack : tasks.stack.pending = []

/-- What is underway, each item with the moves it can still cause. -/
def work (tasks : ServerTasks) : Nat :=
  6 * tasks.requestsUnderway.length + 3 * tasks.answersUnderway.length +
    tasks.requests.items.length + tasks.server.ready.length +
      2 * tasks.stack.pending.length

variable {codec : Codec} {tasks after : ServerTasks} {move : Move}
  {output : Unit} {handler : ServerRequest → Option CoapResponse}

/-! ## One move -/

theorem toDispatch_of_performed
    {effect : Effect} (awaits : tasks.stack.awaited = some effect) :
    tasks.toDispatch =
      (dispatched? effect).toList ++
        tasks.stack.proceed.pending.filterMap dispatched? := by
  rw [toDispatch, StackTask.pending_of_awaited awaits]
  cases effect <;> rfl

theorem toDispatch_step
    (one : tasks.toDispatch.length ≤ 1)
    (stepped : tasks.step codec move = some (after, output)) :
    after.toDispatch.length ≤ 1 := by
  cases step_cases stepped with
  | received free received => exact one
  | finished handles => exact one
  | responded responds sent => exact one
  | taken fetched taken =>
      exact (dispatchesAlone_of_step
        (StackTask.step_of_take taken)).one
  | dispatched awaits sent =>
      rw [toDispatch_of_performed awaits, List.length_append] at one
      exact (Nat.le_add_left _ _).trans one
  | performed awaits elsewhere =>
      rw [toDispatch_of_performed awaits, List.length_append] at one
      exact (Nat.le_add_left _ _).trans one

/-- No move that winds up leads into doom or out of it. -/
theorem doomed_step_iff
    (one : tasks.toDispatch.length ≤ 1)
    (windsUp : WindsUp handler tasks move)
    (stepped : tasks.step codec move = some (after, output)) :
    after.Doomed handler ↔ tasks.Doomed handler := by
  cases step_cases stepped with
  | received free received =>
      refine iff_of_false ?_ ?_
      · intro doomed
        exact Channel.not_full_of_receive received doomed.requests
      · intro doomed
        have owes := doomed.owes
        rw [free] at owes
        exact owes
  | @finished request response handles =>
      have isAnswer : response = handler request :=
        windsUp request handles
      have sameOwes :
          (CoapServer.answer request response).Owes handler ↔
            tasks.server.Owes handler := by
        rw [handles, isAnswer, CoapServer.Owes]
        cases handler request <;> simp [CoapServer.answer, CoapServer.Owes]
      constructor
      · rintro ⟨owes, responses, requests, dispatches⟩
        exact ⟨sameOwes.mp owes, responses, requests, dispatches⟩
      · rintro ⟨owes, responses, requests, dispatches⟩
        exact ⟨sameOwes.mpr owes, responses, requests, dispatches⟩
  | responded responds sent =>
      refine iff_of_false (fun doomed => doomed.owes) ?_
      intro doomed
      exact (Channel.send_eq_some sent).1 doomed.responses
  | taken fetched taken =>
      rcases windsUp with ⟨response, isAnswer⟩
      refine iff_of_false ?_ ?_
      · intro doomed
        exact doomed.dispatches
          (effects_of_answer isAnswer (StackTask.step_of_take taken)).2
      · intro doomed
        apply doomed.dispatches
        rw [toDispatch, StackTask.pending_of_take taken]
        rfl
  | @dispatched request requests awaits sent =>
      refine iff_of_false ?_ ?_
      · intro doomed
        rw [toDispatch_of_performed awaits] at one
        have fewer : (tasks.stack.proceed.pending.filterMap
            dispatched?).length + 1 ≤ 1 := one
        exact doomed.dispatches (List.eq_nil_of_length_eq_zero
          (Nat.le_zero.mp (Nat.le_of_succ_le_succ fewer)))
      · intro doomed
        exact (Channel.send_eq_some sent).1 doomed.requests
  | @performed effect awaits elsewhere =>
      have noRequest := dispatched_eq_none elsewhere
      have same :
          toDispatch { tasks with stack := tasks.stack.proceed } =
            tasks.toDispatch := by
        rw [toDispatch_of_performed awaits, noRequest]
        rfl
      constructor
      · rintro ⟨owes, responses, requests, dispatches⟩
        exact ⟨owes, responses, requests, same ▸ dispatches⟩
      · rintro ⟨owes, responses, requests, dispatches⟩
        exact ⟨owes, responses, requests, same ▸ dispatches⟩

/-- Every move that winds up leaves less to do. -/
theorem work_step
    (windsUp : WindsUp handler tasks move)
    (stepped : tasks.step codec move = some (after, output)) :
    after.work < tasks.work := by
  cases step_cases stepped with
  | received free received =>
      have items := Channel.receive_eq_some_iff.mp received
      simp only [work, requestsUnderway, answersUnderway, free,
        CoapServer.inHand, CoapServer.ready, items, List.length_append,
        List.length_cons, List.length_nil]
      omega
  | @finished request response handles =>
      cases response <;>
        simp only [work, requestsUnderway, answersUnderway, handles,
          CoapServer.answer, CoapServer.inHand, CoapServer.ready,
          List.length_append, List.length_cons, List.length_nil] <;>
        omega
  | responded responds sent =>
      simp only [work, requestsUnderway, answersUnderway, responds,
        CoapServer.inHand, CoapServer.ready, (Channel.send_eq_some sent).2,
        List.length_append, List.length_cons, List.length_nil]
      omega
  | @taken iteration stack responses fetched taken =>
      rcases windsUp with ⟨response, isAnswer⟩
      rcases effects_of_answer isAnswer (StackTask.step_of_take taken)
        with ⟨atMostOne, noRequest⟩
      have items : tasks.responses.items = response :: responses.items := by
        simp only [isAnswer, fetch] at fetched
        split at fetched
        · next oldest rest received =>
            split at fetched
            · next same =>
                cases fetched
                cases same
                exact Channel.receive_eq_some_iff.mp received
            · cases fetched
        · cases fetched
      simp only [work, requestsUnderway, answersUnderway, noRequest, items,
        StackTask.pending_of_take taken, List.filterMap_nil,
        List.length_append, List.length_cons, List.length_nil]
      omega
  | @dispatched request requests awaits sent =>
      simp only [work, requestsUnderway, answersUnderway,
        StackTask.pending_of_awaited awaits, (Channel.send_eq_some sent).2,
        List.filterMap_cons, dispatched?, List.length_append,
        List.length_cons, List.length_nil]
      omega
  | @performed effect awaits elsewhere =>
      have noRequest := dispatched_eq_none elsewhere
      simp only [work, requestsUnderway, answersUnderway,
        StackTask.pending_of_awaited awaits, List.filterMap_cons, noRequest,
        List.length_append, List.length_cons]
      omega

/-- The oldest answer can be taken between two bodies of the stack. -/
theorem isSome_take_answer
    (codec : Codec) (idle : tasks.stack.pending = [])
    {response : ServerResponse} {rest : List ServerResponse}
    (items : tasks.responses.items = response :: rest) :
    (tasks.step codec (.take (.plain tasks.stack.loop.clock
      (.outboundResponse (some response))))).isSome = true := by
  let iteration : Iteration :=
    .plain tasks.stack.loop.clock (.outboundResponse (some response))
  have admitted : tasks.stack.loop.Admits iteration := by
    refine ⟨le_rfl, trivial, ?_⟩
    rintro _ ⟨⟩
  rcases StackTask.exists_take_or_ends codec idle rfl admitted with
    ⟨taken, takes⟩ | ⟨_, ⟨⟩⟩
  rcases Channel.exists_receive items with ⟨responses, received, _⟩
  have fetched : fetch tasks.responses iteration.branch =
      some responses := by
    show fetch tasks.responses (.outboundResponse (some response)) = _
    simp only [fetch, received, if_true]
  show (tasks.step codec (.take iteration)).isSome = true
  simp only [step, fetched, takes, Option.map_some, Option.isSome_some]

/-- The server can move while it is busy or something waits for it, unless it
waits for room. -/
theorem exists_server_move
    (codec : Codec) (handler : ServerRequest → Option CoapResponse)
    (something : tasks.server ≠ .receiving ∨ tasks.requests.items ≠ [])
    (room : tasks.server.Owes handler → ¬tasks.responses.Full) :
    ∃ move, WindsUp handler tasks move ∧
      (tasks.step codec move).isSome = true := by
  cases server : tasks.server with
  | receiving =>
      cases items : tasks.requests.items with
      | nil => exact (something.elim (· server) (· items)).elim
      | cons request rest =>
          rcases Channel.exists_receive items with ⟨requests, received, _⟩
          refine ⟨.receive, trivial, ?_⟩
          simp only [step, server, received, Option.map_some,
            Option.isSome_some]
  | handling request =>
      refine ⟨.finish (handler request), ?_, ?_⟩
      · intro other isHandled
        rw [server] at isHandled
        cases isHandled
        rfl
      · simp only [step, server, Option.isSome_some]
  | responding response =>
      rcases Channel.exists_send (room (by rw [server]; trivial)) response
        with ⟨responses, sent⟩
      refine ⟨.respond, trivial, ?_⟩
      simp only [step, server, sent, Option.map_some, Option.isSome_some]

/-- While something is underway and the tasks are not doomed, one of them can
move. -/
theorem exists_move
    (codec : Codec) (free : ¬tasks.Doomed handler)
    (unsettled : ¬tasks.Settled) :
    ∃ move, WindsUp handler tasks move ∧
      (tasks.step codec move).isSome = true := by
  cases awaits : tasks.stack.awaited with
  | none =>
      have idle := tasks.stack.awaited_eq_none_iff.mp awaits
      cases items : tasks.responses.items with
      | cons response rest =>
          exact ⟨.take (.plain tasks.stack.loop.clock
              (.outboundResponse (some response))), ⟨response, rfl⟩,
            isSome_take_answer codec idle items⟩
      | nil =>
          apply exists_server_move codec handler
          · by_contra nothing
            rw [not_or, not_not, not_not] at nothing
            exact unsettled ⟨nothing.1, nothing.2, items, idle⟩
          · intro _ full
            rw [Channel.Full, items] at full
            cases full
  | some effect =>
      by_cases dispatches : ∃ request, effect = .sendRequest request
      · rcases dispatches with ⟨request, rfl⟩
        by_cases full : tasks.requests.Full
        · -- The stack waits for room, so it is the turn of the server.
          apply exists_server_move codec handler
          · right
            intro nothing
            rw [Channel.Full, nothing] at full
            cases full
          · intro owes responsesFull
            refine free ⟨owes, responsesFull, full, ?_⟩
            rw [toDispatch_of_performed awaits]
            exact List.cons_ne_nil _ _
        · rcases Channel.exists_send full request with ⟨requests, sent⟩
          refine ⟨.perform, trivial, ?_⟩
          simp only [step, awaits, sent, Option.map_some,
            Option.isSome_some]
      · refine ⟨.perform, trivial, ?_⟩
        cases effect with
        | sendRequest request => exact absurd ⟨request, rfl⟩ dispatches
        | sendPacket _ _ | deliver _ =>
            simp only [step, awaits, Option.isSome_some]

/-! ## Runs -/

/-- The tasks get from the one state to the other with moves that wind up. -/
structure Winding (codec : Codec)
    (handler : ServerRequest → Option CoapResponse)
    (tasks : ServerTasks) (newer : List ServerTransition)
    (final : ServerTasks) : Prop where
  run : Run ((serverMachine codec).resumedAt tasks) newer final
  windsUp : ∀ transition ∈ newer,
    WindsUp handler transition.before transition.input

/-- No move that winds up is left. -/
def Still (codec : Codec) (handler : ServerRequest → Option CoapResponse)
    (tasks : ServerTasks) : Prop :=
  ∀ move, WindsUp handler tasks move → tasks.step codec move = none

section Run

variable {history newer : List ServerTransition} {final : ServerTasks}

theorem toDispatch_of_run
    (run : Run (serverMachine codec) history tasks) :
    tasks.toDispatch.length ≤ 1 := by
  refine run.invariant (fun _ tasks => tasks.toDispatch.length ≤ 1) ?_ ?_
  · rintro tasks ⟨now, rfl⟩
    exact Nat.zero_le 1
  · intro history before after move output _ one stepped
    exact toDispatch_step one stepped

/-- What a winding run keeps: it does no more than was to be done, it stays
doomed or free, and it handles what was underway in its order. -/
structure Kept (handler : ServerRequest → Option CoapResponse)
    (tasks : ServerTasks) (newer : List ServerTransition)
    (final : ServerTasks) : Prop where
  work : newer.length + final.work ≤ tasks.work
  one : final.toDispatch.length ≤ 1
  doomed : final.Doomed handler ↔ tasks.Doomed handler
  handled : (collected handledBy newer).map Handled.request ++
    final.requestsUnderway = tasks.requestsUnderway

theorem dispatchedBy_of_windsUp
    (windsUp : WindsUp handler tasks move)
    (stepped : tasks.step codec move = some (after, output)) :
    dispatchedBy ⟨tasks, move, output, after⟩ = [] := by
  cases step_cases stepped with
  | taken fetched taken =>
      rcases windsUp with ⟨response, isAnswer⟩
      exact (effects_of_answer isAnswer (StackTask.step_of_take taken)).2
  | _ => rfl

theorem Winding.kept
    (run : Run (serverMachine codec) history tasks)
    (winding : Winding codec handler tasks newer final) :
    Kept handler tasks newer final := by
  rcases winding with ⟨resumed, windsUp⟩
  induction resumed with
  | start initial =>
      cases initial
      exact ⟨by simp, toDispatch_of_run run, Iff.rfl, rfl⟩
  | @extend earlierOnes before after move output earlier stepped
      induction =>
      have kept := induction fun transition member =>
        windsUp transition (List.mem_cons_of_mem _ member)
      have winds : WindsUp handler before move :=
        windsUp _ List.mem_cons_self
      have less := work_step winds stepped
      have moved := requestsUnderway_step stepped
      rw [dispatchedBy_of_windsUp winds stepped, List.append_nil] at moved
      refine ⟨?_, toDispatch_step kept.one stepped,
        (doomed_step_iff kept.one winds stepped).trans kept.doomed, ?_⟩
      · have atMost := kept.work
        rw [List.length_cons]
        omega
      · rw [collected_cons, List.map_append, List.append_assoc, moved]
        exact kept.handled

/-- The tasks can wind up until they are still. -/
theorem Winding.exists_still
    (winding : Winding codec handler tasks newer final) :
    ∃ longer last, Winding codec handler tasks longer last ∧
      last.Still codec handler := by
  induction left : final.work using Nat.strong_induction_on
    generalizing newer final with
  | _ left induction =>
      by_cases still : final.Still codec handler
      · exact ⟨newer, final, winding, still⟩
      · simp only [Still, not_forall, exists_prop] at still
        rcases still with ⟨move, windsUp, moves⟩
        rcases Option.ne_none_iff_exists'.mp moves with
          ⟨⟨after, output⟩, stepped⟩
        have longer : Winding codec handler tasks
            (⟨final, move, output, after⟩ :: newer) after := by
          refine ⟨winding.run.extend stepped, ?_⟩
          intro transition member
          rcases List.mem_cons.mp member with rfl | older
          · exact windsUp
          · exact winding.windsUp transition older
        exact induction after.work (left ▸ work_step windsUp stepped)
          longer rfl

/--
With no new input the two tasks come to an end, in whatever order they move:
after at most as many moves as there is work, with the waiting requests
handled in their order, and with nothing left over exactly if they were not
doomed from the start.
-/
theorem winds_up_iff_not_doomed
    (run : Run (serverMachine codec) history tasks)
    (handler : ServerRequest → Option CoapResponse) :
    (∃ newer final, Winding codec handler tasks newer final ∧
      final.Still codec handler) ∧
    ∀ newer final, Winding codec handler tasks newer final →
      newer.length ≤ tasks.work ∧
        (collected handledBy newer).map Handled.request ++
            final.requestsUnderway = tasks.requestsUnderway ∧
        (final.Still codec handler →
          (final.Settled ↔ ¬tasks.Doomed handler)) := by
  have began : Winding codec handler tasks [] tasks :=
    ⟨.start rfl, fun _ member => nomatch member⟩
  refine ⟨began.exists_still, ?_⟩
  intro newer final winding
  have kept := winding.kept run
  refine ⟨(Nat.le_add_right _ _).trans kept.work, kept.handled, ?_⟩
  intro still
  constructor
  · intro settled doomed
    apply (kept.doomed.mpr doomed).dispatches
    rw [toDispatch, settled.stack]
    rfl
  · intro free
    by_contra unsettled
    rcases exists_move codec (fun doomed => free (kept.doomed.mp doomed))
        unsettled with ⟨move, windsUp, moves⟩
    rw [still move windsUp] at moves
    cases moves

end Run

theorem Settled.requestsUnderway
    (settled : tasks.Settled) : tasks.requestsUnderway = [] := by
  rw [ServerTasks.requestsUnderway, settled.server, settled.requests,
    settled.stack]
  rfl

open Coapable.BareCodec in
/-- Two requests wait, and both are handled. -/
theorem winds_up_iff_not_doomed_on_two_waiting :
    ∃ (tasks final : ServerTasks) (newer : List ServerTransition),
      Winding bareCodec (fun _ => some ⟨.content, none, []⟩) tasks newer
          final ∧
        (collected handledBy newer).length = 2 ∧ final.Settled := by
  rcases exists_run_of_replay
      (show (serverMachine bareCodec).Initial (start 0) from ⟨0, rfl⟩)
      (queuedMoves.take 4)
      (fun _ tasks => decide (tasks.requestsUnderway.length = 2 ∧
        ¬tasks.responses.Full))
      (by decide) with
    ⟨history, tasks, run, checked⟩
  rcases of_decide_eq_true checked with ⟨two, room⟩
  rcases winds_up_iff_not_doomed run
      (fun _ => some ⟨.content, none, []⟩) with
    ⟨⟨newer, final, winding, still⟩, ends⟩
  rcases ends newer final winding with ⟨_, handled, settles⟩
  have settled : final.Settled :=
    (settles still).mpr fun doomed => room doomed.responses
  refine ⟨tasks, final, newer, winding, ?_, settled⟩
  rw [settled.requestsUnderway, List.append_nil] at handled
  rw [← two, ← handled, List.length_map]

end ServerTasks

end Coapable.Server
