import Coapable.BareCodec
import Coapable.Server.ServerTasks

/-!
# When the stack and the server wait for each other

A server task that never takes a request while the channel of its answers is
full never waits in `send_response`, so the two tasks never wait for each
other.  One that does take such a request is cornered: until the stack takes
an answer it cannot get rid of its own, and the stack may receive requests
instead, until their channel is full as well and it waits for the server in
turn.
-/

namespace Coapable.Server.ServerTasks

open Coapable.BareCodec
open Coapable.CoapLite
open Coapable.Foundation
open Coapable.Foundation.Execution
open Coapable.MessageTypes
open Coapable.Transport

variable {codec : Codec} {tasks after : ServerTasks}
  {history : List ServerTransition}

/-! ## The server task -/

/-- The server takes a request. -/
def Move.isReceive : Move → Bool
  | .receive => true
  | _ => false

/-- The server does not take a request while the channel of its answers is
full. -/
def ReceivesWithRoom (transition : ServerTransition) : Prop :=
  transition.input.isReceive = true → ¬transition.before.responses.Full

instance (transition : ServerTransition) :
    Decidable (ReceivesWithRoom transition) :=
  inferInstanceAs (Decidable (_ → _))

/-- The server has a request at hand and no room for its answer. -/
def Cornered (tasks : ServerTasks) : Prop :=
  tasks.server ≠ .receiving ∧ tasks.responses.Full

theorem ServerBlocked.cornered
    (blocked : tasks.ServerBlocked) : tasks.Cornered := by
  rcases blocked with ⟨⟨response, responds⟩, full⟩
  exact ⟨by simp [responds], full⟩

/-- The server is cornered exactly by taking a request for whose answer there
is no room. -/
theorem not_cornered_iff
    {move : Move} {output : Unit}
    (stepped : tasks.step codec move = some (after, output))
    (free : ¬tasks.Cornered) :
    ¬after.Cornered ↔ ReceivesWithRoom ⟨tasks, move, output, after⟩ := by
  cases step_cases stepped with
  | received receiving received =>
      simp [Cornered, ReceivesWithRoom, Move.isReceive]
  | finished handles =>
      refine iff_of_true ?_ (by simp [ReceivesWithRoom, Move.isReceive])
      rintro ⟨_, full⟩
      exact free ⟨by simp [handles], full⟩
  | responded responds sent =>
      simp [Cornered, ReceivesWithRoom, Move.isReceive]
  | taken fetched taken =>
      refine iff_of_true ?_ (by simp [ReceivesWithRoom, Move.isReceive])
      rintro ⟨busy, full⟩
      rcases not_full_of_fetch fetched with same | room
      · subst same
        exact free ⟨busy, full⟩
      · exact room full
  | dispatched awaits sent =>
      exact iff_of_true free (by simp [ReceivesWithRoom, Move.isReceive])
  | performed awaits elsewhere =>
      exact iff_of_true free (by simp [ReceivesWithRoom, Move.isReceive])

/-! ## The stack task while the server is cornered -/

/-- The moves other than taking one more request. -/
def Quiet (move : Move) : Prop :=
  move.isReceive = false

/-- The tasks may come to wait for each other with no further request taken
by the server. -/
def CanDeadlock (codec : Codec) (tasks : ServerTasks) : Prop :=
  ∃ final, (serverMachine codec).Reaches Quiet tasks final ∧
    final.Deadlocked

/-- What the stack does when the send it stands at completes. -/
structure Performed (tasks after : ServerTasks) : Prop where
  server : after.server = tasks.server
  responses : after.responses = tasks.responses
  stack : after.stack = tasks.stack.proceed

theorem Performed.serverBlocked
    (performed : Performed tasks after) (blocked : tasks.ServerBlocked) :
    after.ServerBlocked := by
  rcases performed with ⟨server, responses, _⟩
  simpa only [ServerBlocked, server, responses] using blocked

theorem exists_dispatched
    (codec : Codec) {request : ServerRequest}
    (awaits : tasks.stack.awaited = some (.sendRequest request))
    (room : ¬tasks.requests.Full) :
    ∃ after,
      (serverMachine codec).Reaches Quiet tasks after ∧
        Performed tasks after ∧
        after.requests.items = tasks.requests.items ++ [request] ∧
        after.requests.room + 1 = tasks.requests.room := by
  rcases Channel.exists_send room request with ⟨requests, sent⟩
  have stepped :
      step codec tasks .perform =
        some ({ tasks with
          requests := requests
          stack := tasks.stack.proceed }, ()) := by
    simp only [step, awaits, sent, Option.map_some]
  exact ⟨_, .of_step (show Quiet .perform from rfl) stepped,
    ⟨rfl, rfl, rfl⟩, (Channel.send_eq_some sent).2,
    Channel.room_of_send sent⟩

/-- A send that does not go to the server always completes here. -/
theorem exists_performed
    (codec : Codec) {effect : Effect}
    (awaits : tasks.stack.awaited = some effect)
    (elsewhere : ∀ request, effect ≠ .sendRequest request) :
    ∃ after,
      (serverMachine codec).Reaches Quiet tasks after ∧
        Performed tasks after ∧ after.requests = tasks.requests := by
  have stepped :
      step codec tasks .perform =
        some ({ tasks with stack := tasks.stack.proceed }, ()) := by
    cases effect with
    | sendPacket packet peer => simp only [step, awaits]
    | sendRequest request => exact absurd rfl (elsewhere request)
    | deliver delivery => simp only [step, awaits]
  exact ⟨_, .of_step (show Quiet .perform from rfl) stepped,
    ⟨rfl, rfl, rfl⟩, rfl⟩

/-- The stack gets to the end of its body, or to a send that waits. -/
theorem exists_body_finished
    (codec : Codec) (blocked : tasks.ServerBlocked) :
    ∃ after, (serverMachine codec).Reaches Quiet tasks after ∧
      (after.ServerBlocked ∧
        after.requests.room ≤ tasks.requests.room) ∧
      (after.StackBlocked ∨ after.stack.pending = []) := by
  let progressed (next : ServerTasks) : Prop :=
    next.ServerBlocked ∧ next.requests.room ≤ tasks.requests.room
  apply Machine.exists_reaches_of_progress progressed
    (fun next => progressed next ∧
      (next.StackBlocked ∨ next.stack.pending = []))
    (fun next => next.stack.pending.length)
  · rintro state ⟨still, room⟩
    have shorter {effect : Effect} {next : ServerTasks}
        (waiting : state.stack.awaited = some effect)
        (performed : Performed state next) :
        next.stack.pending.length < state.stack.pending.length := by
      rw [performed.stack, StackTask.pending_of_awaited waiting]
      exact Nat.lt_succ_self _
    cases waiting : state.stack.awaited with
    | none =>
        have idle := state.stack.awaited_eq_none_iff.mp waiting
        exact ⟨state, .refl state, .inl ⟨⟨still, room⟩, .inr idle⟩⟩
    | some effect =>
        by_cases dispatches : ∃ request, effect = .sendRequest request
        · rcases dispatches with ⟨request, rfl⟩
          by_cases full : state.requests.Full
          · exact ⟨state, .refl state, .inl ⟨⟨still, room⟩,
              .inl ⟨⟨request, waiting⟩, full⟩⟩⟩
          · rcases exists_dispatched codec waiting full with
              ⟨next, reaches, performed, _, shrinks⟩
            exact ⟨next, reaches,
              .inr ⟨⟨performed.serverBlocked still, by omega⟩,
                shorter waiting performed⟩⟩
        · rcases exists_performed codec waiting
              (fun request isRequest =>
                dispatches ⟨request, isRequest⟩) with
            ⟨next, reaches, performed, same⟩
          exact ⟨next, reaches,
            .inr ⟨⟨performed.serverBlocked still, by rw [same]; exact room⟩,
              shorter waiting performed⟩⟩
  · exact ⟨blocked, le_rfl⟩

/-- Between two iterations the stack can receive a request, which it then has
to dispatch. -/
theorem exists_request_received
    {raw : Bytes} (wellFormed : NonRequestDatagram codec raw)
    (idle : tasks.stack.pending = []) :
    ∃ stack request,
      (serverMachine codec).Reaches Quiet tasks
        { tasks with stack := stack } ∧
      stack.pending = [.sendRequest request] := by
  rcases StackTask.exists_take_dispatch wellFormed idle with
    ⟨peer, stack, request, taken, pending⟩
  let move := Move.take
    (.plain tasks.stack.loop.clock (.inbound raw peer))
  have stepped :
      step codec tasks move = some ({ tasks with stack := stack }, ()) := by
    simp only [step, move, fetch, Iteration.plain] at taken ⊢
    rw [taken]
    rfl
  exact ⟨stack, request,
    .of_step (show Quiet move from rfl) stepped, pending⟩

theorem canDeadlock_of_serverBlocked
    {raw : Bytes} (wellFormed : NonRequestDatagram codec raw)
    (blocked : tasks.ServerBlocked) :
    CanDeadlock codec tasks := by
  apply Machine.exists_reaches_of_progress ServerBlocked Deadlocked
    (fun state => state.requests.room) _ blocked
  intro state blocked
  rcases exists_body_finished codec blocked with
    ⟨between, first, ⟨still, room⟩, waits | idle⟩
  · exact ⟨between, first, .inl ⟨still, waits⟩⟩
  · rcases exists_request_received wellFormed idle with
      ⟨stack, request, second, pending⟩
    let holding := { between with stack := stack }
    have awaits :
        holding.stack.awaited = some (.sendRequest request) := by
      simp only [holding, StackTask.awaited, pending, List.head?_cons]
    by_cases full : between.requests.Full
    · exact ⟨holding, first.trans second,
        .inl ⟨still, ⟨request, awaits⟩, full⟩⟩
    · rcases exists_dispatched codec awaits full with
        ⟨next, third, performed, _, shrinks⟩
      have smaller : next.requests.room + 1 = between.requests.room :=
        shrinks
      exact ⟨next, (first.trans second).trans third,
        .inr ⟨performed.serverBlocked still, by omega⟩⟩

/-- A cornered server may wait for room while requests fill their own
channel. -/
theorem canDeadlock_of_cornered
    {raw : Bytes} (wellFormed : NonRequestDatagram codec raw)
    (cornered : tasks.Cornered) :
    CanDeadlock codec tasks := by
  rcases cornered with ⟨busy, full⟩
  cases server : tasks.server with
  | receiving => exact absurd server busy
  | responding response =>
      exact canDeadlock_of_serverBlocked wellFormed
        ⟨⟨response, server⟩, full⟩
  | handling request =>
      let answered := { tasks with
        server := .answer request (some ⟨.content, none, []⟩) }
      have stepped :
          step codec tasks (.finish (some ⟨.content, none, []⟩)) =
            some (answered, ()) := by
        simp only [step, server, answered]
      have first : (serverMachine codec).Reaches Quiet tasks answered :=
        .of_step (show Quiet (.finish _) from rfl) stepped
      rcases canDeadlock_of_serverBlocked wellFormed
          (show answered.ServerBlocked from ⟨⟨_, rfl⟩, full⟩) with
        ⟨final, further, deadlocked⟩
      exact ⟨final, first.trans further, deadlocked⟩

/-- With no further request taken the tasks can deadlock exactly if the
server is cornered already. -/
theorem canDeadlock_iff_cornered
    {raw : Bytes} (wellFormed : NonRequestDatagram codec raw) :
    CanDeadlock codec tasks ↔ tasks.Cornered := by
  refine ⟨?_, canDeadlock_of_cornered wellFormed⟩
  rintro ⟨final, reaches, deadlocked⟩
  by_contra free
  refine reaches.invariant (fun tasks => ¬tasks.Cornered) ?_ free
    deadlocked.1.cornered
  intro before after move output quiet notYet stepped
  refine (not_cornered_iff stepped notYet).mpr ?_
  intro receives
  exact absurd (receives.symm.trans quiet) (by decide)

/-! ## Runs -/

theorem initial_start (codec : Codec) (now : Nat) :
    (serverMachine codec).Initial (ServerTasks.start now) :=
  ⟨now, rfl⟩

theorem not_cornered_start
    (initial : (serverMachine codec).Initial tasks) :
    ¬tasks.Cornered := by
  rcases initial with ⟨now, rfl⟩
  rintro ⟨busy, _⟩
  exact busy rfl

/-- Along a run the server is never cornered exactly if it takes every
request while there is room for the answer. -/
theorem never_cornered_iff
    (run : Run (serverMachine codec) history tasks) :
    Along (fun _ transition => ¬transition.after.Cornered) history ↔
      Along (fun _ transition => ReceivesWithRoom transition) history :=
  Run.along_after_iff (fun _ => not_cornered_start)
    (fun _ _ _ _ _ _ free stepped => not_cornered_iff stepped free) run

/-- While the server takes a request only when there is room for its answer,
the two tasks never wait for each other; and exactly then no state of the run
lets the stack bring such a deadlock about. -/
theorem never_deadlocked_while_answers_have_room
    (run : Run (serverMachine codec) history tasks) :
    (Along (fun _ transition => ReceivesWithRoom transition) history →
      ¬tasks.Deadlocked) ∧
    ∀ raw, NonRequestDatagram codec raw →
      (Along (fun _ transition =>
          ¬CanDeadlock codec transition.after) history ↔
        Along (fun _ transition => ReceivesWithRoom transition)
          history) := by
  constructor
  · intro roomy deadlocked
    have free : ¬tasks.Cornered :=
      run.of_along_after (fun tasks => ¬tasks.Cornered)
        (fun _ => not_cornered_start)
        ((never_cornered_iff run).mpr roomy)
    exact free deadlocked.1.cornered
  · intro raw wellFormed
    rw [← never_cornered_iff run]
    exact along_congr fun transition older _ =>
      not_congr (canDeadlock_iff_cornered wellFormed)

/-- A NON GET with MID 7. -/
def bareNonGet : Bytes := [0x50, 1, 0, 7]

theorem bareNonGet_wellFormed :
    NonRequestDatagram bareCodec bareNonGet :=
  ⟨{ Packet.new with header := ⟨.nonConfirmable, .request .get, 7⟩ },
    ⟨.get, "/", [], none, [], none, false⟩, rfl, rfl, rfl, rfl⟩

/-- The server answers a GET, and takes a second one while its first answer
waits in the channel and a third GET is received. -/
def answeringMoves : List Move :=
  let arrives (mid : UInt8) : Move :=
    .take (.plain (fromSecs 1) (.inbound [0x50, 1, 0, mid] (.loopback 5000)))
  [arrives 7, .perform, .receive, .finish (some ⟨.content, none, []⟩),
    arrives 8, .perform, .respond, .receive, arrives 9, .perform]

theorem never_deadlocked_while_answers_have_room_on_request :
    ∃ history tasks, Run (serverMachine bareCodec) history tasks ∧
      (tasks.server ≠ .receiving ∧ tasks.requests.items.length = 1 ∧
        tasks.responses.items.length = 1) ∧
      ¬tasks.Deadlocked ∧
      Along (fun _ transition =>
        ¬CanDeadlock bareCodec transition.after) history := by
  rcases exists_run_of_replay (initial_start bareCodec 0) answeringMoves
      (fun history tasks =>
        decide (tasks.server ≠ .receiving ∧
          tasks.requests.items.length = 1 ∧
          tasks.responses.items.length = 1) &&
        decide (Along (fun _ transition => ReceivesWithRoom transition)
          history))
      (by decide) with
    ⟨history, tasks, run, checked⟩
  rw [Bool.and_eq_true, decide_eq_true_eq, decide_eq_true_eq] at checked
  rcases checked with ⟨carries, roomy⟩
  exact ⟨history, tasks, run, carries,
    (never_deadlocked_while_answers_have_room run).1 roomy,
    ((never_deadlocked_while_answers_have_room run).2 bareNonGet
      bareNonGet_wellFormed).mpr roomy⟩

/-! ## A deadlock -/

/-- Both tasks are between two rounds. -/
structure Rested (tasks : ServerTasks) : Prop where
  server : tasks.server = .receiving
  requests : tasks.requests.items = []
  stack : tasks.stack.pending = []

/-- One request goes through to the server. -/
theorem exists_handling
    {raw : Bytes} (wellFormed : NonRequestDatagram codec raw)
    (rested : tasks.Rested) :
    ∃ after request,
      (serverMachine codec).Reaches (fun _ => True) tasks after ∧
        after.server = .handling request ∧
        after.responses = tasks.responses ∧
        after.requests.items = [] ∧
        after.stack.pending = [] := by
  rcases exists_request_received wellFormed rested.stack with
    ⟨stack, request, first, pending⟩
  let holding := { tasks with stack := stack }
  have awaits : holding.stack.awaited = some (.sendRequest request) := by
    simp only [holding, StackTask.awaited, pending, List.head?_cons]
  have room : ¬holding.requests.Full := by
    simp [holding, Channel.Full, rested.requests, channelCapacity]
  rcases exists_dispatched codec awaits room with
    ⟨sent, second, performed, items, _⟩
  have queued : sent.requests.receive = some (request, .empty) := by
    rw [Channel.receive_eq_some_iff, items]
    show tasks.requests.items ++ [request] = [request]
    rw [rested.requests, List.nil_append]
  let busy :=
    { sent with server := .handling request, requests := .empty }
  have received :
      (serverMachine codec).step sent .receive = some (busy, ()) := by
    have free : sent.server = .receiving :=
      performed.server.trans rested.server
    show step codec sent .receive = _
    simp only [step, free, queued, Option.map_some, busy]
  refine ⟨busy, request,
    ((first.trans second).mono fun _ _ => trivial).trans
      (.of_step trivial received), rfl, performed.responses, rfl, ?_⟩
  show sent.stack.pending = []
  rw [performed.stack]
  simp only [holding, StackTask.proceed, pending, List.tail_cons]

/-- Requests whose answers the stack does not take corner the server. -/
theorem exists_cornered
    {raw : Bytes} (wellFormed : NonRequestDatagram codec raw)
    (rested : tasks.Rested) :
    ∃ after,
      (serverMachine codec).Reaches (fun _ => True) tasks after ∧
        after.Cornered := by
  apply Machine.exists_reaches_of_progress Rested Cornered
    (fun state => state.responses.room) _ rested
  intro state rested
  rcases exists_handling wellFormed rested with
    ⟨busy, request, first, handles, responses, requests, pending⟩
  by_cases full : state.responses.Full
  · exact ⟨busy, first, .inl ⟨by simp [handles], responses ▸ full⟩⟩
  · let response : ServerResponse :=
      ⟨⟨.content, none, []⟩, request.peer, request.token⟩
    rw [← responses] at full
    rcases Channel.exists_send full response with ⟨longer, sent⟩
    let answered := { busy with server := .responding response }
    let relieved :=
      { busy with server := .receiving, responses := longer }
    have finished :
        (serverMachine codec).step busy
            (.finish (some ⟨.content, none, []⟩)) =
          some (answered, ()) := by
      show step codec busy (.finish _) = _
      simp only [step, handles, CoapServer.answer, response, answered]
    have responded :
        (serverMachine codec).step answered .respond =
          some (relieved, ()) := by
      show step codec answered .respond = _
      simp only [step, answered, sent, Option.map_some, relieved]
    have shrinks := Channel.room_of_send sent
    rw [responses] at shrinks
    refine ⟨relieved, (first.trans (.of_step trivial finished)).trans
      (.of_step trivial responded), .inr ⟨⟨rfl, requests, pending⟩, ?_⟩⟩
    show longer.room < state.responses.room
    omega

/-- One hundred requests answered and one more taken by the server, then one
hundred and one further requests. -/
theorem stack_and_server_can_deadlock :
    ¬∀ history tasks, Run (serverMachine bareCodec) history tasks →
      ¬tasks.Deadlocked := by
  intro never
  let tasks := ServerTasks.start 0
  rcases exists_cornered bareNonGet_wellFormed
      (show tasks.Rested from ⟨rfl, rfl, rfl⟩) with
    ⟨between, first, cornered⟩
  rcases canDeadlock_of_cornered bareNonGet_wellFormed cornered with
    ⟨final, second, deadlocked⟩
  rcases (first.trans (second.mono fun _ _ => trivial)).exists_run
      (initial_start bareCodec 0) with ⟨history, run⟩
  exact never history final run deadlocked

end Coapable.Server.ServerTasks
