import Coapable.Client.ClientTasks

/-!
# How a call of `send` ends

A call gets the result that the loop delivered for its own request, or it
learns why there is none: the task of the stack had ended before the request
was handed over, the time ran out while nothing was delivered, or the sending
half of its one-shot channel was dropped, because the request could not be
encoded or the task of the stack ended.  No result is for two calls.

The task of the stack runs the loop, and the numbers of the one-shot channels
are such that the loop never has to turn down the oldest request.
-/

namespace Coapable.Client.ClientTasks

open Coapable.BareCodec
open Coapable.CoapLite
open Coapable.Foundation
open Coapable.Foundation.Execution
open Coapable.MessageTypes
open Coapable.Transport

/-! ## The loop -/

/-- What a move is for the loop. -/
def loopTransition? (transition : ClientTransition) :
    Option LoopTransition :=
  match transition.input, transition.before.stack,
      transition.after.stack with
  | .take iteration, some before, some after =>
      some ⟨before.loop, iteration, after.pending, after.loop⟩
  | _, _, _ => none

/-- What a history of callers and stack is for the loop alone. -/
def loopHistory (history : List ClientTransition) :
    List LoopTransition :=
  history.filterMap loopTransition?

section Loop

variable {codec : Codec} {history : List ClientTransition}
  {tasks : ClientTasks}

theorem loopHistory_take
    {before after : ClientTasks} {task taken : StackTask}
    {iteration : Iteration} {output : Unit}
    (wasAlive : before.stack = some task)
    (isAlive : after.stack = some taken) :
    loopHistory (⟨before, .take iteration, output, after⟩ :: history) =
      ⟨task.loop, iteration, taken.pending, taken.loop⟩ ::
        loopHistory history :=
  List.filterMap_cons_some
    (by simp only [loopTransition?, wasAlive, isAlive])

/-- The task of the stack runs the loop for as long as it does not end. -/
theorem exists_loopRun (run : ClientRun codec history tasks) :
    ∃ loop, LoopRun codec (loopHistory history) loop ∧
      ∀ task ∈ tasks.stack, task.loop = loop := by
  induction run with
  | start initial =>
      rcases initial with ⟨now, rfl⟩
      refine ⟨Loop.start now, .start ⟨now, rfl⟩, ?_⟩
      rintro _ ⟨⟩
      rfl
  | @extend history before after move output earlier stepped induction =>
      rcases induction with ⟨loop, run, isLoop⟩
      cases step_cases stepped with
      | @taken iteration task taken requests alive fetched clock takes =>
          refine ⟨taken.loop, ?_, ?_⟩
          · rw [loopHistory_take alive rfl]
            have isTask := isLoop task alive
            subst isTask
            exact run.extend (StackTask.step_of_take takes)
          · rintro _ ⟨⟩
            rfl
      | called | handed | refused | settled => exact ⟨loop, run, isLoop⟩
      | @performed task effect alive awaits =>
          refine ⟨loop, run, ?_⟩
          rintro _ ⟨⟩
          exact isLoop task alive
      | exited | failed =>
          refine ⟨loop, run, ?_⟩
          rintro _ ⟨⟩

/-- The requests that wait carry the numbers that the loop expects next. -/
structure Numbered (tasks : ClientTasks) : Prop where
  next : ∀ task ∈ tasks.stack,
    task.loop.channels + tasks.requests.items.length = tasks.channels
  waiting : ∀ task ∈ tasks.stack,
    tasks.requests.items.map OutboundRequest.responseTx =
      (List.range' task.loop.channels tasks.requests.items.length).map
        ResponseSender.mk

/-- What the branch takes of the requests that wait. -/
theorem items_of_fetch
    {requests : Channel OutboundRequest channelCapacity}
    {iteration : Iteration}
    (fetched : tasks.fetch iteration.branch = some requests) :
    (∃ outbound,
        iteration.branch = .outboundRequest (some outbound) ∧
          tasks.requests.items = outbound :: requests.items) ∨
      ((∀ outbound,
          iteration.branch ≠ .outboundRequest (some outbound)) ∧
        requests = tasks.requests) := by
  simp only [fetch] at fetched
  split at fetched
  · next outbound taken =>
      split at fetched
      · next oldest rest received =>
          split at fetched
          · next same =>
              cases fetched
              subst same
              exact .inl ⟨oldest, taken,
                Channel.receive_eq_some_iff.mp received⟩
          · cases fetched
      · cases fetched
  · next taken =>
      split at fetched
      · cases fetched
        exact .inr ⟨by simp [taken], rfl⟩
      · cases fetched
  · next otherwise notEnd =>
      cases fetched
      exact .inr ⟨otherwise, rfl⟩

theorem numbered_of_run (run : ClientRun codec history tasks) :
    tasks.Numbered := by
  refine run.invariant (fun _ tasks => tasks.Numbered) ?_ ?_
  · rintro _ ⟨now, rfl⟩
    constructor
    · rintro _ ⟨⟩
      rfl
    · rintro _ ⟨⟩
      rfl
  · intro history before after move output _ numbered stepped
    cases step_cases stepped with
    | @taken iteration task taken requests alive fetched clock takes =>
        have facts := Transport.step_cases (StackTask.step_of_take takes)
        have next := numbered.next task alive
        have waiting := numbered.waiting task alive
        have channels := facts.channels_after
        rcases items_of_fetch fetched with
          ⟨outbound, isRequest, items⟩ | ⟨noRequest, rfl⟩
        · have isTaken : iteration.channelTaken =
              some outbound.responseTx := by
            rw [Iteration.channelTaken, isRequest]
          rw [isTaken, Option.toList_some, List.length_singleton]
            at channels
          rw [items, List.length_cons] at next
          rw [items, List.length_cons, List.range'_succ, List.map_cons,
            List.map_cons, List.cons.injEq] at waiting
          constructor
          · rintro _ ⟨⟩
            show taken.loop.channels + requests.items.length =
              before.channels
            omega
          · rintro _ ⟨⟩
            show requests.items.map _ = _
            rw [channels]
            exact waiting.2
        · have noneTaken : iteration.channelTaken = none := by
            rw [Iteration.channelTaken]
            split
            · next isRequest => exact absurd isRequest (noRequest _)
            · rfl
          rw [noneTaken, Option.toList_none, List.length_nil,
            Nat.add_zero] at channels
          constructor
          · rintro _ ⟨⟩
            show taken.loop.channels + _ = _
            rw [channels]
            exact next
          · rintro _ ⟨⟩
            show _ = (List.range' taken.loop.channels _).map _
            rw [channels]
            exact waiting
    | @handed index now request timeout task requests isCall alive clock
        sent =>
        have next := numbered.next task alive
        have waiting := numbered.waiting task alive
        have items := (Channel.send_eq_some sent).2
        constructor
        · intro other isAlive
          cases alive.symm.trans isAlive
          show _ + requests.items.length = _
          rw [items, List.length_append, List.length_singleton]
          show _ = before.channels + 1
          omega
        · intro other isAlive
          cases alive.symm.trans isAlive
          show requests.items.map _ =
            (List.range' _ requests.items.length).map _
          rw [items, List.map_append, waiting, List.length_append,
            List.length_singleton, List.range'_concat, List.map_append,
            List.map_singleton, List.map_singleton, Nat.one_mul, next]
    | called | refused | settled => exact ⟨numbered.next, numbered.waiting⟩
    | @performed task effect alive awaits =>
        constructor
        · rintro _ ⟨⟩
          exact numbered.next task alive
        · rintro _ ⟨⟩
          exact numbered.waiting task alive
    | exited | failed =>
        constructor
        · rintro _ ⟨⟩
        · rintro _ ⟨⟩

end Loop

/-! ## What the callers hand over -/

/-- A request that entered the bounded channel, for the call with the
index. -/
structure Handed where
  index : Nat
  request : ClientRequest
  receiver : ResponseSender
  now : Nat
  timeout : Nat
  deriving DecidableEq

/-- The request as the loop receives it. -/
def Handed.outbound (handed : Handed) : OutboundRequest :=
  ⟨handed.request.request, handed.request.peer, handed.receiver⟩

/-- The request that the move hands over. -/
def handedBy (transition : ClientTransition) : List Handed :=
  match transition.input with
  | .hand index now =>
      match transition.before.calls[index]?, transition.before.stack with
      | some (.sending request timeout), some _ =>
          [⟨index, request, ⟨transition.before.channels⟩, now, timeout⟩]
      | _, _ => []
  | _ => []

/-- The call that the move makes. -/
def calledBy (transition : ClientTransition) :
    List ClientRequestBuilder :=
  match transition.input with
  | .call builder => [builder]
  | _ => []

/-- The client request that the iteration takes. -/
def takenBy (transition : LoopTransition) : List OutboundRequest :=
  match transition.input.branch with
  | .outboundRequest (some outbound) => [outbound]
  | _ => []

/-- The calls of a history, by their index. -/
def calledIn (history : List ClientTransition) :
    List ClientRequestBuilder :=
  collected calledBy history

/-- The requests that entered the bounded channel, oldest first. -/
def handedIn (history : List ClientTransition) : List Handed :=
  collected handedBy history

/-- The requests that the loop took, oldest first. -/
def takenIn (history : List LoopTransition) : List OutboundRequest :=
  collected takenBy history

section Custody

variable {codec : Codec} {history : List ClientTransition}
  {tasks : ClientTasks}

theorem mem_takenIn
    {history : List LoopTransition} {outbound : OutboundRequest} :
    outbound ∈ takenIn history ↔
      ∃ transition ∈ history,
        transition.input.branch = .outboundRequest (some outbound) := by
  rw [takenIn, collected, List.mem_flatMap]
  constructor
  · rintro ⟨transition, member, taken⟩
    refine ⟨transition, List.mem_reverse.mp member, ?_⟩
    rw [takenBy] at taken
    split at taken
    · next other isRequest =>
        rw [isRequest, List.mem_singleton.mp taken]
    · cases taken
  · rintro ⟨transition, member, isRequest⟩
    refine ⟨transition, List.mem_reverse.mpr member, ?_⟩
    rw [takenBy, isRequest]
    exact List.mem_singleton_self outbound

/-- A move that hands nothing over. -/
theorem handedIn_cons_of_nil
    {transition : ClientTransition} (none : handedBy transition = []) :
    handedIn (transition :: history) = handedIn history := by
  rw [handedIn, collected_cons, none, List.append_nil]
  rfl

/-- The requests go through the bounded channel first in, first out, and each
has the number of its turn. -/
structure Custody (history : List ClientTransition)
    (tasks : ClientTasks) : Prop where
  inOrder : tasks.stack.isSome →
    (handedIn history).map Handed.outbound =
      takenIn (loopHistory history) ++ tasks.requests.items
  begins : takenIn (loopHistory history) <+:
    (handedIn history).map Handed.outbound
  numbers : (handedIn history).map Handed.receiver =
    (List.range tasks.channels).map ResponseSender.mk

/-- A move that hands nothing over and takes nothing keeps the custody. -/
theorem Custody.kept
    {before after : ClientTasks} {transition : ClientTransition}
    (custody : Custody history before)
    (none : handedBy transition = [])
    (loop : loopHistory (transition :: history) = loopHistory history)
    (requests : after.stack.isSome →
      before.stack.isSome ∧ after.requests = before.requests)
    (channels : after.channels = before.channels) :
    Custody (transition :: history) after := by
  constructor
  · intro alive
    rcases requests alive with ⟨wasAlive, same⟩
    rw [handedIn_cons_of_nil none, loop, same]
    exact custody.inOrder wasAlive
  · rw [handedIn_cons_of_nil none, loop]
    exact custody.begins
  · rw [handedIn_cons_of_nil none, channels]
    exact custody.numbers

theorem custody_of_run (run : ClientRun codec history tasks) :
    Custody history tasks := by
  refine run.invariant Custody ?_ ?_
  · rintro _ ⟨now, rfl⟩
    exact ⟨fun _ => rfl, List.prefix_rfl, rfl⟩
  · intro history before after move output _ custody stepped
    cases step_cases stepped with
    | called | settled =>
        exact custody.kept rfl rfl (fun alive => ⟨alive, rfl⟩) rfl
    | refused isCall noTask clock =>
        refine custody.kept ?_ rfl (fun alive => ⟨alive, rfl⟩) rfl
        simp only [handedBy, noTask, isCall]
    | performed alive awaits =>
        exact custody.kept rfl rfl
          (fun _ => ⟨Option.isSome_of_eq_some alive, rfl⟩) rfl
    | exited | failed =>
        refine custody.kept rfl rfl ?_ rfl
        rintro ⟨⟩
    | @handed index now request timeout task requests isCall alive clock
        sent =>
        have hands (after : ClientTasks) :
            handedBy ⟨before, .hand index now, output, after⟩ =
              [⟨index, request, ⟨before.channels⟩, now, timeout⟩] := by
          simp only [handedBy, isCall, alive]
        have inOrder := custody.inOrder (Option.isSome_of_eq_some alive)
        constructor
        · intro _
          rw [handedIn, collected_cons, hands, List.map_append,
            (Channel.send_eq_some sent).2, ← List.append_assoc]
          exact congrArg (· ++ [_]) inOrder
        · rw [handedIn, collected_cons, List.map_append]
          exact custody.begins.trans (List.prefix_append _ _)
        · rw [handedIn, collected_cons, hands, List.map_append,
            List.range_succ, List.map_append]
          exact congrArg (· ++ [_]) custody.numbers
    | @taken iteration task taken requests alive fetched clock takes =>
        have inOrder := custody.inOrder (Option.isSome_of_eq_some alive)
        have moved :
            takenBy ⟨task.loop, iteration, taken.pending, taken.loop⟩ ++
                requests.items = before.requests.items := by
          rcases items_of_fetch fetched with
            ⟨outbound, isRequest, items⟩ | ⟨noRequest, rfl⟩
          · simp only [takenBy, isRequest, items, List.singleton_append]
          · simp only [takenBy]
            rfl
        have inOrderAfter :
            (handedIn history).map Handed.outbound =
              takenIn (⟨task.loop, iteration, taken.pending, taken.loop⟩ ::
                  loopHistory history) ++ requests.items := by
          rw [inOrder, takenIn, takenIn, collected_cons,
            List.append_assoc, moved]
        constructor
        · intro _
          rw [handedIn_cons_of_nil rfl, loopHistory_take alive rfl]
          exact inOrderAfter
        · rw [handedIn_cons_of_nil rfl, loopHistory_take alive rfl,
            inOrderAfter]
          exact List.prefix_append _ _
        · rw [handedIn_cons_of_nil rfl]
          exact custody.numbers

/-- No two requests that were handed over share a channel. -/
theorem handed_unique
    (run : ClientRun codec history tasks) {left right : Handed}
    (leftMember : left ∈ handedIn history)
    (rightMember : right ∈ handedIn history)
    (same : left.receiver = right.receiver) :
    left = right := by
  have distinct : ((handedIn history).map Handed.receiver).Nodup := by
    rw [(custody_of_run run).numbers]
    refine List.nodup_range.map ?_
    rintro _ _ ⟨⟩
    rfl
  exact List.inj_on_of_nodup_map distinct leftMember rightMember same

end Custody

/-! ## What is sent on the one-shot channels -/

section Outbox

variable {codec : Codec} {history : List ClientTransition}
  {tasks : ClientTasks}

/-- The results of the bodies, oldest first. -/
def resultsIn (history : List LoopTransition) : List Delivery :=
  collected (fun transition => deliveriesOf transition.output) history

theorem mem_resultsIn
    {history : List LoopTransition} {delivery : Delivery} :
    delivery ∈ resultsIn history ↔ delivery ∈ deliveredIn history := by
  simp [resultsIn, collected, deliveredIn]

/-- The results are sent in the order in which the bodies call for them. -/
structure Outbox (history : List ClientTransition)
    (tasks : ClientTasks) : Prop where
  inOrder : ∀ task ∈ tasks.stack,
    resultsIn (loopHistory history) =
      tasks.results ++ deliveriesOf task.pending
  begins : tasks.results <+: resultsIn (loopHistory history)

theorem outbox_of_run (run : ClientRun codec history tasks) :
    Outbox history tasks := by
  refine run.invariant Outbox ?_ ?_
  · rintro _ ⟨now, rfl⟩
    constructor
    · rintro _ ⟨⟩
      rfl
    · exact List.prefix_rfl
  · intro history before after move output _ outbox stepped
    cases step_cases stepped with
    | called | handed | refused | settled =>
        exact ⟨outbox.inOrder, outbox.begins⟩
    | exited | failed =>
        refine ⟨?_, outbox.begins⟩
        rintro _ ⟨⟩
    | @taken iteration task taken requests alive fetched clock takes =>
        have inOrder := outbox.inOrder task alive
        rw [StackTask.pending_of_take takes] at inOrder
        have added :
            resultsIn (⟨task.loop, iteration, taken.pending, taken.loop⟩ ::
                loopHistory history) =
              before.results ++ deliveriesOf taken.pending := by
          rw [resultsIn, collected_cons]
          refine congrArg (· ++ _) (inOrder.trans ?_)
          exact List.append_nil _
        constructor
        · rintro _ ⟨⟩
          rw [loopHistory_take alive rfl]
          exact added
        · rw [loopHistory_take alive rfl, added]
          exact List.prefix_append _ _
    | @performed task effect alive awaits =>
        have inOrder := outbox.inOrder task alive
        have moved :
            resultsIn (loopHistory history) =
              (before.results ++ effect.delivery?.toList) ++
                deliveriesOf task.proceed.pending := by
          rw [inOrder, StackTask.pending_of_awaited awaits,
            List.append_assoc]
          cases effect <;> rfl
        constructor
        · rintro _ ⟨⟩
          exact moved
        · exact ⟨_, moved.symm⟩

end Outbox

/-! ## The calls -/

section Calls

variable {codec : Codec} {history : List ClientTransition}
  {tasks : ClientTasks}

/-- The call with the index was made with this request and this timeout. -/
def IsCall (history : List ClientTransition) (index : Nat)
    (request : ClientRequest) (timeout : Nat) : Prop :=
  ∃ builder, (calledIn history)[index]? = some builder ∧
    builder.clientRequest = request ∧ builder.timeout = timeout

/-- A call keeps its index. -/
theorem calledIn_cons
    {index : Nat} {builder : ClientRequestBuilder}
    (found : (calledIn history)[index]? = some builder)
    (newest : ClientTransition) :
    (calledIn (newest :: history))[index]? = some builder := by
  rcases List.getElem?_eq_some_iff.mp found with ⟨within, _⟩
  rw [calledIn, collected_cons]
  exact (List.getElem?_append_left within).trans found

theorem IsCall.cons
    {index : Nat} {request : ClientRequest} {timeout : Nat}
    (isCall : IsCall history index request timeout)
    (transition : ClientTransition) :
    IsCall (transition :: history) index request timeout := by
  rcases isCall with ⟨builder, found, isRequest, isTimeout⟩
  exact ⟨builder, calledIn_cons found transition, isRequest, isTimeout⟩

theorem mem_handedIn_cons
    {transition : ClientTransition} {handed : Handed} :
    handed ∈ handedIn (transition :: history) ↔
      handed ∈ handedIn history ∨ handed ∈ handedBy transition := by
  rw [handedIn, collected_cons, List.mem_append]
  rfl

theorem handed_of_mem
    {before after : ClientTasks} {move : Move} {output : Unit}
    {handed : Handed}
    (member : handed ∈ handedBy ⟨before, move, output, after⟩) :
    move = .hand handed.index handed.now ∧
      before.calls[handed.index]? =
        some (.sending handed.request handed.timeout) := by
  simp only [handedBy] at member
  split at member
  · split at member
    · next isCall alive =>
        rw [List.mem_singleton.mp member]
        exact ⟨rfl, isCall⟩
    · cases member
  · cases member

/-- What one call becomes while another one may move. -/
theorem set_cases
    {calls : List Call} {index other : Nat} {call changed : Call}
    (found : (calls.set index changed)[other]? = some call) :
    (other = index ∧ call = changed) ∨ calls[other]? = some call := by
  rw [List.getElem?_set] at found
  split at found
  · next same =>
      split at found
      · exact .inl ⟨same.symm, (Option.some.inj found).symm⟩
      · cases found
  · exact .inr found

/-- Where a call stands is what its moves made of it. -/
structure Calls (history : List ClientTransition)
    (tasks : ClientTasks) : Prop where
  counted : (calledIn history).length = tasks.calls.length
  sending : ∀ (index : Nat) (request : ClientRequest) (timeout : Nat),
    tasks.calls[index]? = some (.sending request timeout) →
      IsCall history index request timeout
  handed : ∀ handed ∈ handedIn history,
    IsCall history handed.index handed.request handed.timeout
  awaiting : ∀ (index : Nat) (receiver : ResponseSender)
      (deadline : Nat),
    tasks.calls[index]? = some (.awaiting receiver deadline) →
      ∃ handed ∈ handedIn history, handed.index = index ∧
        handed.receiver = receiver ∧
          handed.now + handed.timeout = deadline

/-- A move that makes no call. -/
theorem Calls.moved
    {before after : ClientTasks} {move : Move} {output : Unit}
    (calls : Calls history before)
    (none : calledBy ⟨before, move, output, after⟩ = [])
    (counted : after.calls.length = before.calls.length)
    (sending : ∀ (index : Nat) (request : ClientRequest) (timeout : Nat),
      after.calls[index]? = some (.sending request timeout) →
        before.calls[index]? = some (.sending request timeout))
    (awaiting : ∀ (index : Nat) (receiver : ResponseSender)
      (deadline : Nat),
      after.calls[index]? = some (.awaiting receiver deadline) →
        before.calls[index]? = some (.awaiting receiver deadline) ∨
          ∃ handed ∈ handedBy ⟨before, move, output, after⟩,
            handed.index = index ∧ handed.receiver = receiver ∧
              handed.now + handed.timeout = deadline) :
    Calls (⟨before, move, output, after⟩ :: history) after := by
  constructor
  · rw [calledIn, collected_cons, none, List.append_nil, counted]
    exact calls.counted
  · intro index request timeout found
    exact (calls.sending _ _ _ (sending _ _ _ found)).cons _
  · intro handed member
    rcases mem_handedIn_cons.mp member with older | newest
    · exact (calls.handed handed older).cons _
    · exact (calls.sending _ _ _ (handed_of_mem newest).2).cons _
  · intro index receiver deadline found
    rcases awaiting _ _ _ found with before | ⟨handed, newest, isCall⟩
    · rcases calls.awaiting _ _ _ before with ⟨handed, older, isCall⟩
      exact ⟨handed, mem_handedIn_cons.mpr (.inl older), isCall⟩
    · exact ⟨handed, mem_handedIn_cons.mpr (.inr newest), isCall⟩

theorem calls_of_run (run : ClientRun codec history tasks) :
    Calls history tasks := by
  refine run.invariant Calls ?_ ?_
  · rintro _ ⟨now, rfl⟩
    constructor
    · rfl
    · rintro _ _ _ ⟨⟩
    · rintro _ ⟨⟩
    · rintro _ _ _ ⟨⟩
  · intro history before after move output _ calls stepped
    cases step_cases stepped with
    | taken | performed | exited | failed =>
        exact calls.moved rfl rfl (fun _ _ _ => id) fun _ _ _ => .inl
    | @refused index now request timeout isCall noTask clock =>
        refine calls.moved rfl List.length_set ?_ ?_
        · intro other request timeout found
          rcases set_cases found with ⟨_, ⟨⟩⟩ | found
          exact found
        · intro other receiver deadline found
          rcases set_cases found with ⟨_, ⟨⟩⟩ | found
          exact .inl found
    | @settled index now receiver deadline result isCall clock awaited =>
        refine calls.moved rfl List.length_set ?_ ?_
        · intro other request timeout found
          rcases set_cases found with ⟨_, ⟨⟩⟩ | found
          exact found
        · intro other receiver deadline found
          rcases set_cases found with ⟨_, ⟨⟩⟩ | found
          exact .inl found
    | @handed index now request timeout task requests isCall alive clock
        sent =>
        refine calls.moved rfl List.length_set ?_ ?_
        · intro other request timeout found
          rcases set_cases found with ⟨_, ⟨⟩⟩ | found
          exact found
        · intro other receiver deadline found
          rcases set_cases found with ⟨rfl, ⟨⟩⟩ | found
          · refine .inr ⟨⟨other, request, ⟨before.channels⟩, now,
              timeout⟩, ?_, rfl, rfl, rfl⟩
            simp only [handedBy, isCall, alive, List.mem_singleton]
          · exact .inl found
    | @called builder =>
        have last {index : Nat} {call : Call}
            (found : (before.calls ++
              [.sending builder.clientRequest builder.timeout])[index]? =
                some call) :
            before.calls[index]? = some call ∨
              (index = before.calls.length ∧
                call = .sending builder.clientRequest
                  builder.timeout) := by
          rw [List.getElem?_append] at found
          split at found
          · exact .inl found
          · next beyond =>
              rw [List.getElem?_singleton] at found
              split at found
              · next atEnd =>
                  exact .inr ⟨by omega, (Option.some.inj found).symm⟩
              · cases found
        constructor
        · rw [calledIn, collected_cons, List.length_append,
            List.length_append]
          exact congrArg (· + 1) calls.counted
        · intro index request timeout found
          rcases last found with older | ⟨rfl, ⟨⟩⟩
          · exact (calls.sending _ _ _ older).cons _
          · refine ⟨builder, ?_, rfl, rfl⟩
            rw [calledIn, collected_cons, ← calls.counted]
            exact List.getElem?_concat_length
        · intro handed member
          rw [handedIn_cons_of_nil rfl] at member
          exact (calls.handed handed member).cons _
        · intro index receiver deadline found
          rw [handedIn_cons_of_nil rfl]
          rcases last found with older | ⟨_, ⟨⟩⟩
          exact calls.awaiting _ _ _ older

end Calls

/-! ## How a call ends -/

section Outcome

variable {codec : Codec} {history : List ClientTransition}
  {tasks : ClientTasks}

/-- The request was handed over for the call that the builder made. -/
structure HandedFor (history : List ClientTransition) (index : Nat)
    (builder : ClientRequestBuilder) (handed : Handed) : Prop where
  member : handed ∈ handedIn history
  index_eq : handed.index = index
  request_eq : handed.request = builder.clientRequest
  timeout_eq : handed.timeout = builder.timeout

/-- The limited wait of the call ended while nothing was sent for it. -/
structure FoundNothing (history : List ClientTransition)
    (handed : Handed) (now : Nat) (before : ClientTasks) : Prop where
  settled : ∃ output after,
    ⟨before, .settle handed.index now, output, after⟩ ∈ history
  nothing : ∀ delivery ∈ before.results,
    delivery.sender ≠ handed.receiver

/-- The loop took the request, and it was not encoded. -/
def Refused (codec : Codec) (history : List LoopTransition)
    (outbound : OutboundRequest) : Prop :=
  ∃ transition ∈ history,
    transition.input.branch = .outboundRequest (some outbound) ∧
      transition.before.stack.opening codec transition.input = none

/-- The ways in which a call ends. -/
inductive Outcome (codec : Codec) (history : List ClientTransition)
    (index : Nat) (builder : ClientRequestBuilder) :
    Except ClientError CoapResponse → Prop where
  /-- The result of the exchange that the loop opened for its request. -/
  | delivered {handed : Handed} {opener : LoopTransition}
      {opening : Opening} {delivery : Delivery}
      (handedOver : HandedFor history index builder handed)
      (member : opener ∈ loopHistory history)
      (opens : Opens codec opener opening)
      (own : opening.outbound =
        ⟨builder.base.build, builder.peer, handed.receiver⟩)
      (isResult : delivery ∈ deliveredIn (loopHistory history))
      (sender : delivery.sender = handed.receiver) :
      Outcome codec history index builder (received delivery)
  /-- The task of the stack had ended before the request was taken over. -/
  | notHanded {before after : ClientTasks} {now : Nat} {output : Unit}
      (member : ⟨before, .hand index now, output, after⟩ ∈ history)
      (noTask : before.stack = none) :
      Outcome codec history index builder
        (.error (.transport .endpointClosed))
  | timedOut {handed : Handed} {now : Nat} {before : ClientTasks}
      (handedOver : HandedFor history index builder handed)
      (nothing : FoundNothing history handed now before)
      (late : handed.now + builder.timeout ≤ now)
      (held : before.Held handed.receiver) :
      Outcome codec history index builder (.error .timeout)
  | dropped {handed : Handed} {now : Nat} {before : ClientTasks}
      (handedOver : HandedFor history index builder handed)
      (nothing : FoundNothing history handed now before)
      (reason : before.stack = none ∨
        Refused codec (loopHistory history) handed.outbound) :
      Outcome codec history index builder (.error .channelClosed)

theorem mem_loopHistory_cons
    {transition : LoopTransition} (newest : ClientTransition)
    (member : transition ∈ loopHistory history) :
    transition ∈ loopHistory (newest :: history) := by
  rw [loopHistory, List.mem_filterMap] at member ⊢
  rcases member with ⟨move, older, isStep⟩
  exact ⟨move, List.mem_cons_of_mem _ older, isStep⟩

theorem HandedFor.cons
    {index : Nat} {builder : ClientRequestBuilder} {handed : Handed}
    (handedOver : HandedFor history index builder handed)
    (newest : ClientTransition) :
    HandedFor (newest :: history) index builder handed :=
  { handedOver with
    member := mem_handedIn_cons.mpr (.inl handedOver.member) }

theorem FoundNothing.cons
    {handed : Handed} {now : Nat} {before : ClientTasks}
    (nothing : FoundNothing history handed now before)
    (newest : ClientTransition) :
    FoundNothing (newest :: history) handed now before := by
  rcases nothing.settled with ⟨output, after, member⟩
  exact ⟨⟨output, after, List.mem_cons_of_mem _ member⟩,
    nothing.nothing⟩

theorem Outcome.cons
    {index : Nat} {builder : ClientRequestBuilder}
    {result : Except ClientError CoapResponse}
    (outcome : Outcome codec history index builder result)
    (newest : ClientTransition) :
    Outcome codec (newest :: history) index builder result := by
  cases outcome with
  | @delivered _ _ _ delivery handedOver member opens own isResult
      sender =>
      refine .delivered (handedOver.cons newest)
        (mem_loopHistory_cons newest member) opens own ?_ sender
      rcases List.mem_flatMap.mp isResult with
        ⟨transition, older, delivered⟩
      exact List.mem_flatMap.mpr
        ⟨transition, mem_loopHistory_cons newest older, delivered⟩
  | notHanded member noTask =>
      exact .notHanded (List.mem_cons_of_mem _ member) noTask
  | timedOut handedOver nothing late held =>
      exact .timedOut (handedOver.cons newest) (nothing.cons newest) late
        held
  | dropped handedOver nothing reason =>
      refine .dropped (handedOver.cons newest) (nothing.cons newest)
        (reason.imp_right ?_)
      rintro ⟨transition, member, refused⟩
      exact ⟨transition, mem_loopHistory_cons newest member, refused⟩

/-- An exchange is opened for a request that was handed over. -/
theorem exists_handed_of_opens
    (run : ClientRun codec history tasks)
    {opener : LoopTransition} (member : opener ∈ loopHistory history)
    {opening : Opening} (opens : Opens codec opener opening) :
    ∃ handed ∈ handedIn history,
      handed.outbound = opening.outbound := by
  have taken : opening.outbound ∈ takenIn (loopHistory history) :=
    mem_takenIn.mpr ⟨opener, member, (opening_cases opens).1⟩
  exact List.mem_map.mp ((custody_of_run run).begins.subset taken)

/-- A result was sent for the request that was handed over with its
channel. -/
theorem exists_opening_of_result
    (run : ClientRun codec history tasks)
    (notExhausted : Along TokensNotExhausted (loopHistory history))
    {handed : Handed} (member : handed ∈ handedIn history)
    {delivery : Delivery}
    (isResult : delivery ∈ deliveredIn (loopHistory history))
    (sender : delivery.sender = handed.receiver) :
    ∃ opener ∈ loopHistory history, ∃ opening,
      Opens codec opener opening ∧
        opening.outbound = handed.outbound := by
  rcases exists_loopRun run with ⟨loop, loopRun, _⟩
  have opened : handed.receiver ∈ openedIn codec (loopHistory history) := by
    rw [← Multiset.mem_coe, ← senders_conserved loopRun notExhausted,
      Multiset.mem_add, ← sender]
    exact .inr (Multiset.mem_map_of_mem _ isResult)
  rcases List.mem_flatMap.mp opened with ⟨opener, openerMember, opened⟩
  rw [CoapStack.openedSenders, Option.mem_toList,
    Option.map_eq_some_iff] at opened
  rcases opened with ⟨opening, opens, isReceiver⟩
  rcases exists_handed_of_opens run openerMember opens with
    ⟨other, otherMember, isOutbound⟩
  have same : other = handed := by
    refine handed_unique run otherMember member ?_
    rw [← isReceiver, ← isOutbound]
    rfl
  exact ⟨opener, openerMember, opening, opens, same ▸ isOutbound.symm⟩

/-- A channel whose sending half is gone, and on which nothing was sent while
the task of the stack is there, is the channel of a refused request. -/
theorem refused_of_dropped
    (run : ClientRun codec history tasks)
    (notExhausted : Along TokensNotExhausted (loopHistory history))
    {task : StackTask} (alive : tasks.stack = some task)
    {handed : Handed} (member : handed ∈ handedIn history)
    (nothing : ∀ delivery ∈ tasks.results,
      delivery.sender ≠ handed.receiver)
    (gone : ¬tasks.Held handed.receiver) :
    Refused codec (loopHistory history) handed.outbound := by
  rcases exists_loopRun run with ⟨loop, loopRun, isLoop⟩
  have isTask := isLoop task alive
  subst isTask
  have handedOver := List.mem_map_of_mem (f := Handed.outbound) member
  rw [(custody_of_run run).inOrder (Option.isSome_of_eq_some alive),
    List.mem_append] at handedOver
  rcases handedOver with taken | waits
  · rcases mem_takenIn.mp taken with ⟨opener, openerMember, isRequest⟩
    refine ⟨opener, openerMember, isRequest, ?_⟩
    by_contra isOpened
    rcases Option.ne_none_iff_exists'.mp isOpened with ⟨opening, opens⟩
    have own : opening.outbound = handed.outbound := by
      have both := (opening_cases opens).1.symm.trans isRequest
      rw [Branch.outboundRequest.injEq, Option.some.injEq] at both
      exact both
    have opened :
        handed.receiver ∈ openedIn codec (loopHistory history) := by
      refine List.mem_flatMap.mpr ⟨opener, openerMember, ?_⟩
      rw [CoapStack.openedSenders, opens, Option.map_some, own]
      exact List.mem_singleton_self _
    rw [← Multiset.mem_coe, ← senders_conserved loopRun notExhausted,
      Multiset.mem_add] at opened
    rcases opened with isOpen | delivered
    · exact gone (.inr ⟨task, alive, .inl isOpen⟩)
    · rcases Multiset.mem_map.mp delivered with
        ⟨delivery, isResult, sender⟩
      have sent := mem_resultsIn.mpr isResult
      rw [(outbox_of_run run).inOrder task alive, List.mem_append]
        at sent
      rcases sent with sent | pending
      · exact nothing delivery sent sender
      · refine gone (.inr ⟨task, alive, .inr ?_⟩)
        rw [List.any_eq_true]
        exact ⟨_, (mem_deliveriesOf _ _).mp pending, by
          simp only [isDelivery, sender, decide_true]⟩
  · exact absurd (.inl (List.mem_map.mpr ⟨_, waits, rfl⟩)) gone

/-- What the limited wait of a call makes of it. -/
theorem outcome_of_settled
    {before after : ClientTasks} {index now : Nat} {output : Unit}
    {receiver : ResponseSender} {deadline : Nat}
    {result : Except ClientError CoapResponse}
    {builder : ClientRequestBuilder}
    (run : ClientRun codec history before)
    (notExhausted : Along TokensNotExhausted (loopHistory history))
    (isBuilder : (calledIn history)[index]? = some builder)
    (isCall : before.calls[index]? = some (.awaiting receiver deadline))
    (awaited : before.await receiver deadline now = some result) :
    Outcome codec (⟨before, .settle index now, output, after⟩ :: history)
      index builder result := by
  have calls := calls_of_run run
  rcases calls.awaiting _ _ _ isCall with
    ⟨handed, member, rfl, rfl, rfl⟩
  rcases calls.handed handed member with
    ⟨other, isOther, isRequest, isTimeout⟩
  cases isBuilder.symm.trans isOther
  have handedOver : HandedFor history handed.index builder handed :=
    ⟨member, rfl, isRequest.symm, isTimeout.symm⟩
  simp only [await] at awaited
  split at awaited
  · next delivery found =>
      cases awaited
      have sent := (outbox_of_run run).begins.subset
        (List.mem_of_find?_eq_some found)
      have sender : delivery.sender = handed.receiver := by
        simpa using List.find?_some found
      rcases exists_opening_of_result run notExhausted member
          (mem_resultsIn.mp sent) sender with
        ⟨opener, openerMember, opening, opens, own⟩
      refine (Outcome.delivered handedOver openerMember opens ?_
        (mem_resultsIn.mp sent) sender).cons _
      rw [own, Handed.outbound, ← isRequest]
      rfl
  · next noResult =>
      have nothing : FoundNothing
          (⟨before, .settle handed.index now, output, after⟩ :: history)
          handed now before := by
        refine ⟨⟨output, after, List.mem_cons_self⟩, ?_⟩
        simpa using noResult
      split at awaited
      · next held =>
          split at awaited
          · next late =>
              cases awaited
              exact .timedOut (handedOver.cons _) nothing
                (isTimeout ▸ late) held
          · cases awaited
      · next gone =>
          cases awaited
          refine .dropped (handedOver.cons _) nothing ?_
          cases alive : before.stack with
          | none => exact .inl rfl
          | some task =>
              exact .inr (refused_of_dropped run notExhausted alive member
                nothing.nothing gone)

theorem loopHistory_suffix
    (transition : ClientTransition) (history : List ClientTransition) :
    loopHistory history <:+ loopHistory (transition :: history) :=
  (List.suffix_cons transition history).filterMap loopTransition?

/-- A call that is over ended in one of the ways of `Outcome`. -/
theorem outcome_of_done
    (run : ClientRun codec history tasks)
    (notExhausted : Along TokensNotExhausted (loopHistory history))
    {index : Nat} {result : Except ClientError CoapResponse}
    (isDone : tasks.calls[index]? = some (.done result)) :
    ∃ builder, (calledIn history)[index]? = some builder ∧
      Outcome codec history index builder result := by
  refine run.invariant
    (fun history tasks =>
      Along TokensNotExhausted (loopHistory history) →
        ∀ (index : Nat) (result : Except ClientError CoapResponse),
          tasks.calls[index]? = some (.done result) →
            ∃ builder, (calledIn history)[index]? = some builder ∧
              Outcome codec history index builder result)
    ?_ ?_ notExhausted index result isDone
  · rintro _ ⟨now, rfl⟩ _ index result ⟨⟩
  · intro history before after move output earlier induction stepped
      notExhausted index result found
    have calls := calls_of_run earlier
    have older := induction
      (notExhausted.suffix (loopHistory_suffix _ history))
    have kept
        (foundBefore : before.calls[index]? = some (.done result)) :
        ∃ builder,
          (calledIn (⟨before, move, output, after⟩ :: history))[index]? =
              some builder ∧
            Outcome codec (⟨before, move, output, after⟩ :: history)
              index builder result := by
      rcases older index result foundBefore with
        ⟨builder, isBuilder, outcome⟩
      exact ⟨builder, calledIn_cons isBuilder _, outcome.cons _⟩
    cases step_cases stepped with
    | taken | performed | exited | failed => exact kept found
    | called =>
        refine kept ?_
        rw [List.getElem?_append] at found
        split at found
        · exact found
        · rw [List.getElem?_singleton] at found
          split at found <;> cases found
    | handed isCall alive clock sent =>
        rcases set_cases found with ⟨_, ⟨⟩⟩ | found
        exact kept found
    | refused isCall noTask clock =>
        rcases set_cases found with ⟨rfl, ⟨⟩⟩ | found
        · rcases calls.sending _ _ _ isCall with ⟨builder, isBuilder, _⟩
          exact ⟨builder, calledIn_cons isBuilder _,
            .notHanded List.mem_cons_self noTask⟩
        · exact kept found
    | settled isCall clock awaited =>
        rcases set_cases found with ⟨rfl, ⟨⟩⟩ | found
        · rcases calls.awaiting _ _ _ isCall with
            ⟨handed, member, rfl, _⟩
          rcases calls.handed handed member with ⟨builder, isBuilder, _⟩
          exact ⟨builder, calledIn_cons isBuilder _,
            outcome_of_settled earlier
              (notExhausted.suffix (loopHistory_suffix _ history))
              isBuilder isCall awaited⟩
        · exact kept found

/--
A call that is over ended in one of the ways of `Outcome`: with the result of
the exchange that was opened for its own request, or without one for the
reason that its error names.  No two calls await the same channel.
-/
theorem calls_end_for_their_reason
    (run : ClientRun codec history tasks)
    (notExhausted : Along TokensNotExhausted (loopHistory history)) :
    (∀ index result, tasks.calls[index]? = some (.done result) →
      ∃ builder, (calledIn history)[index]? = some builder ∧
        Outcome codec history index builder result) ∧
    ∀ left ∈ handedIn history, ∀ right ∈ handedIn history,
      left.receiver = right.receiver → left = right :=
  ⟨fun _ _ isDone => outcome_of_done run notExhausted isDone,
    fun _ leftMember _ rightMember =>
      handed_unique run leftMember rightMember⟩

end Outcome

/-- The request of a call as it enters the bounded channel. -/
def outboundOf (builder : ClientRequestBuilder) (channel : Nat) :
    OutboundRequest :=
  ⟨builder.base.build, builder.peer, ⟨channel⟩⟩

/-- The first call is answered, the second is refused by a codec without
options, and the third waits in vain. -/
def threeCalls : List Move :=
  let answered := CoapClient.get (.loopback 5683)
  let refused := answered.path "/a"
  let silent := answered.withTimeout 7
  [.call answered, .call refused, .call silent,
    .hand 0 1, .hand 1 1, .hand 2 1,
    .take (.plain 1 (.outboundRequest (some (outboundOf answered 0)))),
    .perform,
    .take (.plain 1 (.outboundRequest (some (outboundOf refused 1)))),
    .take (.plain 1 (.outboundRequest (some (outboundOf silent 2)))),
    .perform,
    .take (.plain 2
      (.inbound [0x64, 0x45, 0, 0, 0, 0, 0, 0] (.loopback 5683))),
    .perform,
    .settle 0 2, .settle 1 2, .settle 2 8]

/-- A response, a request that could not be encoded, and a wait that was too
long. -/
def threeEnds : List Call :=
  [.done (.ok ⟨.content, none, []⟩), .done (.error .channelClosed),
    .done (.error .timeout)]

theorem calls_end_for_their_reason_on_three_calls :
    ∃ (history : List ClientTransition) (tasks : ClientTasks),
      tasks.calls = threeEnds ∧
      (∀ index result, tasks.calls[index]? = some (.done result) →
        ∃ builder, (calledIn history)[index]? = some builder ∧
          Outcome bareCodec history index builder result) ∧
      ∀ left ∈ handedIn history, ∀ right ∈ handedIn history,
        left.receiver = right.receiver → left = right := by
  rcases exists_run_of_replay
      (show (clientMachine bareCodec).Initial (start 0) from ⟨0, rfl⟩)
      threeCalls
      (fun history tasks => decide
        (tasks.calls = threeEnds ∧ (loopHistory history).length < 2 ^ 32))
      (by decide) with
    ⟨history, tasks, run, checked⟩
  rcases of_decide_eq_true checked with ⟨ends, short⟩
  exact ⟨history, tasks, ends, calls_end_for_their_reason run
    (tokensNotExhausted_of_length short)⟩

/-! ## The way to the loop -/

section Order

variable {codec : Codec} {history : List ClientTransition}
  {tasks : ClientTasks}

theorem clock_of_run (run : ClientRun codec history tasks) :
    ∀ task ∈ tasks.stack, task.loop.clock ≤ tasks.clock := by
  refine run.invariant
    (fun _ tasks => ∀ task ∈ tasks.stack, task.loop.clock ≤ tasks.clock)
    ?_ ?_
  · rintro _ ⟨now, rfl⟩ _ ⟨⟩
    exact le_rfl
  · intro history before after move output _ within stepped
    cases step_cases stepped with
    | called => exact within
    | handed isCall alive clock sent =>
        exact fun task member => (within task member).trans clock
    | refused isCall noTask clock | settled isCall clock awaited =>
        exact fun task member => (within task member).trans clock
    | @taken iteration task taken requests alive fetched clock takes =>
        rintro _ ⟨⟩
        exact (Transport.step_cases
          (StackTask.step_of_take takes)).clock_after.le
    | @performed task effect alive awaits =>
        rintro _ ⟨⟩
        exact within task alive
    | exited | failed => rintro _ ⟨⟩

theorem step_take
    {task taken : StackTask} {iteration : Iteration}
    {requests : Channel OutboundRequest channelCapacity}
    (alive : tasks.stack = some task)
    (fetched : tasks.fetch iteration.branch = some requests)
    (clock : tasks.clock ≤ iteration.now)
    (takes : task.take codec iteration = some taken) :
    tasks.step codec (.take iteration) =
      some ({ tasks with
        clock := iteration.now
        requests := requests
        stack := some taken }, ()) := by
  simp only [step, alive, fetched, clock, if_true, takes,
    Option.map_some]

/-- A stack task between two bodies can take the oldest request. -/
theorem exists_take_oldest
    (run : ClientRun codec history tasks)
    {task : StackTask} (alive : tasks.stack = some task)
    (idle : task.pending = [])
    {outbound : OutboundRequest} {rest : List OutboundRequest}
    (items : tasks.requests.items = outbound :: rest) :
    ∃ after, tasks.step codec
      (.take (.plain tasks.clock (.outboundRequest (some outbound)))) =
        some after := by
  let iteration : Iteration :=
    .plain tasks.clock (.outboundRequest (some outbound))
  have numbers := (numbered_of_run run).waiting task alive
  rw [items, List.map_cons, List.length_cons, List.range'_succ,
    List.map_cons, List.cons.injEq] at numbers
  have admitted : task.loop.Admits iteration := by
    refine ⟨clock_of_run run task alive, trivial, ?_⟩
    rintro _ ⟨⟩
    exact numbers.1
  rcases StackTask.exists_take_or_ends codec idle rfl admitted with
    ⟨taken, takes⟩ | ⟨_, ⟨⟩⟩
  rcases Channel.exists_receive items with ⟨requests, received, _⟩
  have fetched : tasks.fetch iteration.branch = some requests := by
    show tasks.fetch (.outboundRequest (some outbound)) = _
    simp only [fetch, received, if_true]
  exact ⟨_, step_take alive fetched le_rfl takes⟩

/--
The requests that the callers hand over reach the loop once and in their
order, and the results leave it so.  The loop itself runs as it does alone,
and between two bodies it can always take the oldest request that waits.
-/
theorem requests_reach_the_loop_in_order
    (run : ClientRun codec history tasks) :
    ∃ loop, LoopRun codec (loopHistory history) loop ∧
      takenIn (loopHistory history) <+:
        (handedIn history).map Handed.outbound ∧
      tasks.results <+: resultsIn (loopHistory history) ∧
      ∀ task ∈ tasks.stack, task.loop = loop ∧
        (handedIn history).map Handed.outbound =
          takenIn (loopHistory history) ++ tasks.requests.items ∧
        resultsIn (loopHistory history) =
          tasks.results ++ deliveriesOf task.pending ∧
        ∀ outbound rest, task.pending = [] →
          tasks.requests.items = outbound :: rest →
            ∃ after, tasks.step codec (.take
              (.plain tasks.clock (.outboundRequest (some outbound)))) =
                some after := by
  rcases exists_loopRun run with ⟨loop, loopRun, isLoop⟩
  have custody := custody_of_run run
  have outbox := outbox_of_run run
  refine ⟨loop, loopRun, custody.begins, outbox.begins, ?_⟩
  intro task alive
  exact ⟨isLoop task alive,
    custody.inOrder (Option.isSome_of_eq_some alive),
    outbox.inOrder task alive,
    fun outbound rest idle items =>
      exists_take_oldest run alive idle items⟩

theorem requests_reach_the_loop_in_order_on_two_waiting :
    ∃ (history : List ClientTransition) (tasks : ClientTasks),
      ClientRun bareCodec history tasks ∧
      tasks.requests.items.length = 2 ∧
      ∃ loop, LoopRun bareCodec (loopHistory history) loop ∧
        takenIn (loopHistory history) <+:
          (handedIn history).map Handed.outbound ∧
        tasks.results <+: resultsIn (loopHistory history) ∧
        ∀ task ∈ tasks.stack, task.loop = loop ∧
          (handedIn history).map Handed.outbound =
            takenIn (loopHistory history) ++ tasks.requests.items ∧
          resultsIn (loopHistory history) =
            tasks.results ++ deliveriesOf task.pending ∧
          ∀ outbound rest, task.pending = [] →
            tasks.requests.items = outbound :: rest →
              ∃ after, tasks.step bareCodec (.take
                (.plain tasks.clock
                  (.outboundRequest (some outbound)))) =
                  some after := by
  rcases exists_run_of_replay
      (show (clientMachine bareCodec).Initial (start 0) from ⟨0, rfl⟩)
      (threeCalls.take 8)
      (fun _ tasks => decide (tasks.requests.items.length = 2))
      (by decide) with
    ⟨history, tasks, run, checked⟩
  exact ⟨history, tasks, run, of_decide_eq_true checked,
    requests_reach_the_loop_in_order run⟩

end Order

end Coapable.Client.ClientTasks
