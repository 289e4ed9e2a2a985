import Coapable.BareCodec
import Coapable.Transport.Allocators
import Coapable.Transport.MessageHeaders
import Coapable.Transport.PendingRequests

/-!
# What a request is answered with

The loop beside a server that answers each dispatched request at most once, in
any order.  An answer carries only the peer and the token, and the loop goes
by the CON request that waits under the two: if there is one it is
acknowledged, else the answer is a NON.  So the answer to a request carries
the type and the MID of that request exactly as long as the request that
waits is the one that is answered.
-/

namespace Coapable.Transport.Answers

open Coapable.BareCodec
open Coapable.CoapLite
open Coapable.Foundation.Execution
open Coapable.Foundation.FiniteMap
open Coapable.MessageTypes

/-! ## The loop beside its server -/

/-- A request the server was handed, with the MID it came under. -/
structure Dispatched where
  request : ServerRequest
  mid : UInt16
  deriving DecidableEq

/-- The loop and the dispatched requests that are not answered yet. -/
structure Served where
  loop : Loop
  unanswered : List Dispatched
  deriving DecidableEq

/-- An iteration of the loop beside its server. -/
structure ServedInput where
  iteration : Iteration
  /-- The request that the response is the answer to, if one is taken. -/
  answers : Option Dispatched

/-- The requests that an iteration with these effects dispatches. -/
def dispatchedBy (codec : Codec) (iteration : Iteration)
    (effects : List Effect) : List Dispatched :=
  match iteration.branch with
  | .inbound raw _ =>
      match codec.fromBytes raw with
      | some parsed =>
          effects.filterMap fun
            | .sendRequest request => some ⟨request, parsed.header.messageId⟩
            | _ => none
      | none => []
  | _ => []

namespace Served

/-- A response answers one request, by its peer and its token. -/
def Admits (served : Served) (input : ServedInput) : Prop :=
  match input.iteration.branch with
  | .outboundResponse (some outbound) =>
      ∃ dispatched ∈ served.unanswered,
        input.answers = some dispatched ∧
          dispatched.request.peer = outbound.peer ∧
            dispatched.request.token = outbound.token
  | _ => input.answers = none

instance (served : Served) (input : ServedInput) :
    Decidable (served.Admits input) := by
  simp only [Admits]
  split <;> infer_instance

/-- One iteration, `none` if it takes an answer to nothing. -/
def step (codec : Codec) (served : Served) (input : ServedInput) :
    Option (Served × List Effect) :=
  if served.Admits input then
    match served.loop.step codec input.iteration with
    | some (loop, effects) =>
        let remaining :=
          match input.answers with
          | some dispatched => served.unanswered.erase dispatched
          | none => served.unanswered
        some (
          ⟨loop, remaining ++ dispatchedBy codec input.iteration effects⟩,
          effects)
    | none => none
  else none

end Served

/-- The loop beside a server that answers each dispatched request at most
once, in any order. -/
def servedMachine (codec : Codec) :
    Machine Served ServedInput (List Effect) where
  Initial served := ∃ now, served = ⟨Loop.start now, []⟩
  step := Served.step codec

/-- One iteration of the loop beside its server. -/
abbrev ServedTransition := Transition Served ServedInput (List Effect)

/-- A run of the loop beside its server, newest transition first. -/
abbrev ServedRun (codec : Codec) := Run (servedMachine codec)

/-- What a transition is for the loop alone. -/
def loopTransition (transition : ServedTransition) : LoopTransition :=
  ⟨transition.before.loop, transition.input.iteration,
    transition.output, transition.after.loop⟩

theorem served_step_cases
    {codec : Codec} {before after : Served} {input : ServedInput}
    {effects : List Effect}
    (stepped : before.step codec input = some (after, effects)) :
    before.Admits input ∧
      before.loop.step codec input.iteration =
        some (after.loop, effects) := by
  simp only [Served.step] at stepped
  split at stepped
  · next admitted =>
      split at stepped
      · next loop loopEffects loopStepped =>
          injection stepped with equal
          injection equal with servedEqual effectsEqual
          subst servedEqual
          subst effectsEqual
          exact ⟨admitted, loopStepped⟩
      · cases stepped
  · cases stepped

/-- The loop beside its server runs as the loop does. -/
theorem loopRun_of_servedRun
    {codec : Codec} {history : List ServedTransition} {served : Served}
    (run : ServedRun codec history served) :
    LoopRun codec (history.map loopTransition) served.loop := by
  induction run with
  | start initial =>
      rcases initial with ⟨now, rfl⟩
      exact .start ⟨now, rfl⟩
  | extend earlier stepped induction =>
      exact .extend induction (served_step_cases stepped).2

/-- What answers a request is the response that is taken. -/
theorem exists_response
    {served : Served} {input : ServedInput} {dispatched : Dispatched}
    (admits : served.Admits input)
    (answers : input.answers = some dispatched) :
    ∃ outbound,
      input.iteration.branch = .outboundResponse (some outbound) ∧
        dispatched.request.peer = outbound.peer ∧
          dispatched.request.token = outbound.token := by
  simp only [Served.Admits] at admits
  split at admits
  · next outbound taken =>
      rcases admits with ⟨other, _, isOther, samePeer, sameToken⟩
      rw [answers, Option.some.injEq] at isOther
      subst isOther
      exact ⟨outbound, taken, samePeer, sameToken⟩
  · rw [answers] at admits
    cases admits

/-! ## The datagram of an answer -/

/-- The MID is the next one of the session of the peer, which moves on. -/
def AllocatesMid (transition : LoopTransition) (peer : SocketAddr)
    (mid : UInt16) : Prop :=
  let allocator :=
    (transition.before.stack.sessionFor transition.input peer).midAllocator
  mid = allocator.allocate.1 ∧
    ∃ session, transition.after.stack.sessions.lookup peer = some session ∧
      session.midAllocator = allocator.allocate.2

/-- The datagram sent for an answer is an ACK with the MID of the request if
that was a CON, and else a NON with a newly allocated MID. -/
def AnsweredAsReceived (codec : Codec) (_older : List ServedTransition)
    (transition : ServedTransition) : Prop :=
  ∀ dispatched, transition.input.answers = some dispatched →
    ∀ bytes peer, .sendPacket bytes peer ∈ transition.output →
      peer = dispatched.request.peer ∧
        if dispatched.request.request.confirmable then
          codec.Encodes .acknowledgement dispatched.mid bytes
        else
          ∃ mid, AllocatesMid (loopTransition transition) peer mid ∧
            codec.Encodes .nonConfirmable mid bytes

/-- Of an answer that can be encoded: the CON request that waits under its
token is the request it answers, and if none waits that was a NON. -/
def FindsOwnRequest (codec : Codec) (older : List ServedTransition)
    (transition : ServedTransition) : Prop :=
  ∀ dispatched outbound, transition.input.answers = some dispatched →
    transition.input.iteration.branch =
        .outboundResponse (some outbound) →
      (∀ mid,
        Awaits codec outbound.peer outbound.token mid
            (older.map loopTransition) →
          codec.toBytes (outbound.piggybacked codec mid) ≠ none →
            dispatched.request.request.confirmable = true ∧
              dispatched.mid = mid) ∧
        ((∀ mid, ¬ Awaits codec outbound.peer outbound.token mid
            (older.map loopTransition)) →
          codec.toBytes (outbound.separate codec
              (transition.before.loop.stack.sessionFor
                transition.input.iteration
                outbound.peer).midAllocator.next) ≠ none →
            dispatched.request.request.confirmable = false)

/-! ## The two agree -/

section Agree

variable {codec : Codec} {history older : List ServedTransition}
  {served : Served} {transition : ServedTransition}

/-- A NON answer takes the next MID of its session. -/
theorem allocatesMid_of_separate
    {stack after : CoapStack} {iteration : Iteration}
    {effects : List Effect}
    (branch : BranchStep codec stack iteration after effects)
    {outbound : ServerResponse}
    (taken : iteration.branch = .outboundResponse (some outbound))
    (noneWaits : (stack.server outbound.peer).inboundConMids.lookup
      outbound.token = none) :
    ∃ session, after.sessions.lookup outbound.peer = some session ∧
      session.midAllocator =
        (stack.sessionFor iteration
          outbound.peer).midAllocator.allocate.2 := by
  rw [← sessionFor_server stack iteration] at noneWaits
  change (stack.sessionFor iteration outbound.peer).inboundConMids.lookup
    outbound.token = none at noneWaits
  rw [(branch.of_response taken).1, lookup_putSession, if_pos rfl]
  refine ⟨_, rfl, ?_⟩
  rw [sendOutboundResponse_midAllocator, noneWaits]
  rfl

theorem answeredAsReceived_of_findsOwnRequest
    (keeps : codec.KeepsHeader) (run : ServedRun codec history served)
    (suffix : transition :: older <:+ history)
    (finds : FindsOwnRequest codec older transition) :
    AnsweredAsReceived codec older transition := by
  intro dispatched answers bytes peer sent
  rcases run.of_suffix suffix with ⟨earlier, stepped⟩
  rcases served_step_cases stepped with ⟨admits, loopStepped⟩
  have branch := (step_cases loopStepped).branch
  have waits := conMid_iff_awaits (loopRun_of_servedRun earlier)
  rcases exists_response admits answers with
    ⟨outbound, taken, samePeer, sameToken⟩
  have found := finds dispatched outbound answers taken
  rcases (response_sendPacket_iff branch taken bytes peer).mp sent with
    ⟨rfl, datagram⟩
  refine ⟨samePeer.symm, ?_⟩
  cases waiting : (transition.before.loop.stack.server
      outbound.peer).inboundConMids.lookup outbound.token with
  | some mid =>
      rw [waiting] at datagram
      rcases found.1 mid ((waits _ _ _).mp waiting)
          (by rw [datagram]; simp) with ⟨confirmable, rfl⟩
      rw [if_pos confirmable]
      exact CoapResponse.toPacket_encodes keeps datagram
  | none =>
      rw [waiting] at datagram
      have noneWaits (mid : UInt16) :
          ¬ Awaits codec outbound.peer outbound.token mid
            (older.map loopTransition) := by
        rw [← waits, waiting]
        simp
      have nonConfirmable := found.2 noneWaits (by rw [datagram]; simp)
      rw [nonConfirmable, if_neg Bool.false_ne_true]
      exact ⟨_, ⟨rfl, allocatesMid_of_separate branch taken waiting⟩,
        CoapResponse.toPacket_encodes keeps datagram⟩

theorem findsOwnRequest_of_answeredAsReceived
    (keeps : codec.KeepsHeader) (headers : codec.HeaderDetermined)
    (run : ServedRun codec history served)
    (suffix : transition :: older <:+ history)
    (answered : AnsweredAsReceived codec older transition) :
    FindsOwnRequest codec older transition := by
  intro dispatched outbound answers taken
  rcases run.of_suffix suffix with ⟨earlier, stepped⟩
  rcases served_step_cases stepped with ⟨_, loopStepped⟩
  have branch := (step_cases loopStepped).branch
  have waits := conMid_iff_awaits (loopRun_of_servedRun earlier)
  have sends (bytes : Bytes) :=
    response_sendPacket_iff branch taken bytes outbound.peer
  constructor
  · intro mid awaits encodes
    rw [← waits] at awaits
    rcases Option.ne_none_iff_exists'.mp encodes with ⟨bytes, encoded⟩
    have carries := (answered dispatched answers bytes outbound.peer
      ((sends bytes).mpr ⟨rfl, by rw [awaits]; exact encoded⟩)).2
    have isAck := CoapResponse.toPacket_encodes keeps encoded
    split at carries
    · next confirmable =>
        exact ⟨confirmable, (carries.unique headers isAck).2⟩
    · rcases carries with ⟨_, _, isNon⟩
      cases (isNon.unique headers isAck).1
  · intro noneWaits encodes
    have waiting : (transition.before.loop.stack.server
        outbound.peer).inboundConMids.lookup outbound.token = none := by
      rw [Option.eq_none_iff_forall_ne_some]
      intro mid found
      exact noneWaits mid ((waits _ _ _).mp found)
    rcases Option.ne_none_iff_exists'.mp encodes with ⟨bytes, encoded⟩
    have carries := (answered dispatched answers bytes outbound.peer
      ((sends bytes).mpr ⟨rfl, by rw [waiting]; exact encoded⟩)).2
    split at carries
    · have isNon := CoapResponse.toPacket_encodes keeps encoded
      cases (carries.unique headers isNon).1
    · next nonConfirmable =>
        exact Bool.eq_false_of_not_eq_true nonConfirmable

end Agree

/--
Exactly the runs in which every answer finds the request it is the answer to
answer each request by its own type and MID.
-/
theorem answered_as_received_iff_finds_own_request
    {codec : Codec} (keeps : codec.KeepsHeader)
    (headers : codec.HeaderDetermined)
    {history : List ServedTransition} {served : Served}
    (run : ServedRun codec history served) :
    Along (AnsweredAsReceived codec) history ↔
      Along (FindsOwnRequest codec) history := by
  apply along_congr
  intro transition older suffix
  exact ⟨findsOwnRequest_of_answeredAsReceived keeps headers run suffix,
    answeredAsReceived_of_findsOwnRequest keeps run suffix⟩

/-! ## Outstanding requests with different tokens -/

/-- An accepted CON request is dispatched. -/
theorem mem_dispatchedBy_of_conRequest
    {codec : Codec} {transition : LoopTransition}
    (branch : BranchStep codec transition.before.stack transition.input
      transition.after.stack transition.output)
    {peer : SocketAddr} {token : Token} {mid : UInt16}
    (accepts : AcceptsConRequest codec transition peer token mid) :
    ∃ dispatched ∈ dispatchedBy codec transition.input transition.output,
      dispatched.request.peer = peer ∧
        dispatched.request.token = token ∧
          dispatched.request.request.confirmable = true ∧
            dispatched.mid = mid := by
  rcases accepts with
    ⟨raw, parsed, taken, parses, kind, isRequest, fresh, rfl, rfl⟩
  rcases exists_dispatched branch taken parses (Or.inl kind) isRequest
      fresh with
    ⟨request, decoded, member⟩
  refine ⟨⟨⟨request, peer, parsed.token⟩, parsed.header.messageId⟩, ?_,
    rfl, rfl, ?_, rfl⟩
  · simp only [dispatchedBy, taken, parses, List.mem_filterMap]
    exact ⟨_, member, rfl⟩
  · change request.confirmable = true
    rw [(CoapRequest.of_fromPacket_ok decoded).2.2.1, kind]
    rfl

/-- What is dispatched of a CON request was accepted. -/
theorem conRequest_of_mem_dispatchedBy
    {codec : Codec} {transition : LoopTransition}
    (branch : BranchStep codec transition.before.stack transition.input
      transition.after.stack transition.output)
    {dispatched : Dispatched}
    (member : dispatched ∈
      dispatchedBy codec transition.input transition.output)
    (confirmable : dispatched.request.request.confirmable = true) :
    AcceptsConRequest codec transition dispatched.request.peer
      dispatched.request.token dispatched.mid := by
  simp only [dispatchedBy] at member
  split at member
  · next raw peer taken =>
      split at member
      · next parsed parses =>
          rcases List.mem_filterMap.mp member with ⟨effect, sent, made⟩
          split at made
          · next request =>
              cases made
              rcases sendRequest_dispatches branch sent with
                ⟨_, _, isInbound, parsesAgain, kind, fresh, decoded,
                  isToken⟩
              cases taken.symm.trans isInbound
              cases parses.symm.trans parsesAgain
              rcases CoapRequest.of_fromPacket_ok decoded with
                ⟨code, _, isCon, _⟩
              rw [confirmable] at isCon
              exact ⟨raw, parsed, taken, parses, eq_of_beq isCon.symm,
                by rw [code]; rfl, fresh, isToken.symm, rfl⟩
          · cases made
      · cases member
  · cases member

/-- The peer and the token by which an answer finds its request. -/
def Dispatched.key (dispatched : Dispatched) : SocketAddr × Token :=
  (dispatched.request.peer, dispatched.request.token)

/-- No two outstanding requests of a peer have one token. -/
def Served.DistinctTokens (served : Served) : Prop :=
  (served.unanswered.map Dispatched.key).Nodup

/-- The MIDs that wait are those of the outstanding CON requests. -/
def Served.WaitingMatch (served : Served) : Prop :=
  ∀ peer token mid,
    (served.loop.stack.server peer).inboundConMids.lookup token =
        some mid ↔
      ∃ dispatched ∈ served.unanswered,
        dispatched.key = (peer, token) ∧
          dispatched.request.request.confirmable = true ∧
            dispatched.mid = mid

theorem Served.DistinctTokens.eq_of_key
    {served : Served} (distinct : served.DistinctTokens)
    {left right : Dispatched}
    (leftMember : left ∈ served.unanswered)
    (rightMember : right ∈ served.unanswered)
    (same : left.key = right.key) :
    left = right :=
  List.inj_on_of_nodup_map distinct leftMember rightMember same

section Distinct

variable {codec : Codec} {before after : Served} {input : ServedInput}
  {effects : List Effect}

/-- What is outstanding after a step was dispatched by it, or was outstanding
and is not what the step answers. -/
theorem unanswered_step
    (stepped : before.step codec input = some (after, effects)) :
    after.unanswered =
      (match input.answers with
        | some dispatched => before.unanswered.erase dispatched
        | none => before.unanswered) ++
        dispatchedBy codec input.iteration effects := by
  simp only [Served.step] at stepped
  split at stepped
  · split at stepped
    · injection stepped with equal
      injection equal with servedEqual effectsEqual
      rw [← servedEqual, ← effectsEqual]
    · cases stepped
  · cases stepped

/-- A request that is answered is no longer outstanding, and no other one has
its token. -/
theorem not_takesResponse_of_remaining
    (admits : before.Admits input) (distinct : before.DistinctTokens)
    {dispatched : Dispatched}
    (remains : dispatched ∈ match input.answers with
      | some answered => before.unanswered.erase answered
      | none => before.unanswered)
    {loop : Loop} :
    ¬ TakesResponse ⟨before.loop, input.iteration, effects, loop⟩
      dispatched.request.peer dispatched.request.token := by
  rintro ⟨response, taken⟩
  simp only at taken
  simp only [Served.Admits, taken] at admits
  rcases admits with ⟨answered, member, answers, samePeer, sameToken⟩
  rw [answers] at remains
  have wasOutstanding := List.mem_of_mem_erase remains
  have same : dispatched = answered :=
    distinct.eq_of_key wasOutstanding member
      (Prod.ext samePeer.symm sameToken.symm)
  rw [same] at remains
  exact (List.Nodup.of_map _ distinct).not_mem_erase remains

/-- A request stays outstanding unless its token is answered. -/
theorem remains_of_not_takesResponse
    (admits : before.Admits input) {dispatched : Dispatched}
    (member : dispatched ∈ before.unanswered) {loop : Loop}
    (notTaken : ¬ TakesResponse
      ⟨before.loop, input.iteration, effects, loop⟩
      dispatched.request.peer dispatched.request.token) :
    dispatched ∈ match input.answers with
      | some answered => before.unanswered.erase answered
      | none => before.unanswered := by
  cases answers : input.answers with
  | none => exact member
  | some answered =>
      apply (List.mem_erase_of_ne ?_).mpr member
      rintro rfl
      rcases exists_response admits answers with
        ⟨outbound, taken, samePeer, sameToken⟩
      rcases outbound with ⟨response, peer, token⟩
      exact notTaken ⟨response, by rw [samePeer, sameToken]; exact taken⟩

theorem waitingMatch_step
    (stepped : before.step codec input = some (after, effects))
    (matched : before.WaitingMatch)
    (distinctBefore : before.DistinctTokens)
    (distinctAfter : after.DistinctTokens) :
    after.WaitingMatch := by
  rcases served_step_cases stepped with ⟨admits, loopStepped⟩
  have branch := (step_cases loopStepped).branch
  let observed : LoopTransition :=
    ⟨before.loop, input.iteration, effects, after.loop⟩
  have outstanding := unanswered_step stepped
  intro peer token mid
  rw [conMid_step loopStepped]
  constructor
  · rintro (accepts | ⟨⟨notTaken, _⟩, waited⟩)
    · rcases @mem_dispatchedBy_of_conRequest codec observed branch _ _ _
          accepts with
        ⟨dispatched, member, samePeer, sameToken, confirmable, isMid⟩
      rw [outstanding]
      exact ⟨dispatched, List.mem_append_right _ member,
        Prod.ext samePeer sameToken, confirmable, isMid⟩
    · rcases (matched peer token mid).mp waited with
        ⟨dispatched, member, sameKey, isCon⟩
      cases sameKey
      rw [outstanding]
      exact ⟨dispatched,
        List.mem_append_left _
          (remains_of_not_takesResponse admits member notTaken),
        rfl, isCon⟩
  · rintro ⟨dispatched, member, sameKey, confirmable, rfl⟩
    cases sameKey
    rw [outstanding] at member
    rcases List.mem_append.mp member with remains | isNew
    · refine Or.inr ⟨⟨?_, ?_⟩, ?_⟩
      · exact not_takesResponse_of_remaining admits distinctBefore remains
      · -- A new request under the token would be a second outstanding one.
        intro other accepts
        rcases @mem_dispatchedBy_of_conRequest codec observed branch _ _ _
            accepts with
          ⟨newer, newMember, samePeer, sameToken, _⟩
        rw [Served.DistinctTokens, outstanding, List.map_append]
          at distinctAfter
        exact List.disjoint_of_nodup_append distinctAfter
          (List.mem_map_of_mem remains)
          (List.mem_map.mpr
            ⟨newer, newMember, Prod.ext samePeer sameToken⟩)
      · refine (matched _ _ _).mpr ⟨dispatched, ?_, rfl, confirmable, rfl⟩
        cases answers : input.answers with
        | none =>
            rw [answers] at remains
            exact remains
        | some answered =>
            rw [answers] at remains
            exact List.mem_of_mem_erase remains
    · exact Or.inl (@conRequest_of_mem_dispatchedBy codec observed branch
        dispatched isNew confirmable)

/-- The requests that the loop dispatched, oldest first. -/
def dispatchedIn (codec : Codec) (history : List LoopTransition) :
    List Dispatched :=
  collected (fun transition =>
    dispatchedBy codec transition.input transition.output) history

/-- What is outstanding was dispatched, each request as often. -/
theorem unanswered_subperm
    {history : List ServedTransition} {served : Served}
    (run : ServedRun codec history served) :
    served.unanswered.Subperm
      (dispatchedIn codec (history.map loopTransition)) := by
  induction run with
  | start initial =>
      rcases initial with ⟨now, rfl⟩
      exact List.nil_subperm
  | @extend history before after input effects earlier stepped induction =>
      rw [unanswered_step stepped, List.map_cons, dispatchedIn,
        collected_cons]
      refine List.Subperm.append ?_ (List.Subperm.refl _)
      split
      · exact List.erase_subperm _ _ |>.trans induction
      · exact induction

/-- Requests that never share a token do not share one while they are
outstanding. -/
theorem distinctTokens_of_nodup
    {history : List ServedTransition} {served : Served}
    (run : ServedRun codec history served)
    (apart : ((dispatchedIn codec
      (history.map loopTransition)).map Dispatched.key).Nodup) :
    Along (fun _ transition => transition.before.DistinctTokens)
      history := by
  rw [along_iff_forall_suffix]
  intro transition older suffix
  rcases run.of_suffix suffix with ⟨earlier, _⟩
  rcases unanswered_subperm earlier with ⟨outstanding, reordered, within⟩
  rcases suffix with ⟨newer, rfl⟩
  rw [List.map_append, List.map_cons, dispatchedIn, collected,
    List.reverse_append, List.reverse_cons, List.append_assoc,
    List.flatMap_append, List.map_append] at apart
  have apartOlder := (within.map Dispatched.key).nodup apart.of_append_left
  exact (reordered.map Dispatched.key).nodup_iff.mp apartOlder

end Distinct

/-- While the outstanding requests of a peer have different tokens, every
answer finds its own request. -/
theorem finds_own_request_of_distinct_tokens
    {codec : Codec} {history : List ServedTransition} {served : Served}
    (run : ServedRun codec history served)
    (distinct : Along
      (fun _ transition => transition.before.DistinctTokens) history) :
    Along (FindsOwnRequest codec) history := by
  have matched {older : List ServedTransition} {state : Served}
      (run : ServedRun codec older state)
      (along : Along
        (fun _ transition => transition.before.DistinctTokens) older) :
      state.DistinctTokens → state.WaitingMatch := by
    refine run.invariant_along
      (fun _ served => served.DistinctTokens → served.WaitingMatch)
      ?_ ?_ along
    · rintro _ ⟨now, rfl⟩ _ peer token mid
      exact iff_of_false (fun found => nomatch found)
        (by rintro ⟨_, member, _⟩; cases member)
    · intro older before after input effects _ matched distinctBefore
        stepped distinctAfter
      exact waitingMatch_step stepped (matched distinctBefore)
        distinctBefore distinctAfter
  rw [along_iff_forall_suffix]
  intro transition older suffix dispatched outbound answers taken
  rcases run.of_suffix suffix with ⟨earlier, stepped⟩
  rcases distinct.of_suffix suffix with ⟨distinctNow, distinctOlder⟩
  have waiting := matched earlier distinctOlder distinctNow
  have admits := (served_step_cases stepped).1
  simp only [Served.Admits, taken] at admits
  rcases admits with ⟨answered, member, isAnswered, samePeer, sameToken⟩
  cases answers.symm.trans isAnswered
  have isKey : dispatched.key = (outbound.peer, outbound.token) :=
    Prod.ext samePeer sameToken
  simp only [← conMid_iff_awaits (loopRun_of_servedRun earlier)]
  constructor
  · intro mid awaits _
    rcases (waiting _ _ _).mp awaits with
      ⟨other, otherMember, otherKey, confirmable, isMid⟩
    have same := distinctNow.eq_of_key otherMember member
      (otherKey.trans isKey.symm)
    rw [← same]
    exact ⟨confirmable, isMid⟩
  · intro noneWaits _
    by_contra confirmable
    exact noneWaits dispatched.mid ((waiting _ _ _).mpr
      ⟨dispatched, member, isKey, by simpa using confirmable, rfl⟩)

/-! ## Two requests under one token -/

/-- A CON GET without a token, under a message ID. -/
def conGet (mid : UInt8) : Bytes :=
  [0x40, 0x01, 0, mid]

/-- The first of the two requests as the server is handed it. -/
def firstDispatched : Dispatched where
  request := ⟨⟨.get, "/", [], none, [], none, true⟩, .loopback 5000, []⟩
  mid := 7

/-- The answer, which names its request by peer and token only. -/
def content : ServerResponse :=
  ⟨⟨.content, none, []⟩, .loopback 5000, []⟩

/-- The first request is answered after the second one was received. -/
def overlappingInputs : List ServedInput :=
  [⟨.plain (fromSecs 1) (.inbound (conGet 7) (.loopback 5000)), none⟩,
    ⟨.plain (fromSecs 2) (.inbound (conGet 8) (.loopback 5000)), none⟩,
    ⟨.plain (fromSecs 3) (.outboundResponse (some content)),
      some firstDispatched⟩]

/-- The answer acknowledges the second request. -/
theorem exists_crossed_answer :
    ∃ history served, ServedRun bareCodec history served ∧
      ¬ Along (AnsweredAsReceived bareCodec) history := by
  have initial : (servedMachine bareCodec).Initial ⟨Loop.start 0, []⟩ :=
    ⟨0, rfl⟩
  rcases exists_run_of_replay initial overlappingInputs
      (fun history _ =>
        match history with
        | [] => false
        | answer :: _ =>
            decide (answer.input.answers = some firstDispatched ∧
              .sendPacket [0x60, 0x45, 0, 8] (.loopback 5000) ∈
                answer.output))
      (by decide) with
    ⟨history, served, run, checked⟩
  refine ⟨history, served, run, ?_⟩
  cases history with
  | nil => cases checked
  | cons answer older =>
      rcases of_decide_eq_true checked with ⟨answers, sent⟩
      rintro ⟨asReceived, _⟩
      have isFirst : bareCodec.Encodes .acknowledgement 7
          [0x60, 0x45, 0, 8] :=
        (asReceived firstDispatched answers _ _ sent).2
      have isSecond : bareCodec.Encodes .acknowledgement 8
          [0x60, 0x45, 0, 8] :=
        ⟨content.piggybacked bareCodec 8, rfl, rfl, rfl⟩
      cases (isFirst.unique bareCodec_headerDetermined isSecond).2

theorem not_always_answered_as_received :
    ¬ ∀ codec : Codec, codec.KeepsHeader → codec.HeaderDetermined →
      ∀ history served, ServedRun codec history served →
        Along (AnsweredAsReceived codec) history := by
  intro claimed
  rcases exists_crossed_answer with ⟨history, served, run, crossed⟩
  exact crossed (claimed bareCodec bareCodec_lawful.setContentFormat_header
    bareCodec_headerDetermined history served run)

theorem answered_as_received_iff_finds_own_request_on_overlap :
    ∃ history served, ServedRun bareCodec history served ∧
      ¬ Along (FindsOwnRequest bareCodec) history := by
  rcases exists_crossed_answer with ⟨history, served, run, crossed⟩
  exact ⟨history, served, run, fun finds =>
    crossed ((answered_as_received_iff_finds_own_request
      bareCodec_lawful.setContentFormat_header
      bareCodec_headerDetermined run).mpr finds)⟩

end Coapable.Transport.Answers
