import Coapable.BareCodec
import Coapable.Foundation.Execution
import Coapable.Oscore.Context
import Coapable.Transport.Loop

/-!
# What the calls of one peer determine

The store is shared by everything that protects messages, and its calls come
in any order.  What it holds for a peer is determined by a log: the material
the context of the peer was last added with, and the requests that it was
given to protect since.  Calls for other peers, and calls of the other
methods, are not in it.
-/

namespace Coapable.Oscore

open Coapable.BareCodec
open Coapable.CoapLite
open Coapable.Foundation.Execution
open Coapable.Foundation.FiniteMap
open Coapable.Transport

variable {PrimitiveContext Immutables RequestId Plaintext : Type}

/-! ## Runs of the store -/

/-- The store under calls from anywhere, in any order. -/
def storeMachine
    (crates : Crates PrimitiveContext Immutables RequestId Plaintext) :
    Machine (ContextStore PrimitiveContext RequestId) (Call Immutables)
      (Option (Answer Packet)) where
  Initial store := store = .new
  step store call := some (store.step crates call)

/-- One call with its answer. -/
abbrev StoreTransition
    (PrimitiveContext Immutables RequestId : Type) :=
  Transition (ContextStore PrimitiveContext RequestId) (Call Immutables)
    (Option (Answer Packet))

/-! ## The log of a peer -/

/-- The material of a context, and the requests it was given to protect,
newest first. -/
structure ContextLog (Immutables : Type) where
  immutables : Immutables
  requests : List Packet

namespace ContextLog

/-- The log after a call of a method of the context. -/
def afterMethod (log : ContextLog Immutables) (packet : Packet) :
    Method → ContextLog Immutables
  | .protectRequest => ⟨log.immutables, packet :: log.requests⟩
  | _ => log

/-- The log after a call. -/
def afterCall (peer : SocketAddr)
    (log : Option (ContextLog Immutables)) :
    Call Immutables → Option (ContextLog Immutables)
  | .add other immutables =>
      if other = peer then some ⟨immutables, []⟩ else log
  | .withContext other method packet =>
      if other = peer then log.map (·.afterMethod packet method) else log

/-- What the calls of a history leave in the log of the peer. -/
def ofHistory (peer : SocketAddr)
    (history : List
      (StoreTransition PrimitiveContext Immutables RequestId)) :
    Option (ContextLog Immutables) :=
  history.foldr (fun transition log => afterCall peer log transition.input)
    none

variable
  (crates : Crates PrimitiveContext Immutables RequestId Plaintext)

/-- The primitive context: fresh, then advanced by every request in turn, also
by those that could not be protected. -/
def primitiveContext (immutables : Immutables) :
    List Packet → PrimitiveContext
  | [] => crates.newFromFreshMaterial immutables
  | packet :: older =>
      (Codec.protectRequest crates packet
        (primitiveContext immutables older)).2

/-- What protecting the newest request gave. -/
def protection (immutables : Immutables) (packet : Packet)
    (older : List Packet) : Except OscoreError (Packet × RequestId) :=
  (Codec.protectRequest crates packet
    (primitiveContext crates immutables older)).1

/-- The request ID of the newest request with the token that was
protected. -/
def requestId (immutables : Immutables) (token : Token) :
    List Packet → Option RequestId
  | [] => none
  | packet :: older =>
      match protection crates immutables packet older with
      | .ok (_, id) =>
          if token = packet.token then some id
          else requestId immutables token older
      | .error _ => requestId immutables token older

/-- The answer to a call of a method. -/
def answer (log : ContextLog Immutables) (packet : Packet) :
    Method → Answer Packet
  | .protectRequest =>
      .ok ((protection crates log.immutables packet log.requests).map
        Prod.fst)
  | .unprotectRequest => .error .notYetImplemented
  | .protectResponse => .ok (.error .requestNotFound)
  | .unprotectResponse =>
      match requestId crates log.immutables packet.token log.requests with
      | none => .ok (.error .requestNotFound)
      | some _ => .error .notYetImplemented

/-- The answer from what is known of the peer, if anything is. -/
def answerFrom (log : Option (ContextLog Immutables)) (packet : Packet)
    (method : Method) : Answer Packet :=
  match log with
  | none => .ok (.error .contextNotFound)
  | some log => log.answer crates packet method

end ContextLog

/-! ## A context has its log's contents -/

/-- The context is what the log says. -/
structure Represents
    (crates : Crates PrimitiveContext Immutables RequestId Plaintext)
    (log : ContextLog Immutables)
    (context : OscoreContext PrimitiveContext RequestId) : Prop where
  ctx :
    context.ctx =
      ContextLog.primitiveContext crates log.immutables log.requests
  outbound : ∀ token,
    context.outboundRequestIds.lookup token =
      ContextLog.requestId crates log.immutables token log.requests
  /-- Nothing records an inbound request. -/
  inbound : context.inboundRequestIds = ∅

section Represents

variable
  {crates : Crates PrimitiveContext Immutables RequestId Plaintext}
  {log : ContextLog Immutables}
  {context : OscoreContext PrimitiveContext RequestId}

theorem represents_new (immutables : Immutables) :
    Represents crates ⟨immutables, []⟩
      (OscoreContext.new (crates.newFromFreshMaterial immutables)) :=
  ⟨rfl, fun _ => rfl, rfl⟩

/-- Protecting a request advances the primitive context on every path, and
records the request ID if there is one. -/
theorem Represents.protectRequest
    (represents : Represents crates log context) (packet : Packet) :
    (context.protectRequest crates packet).1 =
        log.answer crates packet .protectRequest ∧
      Represents crates ⟨log.immutables, packet :: log.requests⟩
        (context.protectRequest crates packet).2 := by
  have sameContext := represents.ctx
  simp only [OscoreContext.protectRequest, ContextLog.answer,
    ContextLog.protection, ← sameContext]
  split
  · next error after isError =>
      refine ⟨by rw [isError]; rfl, ?_, fun token => ?_,
        represents.inbound⟩
      · simp only [ContextLog.primitiveContext, ← sameContext, isError]
      · simp only [ContextLog.requestId, ContextLog.protection,
          ← sameContext, isError]
        exact represents.outbound token
  · next outer id after isOk =>
      refine ⟨by rw [isOk]; rfl, ?_, fun token => ?_,
        represents.inbound⟩
      · simp only [ContextLog.primitiveContext, ← sameContext, isOk]
      · simp only [ContextLog.requestId, ContextLog.protection,
          ← sameContext, isOk]
        rw [lookup_insert_eq, represents.outbound token]

/-- A method answers from the log; the others than `protectRequest` read the
request IDs and change nothing. -/
theorem Represents.call
    (represents : Represents crates log context) (packet : Packet)
    (method : Method) :
    (method.call crates packet context).1 =
        log.answer crates packet method ∧
      Represents crates (log.afterMethod packet method)
        (method.call crates packet context).2 := by
  cases method with
  | protectRequest => exact represents.protectRequest packet
  | unprotectRequest => exact ⟨rfl, represents⟩
  | protectResponse =>
      simp only [Method.call, OscoreContext.protectResponse,
        represents.inbound, ContextLog.answer]
      exact ⟨rfl, represents⟩
  | unprotectResponse =>
      simp only [Method.call, OscoreContext.unprotectResponse,
        represents.outbound, ContextLog.answer]
      cases ContextLog.requestId crates log.immutables packet.token
        log.requests <;> exact ⟨rfl, represents⟩

end Represents

/-! ## Runs -/

section Runs

variable
  {crates : Crates PrimitiveContext Immutables RequestId Plaintext}
  {history : List (StoreTransition PrimitiveContext Immutables RequestId)}
  {store : ContextStore PrimitiveContext RequestId}

/-- What the store holds for every peer is what the log of the peer says, and
nothing where there is no log. -/
def StoreRepresents
    (crates : Crates PrimitiveContext Immutables RequestId Plaintext)
    (history :
      List (StoreTransition PrimitiveContext Immutables RequestId))
    (store : ContextStore PrimitiveContext RequestId) : Prop :=
  ∀ peer, Option.Rel (Represents crates)
    (ContextLog.ofHistory peer history) (store.contexts.lookup peer)

/-- A call answers from the log of its peer, and what the store holds follows
the logs. -/
theorem StoreRepresents.step
    (represents : StoreRepresents crates history store)
    (call : Call Immutables) :
    (∀ peer method packet, call = .withContext peer method packet →
      (store.step crates call).2 =
        some (ContextLog.answerFrom crates
          (ContextLog.ofHistory peer history) packet method)) ∧
    ∀ peer, Option.Rel (Represents crates)
      (ContextLog.afterCall peer (ContextLog.ofHistory peer history) call)
      ((store.step crates call).1.contexts.lookup peer) := by
  cases call with
  | add added immutables =>
      constructor
      · intro peer method packet isCall
        cases isCall
      · intro peer
        simp only [ContextStore.step, ContextStore.add,
          ContextLog.afterCall, lookup_insert_eq]
        by_cases same : added = peer
        · rw [if_pos same, if_pos same.symm]
          exact .some (represents_new immutables)
        · rw [if_neg same, if_neg (Ne.symm same)]
          exact represents peer
  | withContext asked method packet =>
      have atAsked := represents asked
      simp only [ContextStore.step, ContextStore.withContext,
        ContextLog.afterCall]
      generalize isLog : ContextLog.ofHistory asked history = log
        at atAsked
      generalize isStored : store.contexts.lookup asked = stored
        at atAsked
      cases atAsked with
      | none =>
          constructor
          · rintro _ _ _ ⟨⟩
            rw [isLog]
            rfl
          · intro peer
            by_cases same : asked = peer
            · subst same
              rw [if_pos rfl, isLog, isStored]
              exact .none
            · rw [if_neg same]
              exact represents peer
      | @some log context represented =>
          have called := represented.call packet method
          constructor
          · rintro _ _ _ ⟨⟩
            rw [isLog, called.1]
            rfl
          · intro peer
            rw [lookup_insert_eq]
            by_cases same : asked = peer
            · subst same
              rw [if_pos rfl, if_pos rfl, isLog]
              exact .some called.2
            · rw [if_neg same, if_neg (Ne.symm same)]
              exact represents peer

theorem storeRepresents_of_run
    (run : Run (storeMachine crates) history store) :
    StoreRepresents crates history store := by
  refine run.invariant (StoreRepresents crates) ?_ ?_
  · rintro _ rfl peer
    exact .none
  · intro history before after call output _ represents stepped
    have isStep : before.step crates call = (after, output) :=
      Option.some.inj stepped
    have follows := (represents.step call).2
    rw [isStep] at follows
    exact follows

/-- The answer of a transition is the one from the log of its peer. -/
theorem answer_of_suffix
    (run : Run (storeMachine crates) history store)
    {older : List
      (StoreTransition PrimitiveContext Immutables RequestId)}
    {transition : StoreTransition PrimitiveContext Immutables RequestId}
    (suffix : transition :: older <:+ history)
    {peer : SocketAddr} {method : Method} {packet : Packet}
    (isCall : transition.input = .withContext peer method packet) :
    transition.output =
      some (ContextLog.answerFrom crates
        (ContextLog.ofHistory peer older) packet method) := by
  rcases run.of_suffix suffix with ⟨earlier, stepped⟩
  have isStep : transition.before.step crates transition.input =
      (transition.after, transition.output) :=
    Option.some.inj stepped
  have answered := ((storeRepresents_of_run earlier).step
    transition.input).1 peer method packet isCall
  rw [isStep] at answered
  exact answered

/-- A message is read back with the type, the MID and the token it was written
with, whatever code and whatever options follow. -/
def Crates.ReadsFrame
    (crates : Crates PrimitiveContext Immutables RequestId Plaintext) :
    Prop :=
  ∀ packet raw code rest outer,
    crates.serializeHeader packet = some raw →
      crates.codec.fromBytes
          ({ raw with code := code }.bytes ++ packet.token ++ rest) =
        some outer →
      outer.header.messageType = packet.header.messageType ∧
        outer.header.messageId = packet.header.messageId ∧
          outer.token = packet.token

/-- The outer message belongs to the exchange of the packet. -/
theorem Codec.protectRequest_frame
    (readsFrame : crates.ReadsFrame)
    {packet outer : Packet} {ctx : PrimitiveContext} {id : RequestId}
    (isOk : (Codec.protectRequest crates packet ctx).1 =
      .ok (outer, id)) :
    outer.header.messageType = packet.header.messageType ∧
      outer.header.messageId = packet.header.messageId ∧
        outer.token = packet.token := by
  simp only [Codec.protectRequest] at isOk
  split at isOk
  · cases isOk
  · split at isOk
    · cases isOk
    · split at isOk
      · cases isOk
      · split at isOk
        · cases isOk
        · next raw serialized =>
            split at isOk
            · cases isOk
            · next read decoded =>
                cases isOk
                exact readsFrame _ _ _ _ _ serialized decoded

/-- The log has a request ID for the token. -/
def ContextLog.Remembers
    (crates : Crates PrimitiveContext Immutables RequestId Plaintext)
    (log : ContextLog Immutables) (token : Token) : Prop :=
  (ContextLog.requestId crates log.immutables token
    log.requests).isSome = true

/-- A later request takes the place of an earlier one with its token, but no
request removes one. -/
theorem ContextLog.Remembers.afterMethod
    {log : ContextLog Immutables} {token : Token}
    (remembers : log.Remembers crates token) (packet : Packet)
    (method : Method) :
    (log.afterMethod packet method).Remembers crates token := by
  cases method with
  | protectRequest =>
      simp only [Remembers, ContextLog.afterMethod, requestId]
      split
      · split
        · rfl
        · exact remembers
      · exact remembers
  | unprotectRequest | protectResponse | unprotectResponse =>
      exact remembers

/-- Only another `add` makes a context forget. -/
theorem exists_remembers
    {peer : SocketAddr} {log : ContextLog Immutables} {token : Token}
    {newer older : List
      (StoreTransition PrimitiveContext Immutables RequestId)}
    (known : ContextLog.ofHistory peer older = some log)
    (remembers : log.Remembers crates token)
    (kept : ∀ later ∈ newer, ∀ immutables,
      later.input ≠ .add peer immutables) :
    ∃ later : ContextLog Immutables,
      ContextLog.ofHistory peer (newer ++ older) = some later ∧
        later.Remembers crates token := by
  induction newer with
  | nil => exact ⟨log, known, remembers⟩
  | cons transition newer induction =>
      rcases induction fun later member =>
          kept later (List.mem_cons_of_mem _ member) with
        ⟨later, isLater, stillRemembers⟩
      have unfolded :
          ContextLog.ofHistory peer (transition :: newer ++ older) =
            ContextLog.afterCall peer (some later) transition.input := by
        rw [← isLater]
        rfl
      have notAdded := kept transition List.mem_cons_self
      rw [unfolded]
      cases isCall : transition.input with
      | add added immutables =>
          have other : added ≠ peer := fun same =>
            notAdded immutables (same ▸ isCall)
          refine ⟨later, ?_, stillRemembers⟩
          rw [ContextLog.afterCall, if_neg other]
      | withContext asked method packet =>
          by_cases same : asked = peer
          · refine ⟨later.afterMethod packet method, ?_,
              stillRemembers.afterMethod packet method⟩
            rw [ContextLog.afterCall, if_pos same, Option.map_some]
          · refine ⟨later, ?_, stillRemembers⟩
            rw [ContextLog.afterCall, if_neg same]

/-- A request that was protected is remembered under its token. -/
theorem remembers_of_protected
    (run : Run (storeMachine crates) history store)
    {protecting : StoreTransition PrimitiveContext Immutables RequestId}
    {older : List
      (StoreTransition PrimitiveContext Immutables RequestId)}
    (suffix : protecting :: older <:+ history)
    {peer : SocketAddr} {packet outer : Packet}
    (isCall :
      protecting.input = .withContext peer .protectRequest packet)
    (isOk : protecting.output = some (.ok (.ok outer))) :
    (∃ (ctx : PrimitiveContext) (id : RequestId),
      (Codec.protectRequest crates packet ctx).1 = .ok (outer, id)) ∧
    ∃ log : ContextLog Immutables,
      ContextLog.ofHistory peer (protecting :: older) = some log ∧
        log.Remembers crates packet.token := by
  have answered := answer_of_suffix run suffix isCall
  have afterwards :
      ContextLog.ofHistory peer (protecting :: older) =
        (ContextLog.ofHistory peer older).map
          (·.afterMethod packet .protectRequest) := by
    simp only [ContextLog.ofHistory, List.foldr_cons, isCall,
      ContextLog.afterCall, if_true]
  rw [isOk, Option.some.injEq] at answered
  rw [afterwards]
  cases isLog : ContextLog.ofHistory peer older with
  | none =>
      rw [isLog] at answered
      cases answered
  | some log =>
      rw [isLog] at answered
      have protection := Except.ok.inj answered
      cases result :
          ContextLog.protection crates log.immutables packet
            log.requests with
      | error error =>
          rw [result] at protection
          cases protection
      | ok pair =>
          rcases pair with ⟨message, id⟩
          rw [result] at protection
          cases protection
          refine ⟨⟨_, id, result⟩, _, rfl, ?_⟩
          simp only [ContextLog.Remembers, ContextLog.afterMethod,
            ContextLog.requestId, result, if_true, Option.isSome_some]

/--
A request that was protected keeps its type, its MID and its token on the way
out.  Until the context of the peer is added anew, every response with the
token of the outer message therefore finds the request, whatever else was
protected in between; what follows is not implemented.
-/
theorem response_finds_protected_request
    (readsFrame : crates.ReadsFrame)
    {newer older : List
      (StoreTransition PrimitiveContext Immutables RequestId)}
    {protecting : StoreTransition PrimitiveContext Immutables RequestId}
    (run : Run (storeMachine crates) (newer ++ protecting :: older) store)
    {peer : SocketAddr} {packet outer : Packet}
    (isCall :
      protecting.input = .withContext peer .protectRequest packet)
    (isOk : protecting.output = some (.ok (.ok outer))) :
    (outer.header.messageType = packet.header.messageType ∧
      outer.header.messageId = packet.header.messageId ∧
        outer.token = packet.token) ∧
    ((∀ later ∈ newer, ∀ immutables,
        later.input ≠ .add peer immutables) →
      ∀ later ∈ newer, ∀ response,
        later.input = .withContext peer .unprotectResponse response →
          response.token = outer.token →
            later.output = some (.error .notYetImplemented)) := by
  rcases remembers_of_protected run (List.suffix_append _ _) isCall
      isOk with
    ⟨⟨ctx, id, isProtected⟩, log, isLog, remembers⟩
  have frame := Codec.protectRequest_frame readsFrame isProtected
  refine ⟨frame, ?_⟩
  intro kept later member response isResponse sameToken
  rcases List.append_of_mem member with ⟨newest, between, rfl⟩
  have suffix : later :: (between ++ protecting :: older) <:+
      newest ++ later :: between ++ protecting :: older := by
    rw [List.append_assoc, List.cons_append]
    exact List.suffix_append _ _
  have keptBetween : ∀ other ∈ between, ∀ immutables,
      other.input ≠ .add peer immutables := fun other isOther =>
    kept other (List.mem_append_right _
      (List.mem_cons_of_mem _ isOther))
  rcases exists_remembers isLog remembers keptBetween with
    ⟨known, isKnown, stillRemembers⟩
  rcases Option.isSome_iff_exists.mp stillRemembers with ⟨found, isFound⟩
  rw [answer_of_suffix run suffix isResponse, isKnown]
  simp only [ContextLog.answerFrom, ContextLog.answer, sameToken,
    frame.2.2, isFound]

end Runs

/-! ## A cipher that leaves the plaintext as it is -/

/-- Eight bytes stand for the tag, and the outer message is a POST with the
OSCORE option, as every protected request. -/
def plainCrates : Crates Nat Unit Nat Bytes where
  codec := bareCodec
  serializeHeader packet :=
    if packet.token.length ≤ 8 then
      (classByte packet.header.code).map fun code =>
        ⟨firstByte packet, code,
          UInt8.ofNat (packet.header.messageId.toNat / 256),
          UInt8.ofNat packet.header.messageId.toNat⟩
    else none
  codeByte code := (classByte code).getD 0
  newFromFreshMaterial _ := 0
  setCode code _ := [code]
  addOption _ value plaintext := (true, plaintext ++ value)
  setPayload payload plaintext := (true, plaintext ++ 0xFF :: payload)
  protectRequest size sequence write :=
    let (writeResult, plaintext) := write []
    let used := [0x92, 0x09, UInt8.ofNat sequence, 0xFF] ++ plaintext ++
      List.replicate 8 0
    if used.length ≤ size then
      (some ⟨sequence, writeResult, 0x02, used⟩, sequence + 1)
    else (none, sequence + 1)

theorem plainCrates_readsFrame : plainCrates.ReadsFrame := by
  intro packet raw code rest outer serialized decoded
  simp only [plainCrates] at serialized
  split at serialized
  · next short =>
      rcases Option.map_eq_some_iff.mp serialized with ⟨byte, _, rfl⟩
      have typeBound := typeNumber_lt packet.header.messageType
      have first : (firstByte packet).toNat =
          64 + 16 * typeNumber packet.header.messageType +
            packet.token.length := by
        rw [firstByte, UInt8.toNat_ofNat']
        omega
      have length : (firstByte packet).toNat % 16 =
          packet.token.length := by
        omega
      have kind : (firstByte packet).toNat / 16 % 4 =
          typeNumber packet.header.messageType := by
        omega
      have midBound := packet.header.messageId.toNat_lt
      have mid : UInt16.ofNat
          (256 * (UInt8.ofNat
              (packet.header.messageId.toNat / 256)).toNat +
            (UInt8.ofNat packet.header.messageId.toNat).toNat) =
          packet.header.messageId := by
        apply UInt16.toNat_inj.mp
        rw [UInt16.toNat_ofNat', UInt8.toNat_ofNat', UInt8.toNat_ofNat']
        omega
      simp only [plainCrates, bareCodec, RawHeader.bytes,
        List.cons_append, List.nil_append,
        BareCodec.fromBytes, length, kind, mid, List.take_left]
        at decoded
      split at decoded
      · rcases optionsOfBytes_frame decoded with ⟨header, token⟩
        rw [header, token]
        exact ⟨typeOfNumber_typeNumber _, rfl, rfl⟩
      · cases decoded
  · cases serialized

/-- The peer whose context is added. -/
def knownPeer : SocketAddr := .loopback 5683

/-- A peer without a context. -/
def unknownPeer : SocketAddr := .loopback 5684

/-- A CON GET with MID 7 and the token `01`. -/
def plainRequest : Packet :=
  { Packet.new with
    header := ⟨.confirmable, .request .get, 7⟩
    token := [1] }

/-- The transition that a call makes in a store. -/
def plainTransition (store : ContextStore Nat Nat) (call : Call Unit) :
    StoreTransition Nat Unit Nat where
  before := store
  input := call
  output := (store.step plainCrates call).2
  after := (store.step plainCrates call).1

/-- A context is added for one peer only. -/
def adding : StoreTransition Nat Unit Nat :=
  plainTransition .new (.add knownPeer ())

/-- The request is protected for the known peer. -/
def protecting : StoreTransition Nat Unit Nat :=
  plainTransition adding.after
    (.withContext knownPeer .protectRequest plainRequest)

/-- It is refused for the other one. -/
def refusing : StoreTransition Nat Unit Nat :=
  plainTransition protecting.after
    (.withContext unknownPeer .protectRequest plainRequest)

/-- A response with its token comes back. -/
def responding : StoreTransition Nat Unit Nat :=
  plainTransition refusing.after
    (.withContext knownPeer .unprotectResponse plainRequest)

theorem plainRun :
    Run (storeMachine plainCrates)
      [responding, refusing, protecting, adding] responding.after :=
  .extend (.extend (.extend (.extend (.start rfl) rfl) rfl) rfl) rfl

/-- The call answered with a packet. -/
def isProtected : Option (Answer Packet) → Bool
  | some (.ok (.ok _)) => true
  | _ => false

theorem exists_outer_of_isProtected
    {answer : Option (Answer Packet)}
    (protects : isProtected answer = true) :
    ∃ outer, answer = some (.ok (.ok outer)) := by
  unfold isProtected at protects
  split at protects
  · next outer => exact ⟨outer, rfl⟩
  · cases protects

theorem response_finds_protected_request_on_two_peers :
    responding.output = some (.error .notYetImplemented) := by
  have protects : isProtected protecting.output = true := by
    decide +kernel
  rcases exists_outer_of_isProtected protects with ⟨outer, isOk⟩
  have run : Run (storeMachine plainCrates)
      ([responding, refusing] ++ protecting :: [adding])
      responding.after :=
    plainRun
  rcases response_finds_protected_request plainCrates_readsFrame run rfl
      isOk with
    ⟨⟨_, _, sameToken⟩, finds⟩
  apply finds _ responding List.mem_cons_self plainRequest rfl
    sameToken.symm
  intro later member immutables isAdd
  simp only [List.mem_cons, List.not_mem_nil, or_false] at member
  rcases member with rfl | rfl <;> cases isAdd

end Coapable.Oscore
