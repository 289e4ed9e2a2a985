import Coapable.Transport.DedupView

/-!
# The CON requests that wait for an answer

The map from tokens to MIDs keeps one MID under each token: that of the
newest CON request of the peer with this token, until the server answers
under the token.  In terms of the history, `Awaits` is what the map means.
-/

namespace Coapable.Transport

open Coapable.CoapLite
open Coapable.Foundation.Execution
open Coapable.MessageTypes

/-- The transition accepts a CON request of the peer with this token and this
MID. -/
def AcceptsConRequest (codec : Codec) (transition : LoopTransition)
    (peer : SocketAddr) (token : Token) (mid : UInt16) : Prop :=
  ∃ raw parsed, transition.input.branch = .inbound raw peer ∧
    codec.fromBytes raw = some parsed ∧
      parsed.header.messageType = .confirmable ∧
        parsed.header.code.isRequest = true ∧
          transition.before.stack.isDuplicate peer
              parsed.header.messageId = false ∧
            parsed.token = token ∧ parsed.header.messageId = mid

/-- The transition takes a server response to the peer under this token. -/
def TakesResponse (transition : LoopTransition) (peer : SocketAddr)
    (token : Token) : Prop :=
  ∃ response, transition.input.branch =
    .outboundResponse (some ⟨response, peer, token⟩)

/-- Under the token of the peer no response was taken and no CON request
accepted since the CON request with this MID. -/
def Awaits (codec : Codec) (peer : SocketAddr) (token : Token)
    (mid : UInt16) : List LoopTransition → Prop :=
  Since
    (fun later => ¬ TakesResponse later peer token ∧
      ∀ other, ¬ AcceptsConRequest codec later peer token other)
    (fun transition => AcceptsConRequest codec transition peer token mid)

/-- A CON request of the peer was accepted, and no response was taken under
its token since.  One response answers every CON request under its token, also
where several were accepted, as only the last of them is recorded. -/
def Unanswered (codec : Codec) (peer : SocketAddr)
    (history : List LoopTransition) : Prop :=
  ∃ token mid,
    Since (fun later => ¬ TakesResponse later peer token)
      (fun transition =>
        AcceptsConRequest codec transition peer token mid)
      history

theorem Awaits.unanswered
    {codec : Codec} {peer : SocketAddr} {token : Token} {mid : UInt16}
    {history : List LoopTransition}
    (awaits : Awaits codec peer token mid history) :
    Unanswered codec peer history :=
  ⟨token, mid, awaits.mono fun _ quiet => quiet.1⟩

/-! ## The events behind the map -/

section Events

variable {codec : Codec} {transition : LoopTransition}
  {peer : SocketAddr} {token : Token} {mid : UInt16}

theorem serverEvent_of_conRequest
    (accepts : AcceptsConRequest codec transition peer token mid) :
    transition.before.stack.serverEvent codec transition.input peer =
      .accepted mid transition.input.now (some token) none := by
  rcases accepts with
    ⟨raw, parsed, taken, parses, kind, isRequest, fresh, rfl, rfl⟩
  simp only [CoapStack.serverEvent, taken, parses, if_true, fresh,
    packetServerEvent, kind, Bool.false_eq_true, if_false]
  cases code : parsed.header.code with
  | request method => rfl
  | empty | response | reserved =>
      rw [code] at isRequest
      cases isRequest

theorem conRequest_of_serverEvent
    {now : Nat} {ack : Option Bytes}
    (event : transition.before.stack.serverEvent codec transition.input
      peer = .accepted mid now (some token) ack) :
    AcceptsConRequest codec transition peer token mid := by
  have accepted := accepted_of_serverEvent event
  rcases (transition.input.receives_iff codec peer mid).mp accepted.1 with
    ⟨raw, parsed, taken, parses, kind, rfl⟩
  simp only [CoapStack.serverEvent, taken, parses, if_true, accepted.2.1,
    packetServerEvent, Bool.false_eq_true, if_false] at event
  rcases kind with kind | kind
  · simp only [kind] at event
    split at event
    · next code =>
        cases event
        exact ⟨raw, parsed, taken, parses, kind, by rw [code]; rfl,
          accepted.2.1, rfl, rfl⟩
    · cases event
  · simp only [kind] at event
    cases event

theorem takesResponse_iff :
    TakesResponse transition peer token ↔
      ∃ encode, transition.before.stack.serverEvent codec transition.input
        peer = .responded token encode := by
  constructor
  · rintro ⟨response, taken⟩
    simp only [CoapStack.serverEvent, taken, if_true]
    exact ⟨_, rfl⟩
  · rintro ⟨encode, event⟩
    simp only [CoapStack.serverEvent] at event
    split at event
    · split at event
      · split at event
        · exact absurd event
            (packetServerEvent_ne_responded codec _ _ _ _ _)
        · cases event
      · cases event
    · next outbound taken =>
        split at event
        · next isPeer =>
            rw [ServerEvent.responded.injEq] at event
            rcases outbound with ⟨response, outboundPeer, outboundToken⟩
            exact ⟨response, by rw [taken, ← isPeer, ← event.1]⟩
        · cases event
    · cases event
    · cases event

end Events

/-- What a step does to the MID under a token, in the three cases. -/
theorem conMid_step
    {codec : Codec} {before after : Loop} {iteration : Iteration}
    {effects : List Effect}
    (stepped : before.step codec iteration = some (after, effects))
    (peer : SocketAddr) (token : Token) (mid : UInt16) :
    (after.stack.server peer).inboundConMids.lookup token = some mid ↔
      AcceptsConRequest codec ⟨before, iteration, effects, after⟩ peer
          token mid ∨
        (¬ TakesResponse ⟨before, iteration, effects, after⟩ peer token ∧
          ∀ other, ¬ AcceptsConRequest codec
            ⟨before, iteration, effects, after⟩ peer token other) ∧
        (before.stack.server peer).inboundConMids.lookup token =
          some mid := by
  rw [server_step (step_cases stepped).branch, ServerTable.conMid_apply]
  by_cases accepted : ∃ other, AcceptsConRequest codec
      ⟨before, iteration, effects, after⟩ peer token other
  · rcases accepted with ⟨recorded, accepts⟩
    have event := serverEvent_of_conRequest accepts
    simp only at event
    rw [event]
    simp only [if_true, Option.some.injEq]
    constructor
    · rintro rfl
      exact Or.inl accepts
    · rintro (again | ⟨⟨_, noRequest⟩, _⟩)
      · have same := event.symm.trans (serverEvent_of_conRequest again)
        cases same
        rfl
      · exact absurd accepts (noRequest recorded)
  · have notAccepted := not_exists.mp accepted
    by_cases taken : TakesResponse
        ⟨before, iteration, effects, after⟩ peer token
    · rcases (@takesResponse_iff codec _ peer token).mp taken with
        ⟨encode, event⟩
      simp only at event
      rw [event]
      simp [taken, notAccepted]
    · simp only [notAccepted, taken, not_false_eq_true, true_and,
        false_or, implies_true]
      cases event : before.stack.serverEvent codec iteration peer with
      | accepted recorded now request ack =>
          cases request with
          | none => rfl
          | some recordedToken =>
              have other : token ≠ recordedToken := by
                rintro rfl
                exact notAccepted recorded
                  (conRequest_of_serverEvent event)
              simp only [if_neg other]
      | responded takenToken encode =>
          have other : token ≠ takenToken := by
            rintro rfl
            exact taken (takesResponse_iff.mpr ⟨encode, event⟩)
          simp only [if_neg other]
      | idle | duplicated | ticked => rfl

/-- The map holds the MID of the CON request that waits under the token. -/
theorem conMid_iff_awaits
    {codec : Codec} {history : List LoopTransition} {loop : Loop}
    (run : LoopRun codec history loop)
    (peer : SocketAddr) (token : Token) (mid : UInt16) :
    (loop.stack.server peer).inboundConMids.lookup token = some mid ↔
      Awaits codec peer token mid history := by
  refine run.since_iff
    (fun loop =>
      (loop.stack.server peer).inboundConMids.lookup token = some mid)
    ?_ ?_
  · rintro _ ⟨now, rfl⟩ found
    cases found
  · intro before after iteration effects stepped
    exact conMid_step stepped peer token mid

/-- An unanswered CON request leaves one waiting: itself or a newer one under
its token. -/
theorem exists_awaits_of_unanswered
    {codec : Codec} {peer : SocketAddr} {history : List LoopTransition}
    (unanswered : Unanswered codec peer history) :
    ∃ token mid, Awaits codec peer token mid history := by
  rcases unanswered with ⟨token, mid, since⟩
  refine ⟨token, ?_⟩
  induction history with
  | nil => exact since.elim
  | cons transition older induction =>
      by_cases accepted : ∃ other,
          AcceptsConRequest codec transition peer token other
      · rcases accepted with ⟨other, accepts⟩
        exact ⟨other, Or.inl accepts⟩
      · have notAccepted := not_exists.mp accepted
        rcases since with marked | ⟨notTaken, earlier⟩
        · exact absurd marked (notAccepted mid)
        · rcases induction earlier with ⟨waiting, awaits⟩
          exact ⟨waiting, Or.inr ⟨⟨notTaken, notAccepted⟩, awaits⟩⟩

/-- The map is empty exactly if no CON request of the peer is unanswered. -/
theorem conMids_empty_iff
    {codec : Codec} {history : List LoopTransition} {loop : Loop}
    (run : LoopRun codec history loop) (peer : SocketAddr) :
    (∀ token,
      (loop.stack.server peer).inboundConMids.lookup token = none) ↔
      ¬ Unanswered codec peer history := by
  constructor
  · intro absent unanswered
    rcases exists_awaits_of_unanswered unanswered with
      ⟨token, mid, awaits⟩
    rw [← conMid_iff_awaits run, absent] at awaits
    cases awaits
  · intro answered token
    rw [Option.eq_none_iff_forall_ne_some]
    intro mid found
    exact answered ((conMid_iff_awaits run _ _ _).mp found).unanswered

end Coapable.Transport
