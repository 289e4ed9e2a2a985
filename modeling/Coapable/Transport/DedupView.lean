import Coapable.Transport.ServerView

/-!
# The deduplication tables after a step

`CoapStack.created` is the time stored with a MID of a peer, `none` when the
MID is not in the table or the peer has no session.  Three things change it:
accepting a CON or NON records the current time, the retransmission timer
drops what is older than `exchangeLifetime`, and nothing else touches it.
In particular an idle session holds no entries, so dropping it forgets none.
-/

namespace Coapable.Transport

open Coapable.CoapLite
open Coapable.Foundation.FiniteMap
open Coapable.MessageTypes

/-! ## Receiving a CON or NON -/

/-- The sender and the MID of the CON or NON the iteration receives. -/
def Iteration.message? (codec : Codec) (iteration : Iteration) :
    Option (SocketAddr × UInt16) :=
  match iteration.branch with
  | .inbound raw peer =>
      match codec.fromBytes raw with
      | some parsed =>
          if parsed.header.messageType = .confirmable ∨
              parsed.header.messageType = .nonConfirmable then
            some (peer, parsed.header.messageId)
          else none
      | none => none
  | _ => none

/-- The iteration receives a CON or NON of the peer with the MID. -/
def Iteration.Receives (codec : Codec) (iteration : Iteration)
    (peer : SocketAddr) (mid : UInt16) : Prop :=
  iteration.message? codec = some (peer, mid)

instance (codec : Codec) (iteration : Iteration) (peer : SocketAddr)
    (mid : UInt16) : Decidable (iteration.Receives codec peer mid) :=
  inferInstanceAs (Decidable (_ = _))

theorem Iteration.receives_iff
    (codec : Codec) (iteration : Iteration) (peer : SocketAddr)
    (mid : UInt16) :
    iteration.Receives codec peer mid ↔
      ∃ raw parsed, iteration.branch = .inbound raw peer ∧
        codec.fromBytes raw = some parsed ∧
          (parsed.header.messageType = .confirmable ∨
            parsed.header.messageType = .nonConfirmable) ∧
            parsed.header.messageId = mid := by
  simp only [Iteration.Receives, Iteration.message?]
  constructor
  · intro received
    split at received
    · next raw source taken =>
        split at received
        · next parsed parses =>
            split at received
            · next kind =>
                rw [Option.some.injEq, Prod.mk.injEq] at received
                rcases received with ⟨rfl, isMid⟩
                exact ⟨raw, parsed, taken, parses, kind, isMid⟩
            · cases received
        · cases received
    · cases received
  · rintro ⟨raw, parsed, taken, parses, kind, rfl⟩
    simp only [taken, parses, kind, if_true]

/-- The packet of the iteration is accepted: it is no duplicate. -/
def Accepts (codec : Codec) (transition : LoopTransition)
    (peer : SocketAddr) (mid : UInt16) : Prop :=
  transition.input.Receives codec peer mid ∧
    transition.before.stack.isDuplicate peer mid = false

instance (codec : Codec) (transition : LoopTransition)
    (peer : SocketAddr) (mid : UInt16) :
    Decidable (Accepts codec transition peer mid) :=
  inferInstanceAs (Decidable (_ ∧ _))

/-- A separate response that reaches the exchanges was accepted. -/
theorem accepts_of_answered
    {codec : Codec} {transition : LoopTransition} {peer : SocketAddr}
    {token : Token} {response : CoapResponse}
    (answered :
      transition.before.stack.clientEvent codec transition.input peer =
        .answered token response) :
    ∃ mid, Accepts codec transition peer mid := by
  have origin :=
    clientEvent_origin codec transition.before.stack transition.input peer
  rw [answered] at origin
  cases origin with
  | @answered raw parsed _ taken parses kind fresh decoded =>
      exact ⟨parsed.header.messageId,
        (transition.input.receives_iff codec peer _).mpr
          ⟨raw, parsed, taken, parses, kind, rfl⟩, fresh⟩

/-- The packet of the iteration is treated as a duplicate. -/
def TreatsAsDuplicate (codec : Codec) (transition : LoopTransition)
    (peer : SocketAddr) (mid : UInt16) : Prop :=
  transition.input.Receives codec peer mid ∧
    transition.before.stack.isDuplicate peer mid = true

instance (codec : Codec) (transition : LoopTransition)
    (peer : SocketAddr) (mid : UInt16) :
    Decidable (TreatsAsDuplicate codec transition peer mid) :=
  inferInstanceAs (Decidable (_ ∧ _))

/-- The iteration runs the retransmission branch. -/
def Iteration.IsTimer (iteration : Iteration) : Prop :=
  ∃ order, iteration.branch = .retransmissionTimer order

theorem Iteration.Receives.not_isTimer
    {codec : Codec} {iteration : Iteration} {peer : SocketAddr}
    {mid : UInt16} (receives : iteration.Receives codec peer mid) :
    ¬ iteration.IsTimer := by
  rintro ⟨order, isTimer⟩
  rcases (iteration.receives_iff codec peer mid).mp receives with
    ⟨raw, parsed, isInbound, _⟩
  rw [isTimer] at isInbound
  cases isInbound

/-! ## The view -/

namespace PeerSession

/-- When the entry for the MID was created. -/
def created (session : PeerSession) (mid : UInt16) : Option Nat :=
  (session.inboundDedup.lookup mid).map DedupEntry.created

end PeerSession

/-- When the MID of the peer was recorded, if it is. -/
def CoapStack.created (stack : CoapStack) (peer : SocketAddr)
    (mid : UInt16) : Option Nat :=
  (stack.sessions.lookup peer).bind fun session => session.created mid

theorem isDuplicate_eq_created (stack : CoapStack) (peer : SocketAddr)
    (mid : UInt16) :
    stack.isDuplicate peer mid = (stack.created peer mid).isSome := by
  rw [CoapStack.isDuplicate, CoapStack.created]
  cases stack.sessions.lookup peer with
  | none => rfl
  | some session =>
      simp [PeerSession.isDuplicate, PeerSession.created]

theorem created_eq_entry (stack : CoapStack) (peer : SocketAddr)
    (mid : UInt16) :
    stack.created peer mid =
      ((stack.server peer).inboundDedup.lookup mid).map
        DedupEntry.created := by
  rw [CoapStack.created, CoapStack.server]
  cases stack.sessions.lookup peer <;> rfl

/-! ## The events behind the changes -/

/-- An accepted packet is the event that records it. -/
theorem serverEvent_of_accepted
    {codec : Codec} {stack : CoapStack} {iteration : Iteration}
    {peer : SocketAddr} {mid : UInt16}
    (receives : iteration.Receives codec peer mid)
    (fresh : stack.isDuplicate peer mid = false) :
    ∃ request ack, stack.serverEvent codec iteration peer =
      .accepted mid iteration.now request ack := by
  rcases (iteration.receives_iff codec peer mid).mp receives with
    ⟨raw, parsed, taken, parses, kind, rfl⟩
  simp only [CoapStack.serverEvent, taken, parses, if_true, fresh]
  rcases kind with kind | kind
  · simp only [packetServerEvent, kind, Bool.false_eq_true, if_false]
    split <;> exact ⟨_, _, rfl⟩
  · simp only [packetServerEvent, kind, Bool.false_eq_true, if_false]
    exact ⟨_, _, rfl⟩

/-- Only an accepted packet is recorded. -/
theorem accepted_of_serverEvent
    {codec : Codec} {stack : CoapStack} {iteration : Iteration}
    {peer : SocketAddr} {mid : UInt16} {now : Nat}
    {request : Option Token} {ack : Option Bytes}
    (event : stack.serverEvent codec iteration peer =
      .accepted mid now request ack) :
    iteration.Receives codec peer mid ∧
      stack.isDuplicate peer mid = false ∧ now = iteration.now := by
  simp only [CoapStack.serverEvent] at event
  split at event
  · next raw source taken =>
      split at event
      · next isPeer =>
          subst isPeer
          split at event
          · next parsed parses =>
              rcases packetServerEvent_accepted event with
                ⟨kind, rfl, fresh, isNow⟩
              exact ⟨(iteration.receives_iff codec source _).mpr
                ⟨raw, parsed, taken, parses, kind, rfl⟩, fresh, isNow⟩
          · cases event
      · cases event
  · split at event <;> cases event
  · cases event
  · cases event

theorem serverEvent_ticked_iff
    (codec : Codec) (stack : CoapStack) (iteration : Iteration)
    (peer : SocketAddr) :
    (∃ now, stack.serverEvent codec iteration peer = .ticked now) ↔
      iteration.IsTimer := by
  constructor
  · rintro ⟨now, event⟩
    simp only [CoapStack.serverEvent] at event
    split at event
    · split at event
      · split at event
        · next parsed parses =>
            exact absurd event
              (packetServerEvent_ne_ticked codec _ _ _ parsed)
        · cases event
      · cases event
    · split at event <;> cases event
    · next order taken => exact ⟨order, taken⟩
    · cases event
  · rintro ⟨order, taken⟩
    exact ⟨iteration.now, by rw [CoapStack.serverEvent, taken]⟩

/-! ## The loop -/

/-- What a step does to the stored times, in the three cases. -/
theorem created_step
    {codec : Codec} {stack after : CoapStack} {iteration : Iteration}
    {effects : List Effect}
    (branch : BranchStep codec stack iteration after effects)
    (peer : SocketAddr) (mid : UInt16) :
    (iteration.Receives codec peer mid ∧
        stack.isDuplicate peer mid = false ∧
          after.created peer mid = some iteration.now) ∨
      (iteration.IsTimer ∧
        after.created peer mid =
          (stack.created peer mid).filter fun created =>
            iteration.now - created < exchangeLifetime) ∨
      (¬ iteration.IsTimer ∧
        ¬ (iteration.Receives codec peer mid ∧
          stack.isDuplicate peer mid = false) ∧
        after.created peer mid = stack.created peer mid) := by
  have changed := (stack.server peer).created_apply
    (stack.serverEvent codec iteration peer) mid
  rw [← server_step branch peer, ← created_eq_entry,
    ← created_eq_entry] at changed
  by_cases accepted : iteration.Receives codec peer mid ∧
      stack.isDuplicate peer mid = false
  · rcases serverEvent_of_accepted accepted.1 accepted.2 with
      ⟨request, ack, event⟩
    simp only [event, if_true] at changed
    exact Or.inl ⟨accepted.1, accepted.2, changed⟩
  · by_cases isTimer : iteration.IsTimer
    · rcases isTimer with ⟨order, taken⟩
      simp only [CoapStack.serverEvent, taken] at changed
      exact Or.inr (Or.inl ⟨⟨order, taken⟩, changed⟩)
    · refine Or.inr (Or.inr ⟨isTimer, accepted, ?_⟩)
      cases event : stack.serverEvent codec iteration peer with
      | accepted recorded now request ack =>
          rcases accepted_of_serverEvent event with
            ⟨receives, fresh, _⟩
          have other : mid ≠ recorded := by
            rintro rfl
            exact accepted ⟨receives, fresh⟩
          simpa only [event, other, if_false] using changed
      | ticked now =>
          exact absurd ((serverEvent_ticked_iff ..).mp ⟨now, event⟩)
            isTimer
      | idle => simpa only [event] using changed
      | duplicated => simpa only [event] using changed
      | responded => simpa only [event] using changed

end Coapable.Transport
