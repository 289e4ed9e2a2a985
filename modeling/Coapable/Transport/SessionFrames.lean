import Coapable.Transport.ExchangeTable
import Coapable.Transport.Stack

/-!
# What the operations on a session leave alone

A session serves two purposes that share nothing but the allocators: as a
client it keeps the exchange table, as a server the deduplication table and
the MIDs of unanswered CON requests.  Each operation works on one of the two,
which its frame lemma says by writing the session after it as the session
before it with one view replaced.
-/

namespace Coapable.Transport

open Coapable.CoapLite
open Coapable.Foundation.FiniteMap
open Coapable.MessageTypes

/-- What a session keeps as a server. -/
structure ServerTable where
  inboundDedup : Table UInt16 DedupEntry
  inboundConMids : Table Token UInt16
  deriving DecidableEq

namespace PeerSession

/-! ## The two views -/

/-- The part of the session that client requests use. -/
def client (session : PeerSession) : ExchangeTable :=
  ⟨session.exchanges, session.midToToken⟩

/-- The part of the session that received messages use. -/
def server (session : PeerSession) : ServerTable :=
  ⟨session.inboundDedup, session.inboundConMids⟩

/-- The session with another table of exchanges. -/
def withClient (session : PeerSession) (table : ExchangeTable) :
    PeerSession :=
  { session with
    exchanges := table.exchanges
    midToToken := table.midToToken }

/-- The session with another table of received messages. -/
def withServer (session : PeerSession) (table : ServerTable) :
    PeerSession :=
  { session with
    inboundDedup := table.inboundDedup
    inboundConMids := table.inboundConMids }

@[simp]
theorem withClient_server
    (session : PeerSession) (table : ExchangeTable) :
    (session.withClient table).server = session.server :=
  rfl

@[simp]
theorem withServer_client
    (session : PeerSession) (table : ServerTable) :
    (session.withServer table).client = session.client :=
  rfl

end PeerSession

/-! ## What receiving a packet can do -/

/-- A CON or NON is a duplicate, or it is recorded and dispatched. -/
theorem receiveMessage_cases
    {codec : Codec} {session after : PeerSession} {now : Nat}
    {peer : SocketAddr} {parsed : Packet} {effects : List Effect}
    (received :
      receiveMessage codec session now peer parsed =
        .ok (after, effects)) :
    (session.isDuplicate parsed.header.messageId = true ∧
      after = session ∧ effects = replayCached session peer parsed) ∨
    (session.isDuplicate parsed.header.messageId = false ∧
      ∃ dispatched,
        dispatchMessage codec
            (recordMessage codec session now peer parsed).1 peer parsed =
          .ok (after, dispatched) ∧
        effects =
          (recordMessage codec session now peer parsed).2 ++
            dispatched) := by
  unfold receiveMessage at received
  split at received
  · next duplicate =>
      cases received
      exact Or.inl ⟨duplicate, rfl, rfl⟩
  · next fresh =>
      simp only at received
      split at received
      · cases received
      · next dispatched dispatchEffects finished =>
          cases received
          exact Or.inr ⟨Bool.eq_false_of_not_eq_true fresh,
            dispatchEffects, finished, rfl⟩

/-- The three ways to receive a packet, by its type. -/
theorem receivePacket_cases
    {codec : Codec} {session after : PeerSession} {now : Nat}
    {peer : SocketAddr} {parsed : Packet} {effects : List Effect}
    (received :
      receivePacket codec session now peer parsed =
        .ok (after, effects)) :
    ((parsed.header.messageType = .confirmable ∨
        parsed.header.messageType = .nonConfirmable) ∧
      receiveMessage codec session now peer parsed =
        .ok (after, effects)) ∨
    (parsed.header.messageType = .acknowledgement ∧
      after = (receiveAck codec session parsed).1 ∧
        effects = (receiveAck codec session parsed).2) ∨
    (parsed.header.messageType = .reset ∧
      after = (session.handleRst parsed.header.messageId).2.1 ∧
        effects =
          (session.handleRst parsed.header.messageId).2.2.map
            .deliver) := by
  simp only [receivePacket] at received
  split at received
  · next kind => exact Or.inl ⟨Or.inl kind, received⟩
  · next kind => exact Or.inl ⟨Or.inr kind, received⟩
  · next kind =>
      injection received with equal
      exact Or.inr (Or.inl
        ⟨kind, (congrArg Prod.fst equal).symm,
          (congrArg Prod.snd equal).symm⟩)
  · next kind =>
      injection received with equal
      exact Or.inr (Or.inr
        ⟨kind, (congrArg Prod.fst equal).symm,
          (congrArg Prod.snd equal).symm⟩)

/-! ## Frames -/

namespace PeerSession

theorem completeExchange_frame
    (session : PeerSession) (token : Token) (response : CoapResponse) :
    (session.completeExchange token response).2.1 =
      session.withClient
        (session.completeExchange token response).2.1.client := by
  simp only [completeExchange]
  split <;> rfl

theorem handleRst_frame (session : PeerSession) (mid : UInt16) :
    (session.handleRst mid).2.1 =
      session.withClient (session.handleRst mid).2.1.client := by
  unfold handleRst
  split
  · rfl
  · simp only
    split <;> rfl

end PeerSession

theorem receiveAck_frame
    (codec : Codec) (session : PeerSession) (parsed : Packet) :
    (receiveAck codec session parsed).1 =
      session.withClient
        (receiveAck codec session parsed).1.client := by
  simp only [receiveAck, PeerSession.handleAck]
  cases code : parsed.header.code with
  | empty =>
      simp only
      split <;> rfl
  | response responseType =>
      cases session.midToToken.lookup parsed.header.messageId with
      | none => rfl
      | some token =>
          simp only
          split
          · exact (PeerSession.completeExchange_frame _ _ _).trans rfl
          · rfl
  | request method => rfl
  | reserved number => rfl

theorem dispatchMessage_frame
    {codec : Codec} {session after : PeerSession} {peer : SocketAddr}
    {parsed : Packet} {effects : List Effect}
    (dispatched :
      dispatchMessage codec session peer parsed = .ok (after, effects)) :
    after = session.withClient after.client := by
  simp only [dispatchMessage] at dispatched
  split at dispatched
  · split at dispatched <;> cases dispatched <;> rfl
  · split at dispatched
    · injection dispatched with equal
      have sessionEqual := congrArg Prod.fst equal
      subst sessionEqual
      exact PeerSession.completeExchange_frame _ _ _
    · cases dispatched
      rfl
  · cases dispatched
    rfl

theorem recordMessage_frame
    (codec : Codec) (session : PeerSession) (now : Nat)
    (peer : SocketAddr) (parsed : Packet) :
    (recordMessage codec session now peer parsed).1 =
      session.withServer
        (recordMessage codec session now peer parsed).1.server := by
  unfold recordMessage acknowledgeCon
  simp only
  split
  · split
    · rfl
    · split <;> rfl
  · rfl

theorem sendOutboundResponse_client
    (codec : Codec) (session : PeerSession) (outbound : ServerResponse) :
    (sendOutboundResponse codec session outbound).1.client =
      session.client := by
  simp only [sendOutboundResponse, PeerSession.takeInboundConMid]
  cases session.inboundConMids.lookup outbound.token with
  | none =>
      simp only
      split <;> rfl
  | some mid =>
      simp only
      split <;> rfl

theorem sendOutboundRequest_server
    (codec : Codec) (session : PeerSession) (iteration : Iteration)
    (outbound : OutboundRequest) :
    (sendOutboundRequest codec session iteration outbound).1.server =
      session.server := by
  unfold sendOutboundRequest openExchange
  simp only
  split
  · rfl
  · split <;> rfl

/-! ## Frames of a packet and of a request -/

/-- Receiving a packet replaces the two views and nothing else. -/
theorem receivePacket_frame
    {codec : Codec} {session after : PeerSession} {now : Nat}
    {peer : SocketAddr} {parsed : Packet} {effects : List Effect}
    (received :
      receivePacket codec session now peer parsed =
        .ok (after, effects)) :
    after =
      (session.withServer after.server).withClient after.client := by
  have clientOnly
      (frame : after = session.withClient after.client) :
      after =
        (session.withServer after.server).withClient after.client := by
    have same : after.server = session.server := by
      rw [frame, PeerSession.withClient_server]
    rw [same]
    exact frame
  rcases receivePacket_cases received with
    ⟨_, finished⟩ | ⟨_, isAfter, _⟩ | ⟨_, isAfter, _⟩
  · rcases receiveMessage_cases finished with
      ⟨_, isAfter, _⟩ | ⟨_, dispatched, dispatches, _⟩
    · exact clientOnly (by rw [isAfter]; rfl)
    · have recorded := recordMessage_frame codec session now peer parsed
      have completed := dispatchMessage_frame dispatches
      have same : after.server =
          (recordMessage codec session now peer parsed).1.server := by
        rw [completed, PeerSession.withClient_server]
      rw [same, ← recorded]
      exact completed
  · exact clientOnly (by rw [isAfter]; exact receiveAck_frame _ _ _)
  · exact clientOnly
      (by rw [isAfter]; exact PeerSession.handleRst_frame _ _)

theorem sendOutboundRequest_tokenAllocator
    (codec : Codec) (session : PeerSession) (iteration : Iteration)
    (outbound : OutboundRequest) :
    (sendOutboundRequest codec session iteration
        outbound).1.tokenAllocator =
      session.tokenAllocator.allocate.2 := by
  unfold sendOutboundRequest openExchange
  simp only
  split
  · rfl
  · split <;> rfl

theorem sendOutboundResponse_tokenAllocator
    (codec : Codec) (session : PeerSession) (outbound : ServerResponse) :
    (sendOutboundResponse codec session outbound).1.tokenAllocator =
      session.tokenAllocator := by
  simp only [sendOutboundResponse, PeerSession.takeInboundConMid]
  cases session.inboundConMids.lookup outbound.token with
  | none =>
      simp only
      split <;> rfl
  | some mid =>
      simp only
      split <;> rfl

end Coapable.Transport
