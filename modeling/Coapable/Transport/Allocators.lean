import Coapable.Transport.Openings
import Coapable.Transport.ServerView

/-!
# The allocators after a step

A step gives the session of a peer away to one of three treatments: it takes
a client request for the peer, it takes a server response to the peer, or it
leaves both allocators alone.  A request draws from both, and a response draws
a MID unless a CON request waits under its token.
-/

namespace Coapable.Transport

open Coapable.CoapLite
open Coapable.Foundation.FiniteMap

/-- The iteration takes a client request for the peer. -/
def Iteration.requests (iteration : Iteration) (peer : SocketAddr) :
    Bool :=
  match iteration.branch with
  | .outboundRequest (some outbound) => outbound.peer = peer
  | _ => false

/-- A MID of the peer is allocated: for a client request, or for a server
response that answers no CON request. -/
def CoapStack.allocatesMid (stack : CoapStack) (iteration : Iteration)
    (peer : SocketAddr) : Bool :=
  match iteration.branch with
  | .outboundRequest (some outbound) => outbound.peer = peer
  | .outboundResponse (some outbound) =>
      decide (outbound.peer = peer) &&
        ((stack.server peer).inboundConMids.lookup
          outbound.token).isNone
  | _ => false

/-- What a step makes of the session that a peer has, or would be given. -/
inductive SessionStep (codec : Codec) (stack : CoapStack)
    (iteration : Iteration) (peer : SocketAddr) : PeerSession → Prop where
  | requested {outbound : OutboundRequest}
      (taken : iteration.branch = .outboundRequest (some outbound))
      (isPeer : outbound.peer = peer) :
      SessionStep codec stack iteration peer
        (sendOutboundRequest codec (stack.sessionFor iteration peer)
          iteration outbound).1
  | responded {outbound : ServerResponse}
      (taken : iteration.branch = .outboundResponse (some outbound))
      (isPeer : outbound.peer = peer) :
      SessionStep codec stack iteration peer
        (sendOutboundResponse codec (stack.sessionFor iteration peer)
          outbound).1
  | kept {session : PeerSession}
      (noRequest : ∀ outbound,
        iteration.branch = .outboundRequest (some outbound) →
          outbound.peer ≠ peer)
      (noResponse : ∀ outbound,
        iteration.branch = .outboundResponse (some outbound) →
          outbound.peer ≠ peer)
      (sameMids : session.midAllocator =
        (stack.sessionFor iteration peer).midAllocator)
      (sameTokens : session.tokenAllocator =
        (stack.sessionFor iteration peer).tokenAllocator) :
      SessionStep codec stack iteration peer session

theorem session_step
    {codec : Codec} {stack after : CoapStack} {iteration : Iteration}
    {effects : List Effect}
    (branch : BranchStep codec stack iteration after effects)
    {peer : SocketAddr} {session : PeerSession}
    (found : after.sessions.lookup peer = some session) :
    SessionStep codec stack iteration peer session := by
  have untouched
      (noRequest : ∀ outbound,
        iteration.branch = .outboundRequest (some outbound) →
          outbound.peer ≠ peer)
      (noResponse : ∀ outbound,
        iteration.branch = .outboundResponse (some outbound) →
          outbound.peer ≠ peer)
      (stored : stack.sessions.lookup peer = some session) :
      SessionStep codec stack iteration peer session := by
    refine .kept noRequest noResponse ?_ ?_ <;>
      rw [sessionFor_of_found iteration stored]
  cases branch with
  | unparsed taken unparseable =>
      exact untouched (by simp [taken]) (by simp [taken]) found
  | @inbound raw source parsed received effects taken parses finished =>
      rcases stored_of_putSession found with ⟨rfl, rfl⟩ | ⟨_, stored⟩
      · have frame := receivePacket_frame finished
        refine .kept (by simp [taken]) (by simp [taken]) ?_ ?_ <;>
          rw [frame] <;> rfl
      · exact untouched (by simp [taken]) (by simp [taken]) stored
  | @request outbound taken =>
      rcases stored_of_putSession found with ⟨rfl, rfl⟩ | ⟨other, stored⟩
      · exact .requested taken rfl
      · refine untouched ?_ (by simp [taken]) stored
        intro requested isRequest
        rw [taken] at isRequest
        cases isRequest
        exact other
  | @response outbound taken =>
      rcases stored_of_putSession found with ⟨rfl, rfl⟩ | ⟨other, stored⟩
      · exact .responded taken rfl
      · refine untouched (by simp [taken]) ?_ stored
        intro responded isResponse
        rw [taken] at isResponse
        cases isResponse
        exact other
  | @timer order taken due enumerates =>
      rcases stored_of_retransmit enumerates found with
        ⟨previous, exchangeOrder, stored, rfl⟩
      have frame :=
        collectRetransmissions_frame previous iteration.now exchangeOrder
      refine .kept (by simp [taken]) (by simp [taken]) ?_ ?_
      · rw [sessionFor_of_found iteration stored]
        exact frame.2.2.2.1
      · rw [sessionFor_of_found iteration stored]
        exact frame.2.2.2.2
  | cleanup taken due =>
      rw [lookup_cleanup, Option.filter_eq_some_iff] at found
      exact untouched (by simp [taken]) (by simp [taken]) found.1

/-- A session moves its token counter exactly with the requests to its
peer. -/
theorem tokenAllocator_step
    {codec : Codec} {stack after : CoapStack} {iteration : Iteration}
    {effects : List Effect}
    (branch : BranchStep codec stack iteration after effects)
    {peer : SocketAddr} {session : PeerSession}
    (found : after.sessions.lookup peer = some session) :
    session.tokenAllocator.next =
      (stack.sessionFor iteration peer).tokenAllocator.next +
        UInt32.ofNat (iteration.requests peer).toNat := by
  cases session_step branch found with
  | requested taken isPeer =>
      rw [sendOutboundRequest_tokenAllocator, Iteration.requests, taken]
      simp only [isPeer, decide_true, Bool.toNat_true]
      rfl
  | responded taken isPeer =>
      rw [sendOutboundResponse_tokenAllocator, Iteration.requests, taken]
      exact (UInt32.add_zero _).symm
  | kept noRequest noResponse sameMids sameTokens =>
      have noToken : iteration.requests peer = false := by
        simp only [Iteration.requests]
        split
        · next outbound taken =>
            exact decide_eq_false (noRequest outbound taken)
        · rfl
      rw [sameTokens, noToken]
      exact (UInt32.add_zero _).symm

theorem sendOutboundRequest_midAllocator
    (codec : Codec) (session : PeerSession) (iteration : Iteration)
    (outbound : OutboundRequest) :
    (sendOutboundRequest codec session iteration
        outbound).1.midAllocator =
      session.midAllocator.allocate.2 := by
  unfold sendOutboundRequest openExchange
  simp only
  split
  · rfl
  · split <;> rfl

theorem sendOutboundResponse_midAllocator
    (codec : Codec) (session : PeerSession) (outbound : ServerResponse) :
    (sendOutboundResponse codec session outbound).1.midAllocator =
      if (session.inboundConMids.lookup outbound.token).isNone then
        session.midAllocator.allocate.2
      else session.midAllocator := by
  simp only [sendOutboundResponse, PeerSession.takeInboundConMid]
  cases session.inboundConMids.lookup outbound.token with
  | none =>
      simp only
      split <;> rfl
  | some mid =>
      simp only
      split <;> rfl

/-- A session moves its MID counter exactly with the MIDs allocated. -/
theorem midAllocator_step
    {codec : Codec} {stack after : CoapStack} {iteration : Iteration}
    {effects : List Effect}
    (branch : BranchStep codec stack iteration after effects)
    {peer : SocketAddr} {session : PeerSession}
    (found : after.sessions.lookup peer = some session) :
    session.midAllocator.next =
      (stack.sessionFor iteration peer).midAllocator.next +
        UInt16.ofNat (stack.allocatesMid iteration peer).toNat := by
  cases session_step branch found with
  | requested taken isPeer =>
      rw [sendOutboundRequest_midAllocator, CoapStack.allocatesMid, taken]
      simp only [isPeer, decide_true, Bool.toNat_true]
      rfl
  | @responded outbound taken isPeer =>
      have sameConMids :
          (stack.sessionFor iteration peer).inboundConMids =
            (stack.server peer).inboundConMids := by
        rw [← sessionFor_server stack iteration]
        rfl
      rw [sendOutboundResponse_midAllocator, CoapStack.allocatesMid,
        taken, sameConMids]
      simp only [isPeer, decide_true, Bool.true_and]
      cases ((stack.server peer).inboundConMids.lookup
          outbound.token).isNone with
      | true => rfl
      | false => exact (UInt16.add_zero _).symm
  | kept noRequest noResponse sameMids sameTokens =>
      have noMid : stack.allocatesMid iteration peer = false := by
        simp only [CoapStack.allocatesMid]
        split
        · next outbound taken =>
            exact decide_eq_false (noRequest outbound taken)
        · next outbound taken =>
            rw [decide_eq_false (noResponse outbound taken)]
            rfl
        · rfl
      rw [sameMids, noMid]
      exact (UInt16.add_zero _).symm

end Coapable.Transport
