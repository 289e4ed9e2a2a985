import Coapable.Transport.EffectView

/-!
# How the datagrams of a stack were composed

A datagram that leaves a stack was composed at one of three places: it is an
empty ACK, the packet of a client request that the stack took, or the packet
of a server response that it took, in the last two cases for this very peer.
Retransmissions repeat the packet stored in an exchange and duplicates are
answered from the deduplication table, so this is an invariant of the two.
-/

namespace Coapable.Transport

open Coapable.CoapLite
open Coapable.Foundation.Execution
open Coapable.Foundation.FiniteMap
open Coapable.MessageTypes

/-- How a datagram to the peer was composed in the past. -/
inductive Composed (codec : Codec) (history : List LoopTransition)
    (peer : SocketAddr) (bytes : Bytes) : Prop where
  | ack (mid : UInt16) (encoded : codec.toBytes (emptyAck mid) = some bytes)
  | request (transition : LoopTransition) (opening : Opening)
      (member : transition ∈ history)
      (opens : Opens codec transition opening)
      (isPeer : opening.outbound.peer = peer)
      (isBytes : opening.bytes = bytes)
  | response (transition : LoopTransition)
      (member : transition ∈ history)
      (responds : Responds codec transition.input peer bytes)

theorem Composed.cons
    {codec : Codec} {history : List LoopTransition} {peer : SocketAddr}
    {bytes : Bytes}
    (composed : Composed codec history peer bytes)
    (transition : LoopTransition) :
    Composed codec (transition :: history) peer bytes := by
  cases composed with
  | ack mid encoded => exact .ack mid encoded
  | request opener opening member opens isPeer isBytes =>
      exact .request opener opening (List.mem_cons_of_mem _ member) opens
        isPeer isBytes
  | response responder member responds =>
      exact .response responder (List.mem_cons_of_mem _ member) responds

/-! ## Cached answers -/

/-- What is cached after a step was cached before, or it is what the step
sends: an empty ACK or a response. -/
theorem cachedResponse_step
    {codec : Codec} {stack after : CoapStack} {iteration : Iteration}
    {effects : List Effect}
    (branch : BranchStep codec stack iteration after effects)
    {peer : SocketAddr} {mid : UInt16} {bytes : Bytes}
    (cached : after.cachedResponse peer mid = some bytes) :
    stack.cachedResponse peer mid = some bytes ∨
      (∃ ackMid, codec.toBytes (emptyAck ackMid) = some bytes) ∨
      Responds codec iteration peer bytes := by
  rw [cachedResponse_eq, server_step branch] at cached
  rcases ServerTable.cachedResponse_apply_cases cached with kept | sent
  · rw [cachedResponse_eq]
    exact Or.inl kept
  · rcases serverEvent_ack sent with
      replayed | encoded | ⟨outbound, taken, isPeer, encoded⟩
    · exact Or.inl replayed
    · exact Or.inr (Or.inl ⟨mid, encoded⟩)
    · exact Or.inr (Or.inr ⟨outbound, _, _, taken, isPeer, encoded⟩)

/-! ## The peer of a session -/

/-- Every session is stored under its own peer. -/
def CoapStack.PeersMatch (stack : CoapStack) : Prop :=
  ∀ peer session, stack.sessions.lookup peer = some session →
    session.peer = peer

theorem peersMatch_putSession
    {stack : CoapStack} (matched : stack.PeersMatch)
    {peer : SocketAddr} {session : PeerSession}
    (isPeer : session.peer = peer) :
    (stack.putSession peer session).PeersMatch := by
  intro other stored found
  rcases stored_of_putSession found with ⟨rfl, rfl⟩ | ⟨_, kept⟩
  · exact isPeer
  · exact matched other stored kept

theorem sessionFor_peer
    {stack : CoapStack} (matched : stack.PeersMatch)
    (iteration : Iteration) (peer : SocketAddr) :
    (stack.sessionFor iteration peer).peer = peer := by
  rw [CoapStack.sessionFor]
  cases found : stack.sessions.lookup peer with
  | none => rfl
  | some session => exact matched peer session found

theorem sendOutboundRequest_peer
    (codec : Codec) (session : PeerSession) (iteration : Iteration)
    (outbound : OutboundRequest) :
    (sendOutboundRequest codec session iteration outbound).1.peer =
      session.peer := by
  simp only [sendOutboundRequest, openExchange]
  split
  · rfl
  · split <;> rfl

theorem sendOutboundResponse_peer
    (codec : Codec) (session : PeerSession) (outbound : ServerResponse) :
    (sendOutboundResponse codec session outbound).1.peer =
      session.peer := by
  simp only [sendOutboundResponse, PeerSession.takeInboundConMid]
  cases session.inboundConMids.lookup outbound.token with
  | none =>
      simp only
      split <;> rfl
  | some mid =>
      simp only
      split <;> rfl

theorem peersMatch_step
    {codec : Codec} {stack after : CoapStack} {iteration : Iteration}
    {effects : List Effect}
    (branch : BranchStep codec stack iteration after effects)
    (matched : stack.PeersMatch) :
    after.PeersMatch := by
  cases branch with
  | unparsed taken unparseable => exact matched
  | inbound taken parses received =>
      refine peersMatch_putSession matched ?_
      rw [receivePacket_frame received]
      exact sessionFor_peer matched iteration _
  | request taken =>
      refine peersMatch_putSession matched ?_
      rw [sendOutboundRequest_peer]
      exact sessionFor_peer matched iteration _
  | response taken =>
      refine peersMatch_putSession matched ?_
      rw [sendOutboundResponse_peer]
      exact sessionFor_peer matched iteration _
  | @timer order taken due enumerates =>
      intro peer session stored
      rcases stored_of_retransmit enumerates stored with
        ⟨previous, exchangeOrder, found, rfl⟩
      exact (collectRetransmissions_frame previous _ _).1.trans
        (matched peer previous found)
  | cleanup taken due =>
      intro peer session stored
      rw [lookup_cleanup] at stored
      exact matched peer session (Option.filter_eq_some_iff.mp stored).1

theorem peersMatch_of_run
    {codec : Codec} {history : List LoopTransition} {loop : Loop}
    (run : LoopRun codec history loop) :
    loop.stack.PeersMatch := by
  refine run.invariant (fun _ loop => loop.stack.PeersMatch) ?_ ?_
  · rintro _ ⟨now, rfl⟩ peer session found
    cases found
  · intro history before after iteration effects _ matched stepped
    exact peersMatch_step (step_cases stepped).branch matched

/-- The session whose packets go to a peer is the session of that peer. -/
theorem client_of_visited
    {stack : CoapStack} (matched : stack.PeersMatch)
    {visited peer : SocketAddr} {session : PeerSession}
    (found : stack.sessions.lookup visited = some session)
    (isPeer : session.peer = peer) :
    (stack.client peer).exchanges = session.exchanges := by
  rw [← isPeer, matched visited session found, CoapStack.client, found]
  rfl

/-- A copy that the timer re-sends is stored in an open exchange. -/
theorem exists_stored_of_resends
    {stack : CoapStack} (matched : stack.PeersMatch)
    {iteration : Iteration} {bytes : Bytes} {peer : SocketAddr}
    (member : (bytes, peer) ∈ stack.resends iteration) :
    ∃ token exchange,
      (stack.client peer).exchanges.lookup token = some exchange ∧
        exchange.storedPacket = some bytes := by
  rcases mem_resends member with
    ⟨visited, session, found, isPeer, token, exchange, isOpen, stored⟩
  refine ⟨token, exchange, ?_, stored⟩
  rw [client_of_visited matched found isPeer]
  exact isOpen

/-! ## Every datagram -/

/-- What is cached was composed as an ACK or a response. -/
theorem composed_of_cached
    {codec : Codec} {history : List LoopTransition} {loop : Loop}
    (run : LoopRun codec history loop)
    {peer : SocketAddr} {mid : UInt16} {bytes : Bytes}
    (cached : loop.stack.cachedResponse peer mid = some bytes) :
    Composed codec history peer bytes := by
  induction run with
  | start initial =>
      rcases initial with ⟨now, rfl⟩
      cases cached
  | extend earlier stepped induction =>
      rcases cachedResponse_step (step_cases stepped).branch cached with
        kept | ⟨ackMid, encoded⟩ | responds
      · exact (induction kept).cons _
      · exact .ack ackMid encoded
      · exact .response _ List.mem_cons_self responds

/-- What an exchange stores is the packet of its request. -/
theorem exists_opening_of_stored
    {codec : Codec} {history : List LoopTransition} {loop : Loop}
    (run : LoopRun codec history loop)
    {peer : SocketAddr} {token : Token} {exchange : Exchange}
    {bytes : Bytes}
    (found :
      (loop.stack.client peer).exchanges.lookup token = some exchange)
    (stored : exchange.storedPacket = some bytes) :
    ∃ transition ∈ history, ∃ opening, Opens codec transition opening ∧
      opening.outbound.peer = peer ∧ opening.bytes = bytes := by
  induction run generalizing exchange with
  | start initial =>
      rcases initial with ⟨now, rfl⟩
      cases found
  | @extend history before after iteration effects earlier stepped
      induction =>
      have facts := step_cases stepped
      rw [client_step facts.branch peer] at found
      rcases ((before.stack.client peer).step_apply _).origin found with
        isOpened | ⟨previous, wasOpen, continues⟩
      · rcases opening_of_opened isOpened with
          ⟨opening, opens, isPeer, _, rfl⟩
        exact ⟨_, List.mem_cons_self, opening, opens, isPeer,
          Opening.exchange_storedPacket stored⟩
      · rcases induction wasOpen (continues.storedPacket bytes stored) with
          ⟨transition, older, opening⟩
        exact ⟨transition, List.mem_cons_of_mem _ older, opening⟩

theorem composed_of_stored
    {codec : Codec} {history : List LoopTransition} {loop : Loop}
    (run : LoopRun codec history loop)
    {peer : SocketAddr} {token : Token} {exchange : Exchange}
    {bytes : Bytes}
    (found :
      (loop.stack.client peer).exchanges.lookup token = some exchange)
    (stored : exchange.storedPacket = some bytes) :
    Composed codec history peer bytes := by
  rcases exists_opening_of_stored run found stored with
    ⟨transition, member, opening, opens, isPeer, isBytes⟩
  exact .request transition opening member opens isPeer isBytes

/-- Every datagram that left the stack was composed in one of the three
ways. -/
theorem composed_of_sent
    {codec : Codec} {history : List LoopTransition} {loop : Loop}
    (run : LoopRun codec history loop)
    {transition : LoopTransition} (member : transition ∈ history)
    {bytes : Bytes} {peer : SocketAddr}
    (sent : .sendPacket bytes peer ∈ transition.output) :
    Composed codec history peer bytes := by
  induction run with
  | start initial => cases member
  | @extend history before after iteration effects earlier stepped
      induction =>
      rcases List.mem_cons.mp member with rfl | older
      · cases sendPacket_sends (step_cases stepped).branch sent with
        | acknowledges mid encoded => exact .ack mid encoded
        | replays mid cached =>
            exact (composed_of_cached earlier cached).cons _
        | requests opening opens isPeer isBytes =>
            exact .request _ opening List.mem_cons_self opens isPeer
              isBytes
        | responds responds =>
            exact .response _ List.mem_cons_self responds
        | retransmits visited session found isPeer token exchange isOpen
            stored =>
            have isClient := client_of_visited
              (peersMatch_of_run earlier) found isPeer
            rw [← isClient] at isOpen
            exact (composed_of_stored earlier isOpen stored).cons _
      · exact (induction older).cons _

end Coapable.Transport
