import Coapable.Transport.Session

/-!
# The event loop of the stack

One iteration of the loop takes one ready branch of the `select!` and runs its
body.  An `Iteration` is everything the loop does not decide itself: which
branch is taken and with what it received, the clock, the values drawn by the
random generators, the order in which the hash maps are enumerated, and
whether the endpoint task still accepts packets.

The body of a branch is modelled as the new sessions together with the list
of its effects in program order.  Every effect is an await point or a send on
a one-shot channel, so a task model can execute the list one by one and wait
in between; the sessions are private to the task.
-/

namespace Coapable.Transport

open Coapable.CoapLite
open Coapable.Foundation.FiniteMap
open Coapable.MessageTypes

/-- A request dispatched to the server task. -/
structure ServerRequest where
  request : CoapRequest
  peer : SocketAddr
  token : Token
  deriving DecidableEq

/-- An answer of the server task. -/
structure ServerResponse where
  response : CoapResponse
  peer : SocketAddr
  token : Token
  deriving DecidableEq

/-- A request of a client, with the channel its result goes to. -/
structure OutboundRequest where
  request : CoapRequest
  peer : SocketAddr
  responseTx : ResponseSender
  deriving DecidableEq

/-- What a branch body does besides updating the sessions. -/
inductive Effect where
  /-- `endpoint.send_packet` -/
  | sendPacket (packet : Bytes) (peer : SocketAddr)
  /-- `server_request_sender.send` -/
  | sendRequest (request : ServerRequest)
  /-- the send on the one-shot channel of an exchange -/
  | deliver (delivery : Delivery)
  deriving DecidableEq

/-- The effect goes to the endpoint. -/
def Effect.isSendPacket : Effect → Bool
  | .sendPacket _ _ => true
  | _ => false

/-- Why the task of the loop ends. -/
inductive Exit where
  | panicked (panic : Panic)
  | returned (result : Except TransportError Unit)
  deriving DecidableEq

/-- The branches of the `select!`, each with what it received. -/
inductive Branch where
  | inbound (raw : Bytes) (peer : SocketAddr)
  | outboundRequest (received : Option OutboundRequest)
  | outboundResponse (received : Option ServerResponse)
  /-- The sessions in the order the map enumerates them, each with the order
  in which its exchanges are enumerated. -/
  | retransmissionTimer (order : List (SocketAddr × List Token))
  | cleanupTimer
  deriving DecidableEq

/-- One pass of the `select!` loop: the branch that is taken, when, and what
the random generators and the endpoint contribute. -/
structure Iteration where
  now : Nat
  /-- Start of the MID counter of a session created in this iteration. -/
  drawnMid : UInt16
  /-- Start of the token counter of a session created in this iteration. -/
  drawnToken : UInt32
  ackTimeout : AckTimeout
  /-- The endpoint task is alive and takes what is sent to it. -/
  endpointOpen : Bool
  branch : Branch

/-- The state of the loop. -/
structure CoapStack where
  sessions : Table SocketAddr PeerSession
  nextCleanup : Nat
  deriving DecidableEq

/-! ## The inbound branch -/

/-- The immediate empty ACK for a CON that is not a request. -/
def emptyAck (mid : UInt16) : Packet :=
  { Packet.new with header := ⟨.acknowledgement, .empty, mid⟩ }

/-- The reaction to a duplicate: a CON is answered from the cache. -/
def replayCached (session : PeerSession) (peer : SocketAddr)
    (parsed : Packet) : List Effect :=
  if parsed.header.messageType = .confirmable then
    match session.getCachedResponse parsed.header.messageId with
    | some cached => [.sendPacket cached peer]
    | none => []
  else []

/-- CON handling: defer the ACK of a request, acknowledge anything else. -/
def acknowledgeCon (codec : Codec) (session : PeerSession)
    (peer : SocketAddr) (parsed : Packet) : PeerSession × List Effect :=
  match parsed.header.code with
  | .request _ =>
      (session.recordInboundCon parsed.token parsed.header.messageId, [])
  | _ =>
      match codec.toBytes (emptyAck parsed.header.messageId) with
      | some bytes =>
          (session.cacheResponseForMid parsed.header.messageId bytes,
            [.sendPacket bytes peer])
      | none => (session, [])

/-- Dispatch an accepted CON or NON by its code. -/
def dispatchMessage (codec : Codec) (session : PeerSession)
    (peer : SocketAddr) (parsed : Packet) :
    Except Panic (PeerSession × List Effect) :=
  match parsed.header.code with
  | .request _ =>
      match CoapRequest.fromPacket codec parsed with
      | .error panic => .error panic
      | .ok (.ok request) =>
          .ok (session, [.sendRequest ⟨request, peer, parsed.token⟩])
      | .ok (.error _) => .ok (session, [])
  | .response _ =>
      match CoapResponse.fromPacket codec parsed with
      | .ok response =>
          let (_, completed, deliveries) :=
            session.completeExchange parsed.token response
          .ok (completed, deliveries.map .deliver)
      | .error _ => .ok (session, [])
  | _ => .ok (session, [])

/-- Record an accepted CON or NON, and acknowledge a CON. -/
def recordMessage (codec : Codec) (session : PeerSession) (now : Nat)
    (peer : SocketAddr) (parsed : Packet) : PeerSession × List Effect :=
  let recorded := session.recordInboundMid parsed.header.messageId now
  if parsed.header.messageType = .confirmable then
    acknowledgeCon codec recorded peer parsed
  else (recorded, [])

/-- An inbound CON or NON. -/
def receiveMessage (codec : Codec) (session : PeerSession) (now : Nat)
    (peer : SocketAddr) (parsed : Packet) :
    Except Panic (PeerSession × List Effect) :=
  if session.isDuplicate parsed.header.messageId then
    .ok (session, replayCached session peer parsed)
  else
    let (recorded, acks) := recordMessage codec session now peer parsed
    match dispatchMessage codec recorded peer parsed with
    | .error panic => .error panic
    | .ok (dispatched, effects) => .ok (dispatched, acks ++ effects)

/-- An inbound ACK. -/
def receiveAck (codec : Codec) (session : PeerSession)
    (parsed : Packet) : PeerSession × List Effect :=
  match parsed.header.code with
  | .empty =>
      ((session.handleAck parsed.header.messageId parsed).2, [])
  | .response _ =>
      match session.handleAck parsed.header.messageId parsed with
      | (.piggybackedResponse token, acknowledged) =>
          match CoapResponse.fromPacket codec parsed with
          | .ok response =>
              let (_, completed, deliveries) :=
                acknowledged.completeExchange token response
              (completed, deliveries.map .deliver)
          | .error _ => (acknowledged, [])
      | (_, acknowledged) => (acknowledged, [])
  | _ => (session, [])

/-- One parsed packet against the session of its sender. -/
def receivePacket (codec : Codec) (session : PeerSession) (now : Nat)
    (peer : SocketAddr) (parsed : Packet) :
    Except Panic (PeerSession × List Effect) :=
  match parsed.header.messageType with
  | .confirmable | .nonConfirmable =>
      receiveMessage codec session now peer parsed
  | .acknowledgement => .ok (receiveAck codec session parsed)
  | .reset =>
      let (_, reset, deliveries) :=
        session.handleRst parsed.header.messageId
      .ok (reset, deliveries.map .deliver)

namespace CoapStack

/-- `entry(peer).or_insert_with(|| PeerSession::new(peer))` -/
def sessionFor (stack : CoapStack) (iteration : Iteration)
    (peer : SocketAddr) : PeerSession :=
  (stack.sessions.lookup peer).getD
    (PeerSession.new peer iteration.drawnMid iteration.drawnToken)

/-- Store the session of the peer. -/
def putSession (stack : CoapStack) (peer : SocketAddr)
    (session : PeerSession) : CoapStack :=
  { stack with sessions := stack.sessions.insert peer session }

/-- The body of the inbound branch, for a received datagram. -/
def inbound (codec : Codec) (stack : CoapStack) (iteration : Iteration)
    (raw : Bytes) (peer : SocketAddr) :
    Except Panic (CoapStack × List Effect) :=
  match codec.fromBytes raw with
  | none => .ok (stack, [])
  | some parsed =>
      match receivePacket codec (stack.sessionFor iteration peer)
          iteration.now peer parsed with
      | .error panic => .error panic
      | .ok (session, effects) =>
          .ok (stack.putSession peer session, effects)

end CoapStack

/-! ## The outbound branches -/

/-- Open the exchange of a client request whose packet was encoded. -/
def openExchange (session : PeerSession) (iteration : Iteration)
    (outbound : OutboundRequest) (token : Token) (mid : UInt16)
    (bytes : Bytes) : PeerSession :=
  if outbound.request.confirmable then
    session.insertConExchange token mid
      (Exchange.newCon outbound.responseTx mid bytes iteration.ackTimeout
        iteration.now)
  else
    session.insertExchange token
      (Exchange.newNon outbound.responseTx iteration.now)

/-- A client request against the session of its peer. -/
def sendOutboundRequest (codec : Codec) (session : PeerSession)
    (iteration : Iteration) (outbound : OutboundRequest) :
    PeerSession × List Effect :=
  let (token, session) := session.allocateToken
  let (mid, session) := session.allocateMid
  match codec.toBytes (outbound.request.toPacket codec token mid) with
  | none => (session, [])
  | some bytes =>
      (openExchange session iteration outbound token mid bytes,
        [.sendPacket bytes outbound.peer])

/-- A server response against the session of its peer: piggybacked if the
request was CON, else a NON with a new MID. -/
def sendOutboundResponse (codec : Codec) (session : PeerSession)
    (outbound : ServerResponse) : PeerSession × List Effect :=
  match session.takeInboundConMid outbound.token with
  | (some mid, session) =>
      let packet := outbound.response.toPacket codec outbound.token mid
        .acknowledgement
      match codec.toBytes packet with
      | some bytes =>
          (session.cacheResponseForMid mid bytes,
            [.sendPacket bytes outbound.peer])
      | none => (session, [])
  | (none, session) =>
      let (mid, session) := session.allocateMid
      let packet := outbound.response.toPacket codec outbound.token mid
        .nonConfirmable
      match codec.toBytes packet with
      | some bytes => (session, [.sendPacket bytes outbound.peer])
      | none => (session, [])

/-! ## The timers -/

/-- The retransmission branch for one session: the session afterwards, the
packets to send to its peer and the results delivered. -/
def PeerSession.tick (session : PeerSession) (now : Nat)
    (order : List Token) :
    PeerSession × List (SocketAddr × Bytes) × List Delivery :=
  let (collected, retransmits, deliveries) :=
    session.collectRetransmissions now order
  (collected.evictStaleDedup now,
    retransmits.map fun bytes => (collected.peer, bytes),
    deliveries)

/-- The loop over `sessions.values_mut()` in the given order. -/
def tickSessions (now : Nat) :
    List (SocketAddr × List Token) → Table SocketAddr PeerSession →
      Table SocketAddr PeerSession × List (SocketAddr × Bytes) ×
        List Delivery
  | [], sessions => (sessions, [], [])
  | (peer, order) :: rest, sessions =>
      match sessions.lookup peer with
      | none => tickSessions now rest sessions
      | some session =>
          let (ticked, packets, deliveries) := session.tick now order
          let (sessions, laterPackets, laterDeliveries) :=
            tickSessions now rest (sessions.insert peer ticked)
          (sessions, packets ++ laterPackets, deliveries ++ laterDeliveries)

namespace CoapStack

/-- The body of the retransmission branch, in this order of the sessions and
of the exchanges of each. -/
def retransmit (stack : CoapStack) (now : Nat)
    (order : List (SocketAddr × List Token)) : CoapStack × List Effect :=
  let (sessions, packets, deliveries) :=
    tickSessions now order stack.sessions
  ({ stack with sessions := sessions },
    deliveries.map .deliver ++
      packets.map fun packet => .sendPacket packet.2 packet.1)

/-- The body of the cleanup branch. -/
def cleanup (stack : CoapStack) (now : Nat) : CoapStack where
  sessions := retain (fun _ session => !session.isIdle) stack.sessions
  nextCleanup := now + idleSessionCleanupInterval

/-- The soonest retransmit deadline across all sessions. -/
def nextDeadline (stack : CoapStack) : Option Nat :=
  soonest PeerSession.nextRetransmitDeadline stack.sessions

/-! ## One iteration -/

/-- The body of the branch that was taken, all its sends accepted. -/
def branchBody (codec : Codec) (stack : CoapStack)
    (iteration : Iteration) : Except Exit (CoapStack × List Effect) :=
  match iteration.branch with
  | .inbound raw peer =>
      if iteration.endpointOpen then
        match stack.inbound codec iteration raw peer with
        | .error panic => .error (.panicked panic)
        | .ok result => .ok result
      else .error (.returned (.error .endpointClosed))
  | .outboundRequest (some outbound) =>
      let (session, effects) :=
        sendOutboundRequest codec
          (stack.sessionFor iteration outbound.peer) iteration outbound
      .ok (stack.putSession outbound.peer session, effects)
  | .outboundRequest none => .error (.returned (.ok ()))
  | .outboundResponse (some outbound) =>
      let (session, effects) :=
        sendOutboundResponse codec
          (stack.sessionFor iteration outbound.peer) outbound
      .ok (stack.putSession outbound.peer session, effects)
  | .outboundResponse none => .error (.returned (.ok ()))
  | .retransmissionTimer order =>
      .ok (stack.retransmit iteration.now order)
  | .cleanupTimer => .ok (stack.cleanup iteration.now, [])

/-- One iteration: a `send_packet` that fails returns from the loop. -/
def iterate (codec : Codec) (stack : CoapStack) (iteration : Iteration) :
    Except Exit (CoapStack × List Effect) :=
  match stack.branchBody codec iteration with
  | .error exit => .error exit
  | .ok (after, effects) =>
      if !iteration.endpointOpen && effects.any Effect.isSendPacket then
        .error (.returned (.error .send))
      else .ok (after, effects)

/-- The order visits every session and every exchange exactly once. -/
def EnumeratesSessions (stack : CoapStack)
    (order : List (SocketAddr × List Token)) : Prop :=
  Enumerates (order.map Prod.fst) stack.sessions ∧
    ∀ visit ∈ order,
      ∀ session ∈ stack.sessions.lookup visit.1,
        Enumerates visit.2 session.exchanges

instance (stack : CoapStack) (order : List (SocketAddr × List Token)) :
    Decidable (stack.EnumeratesSessions order) :=
  inferInstanceAs (Decidable (_ ∧ _))

/-- The branch is ready: a timer branch only once its deadline has passed. -/
def Ready (stack : CoapStack) (iteration : Iteration) : Prop :=
  match iteration.branch with
  | .retransmissionTimer order =>
      (∃ deadline ∈ stack.nextDeadline, deadline ≤ iteration.now) ∧
        stack.EnumeratesSessions order
  | .cleanupTimer => stack.nextCleanup ≤ iteration.now
  | _ => True

instance (stack : CoapStack) (iteration : Iteration) :
    Decidable (stack.Ready iteration) := by
  simp only [Ready]
  split <;> infer_instance

end CoapStack

end Coapable.Transport
