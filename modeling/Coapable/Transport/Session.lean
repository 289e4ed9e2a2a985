import Coapable.Transport.Exchange

/-!
# The session of one peer

All state the stack keeps for one peer: the open exchanges of client requests
under their tokens, the index from the MID of an outbound CON to its token,
the two allocators, the deduplication table of inbound MIDs and the tokens of
inbound CON requests that were not answered yet.

An operation that finishes exchanges returns, besides the new session, the
results it sends to the waiting callers.
-/

namespace Coapable.Transport

open Coapable.CoapLite
open Coapable.Foundation.FiniteMap
open Coapable.MessageTypes

/-- The address of a peer: the octets of its IP address, and a port. -/
structure SocketAddr where
  host : List UInt8
  port : UInt16
  deriving DecidableEq, Repr

/-- What the stack knows of one peer. -/
structure PeerSession where
  peer : SocketAddr
  exchanges : Table Token Exchange
  /-- Maps outbound MID to token, for ACK/RST matching. -/
  midToToken : Table UInt16 Token
  midAllocator : MessageIdAllocator
  tokenAllocator : TokenAllocator
  /-- Dedup table for inbound messages, keyed by MID. -/
  inboundDedup : Table UInt16 DedupEntry
  /-- Maps inbound CON request token to original MID, for piggybacked ACK
  responses. -/
  inboundConMids : Table Token UInt16
  deriving DecidableEq

/-- What an acknowledgement did to the exchanges. -/
inductive AckResult where
  /-- Retransmission cancelled, exchange stays open for separate response. -/
  | emptyAck
  /-- The exchange with this token should be completed. -/
  | piggybackedResponse (token : Token)
  /-- MID not recognized. -/
  | unknown
  deriving DecidableEq, Repr

namespace PeerSession

/-- A session whose allocators start at the drawn values. -/
def new (peer : SocketAddr) (mid : UInt16) (token : UInt32) :
    PeerSession where
  peer := peer
  exchanges := ∅
  midToToken := ∅
  midAllocator := MessageIdAllocator.new mid
  tokenAllocator := TokenAllocator.new token
  inboundDedup := ∅
  inboundConMids := ∅

/-- This session has no active state and can be evicted. -/
def isIdle (session : PeerSession) : Bool :=
  isEmpty session.exchanges
    && isEmpty session.midToToken
    && isEmpty session.inboundDedup
    && isEmpty session.inboundConMids

/-- Allocate the next MID of the session. -/
def allocateMid (session : PeerSession) : UInt16 × PeerSession :=
  (session.midAllocator.allocate.1,
    { session with midAllocator := session.midAllocator.allocate.2 })

/-- Allocate the next token of the session. -/
def allocateToken (session : PeerSession) : Token × PeerSession :=
  (session.tokenAllocator.allocate.1,
    { session with tokenAllocator := session.tokenAllocator.allocate.2 })

/-! ## Exchanges -/

/-- Register an exchange for a NON request. -/
def insertExchange (session : PeerSession) (token : Token)
    (exchange : Exchange) : PeerSession :=
  { session with exchanges := session.exchanges.insert token exchange }

/-- Register an exchange for a CON request, under its token and its MID. -/
def insertConExchange (session : PeerSession) (token : Token)
    (mid : UInt16) (exchange : Exchange) : PeerSession :=
  { session with
    midToToken := session.midToToken.insert mid token
    exchanges := session.exchanges.insert token exchange }

/-- Remove an exchange together with its entry in the MID index. -/
def removeExchange (session : PeerSession) (token : Token)
    (exchange : Exchange) : PeerSession :=
  { session with
    exchanges := session.exchanges.erase token
    midToToken :=
      match exchange.messageId with
      | some mid => session.midToToken.erase mid
      | none => session.midToToken }

/-- Match an inbound response to an outstanding exchange by token. -/
def completeExchange (session : PeerSession) (token : Token)
    (response : CoapResponse) : Bool × PeerSession × List Delivery :=
  match session.exchanges.lookup token with
  | some exchange =>
      (true, session.removeExchange token exchange,
        [exchange.complete response])
  | none => (false, session, [])

/-- Handle an inbound ACK by MID. -/
def handleAck (session : PeerSession) (mid : UInt16) (packet : Packet) :
    AckResult × PeerSession :=
  match session.midToToken.lookup mid with
  | none => (.unknown, session)
  | some token =>
      let unindexed :=
        { session with midToToken := session.midToToken.erase mid }
      match packet.header.code with
      | .empty =>
          (.emptyAck,
            { unindexed with
              exchanges :=
                modify token Exchange.cancelRetransmission
                  unindexed.exchanges })
      | .response _ => (.piggybackedResponse token, unindexed)
      | _ => (.unknown, unindexed)

/-- Handle an inbound RST by MID. -/
def handleRst (session : PeerSession) (mid : UInt16) :
    Bool × PeerSession × List Delivery :=
  match session.midToToken.lookup mid with
  | none => (false, session, [])
  | some token =>
      let unindexed :=
        { session with midToToken := session.midToToken.erase mid }
      match unindexed.exchanges.lookup token with
      | some exchange =>
          (true,
            { unindexed with
              exchanges := unindexed.exchanges.erase token },
            [exchange.fail .reset])
      | none => (false, unindexed, [])

/-! ## Inbound messages -/

/-- A message with this MID was recorded. -/
def isDuplicate (session : PeerSession) (mid : UInt16) : Bool :=
  (session.inboundDedup.lookup mid).isSome

/-- Record the MID of a message that is accepted. -/
def recordInboundMid (session : PeerSession) (mid : UInt16)
    (now : Nat) : PeerSession :=
  { session with
    inboundDedup := session.inboundDedup.insert mid ⟨none, now⟩ }

/-- Cache a response for an inbound MID, for re-ACKing duplicate CON. -/
def cacheResponseForMid (session : PeerSession) (mid : UInt16)
    (responseBytes : Bytes) : PeerSession :=
  { session with
    inboundDedup :=
      modify mid
        (fun entry => { entry with cachedResponse := some responseBytes })
        session.inboundDedup }

/-- The answer to send again for a duplicate. -/
def getCachedResponse (session : PeerSession) (mid : UInt16) :
    Option Bytes :=
  (session.inboundDedup.lookup mid).bind DedupEntry.cachedResponse

/-- Record the MID of an inbound CON request for piggybacked ACK response. -/
def recordInboundCon (session : PeerSession) (token : Token)
    (mid : UInt16) : PeerSession :=
  { session with
    inboundConMids := session.inboundConMids.insert token mid }

/-- Take the original CON MID for the given token, if present. -/
def takeInboundConMid (session : PeerSession) (token : Token) :
    Option UInt16 × PeerSession :=
  (session.inboundConMids.lookup token,
    { session with
      inboundConMids := session.inboundConMids.erase token })

/-! ## Timers -/

/--
The first loop of `collect_retransmissions`: visit the exchanges in the given
order, advance those that are due, and gather the bytes to re-send and the
tokens that ran out.
-/
def scanExchanges (now : Nat) :
    List Token → Table Token Exchange →
      Table Token Exchange × List Bytes × List Token
  | [], exchanges => (exchanges, [], [])
  | token :: rest, exchanges =>
      match exchanges.lookup token with
      | none => scanExchanges now rest exchanges
      | some exchange =>
          if exchange.needsRetransmit now then
            let (bytes, advanced) := exchange.advanceRetransmit now
            let (scanned, retransmits, expired) :=
              scanExchanges now rest (exchanges.insert token advanced)
            match bytes with
            | some bytes => (scanned, bytes :: retransmits, expired)
            | none => (scanned, retransmits, token :: expired)
          else
            let (scanned, retransmits, expired) :=
              scanExchanges now rest exchanges
            if exchange.isExpired now then
              (scanned, retransmits, token :: expired)
            else (scanned, retransmits, expired)

/-- The second loop: remove and fail the exchanges that ran out. -/
def failExpired :
    List Token → PeerSession → PeerSession × List Delivery
  | [], session => (session, [])
  | token :: rest, session =>
      match session.exchanges.lookup token with
      | none => failExpired rest session
      | some exchange =>
          let (failed, deliveries) :=
            failExpired rest (session.removeExchange token exchange)
          (failed,
            exchange.fail (.timeout exchange.retransmitCount) :: deliveries)

/--
Collect exchanges that need retransmission and fail those that exceeded
`maxRetransmit` or `nonLifetime`.  The order is the one in which the hash map
happens to enumerate the exchanges.
-/
def collectRetransmissions (session : PeerSession) (now : Nat)
    (order : List Token) : PeerSession × List Bytes × List Delivery :=
  let (exchanges, retransmits, expired) :=
    scanExchanges now order session.exchanges
  let (failed, deliveries) :=
    failExpired expired { session with exchanges := exchanges }
  (failed, retransmits, deliveries)

/-- Drop the entries that are EXCHANGE_LIFETIME old. -/
def evictStaleDedup (session : PeerSession) (now : Nat) : PeerSession :=
  { session with
    inboundDedup :=
      retain (fun _ entry => now - entry.created < exchangeLifetime)
        session.inboundDedup }

/-- The soonest deadline across all exchanges. -/
def nextRetransmitDeadline (session : PeerSession) : Option Nat :=
  soonest Exchange.deadline session.exchanges

end PeerSession

end Coapable.Transport
