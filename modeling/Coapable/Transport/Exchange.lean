import Coapable.MessageTypes
import Coapable.Transport.Reliability

/-!
# Open exchanges of client requests

An exchange owns the sending half of the one-shot channel its caller waits
on.  Sending consumes the exchange, so completing or failing one is modelled
by the `Delivery` it makes.
-/

namespace Coapable.Transport

open Coapable.CoapLite
open Coapable.MessageTypes

/-- The errors that the transport reports to its users. -/
inductive TransportError where
  | io
  | send
  | endpointClosed
  | timeout (retransmits : Nat)
  | reset
  deriving DecidableEq, Repr

/-- The sending half of a one-shot channel, named by a number. -/
structure ResponseSender where
  channel : Nat
  deriving DecidableEq, Repr

/-- One result sent on a one-shot channel. -/
structure Delivery where
  sender : ResponseSender
  result : Except TransportError CoapResponse
  deriving DecidableEq

/-- A client request that is underway. -/
structure Exchange where
  responseTx : ResponseSender
  /-- MID assigned to the outbound CON.  `none` for NON exchanges. -/
  messageId : Option UInt16
  /-- Retransmission state, present only for CON exchanges. -/
  retransmit : Option RetransmitState
  /-- Absolute expiry deadline for NON exchanges.  `none` for CON. -/
  expiresAt : Option Nat
  deriving DecidableEq, Repr

namespace Exchange

/-- The exchange of a CON, armed for its first retransmission. -/
def newCon (responseTx : ResponseSender) (messageId : UInt16)
    (packetBytes : Bytes) (timeout : AckTimeout) (now : Nat) :
    Exchange where
  responseTx := responseTx
  messageId := some messageId
  retransmit := some (RetransmitState.new packetBytes timeout now)
  expiresAt := none

/-- The exchange of a NON, which expires instead. -/
def newNon (responseTx : ResponseSender) (now : Nat) : Exchange where
  responseTx := responseTx
  messageId := none
  retransmit := none
  expiresAt := some (now + nonLifetime)

/-- Called when an ACK is received; the exchange stays open for a separate
response. -/
def cancelRetransmission (exchange : Exchange) : Exchange :=
  { exchange with retransmit := none }

/-- A retransmission is due. -/
def needsRetransmit (exchange : Exchange) (now : Nat) : Bool :=
  exchange.retransmit.any fun state => state.isDue now

/-- The bytes to re-send, or `none` if `maxRetransmit` is exceeded. -/
def advanceRetransmit (exchange : Exchange) (now : Nat) :
    Option Bytes × Exchange :=
  match exchange.retransmit with
  | none => (none, exchange)
  | some state =>
      match state.advance now with
      | (true, advanced) =>
          (some advanced.packetBytes,
            { exchange with retransmit := some advanced })
      | (false, unchanged) =>
          (none, { exchange with retransmit := some unchanged })

/-- When the next retransmission is due, if one is armed. -/
def retransmitDeadline (exchange : Exchange) : Option Nat :=
  exchange.retransmit.map RetransmitState.nextRetransmit

/-- When the exchange expires, if it does. -/
def expiryDeadline (exchange : Exchange) : Option Nat :=
  exchange.expiresAt

/-- The deadline the timer of the loop accounts for. -/
def deadline (exchange : Exchange) : Option Nat :=
  exchange.retransmitDeadline.or exchange.expiryDeadline

/-- The exchange is at its expiry or beyond. -/
def isExpired (exchange : Exchange) (now : Nat) : Bool :=
  exchange.expiresAt.any fun deadline => deadline ≤ now

/-- How many copies were sent so far. -/
def retransmitCount (exchange : Exchange) : Nat :=
  (exchange.retransmit.map RetransmitState.retransmitCount).getD 0

/-- Send the response to the caller. -/
def complete (exchange : Exchange) (response : CoapResponse) : Delivery :=
  ⟨exchange.responseTx, .ok response⟩

/-- Send the error to the caller. -/
def fail (exchange : Exchange) (error : TransportError) : Delivery :=
  ⟨exchange.responseTx, .error error⟩

end Exchange

end Coapable.Transport
