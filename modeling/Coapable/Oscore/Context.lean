import Coapable.Transport.Session
import Mathlib.Data.Finset.Sort

/-!
# OSCORE contexts and the store that holds them

A context protects requests for one peer with the primitive context of
`liboscore`, whose sender sequence number every protection advances, and
records under the token of the request how a response to it is unprotected.
Everything but the protection of requests ends in `todo!` so far, which is a
panic.

The cryptography and the wire format are third-party code and hence fields of
`Crates`; what is modelled is which calls are made with which data, what
becomes of the context on every path, errors included, and which map is read
and written under which key.
-/

namespace Coapable.Oscore

open Coapable.CoapLite
open Coapable.Foundation.FiniteMap
open Coapable.Transport

/-- The errors that the store and the codec report. -/
inductive OscoreError where
  | contextNotFound
  | requestNotFound
  | protectFailed
  | packetEncodingFailed
  | packetDecodingFailed
  deriving DecidableEq, Repr

/-- How a call ends that does not return. -/
inductive Panic where
  /-- `todo!` -/
  | notYetImplemented
  deriving DecidableEq, Repr

/-! ## The crates -/

/-- The four bytes that `serialize_into` appends. -/
structure RawHeader where
  verTypeTkl : UInt8
  code : UInt8
  messageIdHigh : UInt8
  messageIdLow : UInt8

/-- The four bytes of the fixed header. -/
def RawHeader.bytes (raw : RawHeader) : Bytes :=
  [raw.verTypeTkl, raw.code, raw.messageIdHigh, raw.messageIdLow]

/-- What a protection leaves that `liboscore` did not refuse. -/
structure ProtectedRequest (RequestId : Type) where
  requestId : RequestId
  /-- The result of the closure that wrote the plaintext. -/
  writeResult : Except OscoreError Unit
  /-- The code of the outer message. -/
  codeByte : UInt8
  /-- The used part of the outer buffer: options and payload. -/
  used : Bytes

/-- A write to the plaintext, which may fail half way. -/
abbrev Write (Plaintext : Type) :=
  ExceptT OscoreError (StateM Plaintext)

/-- The operations of `coap_lite` and `liboscore` that are called here. -/
structure Crates
    (PrimitiveContext Immutables RequestId Plaintext : Type) where
  codec : Codec
  /-- `Header::to_raw` and `serialize_into`. -/
  serializeHeader : Packet → Option RawHeader
  /-- `u8::from` on a message code. -/
  codeByte : MessageClass → UInt8
  newFromFreshMaterial : Immutables → PrimitiveContext
  setCode : UInt8 → Plaintext → Plaintext
  addOption : UInt16 → Bytes → Plaintext → Bool × Plaintext
  setPayload : Bytes → Plaintext → Bool × Plaintext
  /-- `liboscore::protect_request` with an outer buffer of this size; it
  changes the context also when it fails. -/
  protectRequest :
    Nat → PrimitiveContext →
      (Plaintext → Except OscoreError Unit × Plaintext) →
        Option (ProtectedRequest RequestId) × PrimitiveContext

variable {PrimitiveContext Immutables RequestId Plaintext : Type}

/-! ## `codec::protect_request` -/

/-- The options in ascending order of their numbers. -/
def orderedOptions (packet : Packet) : List (CoapOption × List Bytes) :=
  ((packet.options.keys.image fun option =>
      option.number.toNat).sort (· ≤ ·)).filterMap fun number =>
    (packet.getOption ⟨UInt16.ofNat number⟩).map
      fun values => (⟨UInt16.ofNat number⟩, values)

/-- One write, whose failure is `ProtectFailed`. -/
def tryWrite (write : Plaintext → Bool × Plaintext) :
    Write Plaintext Unit := do
  let (written, plaintext) := write (← get)
  set plaintext
  unless written do
    throw .protectFailed

/-- The closure: code, options, payload. -/
def writePlaintext
    (crates : Crates PrimitiveContext Immutables RequestId Plaintext)
    (packet : Packet) : Write Plaintext Unit := do
  modify (crates.setCode (crates.codeByte packet.header.code))
  for (option, values) in orderedOptions packet do
    for value in values do
      tryWrite (crates.addOption option.number value)
  unless packet.payload.isEmpty do
    tryWrite (crates.setPayload packet.payload)

/-- Protect the packet in a fresh outer message, and put the header and the
token of the packet before what `liboscore` wrote. -/
def Codec.protectRequest
    (crates : Crates PrimitiveContext Immutables RequestId Plaintext)
    (packet : Packet) (ctx : PrimitiveContext) :
    Except OscoreError (Packet × RequestId) × PrimitiveContext :=
  match crates.codec.toBytes packet with
  | none => (.error .packetEncodingFailed, ctx)
  | some wireBytes =>
      let (result, ctx) :=
        crates.protectRequest (wireBytes.length + 64) ctx
          (writePlaintext crates packet).run
      match result with
      | none => (.error .protectFailed, ctx)
      | some message =>
          match message.writeResult with
          | .error error => (.error error, ctx)
          | .ok () =>
              match crates.serializeHeader packet with
              | none => (.error .packetEncodingFailed, ctx)
              | some raw =>
                  -- The outer code replaces the one of the packet.
                  let wire :=
                    { raw with code := message.codeByte }.bytes ++
                      packet.token ++ message.used
                  match crates.codec.fromBytes wire with
                  | none => (.error .packetDecodingFailed, ctx)
                  | some outer => (.ok (outer, message.requestId), ctx)

/-! ## `OscoreContext` -/

/-- The security context with one peer, and the requests that are underway
under it by their token. -/
structure OscoreContext (PrimitiveContext RequestId : Type) where
  ctx : PrimitiveContext
  outboundRequestIds : Table Token RequestId
  inboundRequestIds : Table Token RequestId

/-- What a call of a method ends with. -/
abbrev Answer (Result : Type) := Except Panic (Except OscoreError Result)

namespace OscoreContext

/-- A context with no request underway. -/
def new (ctx : PrimitiveContext) :
    OscoreContext PrimitiveContext RequestId where
  ctx := ctx
  outboundRequestIds := ∅
  inboundRequestIds := ∅

/-- Protect a request and remember it by its token.  The primitive context
moves on also where this fails. -/
def protectRequest
    (crates : Crates PrimitiveContext Immutables RequestId Plaintext)
    (packet : Packet) (self : OscoreContext PrimitiveContext RequestId) :
    Answer Packet × OscoreContext PrimitiveContext RequestId :=
  match Codec.protectRequest crates packet self.ctx with
  | (.error error, ctx) => (.ok (.error error), { self with ctx := ctx })
  | (.ok (outer, requestId), ctx) =>
      (.ok (.ok outer),
        { self with
          ctx := ctx
          outboundRequestIds :=
            self.outboundRequestIds.insert packet.token requestId })

/-- Not written yet. -/
def unprotectRequest
    (_packet : Packet) (self : OscoreContext PrimitiveContext RequestId) :
    Answer Packet × OscoreContext PrimitiveContext RequestId :=
  (.error .notYetImplemented, self)

/-- Not written beyond the lookup of the request. -/
def protectResponse
    (packet : Packet) (self : OscoreContext PrimitiveContext RequestId) :
    Answer Packet × OscoreContext PrimitiveContext RequestId :=
  match self.inboundRequestIds.lookup packet.token with
  | none => (.ok (.error .requestNotFound), self)
  | some _ => (.error .notYetImplemented, self)

/-- Not written beyond the lookup of the request. -/
def unprotectResponse
    (packet : Packet) (self : OscoreContext PrimitiveContext RequestId) :
    Answer Packet × OscoreContext PrimitiveContext RequestId :=
  match self.outboundRequestIds.lookup packet.token with
  | none => (.ok (.error .requestNotFound), self)
  | some _ => (.error .notYetImplemented, self)

end OscoreContext

/-! ## `DashmapOscoreContextStore` -/

/-- The contexts of all peers. -/
structure ContextStore (PrimitiveContext RequestId : Type) where
  contexts : Table SocketAddr (OscoreContext PrimitiveContext RequestId)

namespace ContextStore

/-- A store without contexts. -/
def new : ContextStore PrimitiveContext RequestId := ⟨∅⟩

/-- An old context of the peer is dropped. -/
def add
    (crates : Crates PrimitiveContext Immutables RequestId Plaintext)
    (peer : SocketAddr) (immutables : Immutables)
    (self : ContextStore PrimitiveContext RequestId) :
    ContextStore PrimitiveContext RequestId :=
  ⟨self.contexts.insert peer
    (OscoreContext.new (crates.newFromFreshMaterial immutables))⟩

/-- Call a method on the context of the peer, and keep what it leaves. -/
def withContext {Result : Type} (peer : SocketAddr)
    (call : OscoreContext PrimitiveContext RequestId →
      Answer Result × OscoreContext PrimitiveContext RequestId)
    (self : ContextStore PrimitiveContext RequestId) :
    Answer Result × ContextStore PrimitiveContext RequestId :=
  match self.contexts.lookup peer with
  | none => (.ok (.error .contextNotFound), self)
  | some context =>
      let (answer, context) := call context
      (answer, ⟨self.contexts.insert peer context⟩)

end ContextStore

/-! ## Calls on a shared store -/

/-- The methods a closure given to `with_context` can call. -/
inductive Method where
  | protectRequest
  | unprotectRequest
  | protectResponse
  | unprotectResponse
  deriving DecidableEq, Repr

/-- The method as a function on a context. -/
def Method.call
    (crates : Crates PrimitiveContext Immutables RequestId Plaintext) :
    Method → Packet → OscoreContext PrimitiveContext RequestId →
      Answer Packet × OscoreContext PrimitiveContext RequestId
  | .protectRequest => OscoreContext.protectRequest crates
  | .unprotectRequest => OscoreContext.unprotectRequest
  | .protectResponse => OscoreContext.protectResponse
  | .unprotectResponse => OscoreContext.unprotectResponse

/-- One call on some clone of the store.  The map locks the entry of the peer
during the call, so calls for one peer happen one after the other, and calls
for two peers do not touch the same entry. -/
inductive Call (Immutables : Type) where
  | add (peer : SocketAddr) (immutables : Immutables)
  | withContext (peer : SocketAddr) (method : Method) (packet : Packet)

/-- The store after the call, and the answer if the call has one.  A panic
releases the lock and leaves the store usable. -/
def ContextStore.step
    (crates : Crates PrimitiveContext Immutables RequestId Plaintext)
    (store : ContextStore PrimitiveContext RequestId) :
    Call Immutables →
      ContextStore PrimitiveContext RequestId × Option (Answer Packet)
  | .add peer immutables => (store.add crates peer immutables, none)
  | .withContext peer method packet =>
      let (answer, store) :=
        store.withContext peer (method.call crates packet)
      (store, some answer)

end Coapable.Oscore
