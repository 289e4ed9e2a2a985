import Coapable.CoapLite

/-!
# Requests and responses, and their packets

The two message types of the library with the conversions from and to
packets.  Decoding a request may panic: the `Accept` value is copied
right-aligned into eight bytes at offset `8 - raw.len()`.  A panic is
therefore an explicit outcome, kept apart from the ordinary `MessageError`s.
-/

namespace Coapable.MessageTypes

open Coapable.CoapLite

/-- A panic of the running task. -/
inductive Panic where
  /-- `attempt to subtract with overflow`; without overflow checks the slice
  that starts at the wrapped offset is out of range instead. -/
  | subtractWithOverflow
  deriving DecidableEq, Inhabited, Repr

/-- Why a packet is no request or no response. -/
inductive MessageError where
  | notAResponse
  | notARequest
  | invalidUriPath
  deriving DecidableEq, Repr

/-! ## Responses -/

/-- A CoAP response received from a peer, or to be sent to one. -/
structure CoapResponse where
  responseType : ResponseType
  contentFormat : Option ContentFormat
  payload : Bytes
  deriving DecidableEq, Repr

namespace CoapResponse

/-- Decode a response, the error being that it is none. -/
def fromPacket (codec : Codec) (packet : Packet) :
    Except MessageError CoapResponse :=
  match packet.header.code with
  | .response code =>
      .ok {
        responseType := code
        contentFormat := codec.getContentFormat packet
        payload := packet.payload }
  | _ => .error .notAResponse

/-- Compose the packet of a response. -/
def toPacket (codec : Codec) (response : CoapResponse)
    (token : Token) (mid : UInt16) (messageType : MessageType) : Packet :=
  let packet : Packet :=
    { Packet.new with
      header := ⟨messageType, .response response.responseType, mid⟩
      token := token
      payload := response.payload }
  match response.contentFormat with
  | some format => codec.setContentFormat packet format
  | none => packet

end CoapResponse

/-! ## Requests -/

/-- A request as handlers and callers see it. -/
structure CoapRequest where
  method : RequestType
  path : String
  queries : List String
  contentFormat : Option ContentFormat
  payload : Bytes
  accept : Option ContentFormat
  confirmable : Bool
  deriving DecidableEq, Repr

/-- `str::from_utf8`, `none` for bytes that are not UTF-8. -/
def fromUtf8 (bytes : Bytes) : Option String :=
  String.fromUTF8? bytes.toByteArray

/-- `str::as_bytes`. -/
def asBytes (text : String) : Bytes :=
  text.toUTF8.data.toList

/-- The pieces between slashes, empty pieces dropped. -/
def pathSegments (path : String) : List String :=
  ((path.toList.splitOn '/').filter fun piece => !piece.isEmpty).map
    String.ofList

/-- `usize::from_be_bytes`. -/
def usizeFromBeBytes (bytes : Bytes) : Nat :=
  bytes.foldl (fun value byte => 256 * value + byte.toNat) 0

namespace CoapRequest

/-- The path of the Uri-Path values, those that are no UTF-8 left out. -/
def decodePath (packet : Packet) : String :=
  match packet.getOption .uriPath with
  | some values =>
      "/" ++ String.intercalate "/" (values.filterMap fromUtf8)
  | none => "/"

/-- The Uri-Query values, those that are no UTF-8 left out. -/
def decodeQueries (packet : Packet) : List String :=
  match packet.getOption .uriQuery with
  | some values => values.filterMap fromUtf8
  | none => []

/-- The front `Accept` value, right-aligned in a `usize`. -/
def decodeAccept (codec : Codec) (packet : Packet) :
    Except Panic (Option ContentFormat) :=
  match packet.getOption .accept with
  | some (raw :: _) =>
      if raw.length ≤ 8 then
        .ok (codec.contentFormatTryFrom
          (usizeFromBeBytes (List.replicate (8 - raw.length) 0 ++ raw)))
      else
        .error .subtractWithOverflow
  | some [] => .ok none
  | none => .ok none

/-- Decode a request.  The outer error is the panic of `decodeAccept`. -/
def fromPacket (codec : Codec) (packet : Packet) :
    Except Panic (Except MessageError CoapRequest) :=
  match packet.header.code with
  | .request code =>
      match decodeAccept codec packet with
      | .error panic => .error panic
      | .ok accept =>
          .ok (.ok {
            method := code
            path := decodePath packet
            queries := decodeQueries packet
            contentFormat := codec.getContentFormat packet
            payload := packet.payload
            accept := accept
            confirmable :=
              packet.header.messageType == .confirmable })
  | _ => .ok (.error .notARequest)

/-- Compose the packet of a request. -/
def toPacket (codec : Codec) (request : CoapRequest)
    (token : Token) (mid : UInt16) : Packet :=
  let messageType : MessageType :=
    if request.confirmable then .confirmable else .nonConfirmable
  let packet : Packet :=
    { Packet.new with
      header := ⟨messageType, .request request.method, mid⟩
      token := token }
  let packet :=
    if request.path.isEmpty then packet
    else
      (pathSegments request.path).foldl
        (fun packet segment => packet.addOption .uriPath (asBytes segment))
        packet
  let packet := request.queries.foldl
    (fun packet query => packet.addOption .uriQuery (asBytes query))
    packet
  let packet :=
    match request.contentFormat with
    | some format => codec.setContentFormat packet format
    | none => packet
  let packet :=
    match request.accept with
    | some format =>
        packet.addOption .accept (codec.optionValueU16 format.code)
    | none => packet
  if request.payload.isEmpty then packet
  else { packet with payload := request.payload }

end CoapRequest

/-! ## What decoding returns -/

theorem CoapResponse.fromPacket_ok_iff
    (codec : Codec) (packet : Packet) (response : CoapResponse) :
    CoapResponse.fromPacket codec packet = .ok response ↔
      packet.header.code = .response response.responseType ∧
        response.contentFormat = codec.getContentFormat packet ∧
          response.payload = packet.payload := by
  simp only [CoapResponse.fromPacket]
  rcases response with ⟨responseType, contentFormat, payload⟩
  split
  · next code isResponse =>
      simp only [Except.ok.injEq, CoapResponse.mk.injEq, isResponse,
        MessageClass.response.injEq]
      constructor
      · rintro ⟨rfl, rfl, rfl⟩
        exact ⟨rfl, rfl, rfl⟩
      · rintro ⟨rfl, rfl, rfl⟩
        exact ⟨rfl, rfl, rfl⟩
  · next otherwise =>
      simp only [reduceCtorEq, false_iff]
      rintro ⟨isResponse, _, _⟩
      exact otherwise _ isResponse

/-- A packet with a response code always decodes. -/
theorem CoapResponse.exists_fromPacket_ok
    (codec : Codec) (packet : Packet)
    (isResponse : packet.header.code.isResponse = true) :
    ∃ response, CoapResponse.fromPacket codec packet = .ok response := by
  cases code : packet.header.code with
  | response responseType =>
      exact ⟨_, by rw [CoapResponse.fromPacket, code]⟩
  | _ => simp [code, MessageClass.isResponse] at isResponse

/-- What decodes to a request has a request code; the path, the type and the
payload of the packet are those of the request. -/
theorem CoapRequest.of_fromPacket_ok
    {codec : Codec} {packet : Packet} {request : CoapRequest}
    (decoded : CoapRequest.fromPacket codec packet = .ok (.ok request)) :
    packet.header.code = .request request.method ∧
      request.path = CoapRequest.decodePath packet ∧
        request.confirmable =
            (packet.header.messageType == .confirmable) ∧
          request.payload = packet.payload := by
  rw [CoapRequest.fromPacket] at decoded
  split at decoded
  · next code isRequest =>
      split at decoded
      · cases decoded
      · injection decoded with decoded
        injection decoded with decoded
        rw [← decoded]
        exact ⟨isRequest, rfl, rfl, rfl⟩
  · injection decoded with decoded
    cases decoded

theorem CoapRequest.isRequest_of_fromPacket_ok
    {codec : Codec} {packet : Packet} {request : CoapRequest}
    (decoded : CoapRequest.fromPacket codec packet = .ok (.ok request)) :
    packet.header.code.isRequest = true := by
  rw [(CoapRequest.of_fromPacket_ok decoded).1]
  rfl

/-- A request code decodes to a request, unless it panics. -/
theorem CoapRequest.exists_of_request_code
    {codec : Codec} {packet : Packet}
    {result : Except MessageError CoapRequest}
    (isRequest : packet.header.code.isRequest = true)
    (decoded : CoapRequest.fromPacket codec packet = .ok result) :
    ∃ request, result = .ok request := by
  cases code : packet.header.code with
  | request method =>
      rw [CoapRequest.fromPacket, code] at decoded
      simp only at decoded
      split at decoded
      · cases decoded
      · injection decoded with decoded
        exact ⟨_, decoded.symm⟩
  | empty | response | reserved =>
      rw [code] at isRequest
      cases isRequest

/-- The first `Accept` value does not fit the eight bytes it is copied to. -/
def AcceptTooLong (packet : Packet) : Prop :=
  ∃ raw rest, packet.getOption .accept = some (raw :: rest) ∧
    8 < raw.length

/-- The front `Accept` value is the only thing that makes decoding panic. -/
theorem CoapRequest.fromPacket_panics_iff
    (codec : Codec) (packet : Packet) :
    (∃ panic, CoapRequest.fromPacket codec packet = .error panic) ↔
      packet.header.code.isRequest = true ∧ AcceptTooLong packet := by
  have accept :
      (∃ panic, CoapRequest.decodeAccept codec packet = .error panic) ↔
        AcceptTooLong packet := by
    simp only [CoapRequest.decodeAccept, AcceptTooLong]
    split
    · next raw rest found =>
        split <;> simp_all
    · next found => simp_all
    · next found => simp_all
  rw [← accept]
  simp only [CoapRequest.fromPacket]
  cases code : packet.header.code with
  | request method =>
      cases decoded : CoapRequest.decodeAccept codec packet <;>
        simp [MessageClass.isRequest]
  | _ => simp [MessageClass.isRequest]

end Coapable.MessageTypes
