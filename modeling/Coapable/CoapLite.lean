import Coapable.Foundation.FiniteMap

/-!
# What the stack uses of the CoAP codec

The wire codec is a third-party crate.  Its data model (header, token,
options, payload) is public and is what the stack reads and writes, so it is
modelled as plain data; encoding, decoding and the Content-Format conversions
are the parameter `Codec`.  Its documented behaviour is named law by law, and
a result assumes those it relies on; most results about a single stack hold
for every codec.
-/

namespace Coapable.CoapLite

open Coapable.Foundation.FiniteMap

/-- A byte string, as datagrams, payloads and option values carry it. -/
abbrev Bytes := List UInt8

/-- Token of a message, at most eight bytes on the wire. -/
abbrev Token := Bytes

/-- The four types of a message. -/
inductive MessageType where
  | confirmable
  | nonConfirmable
  | acknowledgement
  | reset
  deriving DecidableEq, Repr

/-- The methods of a request. -/
inductive RequestType where
  | get
  | post
  | put
  | delete
  | fetch
  | patch
  | iPatch
  | unKnown
  deriving DecidableEq, Repr

/-- The codes of a response. -/
inductive ResponseType where
  | created
  | deleted
  | valid
  | changed
  | content
  | continue
  | badRequest
  | unauthorized
  | badOption
  | forbidden
  | notFound
  | methodNotAllowed
  | notAcceptable
  | conflict
  | preconditionFailed
  | requestEntityTooLarge
  | unsupportedContentFormat
  | requestEntityIncomplete
  | unprocessableEntity
  | tooManyRequests
  | internalServerError
  | notImplemented
  | badGateway
  | serviceUnavailable
  | gatewayTimeout
  | proxyingNotSupported
  | hopLimitReached
  | unKnown
  deriving DecidableEq, Repr

/-- What the code byte of a message says. -/
inductive MessageClass where
  | empty
  | request (code : RequestType)
  | response (code : ResponseType)
  | reserved (code : UInt8)
  deriving DecidableEq, Repr

/-- The code is one of a request. -/
def MessageClass.isRequest : MessageClass → Bool
  | .request _ => true
  | _ => false

/-- The code is one of a response. -/
def MessageClass.isResponse : MessageClass → Bool
  | .response _ => true
  | _ => false

/-- The registered content formats. -/
inductive ContentFormat where
  | textPlain
  | applicationCoseEncrypt0
  | applicationCoseMac0
  | applicationCoseSign1
  | applicationAceCbor
  | imageGif
  | imageJpeg
  | imagePng
  | applicationLinkFormat
  | applicationXml
  | applicationOctetStream
  | applicationExi
  | applicationJson
  | applicationJsonPatchJson
  | applicationMergePatchJson
  | applicationCbor
  | applicationCwt
  | applicationMultipartCore
  | applicationCborSeq
  | applicationCoseEncrypt
  | applicationCoseMac
  | applicationCoseSign
  | applicationCoseKey
  | applicationCoseKeySet
  | applicationSenmlJson
  | applicationSensmlJson
  | applicationSenmlCbor
  | applicationSensmlCbor
  | applicationSenmlExi
  | applicationSensmlExi
  | applicationYangDataCborSid
  | applicationCoapGroupJson
  | applicationDotsCbor
  | applicationMissingBlocksCborSeq
  | applicationPkcs7MimeServerGeneratedKey
  | applicationPkcs7MimeCertsOnly
  | applicationPkcs8
  | applicationCsrattrs
  | applicationPkcs10
  | applicationPkixCert
  | applicationAifCbor
  | applicationAifJson
  | applicationSenmlXml
  | applicationSensmlXml
  | applicationSenmlEtchJson
  | applicationSenmlEtchCbor
  | applicationYangDataCbor
  | applicationYangDataCborName
  | applicationTdJson
  | applicationVndOcfCbor
  | applicationOscore
  | applicationJavascript
  | applicationJsonDeflate
  | applicationCborDeflate
  | applicationVndOmaLwm2mTlv
  | applicationVndOmaLwm2mJson
  | applicationVndOmaLwm2mCbor
  | textCss
  | imageSvgXml
  deriving DecidableEq, Repr

namespace ContentFormat

/-- The registered number. -/
def code : ContentFormat → UInt16
  | .textPlain => 0
  | .applicationCoseEncrypt0 => 16
  | .applicationCoseMac0 => 17
  | .applicationCoseSign1 => 18
  | .applicationAceCbor => 19
  | .imageGif => 21
  | .imageJpeg => 22
  | .imagePng => 23
  | .applicationLinkFormat => 40
  | .applicationXml => 41
  | .applicationOctetStream => 42
  | .applicationExi => 47
  | .applicationJson => 50
  | .applicationJsonPatchJson => 51
  | .applicationMergePatchJson => 52
  | .applicationCbor => 60
  | .applicationCwt => 61
  | .applicationMultipartCore => 62
  | .applicationCborSeq => 63
  | .applicationCoseEncrypt => 96
  | .applicationCoseMac => 97
  | .applicationCoseSign => 98
  | .applicationCoseKey => 101
  | .applicationCoseKeySet => 102
  | .applicationSenmlJson => 110
  | .applicationSensmlJson => 111
  | .applicationSenmlCbor => 112
  | .applicationSensmlCbor => 113
  | .applicationSenmlExi => 114
  | .applicationSensmlExi => 115
  | .applicationYangDataCborSid => 140
  | .applicationCoapGroupJson => 256
  | .applicationDotsCbor => 271
  | .applicationMissingBlocksCborSeq => 272
  | .applicationPkcs7MimeServerGeneratedKey => 280
  | .applicationPkcs7MimeCertsOnly => 281
  | .applicationPkcs8 => 284
  | .applicationCsrattrs => 285
  | .applicationPkcs10 => 286
  | .applicationPkixCert => 287
  | .applicationAifCbor => 290
  | .applicationAifJson => 291
  | .applicationSenmlXml => 310
  | .applicationSensmlXml => 311
  | .applicationSenmlEtchJson => 320
  | .applicationSenmlEtchCbor => 322
  | .applicationYangDataCbor => 340
  | .applicationYangDataCborName => 341
  | .applicationTdJson => 432
  | .applicationVndOcfCbor => 10000
  | .applicationOscore => 10001
  | .applicationJavascript => 10002
  | .applicationJsonDeflate => 11050
  | .applicationCborDeflate => 11060
  | .applicationVndOmaLwm2mTlv => 11542
  | .applicationVndOmaLwm2mJson => 11543
  | .applicationVndOmaLwm2mCbor => 11544
  | .textCss => 20000
  | .imageSvgXml => 30000

/-- Every content format, in the order of the numbers. -/
def all : List ContentFormat :=
  [.textPlain, .applicationCoseEncrypt0, .applicationCoseMac0,
    .applicationCoseSign1, .applicationAceCbor, .imageGif, .imageJpeg,
    .imagePng, .applicationLinkFormat, .applicationXml,
    .applicationOctetStream, .applicationExi, .applicationJson,
    .applicationJsonPatchJson, .applicationMergePatchJson,
    .applicationCbor, .applicationCwt, .applicationMultipartCore,
    .applicationCborSeq, .applicationCoseEncrypt, .applicationCoseMac,
    .applicationCoseSign, .applicationCoseKey, .applicationCoseKeySet,
    .applicationSenmlJson, .applicationSensmlJson, .applicationSenmlCbor,
    .applicationSensmlCbor, .applicationSenmlExi, .applicationSensmlExi,
    .applicationYangDataCborSid, .applicationCoapGroupJson,
    .applicationDotsCbor, .applicationMissingBlocksCborSeq,
    .applicationPkcs7MimeServerGeneratedKey,
    .applicationPkcs7MimeCertsOnly, .applicationPkcs8,
    .applicationCsrattrs, .applicationPkcs10, .applicationPkixCert,
    .applicationAifCbor, .applicationAifJson, .applicationSenmlXml,
    .applicationSensmlXml, .applicationSenmlEtchJson,
    .applicationSenmlEtchCbor, .applicationYangDataCbor,
    .applicationYangDataCborName, .applicationTdJson,
    .applicationVndOcfCbor, .applicationOscore, .applicationJavascript,
    .applicationJsonDeflate, .applicationCborDeflate,
    .applicationVndOmaLwm2mTlv, .applicationVndOmaLwm2mJson,
    .applicationVndOmaLwm2mCbor, .textCss, .imageSvgXml]

/-- `ContentFormat::try_from`: the format with this number, if there is
one. -/
def ofCode (number : Nat) : Option ContentFormat :=
  all.find? fun format => format.code.toNat = number

theorem ofCode_code (format : ContentFormat) :
    ofCode format.code.toNat = some format := by
  cases format <;> rfl

/-- Not every number is one of a format. -/
example : ofCode 9 = none := by decide

end ContentFormat

/-- An option number. -/
structure CoapOption where
  number : UInt16
  deriving DecidableEq, Repr

namespace CoapOption

/-- One segment of the path for each value. -/
def uriPath : CoapOption := ⟨11⟩

/-- The format of the payload. -/
def contentFormat : CoapOption := ⟨12⟩

/-- One query for each value. -/
def uriQuery : CoapOption := ⟨15⟩

/-- The format that the response should have. -/
def accept : CoapOption := ⟨17⟩

end CoapOption

/-- The fixed header, as far as the stack reads and writes it. -/
structure Header where
  messageType : MessageType
  code : MessageClass
  messageId : UInt16
  deriving DecidableEq

/-- A message: the values of an option stand in their order. -/
structure Packet where
  header : Header
  token : Token
  options : Table CoapOption (List Bytes)
  payload : Bytes
  deriving DecidableEq

namespace Packet

/-- `Packet::new`: an empty confirmable message without token or options. -/
def new : Packet where
  header := ⟨.confirmable, .empty, 0⟩
  token := []
  options := ∅
  payload := []

/-- The values stored under an option number. -/
def getOption (packet : Packet) (option : CoapOption) :
    Option (List Bytes) :=
  packet.options.lookup option

/-- Append one value to the list stored under an option number. -/
def addOption (packet : Packet) (option : CoapOption) (value : Bytes) :
    Packet :=
  { packet with
    options := packet.options.insert option
      ((packet.getOption option).getD [] ++ [value]) }

/-- What the wire format can carry: a token of at most eight bytes, and no
option number without a value.  A reserved code is one that was read, never
one that the library writes. -/
structure WellFormed (packet : Packet) : Prop where
  token_length : packet.token.length ≤ 8
  code_not_reserved : ∀ number, packet.header.code ≠ .reserved number
  options_nonempty : ∀ option values,
    packet.options.lookup option = some values → values ≠ []

end Packet

/-- The codec operations the stack calls. -/
structure Codec where
  /-- `Packet::from_bytes`, `none` for an unparseable datagram. -/
  fromBytes : Bytes → Option Packet
  /-- `Packet::to_bytes`, `none` for a packet it refuses to encode. -/
  toBytes : Packet → Option Bytes
  getContentFormat : Packet → Option ContentFormat
  setContentFormat : Packet → ContentFormat → Packet
  /-- `ContentFormat::try_from` on a number. -/
  contentFormatTryFrom : Nat → Option ContentFormat
  /-- The encoding of `OptionValueU16`. -/
  optionValueU16 : UInt16 → Bytes

/-! ## Documented behaviour -/

/-- Setting the content format leaves the header alone. -/
def Codec.KeepsHeader (codec : Codec) : Prop :=
  ∀ packet format,
    (codec.setContentFormat packet format).header = packet.header

/-- Setting the content format touches nothing but the options. -/
structure Codec.FormatFrame (codec : Codec) : Prop where
  setContentFormat_header : codec.KeepsHeader
  setContentFormat_token : ∀ packet format,
    (codec.setContentFormat packet format).token = packet.token
  setContentFormat_payload : ∀ packet format,
    (codec.setContentFormat packet format).payload = packet.payload

/-- The content format that was set is read, and none where none was. -/
structure Codec.FormatRead (codec : Codec) : Prop where
  getContentFormat_set : ∀ packet format,
    packet.getOption .contentFormat = none →
      codec.getContentFormat (codec.setContentFormat packet format) =
        some format
  getContentFormat_absent : ∀ packet,
    packet.getOption .contentFormat = none →
      codec.getContentFormat packet = none

/-- What decodes to a request or a response is exactly the packet that was
encoded.  That every encoding decodes is not said. -/
def Codec.DecodesEncoded (codec : Codec) : Prop :=
  ∀ packet bytes decoded,
    packet.WellFormed →
      codec.toBytes packet = some bytes →
        codec.fromBytes bytes = some decoded →
          (decoded.header.code.isRequest ∨
              decoded.header.code.isResponse) →
            decoded = packet

/-- What messages keep on their way over the wire. -/
structure Codec.Lawful (codec : Codec) : Prop
    extends codec.FormatFrame, codec.FormatRead where
  decode_encode : codec.DecodesEncoded
  fromBytes_token_length : ∀ bytes packet,
    codec.fromBytes bytes = some packet → packet.token.length ≤ 8
  setContentFormat_wellFormed : ∀ packet format,
    packet.WellFormed → (codec.setContentFormat packet format).WellFormed

/-- Documented codec behaviour on the options that `CoapRequest` writes and
reads by itself. -/
structure Codec.OptionsLawful (codec : Codec) : Prop where
  /-- Big-endian, leading zero bytes removed. -/
  optionValueU16_eq : ∀ value,
    codec.optionValueU16 value =
      [UInt8.ofNat (value.toNat / 256), UInt8.ofNat value.toNat].dropWhile
        (· == 0)
  contentFormatTryFrom_code : ∀ format : ContentFormat,
    codec.contentFormatTryFrom format.code.toNat = some format
  setContentFormat_getOption : ∀ packet format option,
    option ≠ .contentFormat →
      (codec.setContentFormat packet format).getOption option =
        packet.getOption option
  getContentFormat_congr : ∀ left right,
    left.getOption .contentFormat = right.getOption .contentFormat →
      codec.getContentFormat left = codec.getContentFormat right

/-- The type and the MID stand in the fixed header of every message, so no two
packets that differ in them have one encoding. -/
def Codec.HeaderDetermined (codec : Codec) : Prop :=
  ∀ left right bytes,
    codec.toBytes left = some bytes →
      codec.toBytes right = some bytes →
        left.header.messageType = right.header.messageType ∧
          left.header.messageId = right.header.messageId

/-- The bytes encode a message with this type and MID. -/
def Codec.Encodes (codec : Codec) (messageType : MessageType)
    (mid : UInt16) (bytes : Bytes) : Prop :=
  ∃ packet, codec.toBytes packet = some bytes ∧
    packet.header.messageType = messageType ∧
      packet.header.messageId = mid

/-- What the bytes encode has one type and one MID. -/
theorem Codec.Encodes.unique
    {codec : Codec} (headers : codec.HeaderDetermined)
    {leftType rightType : MessageType} {leftMid rightMid : UInt16}
    {bytes : Bytes}
    (left : codec.Encodes leftType leftMid bytes)
    (right : codec.Encodes rightType rightMid bytes) :
    leftType = rightType ∧ leftMid = rightMid := by
  rcases left with ⟨leftPacket, leftEncoded, rfl, rfl⟩
  rcases right with ⟨rightPacket, rightEncoded, rfl, rfl⟩
  exact headers _ _ bytes leftEncoded rightEncoded

end Coapable.CoapLite
