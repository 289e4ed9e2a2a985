import Coapable.MessageTypes

/-!
# The wire format, options decoded only

A concrete codec: the fixed header, the token, the options and the payload
after its marker, as RFC 7252 section 3 lays them out.  It refuses to encode
what is longer than 1280 bytes, as `Packet::to_bytes` does, and a message with
options.  It shows that the documented behaviour collected in `Codec.Lawful`
can be met and lets a run be evaluated on concrete datagrams.
-/

namespace Coapable.BareCodec

open Coapable.CoapLite
open Coapable.MessageTypes

/-! ## The header bytes -/

/-- The number of a type in the first byte. -/
def typeNumber : MessageType → Nat
  | .confirmable => 0
  | .nonConfirmable => 1
  | .acknowledgement => 2
  | .reset => 3

/-- The type with this number. -/
def typeOfNumber : Nat → MessageType
  | 0 => .confirmable
  | 1 => .nonConfirmable
  | 2 => .acknowledgement
  | _ => .reset

@[simp]
theorem typeOfNumber_typeNumber (messageType : MessageType) :
    typeOfNumber (typeNumber messageType) = messageType := by
  cases messageType <;> rfl

theorem typeNumber_lt (messageType : MessageType) :
    typeNumber messageType < 4 := by
  cases messageType <;> decide

/-- The code byte of the classes this codec writes. -/
def classByte : MessageClass → Option UInt8
  | .empty => some 0x00
  | .request .get => some 0x01
  | .request .post => some 0x02
  | .request .put => some 0x03
  | .request .delete => some 0x04
  | .response .changed => some 0x44
  | .response .content => some 0x45
  | .response .notFound => some 0x84
  | .response .methodNotAllowed => some 0x85
  | _ => none

/-- The class that a code byte is read as. -/
def classOfByte (byte : UInt8) : MessageClass :=
  if byte = 0x00 then .empty
  else if byte = 0x01 then .request .get
  else if byte = 0x02 then .request .post
  else if byte = 0x03 then .request .put
  else if byte = 0x04 then .request .delete
  else if byte = 0x44 then .response .changed
  else if byte = 0x45 then .response .content
  else if byte = 0x84 then .response .notFound
  else if byte = 0x85 then .response .methodNotAllowed
  else .reserved byte

theorem classOfByte_classByte
    {messageClass : MessageClass} {byte : UInt8}
    (written : classByte messageClass = some byte) :
    classOfByte byte = messageClass := by
  simp only [classByte] at written
  split at written <;>
    first
      | (injection written with equal; subst equal; decide)
      | cases written

/-! ## Whole messages -/

/-- Version, type and token length. -/
def firstByte (packet : Packet) : UInt8 :=
  UInt8.ofNat
    (64 + 16 * typeNumber packet.header.messageType + packet.token.length)

/-- The payload after its marker. -/
def payloadBytes (payload : Bytes) : Bytes :=
  if payload.isEmpty then [] else 0xFF :: payload

/-- The value of a delta or length nibble with its extension bytes. -/
def extended (nibble : Nat) (bytes : Bytes) : Option (Nat × Bytes) :=
  if nibble < 13 then some (nibble, bytes)
  else
    match nibble, bytes with
    | 13, byte :: rest => some (13 + byte.toNat, rest)
    | 14, high :: low :: rest =>
        some (269 + 256 * high.toNat + low.toNat, rest)
    | _, _ => none

/-- The options up to the payload marker, and the payload.  Every option
takes a byte, so as much fuel as there are bytes is enough. -/
def optionsOfBytes (fuel : Nat) (number : Nat)
    (packet : Packet) (bytes : Bytes) : Option Packet :=
  match fuel, bytes with
  | _, [] => some packet
  | 0, _ :: _ => none
  | fuel + 1, first :: rest =>
      if first = 0xFF then
        if rest.isEmpty then none else some { packet with payload := rest }
      else
        match extended (first.toNat / 16) rest with
        | none => none
        | some (delta, rest) =>
            match extended (first.toNat % 16) rest with
            | none => none
            | some (length, rest) =>
                if length ≤ rest.length ∧ number + delta < 65536 then
                  optionsOfBytes fuel (number + delta)
                    (packet.addOption ⟨UInt16.ofNat (number + delta)⟩
                      (rest.take length))
                    (rest.drop length)
                else none

theorem optionsOfBytes_payloadBytes
    (packet : Packet) (payload : Bytes)
    (noPayload : packet.payload = []) :
    optionsOfBytes (payloadBytes payload).length 0 packet
        (payloadBytes payload) =
      some { packet with payload := payload } := by
  cases payload with
  | nil =>
      rcases packet with ⟨header, token, options, payload⟩
      simp only at noPayload
      subst noPayload
      rfl
  | cons head tail => simp [payloadBytes, optionsOfBytes]

/-- Reading options and payload leaves the header and the token alone. -/
theorem optionsOfBytes_frame
    {fuel number : Nat} {packet decoded : Packet} {bytes : Bytes}
    (decodes : optionsOfBytes fuel number packet bytes = some decoded) :
    decoded.header = packet.header ∧ decoded.token = packet.token := by
  induction fuel generalizing number packet decoded bytes with
  | zero =>
      cases bytes with
      | nil =>
          rw [← Option.some.inj decodes]
          exact ⟨rfl, rfl⟩
      | cons first rest => cases decodes
  | succ fuel induction =>
      cases bytes with
      | nil =>
          rw [← Option.some.inj decodes]
          exact ⟨rfl, rfl⟩
      | cons first rest =>
          simp only [optionsOfBytes] at decodes
          split at decodes
          · split at decodes
            · cases decodes
            · rw [← Option.some.inj decodes]
              exact ⟨rfl, rfl⟩
          · split at decodes
            · cases decodes
            · split at decodes
              · cases decodes
              · split at decodes
                · have kept := induction decodes
                  exact kept
                · cases decodes

theorem optionsOfBytes_token
    {fuel number : Nat} {packet decoded : Packet} {bytes : Bytes}
    (decodes : optionsOfBytes fuel number packet bytes = some decoded) :
    decoded.token = packet.token :=
  (optionsOfBytes_frame decodes).2

/-- The longest packet that `Packet::to_bytes` encodes. -/
def maxSize : Nat := 1280

/-- The bytes of a message without options and with this code byte. -/
def packetBytes (packet : Packet) (code : UInt8) : Bytes :=
  [firstByte packet, code,
    UInt8.ofNat (packet.header.messageId.toNat / 256),
    UInt8.ofNat packet.header.messageId.toNat] ++
    packet.token ++ payloadBytes packet.payload

/-- `Packet::to_bytes`. -/
def toBytes (packet : Packet) : Option Bytes :=
  if packet.options = ∅ ∧ packet.token.length ≤ 8 then
    ((classByte packet.header.code).map (packetBytes packet)).filter
      fun bytes => bytes.length ≤ maxSize
  else none

theorem length_le_maxSize
    {packet : Packet} {bytes : Bytes}
    (encoded : toBytes packet = some bytes) :
    bytes.length ≤ maxSize := by
  simp only [toBytes] at encoded
  split at encoded
  · rw [Option.filter_eq_some_iff] at encoded
    exact of_decide_eq_true encoded.2
  · cases encoded

/-- `Packet::from_bytes`. -/
def fromBytes : Bytes → Option Packet
  | first :: code :: high :: low :: rest =>
      let tokenLength := first.toNat % 16
      if first.toNat / 64 = 1 ∧ tokenLength ≤ 8 ∧
          tokenLength ≤ rest.length then
        optionsOfBytes (rest.drop tokenLength).length 0
          { header :=
              ⟨typeOfNumber (first.toNat / 16 % 4), classOfByte code,
                UInt16.ofNat (256 * high.toNat + low.toNat)⟩
            token := rest.take tokenLength
            options := ∅
            payload := [] }
          (rest.drop tokenLength)
      else none
  | _ => none

theorem fromBytes_toBytes
    {packet : Packet} {bytes : Bytes}
    (encoded : toBytes packet = some bytes) :
    fromBytes bytes = some packet := by
  simp only [toBytes] at encoded
  split at encoded
  · next encodable =>
      rcases encodable with ⟨noOptions, tokenLength⟩
      rw [Option.filter_eq_some_iff, Option.map_eq_some_iff] at encoded
      rcases encoded with ⟨⟨code, written, rfl⟩, _⟩
      have typeBound := typeNumber_lt packet.header.messageType
      have first : (firstByte packet).toNat =
          64 + 16 * typeNumber packet.header.messageType +
            packet.token.length := by
        rw [firstByte, UInt8.toNat_ofNat']
        omega
      have length : (firstByte packet).toNat % 16 =
          packet.token.length := by
        omega
      have kind : (firstByte packet).toNat / 16 % 4 =
          typeNumber packet.header.messageType := by
        omega
      have version : (firstByte packet).toNat / 64 = 1 := by
        omega
      have midBound := packet.header.messageId.toNat_lt
      have mid : UInt16.ofNat
          (256 * (UInt8.ofNat
              (packet.header.messageId.toNat / 256)).toNat +
            (UInt8.ofNat packet.header.messageId.toNat).toNat) =
          packet.header.messageId := by
        apply UInt16.toNat_inj.mp
        rw [UInt16.toNat_ofNat', UInt8.toNat_ofNat', UInt8.toNat_ofNat']
        omega
      simp only [packetBytes, List.cons_append, List.nil_append, fromBytes,
        length, kind, mid, version, true_and]
      rw [if_pos ⟨tokenLength, by simp⟩, List.drop_left,
        List.take_left, optionsOfBytes_payloadBytes _ _ rfl]
      simp only [typeOfNumber_typeNumber,
        classOfByte_classByte written, Option.some.injEq]
      rcases packet with ⟨header, token, options, payload⟩
      simp only at noOptions
      rw [noOptions]
  · cases encoded

/-! ## Content formats -/

/-- An option value of at most 16 bits, leading zero bytes removed. -/
def optionValueU16 (value : UInt16) : Bytes :=
  if value = 0 then []
  else if value.toNat < 256 then [UInt8.ofNat value.toNat]
  else [UInt8.ofNat (value.toNat / 256), UInt8.ofNat value.toNat]

theorem usizeFromBeBytes_optionValueU16 (value : UInt16) :
    usizeFromBeBytes (optionValueU16 value) = value.toNat := by
  have bound := value.toNat_lt
  simp only [optionValueU16]
  split
  · next zero =>
      subst zero
      rfl
  · split
    · next small =>
        simp [usizeFromBeBytes]
        omega
    · simp [usizeFromBeBytes, UInt8.toNat_ofNat']
      omega

/-- `Packet::get_content_format`: the first value counts. -/
def getContentFormat (packet : Packet) : Option ContentFormat :=
  match packet.getOption .contentFormat with
  | some (raw :: _) => ContentFormat.ofCode (usizeFromBeBytes raw)
  | _ => none

/-- `Packet::set_content_format`. -/
def setContentFormat (packet : Packet) (format : ContentFormat) :
    Packet :=
  packet.addOption .contentFormat (optionValueU16 format.code)

/-- The codec of the concrete runs. -/
def bareCodec : Codec where
  fromBytes := fromBytes
  toBytes := toBytes
  getContentFormat := getContentFormat
  setContentFormat := setContentFormat
  contentFormatTryFrom := ContentFormat.ofCode
  optionValueU16 := optionValueU16

theorem bareCodec_lawful : bareCodec.Lawful where
  decode_encode := by
    intro packet bytes decoded _ encoded decodes _
    have roundTrip := fromBytes_toBytes encoded
    exact Option.some.inj (decodes.symm.trans roundTrip)
  fromBytes_token_length := by
    intro bytes packet decodes
    change fromBytes bytes = some packet at decodes
    simp only [fromBytes] at decodes
    split at decodes
    · next first code high low rest =>
        split at decodes
        · next accepted =>
            rw [optionsOfBytes_token decodes, List.length_take]
            exact (Nat.min_le_left _ _).trans accepted.2.1
        · cases decodes
    · cases decodes
  setContentFormat_header _ _ := rfl
  setContentFormat_token _ _ := rfl
  setContentFormat_payload _ _ := rfl
  setContentFormat_wellFormed := by
    intro packet format wellFormed
    refine ⟨wellFormed.token_length, wellFormed.code_not_reserved, ?_⟩
    intro option values found
    change (packet.options.insert _ _).lookup option = some values
      at found
    rw [Foundation.FiniteMap.lookup_insert_eq] at found
    split at found
    · rw [Option.some.injEq] at found
      rw [← found]
      simp
    · exact wellFormed.options_nonempty option values found
  getContentFormat_set := by
    intro packet format absent
    have stored :
        (setContentFormat packet format).getOption .contentFormat =
          some [optionValueU16 format.code] := by
      change (packet.options.insert _ _).lookup _ = _
      rw [Finmap.lookup_insert, absent]
      rfl
    change getContentFormat (setContentFormat packet format) = _
    rw [getContentFormat, stored]
    simp only [usizeFromBeBytes_optionValueU16]
    exact ContentFormat.ofCode_code format
  getContentFormat_absent := by
    intro packet absent
    change getContentFormat packet = none
    rw [getContentFormat, absent]

theorem bareCodec_optionsLawful : bareCodec.OptionsLawful where
  optionValueU16_eq := by
    intro value
    have bound := value.toNat_lt
    change optionValueU16 value = _
    rw [optionValueU16]
    split
    · next zero =>
        subst zero
        rfl
    · next nonzero =>
        have positive : value.toNat ≠ 0 := fun isZero =>
          nonzero (UInt16.toNat_inj.mp isZero)
        split
        · next small =>
            have high : UInt8.ofNat (value.toNat / 256) = 0 := by
              rw [Nat.div_eq_of_lt small]
              rfl
            have low : UInt8.ofNat value.toNat ≠ 0 := by
              rw [Ne, ← UInt8.toNat_inj]
              simp
              omega
            rw [high, List.dropWhile_cons_of_pos rfl,
              List.dropWhile_cons_of_neg (by rwa [beq_iff_eq])]
        · have high : UInt8.ofNat (value.toNat / 256) ≠ 0 := by
            rw [Ne, ← UInt8.toNat_inj]
            simp [UInt8.toNat_ofNat']
            omega
          rw [List.dropWhile_cons_of_neg (by rwa [beq_iff_eq])]
  contentFormatTryFrom_code := ContentFormat.ofCode_code
  setContentFormat_getOption := by
    intro packet format option other
    exact (Foundation.FiniteMap.lookup_insert_eq _ _ _ _).trans
      (if_neg other)
  getContentFormat_congr := by
    intro left right same
    change getContentFormat left = getContentFormat right
    rw [getContentFormat, getContentFormat, same]

theorem bareCodec_headerDetermined : bareCodec.HeaderDetermined := by
  intro left right bytes leftEncoded rightEncoded
  have same := (fromBytes_toBytes leftEncoded).symm.trans
    (fromBytes_toBytes rightEncoded)
  rw [Option.some.inj same]
  exact ⟨rfl, rfl⟩

end Coapable.BareCodec
