import Coapable.Foundation.Pieces
import Coapable.MessageTypes

/-!
# Requests and responses over the wire

`to_packet` writes the type, the code, the MID and the token of a message
into a packet that the wire format can carry, so a lawful codec reads them
back.  A response is read back as a whole: its code, its content format and
its payload.
-/

namespace Coapable.MessageTypes

open Coapable.CoapLite
open Coapable.Foundation.FiniteMap
open Coapable.Foundation.Pieces

/-! ## Texts and path segments -/

theorem toByteArray_asBytes (text : String) :
    (asBytes text).toByteArray = text.toUTF8 := by
  apply ByteArray.ext
  rw [asBytes, List.data_toByteArray, Array.toArray_toList]

/-- A text survives its UTF-8 encoding. -/
theorem fromUtf8_asBytes (text : String) :
    fromUtf8 (asBytes text) = some text := by
  rw [fromUtf8, String.fromUTF8?, toByteArray_asBytes]
  exact dif_pos text.isValidUTF8

theorem filterMap_fromUtf8_asBytes (texts : List String) :
    (texts.map asBytes).filterMap fromUtf8 = texts := by
  rw [List.filterMap_map]
  have decodes : fromUtf8 ∘ asBytes = some :=
    funext fromUtf8_asBytes
  rw [decodes, List.filterMap_some]

theorem pathSegments_eq (path : String) :
    pathSegments path = (pieces '/' path.toList).map String.ofList :=
  rfl

/-- A segment is not empty and holds no slash. -/
theorem ne_empty_and_not_mem_of_mem_pathSegments
    {path segment : String} (member : segment ∈ pathSegments path) :
    segment ≠ "" ∧ '/' ∉ segment.toList := by
  rw [pathSegments_eq] at member
  rcases List.mem_map.mp member with ⟨piece, isPiece, rfl⟩
  rcases ne_nil_and_not_mem_of_mem_pieces isPiece with ⟨nonempty, absent⟩
  rw [String.toList_ofList]
  refine ⟨?_, absent⟩
  intro isEmpty
  apply nonempty
  rw [← String.toList_ofList (l := piece), isEmpty]
  rfl

/-- Joining the segments of a path behind a slash keeps them. -/
theorem pathSegments_join (path : String) :
    pathSegments ("/" ++ String.intercalate "/" (pathSegments path)) =
      pathSegments path := by
  have whole : ∀ part ∈ (pathSegments path).map String.toList,
      part ≠ [] ∧ '/' ∉ part := by
    intro part member
    rcases List.mem_map.mp member with ⟨segment, isSegment, rfl⟩
    rcases ne_empty_and_not_mem_of_mem_pathSegments isSegment with
      ⟨nonempty, absent⟩
    exact ⟨fun isNil => nonempty (String.toList_inj.mp isNil), absent⟩
  rw [pathSegments_eq ("/" ++ _), String.toList_append,
    String.toList_intercalate]
  change (pieces '/' ('/' :: ['/'].intercalate _)).map _ = _
  rw [pieces_cons_self, pieces_intercalate, flatMap_pieces_eq_self whole,
    List.map_map]
  exact List.map_id'' (fun segment => String.ofList_toList) _

/-! ## What the wire format can carry -/

/-- A packet with this header and token that the wire format can carry. -/
structure Carries (packet : Packet) (header : Header) (token : Token) :
    Prop where
  header_eq : packet.header = header
  token_eq : packet.token = token
  wellFormed : packet.WellFormed

section Carries

variable {codec : Codec} {packet : Packet} {header : Header}
  {token : Token}

theorem carries_bare
    (short : token.length ≤ 8)
    (written : ∀ number, header.code ≠ .reserved number) :
    Carries { Packet.new with header := header, token := token } header
      token where
  header_eq := rfl
  token_eq := rfl
  wellFormed :=
    { token_length := short
      code_not_reserved := written
      options_nonempty := fun _ _ found => nomatch found }

theorem Carries.ite (condition : Prop) [Decidable condition]
    {other : Packet} (first : Carries packet header token)
    (second : Carries other header token) :
    Carries (if condition then packet else other) header token := by
  split
  · exact first
  · exact second

theorem Carries.withPayload
    (carries : Carries packet header token) (payload : Bytes) :
    Carries { packet with payload := payload } header token where
  header_eq := carries.header_eq
  token_eq := carries.token_eq
  wellFormed :=
    ⟨carries.wellFormed.token_length, carries.wellFormed.code_not_reserved,
      carries.wellFormed.options_nonempty⟩

theorem Carries.addOption
    (carries : Carries packet header token) (option : CoapOption)
    (value : Bytes) :
    Carries (packet.addOption option value) header token where
  header_eq := carries.header_eq
  token_eq := carries.token_eq
  wellFormed := by
    refine ⟨carries.wellFormed.token_length,
      carries.wellFormed.code_not_reserved, ?_⟩
    intro other values found
    change (packet.options.insert _ _).lookup other = some values at found
    rw [lookup_insert_eq] at found
    split at found
    · rw [← Option.some.inj found]
      simp
    · exact carries.wellFormed.options_nonempty other values found

/-- Any number of option values may be appended. -/
theorem Carries.foldl_addOption {Item : Type}
    (carries : Carries packet header token) (option : CoapOption)
    (value : Item → Bytes) (items : List Item) :
    Carries
      (items.foldl
        (fun packet item => packet.addOption option (value item)) packet)
      header token := by
  induction items generalizing packet with
  | nil => exact carries
  | cons item rest induction =>
      exact induction (carries.addOption option (value item))

theorem Carries.setContentFormat
    (lawful : codec.Lawful) (carries : Carries packet header token)
    (format : ContentFormat) :
    Carries (codec.setContentFormat packet format) header token where
  header_eq :=
    (lawful.setContentFormat_header packet format).trans carries.header_eq
  token_eq :=
    (lawful.setContentFormat_token packet format).trans carries.token_eq
  wellFormed :=
    lawful.setContentFormat_wellFormed packet format carries.wellFormed

end Carries

section Messages

variable {codec : Codec} {token : Token} {mid : UInt16}

theorem CoapRequest.toPacket_carries
    (lawful : codec.Lawful) (short : token.length ≤ 8)
    (request : CoapRequest) :
    Carries (request.toPacket codec token mid)
      ⟨if request.confirmable then .confirmable else .nonConfirmable,
        .request request.method, mid⟩ token := by
  have bare : Carries
      { Packet.new with
        header := ⟨if request.confirmable then .confirmable
          else .nonConfirmable, .request request.method, mid⟩
        token := token }
      ⟨if request.confirmable then .confirmable else .nonConfirmable,
        .request request.method, mid⟩ token :=
    carries_bare short (by simp)
  have queried :=
    (Carries.ite (request.path.isEmpty = true) bare
      (bare.foldl_addOption .uriPath asBytes
        (pathSegments request.path))).foldl_addOption
      .uriQuery asBytes request.queries
  simp only [CoapRequest.toPacket]
  refine (fun optional => Carries.ite _ optional
    (optional.withPayload _)) ?_
  split
  · refine Carries.addOption ?_ _ _
    split
    · exact queried.setContentFormat lawful _
    · exact queried
  · split
    · exact queried.setContentFormat lawful _
    · exact queried

theorem foldl_addOption_header {Item : Type}
    (option : CoapOption) (value : Item → Bytes) (items : List Item)
    (packet : Packet) :
    (items.foldl
      (fun packet item => packet.addOption option (value item))
        packet).header = packet.header := by
  induction items generalizing packet with
  | nil => rfl
  | cons item rest induction => exact induction _

/-- A request is encoded with its type and the MID it is sent with, whatever
its token. -/
theorem CoapRequest.toPacket_header
    (keeps : codec.KeepsHeader) (request : CoapRequest) :
    (request.toPacket codec token mid).header =
      ⟨if request.confirmable then .confirmable else .nonConfirmable,
        .request request.method, mid⟩ := by
  have withOption (packet : Packet) (option : CoapOption) (value : Bytes) :
      (packet.addOption option value).header = packet.header := rfl
  simp only [toPacket, apply_ite Packet.header, ite_self]
  cases request.contentFormat <;> cases request.accept <;>
    simp only [withOption, keeps _ _, foldl_addOption_header,
      apply_ite Packet.header, ite_self]

/-- The packet of a response without its content format. -/
def CoapResponse.barePacket (response : CoapResponse) (token : Token)
    (mid : UInt16) (messageType : MessageType) : Packet :=
  { Packet.new with
    header := ⟨messageType, .response response.responseType, mid⟩
    token := token
    payload := response.payload }

theorem CoapResponse.toPacket_eq
    (codec : Codec) (response : CoapResponse) (token : Token)
    (mid : UInt16) (messageType : MessageType) :
    response.toPacket codec token mid messageType =
      match response.contentFormat with
      | some format =>
          codec.setContentFormat
            (response.barePacket token mid messageType) format
      | none => response.barePacket token mid messageType :=
  rfl

/-- A response is encoded with the type and the MID it is sent with, whatever
its token. -/
theorem CoapResponse.toPacket_encodes
    (keeps : codec.KeepsHeader) {response : CoapResponse}
    {messageType : MessageType} {bytes : Bytes}
    (encoded : codec.toBytes
      (response.toPacket codec token mid messageType) = some bytes) :
    codec.Encodes messageType mid bytes := by
  have header : (response.toPacket codec token mid messageType).header =
      (response.barePacket token mid messageType).header := by
    rw [toPacket_eq]
    split
    · exact keeps _ _
    · rfl
  exact ⟨_, encoded, congrArg Header.messageType header,
    congrArg Header.messageId header⟩

theorem CoapResponse.toPacket_carries
    (lawful : codec.Lawful) (short : token.length ≤ 8)
    (response : CoapResponse) (messageType : MessageType) :
    Carries (response.toPacket codec token mid messageType)
      ⟨messageType, .response response.responseType, mid⟩ token := by
  have bare : Carries (response.barePacket token mid messageType)
      ⟨messageType, .response response.responseType, mid⟩ token :=
    (carries_bare short (by simp)).withPayload response.payload
  rw [toPacket_eq]
  split
  · exact bare.setContentFormat lawful _
  · exact bare

/-- A response survives its packet. -/
theorem CoapResponse.fromPacket_toPacket
    (frame : codec.FormatFrame) (read : codec.FormatRead)
    (response : CoapResponse)
    (messageType : MessageType) :
    CoapResponse.fromPacket codec
        (response.toPacket codec token mid messageType) =
      .ok response := by
  rw [CoapResponse.fromPacket_ok_iff, toPacket_eq]
  cases isFormat : response.contentFormat with
  | some format =>
      refine ⟨?_, ?_, ?_⟩
      · exact congrArg Header.code (frame.setContentFormat_header _ format)
      · exact (read.getContentFormat_set _ format rfl).symm
      · exact (frame.setContentFormat_payload
          (response.barePacket token mid messageType) format).symm
  | none =>
      exact ⟨rfl, (read.getContentFormat_absent _ rfl).symm, rfl⟩

end Messages

end Coapable.MessageTypes
