import Coapable.BareCodec
import Coapable.RoundTrip
import Mathlib.Data.List.TakeWhile

/-!
# A request and its packet

`to_packet` and `from_packet` of `CoapRequest` are written separately.  A
packet keeps a list of values under each option number; the encoder appends
to the lists of four options, and the decoder reads each list back.  Only the
path changes on the way: it loses its empty segments and gains a slash in
front.
-/

namespace Coapable.MessageTypes

open Coapable.BareCodec
open Coapable.CoapLite
open Coapable.Foundation.FiniteMap

/-! ## Building a request -/

/-- The builder, with the fields of the request it builds. -/
structure CoapRequestBuilder where
  request : CoapRequest

namespace CoapRequestBuilder

/-- A builder of an empty confirmable request. -/
def new (method : RequestType) : CoapRequestBuilder where
  request := {
    method := method
    path := ""
    queries := []
    contentFormat := none
    payload := []
    accept := none
    confirmable := true }

/-- Set the path. -/
def path (builder : CoapRequestBuilder) (path : String) :
    CoapRequestBuilder :=
  ⟨{ builder.request with path := path }⟩

/-- Add a query. -/
def query (builder : CoapRequestBuilder) (query : String) :
    CoapRequestBuilder :=
  ⟨{ builder.request with queries := builder.request.queries ++ [query] }⟩

/-- Set the content format of the payload. -/
def contentFormat (builder : CoapRequestBuilder)
    (contentFormat : ContentFormat) : CoapRequestBuilder :=
  ⟨{ builder.request with contentFormat := some contentFormat }⟩

/-- Set the payload. -/
def payload (builder : CoapRequestBuilder) (payload : Bytes) :
    CoapRequestBuilder :=
  ⟨{ builder.request with payload := payload }⟩

/-- Set the content format that is accepted. -/
def accept (builder : CoapRequestBuilder)
    (contentFormat : ContentFormat) : CoapRequestBuilder :=
  ⟨{ builder.request with accept := some contentFormat }⟩

/-- Set whether the request is sent as a CON. -/
def confirmable (builder : CoapRequestBuilder) (confirmable : Bool) :
    CoapRequestBuilder :=
  ⟨{ builder.request with confirmable := confirmable }⟩

/-- The request that was built. -/
def build (builder : CoapRequestBuilder) : CoapRequest :=
  builder.request

/-- What the calls of the builder lead to. -/
inductive Builds : CoapRequestBuilder → Prop where
  | new (method : RequestType) : Builds (new method)
  | path {builder : CoapRequestBuilder} (built : Builds builder)
      (path : String) : Builds (builder.path path)
  | query {builder : CoapRequestBuilder} (built : Builds builder)
      (query : String) : Builds (builder.query query)
  | contentFormat {builder : CoapRequestBuilder} (built : Builds builder)
      (format : ContentFormat) : Builds (builder.contentFormat format)
  | payload {builder : CoapRequestBuilder} (built : Builds builder)
      (payload : Bytes) : Builds (builder.payload payload)
  | accept {builder : CoapRequestBuilder} (built : Builds builder)
      (format : ContentFormat) : Builds (builder.accept format)
  | confirmable {builder : CoapRequestBuilder} (built : Builds builder)
      (confirmable : Bool) : Builds (builder.confirmable confirmable)

/-- Every request is built by some calls. -/
theorem exists_builds (request : CoapRequest) :
    ∃ builder, Builds builder ∧ builder.build = request := by
  rcases request with
    ⟨method, path, queries, format, payload, accept, confirmable⟩
  have texts : Builds ⟨⟨method, path, queries, none, payload, none,
      confirmable⟩⟩ := by
    induction queries using List.reverseRecOn with
    | nil =>
        exact (((Builds.new method).path path).payload payload).confirmable
          confirmable
    | append_singleton rest query induction =>
        exact induction.query query
  have formatted : Builds ⟨⟨method, path, queries, format, payload, none,
      confirmable⟩⟩ := by
    cases format with
    | none => exact texts
    | some format => exact texts.contentFormat format
  refine ⟨⟨⟨method, path, queries, format, payload, accept,
    confirmable⟩⟩, ?_, rfl⟩
  cases accept with
  | none => exact formatted
  | some format => exact formatted.accept format

end CoapRequestBuilder

/-! ## Lists of option values -/

/-- The values under an option number, in order. -/
def optionValues (packet : Packet) (option : CoapOption) : List Bytes :=
  (packet.getOption option).getD []

theorem addOption_getOption_of_ne
    {option other : CoapOption} (distinct : other ≠ option)
    (packet : Packet) (value : Bytes) :
    (packet.addOption option value).getOption other =
      packet.getOption other :=
  (lookup_insert_eq _ _ _ _).trans (if_neg distinct)

theorem optionValues_addOption
    (packet : Packet) (option : CoapOption) (value : Bytes) :
    optionValues (packet.addOption option value) option =
      optionValues packet option ++ [value] := by
  have stored : (packet.addOption option value).getOption option =
      some (optionValues packet option ++ [value]) :=
    (lookup_insert_eq _ _ _ _).trans (if_pos rfl)
  rw [optionValues, stored]
  rfl

/-- Append a value for each item. -/
def addOptions {Item : Type} (option : CoapOption) (value : Item → Bytes)
    (items : List Item) (packet : Packet) : Packet :=
  items.foldl (fun packet item => packet.addOption option (value item))
    packet

section AddOptions

variable {Item : Type} (option : CoapOption) (value : Item → Bytes)

theorem optionValues_addOptions (items : List Item) (packet : Packet) :
    optionValues (addOptions option value items packet) option =
      optionValues packet option ++ items.map value := by
  induction items generalizing packet with
  | nil => exact (List.append_nil _).symm
  | cons item rest induction =>
      refine (induction _).trans ?_
      rw [optionValues_addOption, List.append_assoc]
      rfl

theorem addOptions_getOption_of_ne
    {other : CoapOption} (distinct : other ≠ option)
    (items : List Item) (packet : Packet) :
    (addOptions option value items packet).getOption other =
      packet.getOption other := by
  induction items generalizing packet with
  | nil => rfl
  | cons item rest induction =>
      exact (induction _).trans (addOption_getOption_of_ne distinct _ _)

/-- Options are appended to the table of options only. -/
theorem addOptions_frame (items : List Item) (packet : Packet) :
    addOptions option value items packet =
      { packet with
        options := (addOptions option value items packet).options } := by
  induction items generalizing packet with
  | nil => rfl
  | cons item rest induction =>
      exact (induction _).trans rfl

end AddOptions

/-! ## Big-endian numbers -/

theorem usizeFromBeBytes_zero_cons (bytes : Bytes) :
    usizeFromBeBytes (0 :: bytes) = usizeFromBeBytes bytes :=
  rfl

theorem usizeFromBeBytes_replicate_append (count : Nat) (bytes : Bytes) :
    usizeFromBeBytes (List.replicate count 0 ++ bytes) =
      usizeFromBeBytes bytes := by
  induction count with
  | zero => rfl
  | succ count induction =>
      rw [List.replicate_succ, List.cons_append,
        usizeFromBeBytes_zero_cons, induction]

/-- Leading zero bytes do not count. -/
theorem usizeFromBeBytes_dropWhile (bytes : Bytes) :
    usizeFromBeBytes (bytes.dropWhile (· == 0)) =
      usizeFromBeBytes bytes := by
  induction bytes with
  | nil => rfl
  | cons byte rest induction =>
      rw [List.dropWhile_cons]
      split
      · next isZero =>
          rw [beq_iff_eq.mp isZero, usizeFromBeBytes_zero_cons, induction]
      · rfl

section OptionValue

variable {codec : Codec} (options : codec.OptionsLawful)

include options

theorem optionValueU16_length (value : UInt16) :
    (codec.optionValueU16 value).length ≤ 8 := by
  rw [options.optionValueU16_eq]
  exact (List.length_dropWhile_le _ _).trans (by simp)

theorem usizeFromBeBytes_optionValue (value : UInt16) :
    usizeFromBeBytes (codec.optionValueU16 value) = value.toNat := by
  have bound := value.toNat_lt
  rw [options.optionValueU16_eq, usizeFromBeBytes_dropWhile]
  simp only [usizeFromBeBytes, List.foldl_cons, List.foldl_nil,
    UInt8.toNat_ofNat']
  omega

end OptionValue

/-! ## What the decoder reads -/

namespace CoapRequest

theorem decodePath_eq (packet : Packet) :
    decodePath packet =
      "/" ++ String.intercalate "/"
        ((optionValues packet .uriPath).filterMap fromUtf8) := by
  rw [decodePath, optionValues]
  cases packet.getOption .uriPath <;> rfl

theorem decodeQueries_eq (packet : Packet) :
    decodeQueries packet =
      (optionValues packet .uriQuery).filterMap fromUtf8 := by
  rw [decodeQueries, optionValues]
  cases packet.getOption .uriQuery <;> rfl

/-- An `Accept` list of at most one encoded format is read back. -/
theorem decodeAccept_eq
    {codec : Codec} (options : codec.OptionsLawful) {packet : Packet}
    {accept : Option ContentFormat}
    (values : optionValues packet .accept =
      accept.toList.map fun format => codec.optionValueU16 format.code) :
    decodeAccept codec packet = .ok accept := by
  rw [optionValues] at values
  rw [decodeAccept]
  cases accept with
  | none =>
      cases found : packet.getOption .accept with
      | none => rfl
      | some stored =>
          rw [found] at values
          cases (values : stored = [])
          rfl
  | some format =>
      cases found : packet.getOption .accept with
      | none =>
          rw [found] at values
          cases values
      | some stored =>
          rw [found] at values
          cases (values : stored = [codec.optionValueU16 format.code])
          simp only
          rw [if_pos (optionValueU16_length options _),
            usizeFromBeBytes_replicate_append,
            usizeFromBeBytes_optionValue options,
            options.contentFormatTryFrom_code]

/-! ## The packet in four steps -/

/-- The header, the path and the queries. -/
def textPacket (request : CoapRequest) (token : Token)
    (mid : UInt16) : Packet :=
  addOptions .uriQuery asBytes request.queries
    (addOptions .uriPath asBytes (pathSegments request.path)
      { Packet.new with
        header := ⟨if request.confirmable then .confirmable
          else .nonConfirmable, .request request.method, mid⟩
        token := token })

/-- With the content format. -/
def formatPacket (codec : Codec) (request : CoapRequest)
    (token : Token) (mid : UInt16) : Packet :=
  match request.contentFormat with
  | some format =>
      codec.setContentFormat (request.textPacket token mid) format
  | none => request.textPacket token mid

/-- With the accepted content format. -/
def acceptPacket (codec : Codec) (request : CoapRequest)
    (token : Token) (mid : UInt16) : Packet :=
  addOptions .accept
    (fun format : ContentFormat => codec.optionValueU16 format.code)
    request.accept.toList (request.formatPacket codec token mid)

section Steps

variable {codec : Codec} (request : CoapRequest) (token : Token)
  (mid : UInt16)

theorem formatPacket_header (keeps : codec.KeepsHeader) :
    (request.formatPacket codec token mid).header =
      (request.textPacket token mid).header := by
  rw [formatPacket]
  split
  · exact keeps _ _
  · rfl

theorem textPacket_header :
    (request.textPacket token mid).header =
      ⟨if request.confirmable then .confirmable else .nonConfirmable,
        .request request.method, mid⟩ := by
  rw [textPacket, addOptions_frame, addOptions_frame]

theorem formatPacket_payload (frame : codec.FormatFrame) :
    (request.formatPacket codec token mid).payload = [] := by
  have bare : (request.textPacket token mid).payload = [] := by
    rw [textPacket, addOptions_frame, addOptions_frame]
    rfl
  rw [formatPacket]
  split
  · exact (frame.setContentFormat_payload _ _).trans bare
  · exact bare

theorem formatPacket_getOption_of_ne
    (options : codec.OptionsLawful) {option : CoapOption}
    (distinct : option ≠ .contentFormat) :
    (request.formatPacket codec token mid).getOption option =
      (request.textPacket token mid).getOption option := by
  rw [formatPacket]
  split
  · exact options.setContentFormat_getOption _ _ _ distinct
  · rfl

/-- A number that is neither that of the path nor that of the queries is
still free. -/
theorem textPacket_getOption_of_ne {option : CoapOption}
    (noPath : option ≠ .uriPath) (noQuery : option ≠ .uriQuery) :
    (request.textPacket token mid).getOption option = none := by
  rw [textPacket, addOptions_getOption_of_ne _ _ noQuery,
    addOptions_getOption_of_ne _ _ noPath]
  rfl

theorem formatPacket_contentFormat (read : codec.FormatRead) :
    codec.getContentFormat (request.formatPacket codec token mid) =
      request.contentFormat := by
  have free : (request.textPacket token mid).getOption .contentFormat =
      none :=
    request.textPacket_getOption_of_ne token mid (by decide) (by decide)
  rw [formatPacket]
  split
  · next format isFormat =>
      rw [isFormat, read.getContentFormat_set _ _ free]
  · next noFormat =>
      rw [noFormat, read.getContentFormat_absent _ free]

theorem textPacket_uriPath :
    optionValues (request.textPacket token mid) .uriPath =
      (pathSegments request.path).map asBytes := by
  rw [textPacket, optionValues,
    addOptions_getOption_of_ne _ _ (by decide)]
  exact optionValues_addOptions _ _ _ _

theorem textPacket_uriQuery :
    optionValues (request.textPacket token mid) .uriQuery =
      request.queries.map asBytes := by
  rw [textPacket, optionValues_addOptions, optionValues,
    addOptions_getOption_of_ne _ _ (by decide)]
  rfl

theorem acceptPacket_getOption_of_ne
    (options : codec.OptionsLawful) {option : CoapOption}
    (noAccept : option ≠ .accept) (noFormat : option ≠ .contentFormat) :
    (request.acceptPacket codec token mid).getOption option =
      (request.textPacket token mid).getOption option := by
  rw [acceptPacket, addOptions_getOption_of_ne _ _ noAccept]
  exact request.formatPacket_getOption_of_ne token mid options noFormat

theorem acceptPacket_accept (options : codec.OptionsLawful) :
    optionValues (request.acceptPacket codec token mid) .accept =
      request.accept.toList.map
        fun format => codec.optionValueU16 format.code := by
  rw [acceptPacket, optionValues_addOptions, optionValues,
    request.formatPacket_getOption_of_ne token mid options (by decide),
    request.textPacket_getOption_of_ne token mid (by decide) (by decide)]
  rfl

theorem acceptPacket_header (keeps : codec.KeepsHeader) :
    (request.acceptPacket codec token mid).header =
      ⟨if request.confirmable then .confirmable else .nonConfirmable,
        .request request.method, mid⟩ := by
  rw [acceptPacket, addOptions_frame]
  exact (request.formatPacket_header token mid keeps).trans
    (request.textPacket_header token mid)

theorem acceptPacket_contentFormat
    (read : codec.FormatRead) (options : codec.OptionsLawful) :
    codec.getContentFormat (request.acceptPacket codec token mid) =
      request.contentFormat := by
  rw [← request.formatPacket_contentFormat token mid read]
  exact options.getContentFormat_congr _ _
    (addOptions_getOption_of_ne _ _ (by decide) _ _)

theorem toPacket_eq (frame : codec.FormatFrame) :
    request.toPacket codec token mid =
      { request.acceptPacket codec token mid with
        payload := request.payload } := by
  have texts :
      request.queries.foldl
          (fun packet query => packet.addOption .uriQuery (asBytes query))
          (if request.path.isEmpty then
            { Packet.new with
              header := ⟨if request.confirmable then .confirmable
                else .nonConfirmable, .request request.method, mid⟩
              token := token }
          else
            (pathSegments request.path).foldl
              (fun packet segment =>
                packet.addOption .uriPath (asBytes segment))
              { Packet.new with
                header := ⟨if request.confirmable then .confirmable
                  else .nonConfirmable, .request request.method, mid⟩
                token := token }) =
        request.textPacket token mid := by
    split
    · next isEmpty =>
        rw [textPacket, String.isEmpty_iff.mp isEmpty]
        rfl
    · rfl
  have accepted : request.toPacket codec token mid =
      if request.payload.isEmpty then
        request.acceptPacket codec token mid
      else
        { request.acceptPacket codec token mid with
          payload := request.payload } := by
    simp only [toPacket, texts, acceptPacket]
    cases request.accept <;> rfl
  rw [accepted]
  split
  · next isEmpty =>
      have same : (request.acceptPacket codec token mid).payload =
          request.payload := by
        rw [List.isEmpty_iff.mp isEmpty, acceptPacket, addOptions_frame]
        exact request.formatPacket_payload token mid frame
      rw [← same]
  · rfl

end Steps

/-! ## The round trip -/

/-- The request with its path as the decoder writes it: a slash, and the
segments with slashes between them. -/
def normalized (request : CoapRequest) : CoapRequest :=
  { request with
    path := "/" ++ String.intercalate "/" (pathSegments request.path) }

/-- The path only counts by its segments. -/
theorem normalized_acceptPacket
    (codec : Codec) (request : CoapRequest) (token : Token)
    (mid : UInt16) :
    request.normalized.acceptPacket codec token mid =
      request.acceptPacket codec token mid := by
  have texts : request.normalized.textPacket token mid =
      request.textPacket token mid := by
    simp only [textPacket, normalized, pathSegments_join]
    rfl
  simp only [acceptPacket, formatPacket, texts]
  rfl

/-- A packet of a request is read back as the request, but for its path. -/
theorem fromPacket_toPacket
    {codec : Codec} (frame : codec.FormatFrame) (read : codec.FormatRead)
    (options : codec.OptionsLawful) (request : CoapRequest)
    (token : Token) (mid : UInt16) :
    fromPacket codec (request.toPacket codec token mid) =
      .ok (.ok request.normalized) := by
  rw [request.toPacket_eq token mid frame]
  generalize isPacket :
    { request.acceptPacket codec token mid with
      payload := request.payload } = packet
  have header : packet.header =
      ⟨if request.confirmable then .confirmable else .nonConfirmable,
        .request request.method, mid⟩ := by
    rw [← isPacket]
    exact request.acceptPacket_header token mid frame.setContentFormat_header
  have texts (option : CoapOption) (noAccept : option ≠ .accept)
      (noFormat : option ≠ .contentFormat) :
      optionValues packet option =
        optionValues (request.textPacket token mid) option := by
    rw [← isPacket]
    exact congrArg (Option.getD · [])
      (request.acceptPacket_getOption_of_ne token mid options noAccept
        noFormat)
  have path : decodePath packet = request.normalized.path := by
    rw [decodePath_eq, texts _ (by decide) (by decide),
      textPacket_uriPath, filterMap_fromUtf8_asBytes, normalized]
  have queries : decodeQueries packet = request.queries := by
    rw [decodeQueries_eq, texts _ (by decide) (by decide),
      textPacket_uriQuery, filterMap_fromUtf8_asBytes]
  have accept : decodeAccept codec packet = .ok request.accept := by
    apply decodeAccept_eq options
    rw [← isPacket]
    exact request.acceptPacket_accept token mid options
  have format : codec.getContentFormat packet = request.contentFormat := by
    rw [← request.acceptPacket_contentFormat token mid read options,
      ← isPacket]
    exact options.getContentFormat_congr _ _ rfl
  have payload : packet.payload = request.payload := by
    rw [← isPacket]
  have confirmable : ((if request.confirmable then .confirmable
      else .nonConfirmable : MessageType) == .confirmable) =
        request.confirmable := by
    cases request.confirmable <;> rfl
  simp only [fromPacket, header, accept, path, queries, format, payload,
    confirmable]
  rfl

/--
Every request survives its packet under every token and MID: decoding it
succeeds and returns the request with its path normalized, and encoding that
again gives the same packet.
-/
theorem request_round_trip
    {codec : Codec} (frame : codec.FormatFrame) (read : codec.FormatRead)
    (options : codec.OptionsLawful) (request : CoapRequest)
    (token : Token) (mid : UInt16) :
    ∃ decoded,
      fromPacket codec (request.toPacket codec token mid) =
        .ok (.ok decoded) ∧
      decoded = { request with
        path := "/" ++
          String.intercalate "/" (pathSegments request.path) } ∧
      decoded.toPacket codec token mid =
        request.toPacket codec token mid := by
  refine ⟨request.normalized,
    fromPacket_toPacket frame read options request token mid, rfl, ?_⟩
  rw [toPacket_eq _ token mid frame, toPacket_eq request token mid frame,
    normalized_acceptPacket]
  rfl

/-- A request with everything that a builder can set. -/
def fullRequest : CoapRequest :=
  ((((((CoapRequestBuilder.new .put).path "sensors//temp/").query
    "unit=C").query "").contentFormat .textPlain).accept
      .applicationJson).payload [1]
    |>.confirmable false |>.build

theorem request_round_trip_on_full_request :
    ∃ decoded,
      fromPacket bareCodec (fullRequest.toPacket bareCodec [9] 7) =
        .ok (.ok decoded) ∧
      decoded.path = "/sensors/temp" ∧ decoded.queries = ["unit=C", ""] ∧
        decoded.accept = some .applicationJson := by
  rcases request_round_trip bareCodec_lawful.toFormatFrame
      bareCodec_lawful.toFormatRead bareCodec_optionsLawful fullRequest [9] 7
    with ⟨decoded, reads, isDecoded, _⟩
  refine ⟨decoded, reads, ?_⟩
  rw [isDecoded]
  exact ⟨by decide, rfl, rfl⟩

end CoapRequest

end Coapable.MessageTypes
