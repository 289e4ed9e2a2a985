import Coapable.BareCodec
import Coapable.RoundTrip
import Coapable.Server.Router

/-!
# From the Uri-Path options of a packet to the segments of the router

`CoapRequest::from_packet` drops the values that are not UTF-8 and joins the
others with slashes; the router splits the path at slashes and drops empty
pieces.  The two compose to the identity exactly on values that encode a
non-empty text without a slash, and nothing rejects the others.
-/

namespace Coapable.Server

open Coapable.BareCodec
open Coapable.CoapLite
open Coapable.Foundation.FiniteMap
open Coapable.Foundation.Pieces
open Coapable.MessageTypes

/-- The values of the Uri-Path options, in order. -/
def uriPath (packet : Packet) : List Bytes :=
  (packet.getOption .uriPath).getD []

/-- The bytes are UTF-8 for one path segment. -/
def EncodesSegment (value : Bytes) : Prop :=
  ∃ text, fromUtf8 value = some text ∧ text ≠ "" ∧ '/' ∉ text.toList

/-- The segments are the Uri-Path values, in order and in number, each
decoded as UTF-8. -/
def RoutedBy (packet : Packet) (segments : List String) : Prop :=
  (uriPath packet).map fromUtf8 = segments.map some

theorem fromUtf8_eq_some
    {bytes : Bytes} {text : String} (decoded : fromUtf8 bytes = some text) :
    text.toByteArray = bytes.toByteArray := by
  rw [fromUtf8, String.fromUTF8?] at decoded
  split at decoded
  · rw [← Option.some.inj decoded]
    rfl
  · cases decoded

theorem fromUtf8_inj
    {first second : Bytes} {text : String}
    (decodedFirst : fromUtf8 first = some text)
    (decodedSecond : fromUtf8 second = some text) :
    first = second := by
  have same : first.toByteArray = second.toByteArray :=
    (fromUtf8_eq_some decodedFirst).symm.trans
      (fromUtf8_eq_some decodedSecond)
  have sameData := congrArg ByteArray.data same
  rw [List.data_toByteArray, List.data_toByteArray] at sameData
  exact congrArg Array.toList sameData

/-- The values that decode, as lists of characters. -/
def uriPathTexts (packet : Packet) : List (List Char) :=
  ((uriPath packet).filterMap fromUtf8).map String.toList

/-- The segments are the pieces of the values that decode. -/
theorem pathSegments_decodePath (packet : Packet) :
    pathSegments (CoapRequest.decodePath packet) =
      ((uriPathTexts packet).flatMap (pieces '/')).map String.ofList := by
  rw [pathSegments_eq, CoapRequest.decodePath, uriPathTexts, uriPath]
  split
  · next values found =>
      rw [found, String.toList_append, String.toList_intercalate]
      change (pieces '/' ('/' :: ['/'].intercalate _)).map _ = _
      rw [pieces_cons_self, pieces_intercalate]
      rfl
  · next absent =>
      rw [absent]
      rfl

theorem encodesSegment_of_routedBy
    {packet : Packet}
    (routed : RoutedBy packet
      (pathSegments (CoapRequest.decodePath packet)))
    (value : Bytes) (member : value ∈ uriPath packet) :
    EncodesSegment value := by
  have decoded : fromUtf8 value ∈
      (pathSegments (CoapRequest.decodePath packet)).map some := by
    rw [← routed]
    exact List.mem_map_of_mem member
  rcases List.mem_map.mp decoded with ⟨text, isSegment, isText⟩
  exact ⟨text, isText.symm,
    ne_empty_and_not_mem_of_mem_pathSegments isSegment⟩

/-- Values that all decode are not dropped. -/
theorem map_some_filterMap_fromUtf8
    {values : List Bytes}
    (encodes : ∀ value ∈ values, EncodesSegment value) :
    (values.filterMap fromUtf8).map some = values.map fromUtf8 := by
  induction values with
  | nil => rfl
  | cons value rest induction =>
      rcases encodes value List.mem_cons_self with ⟨text, decoded, _⟩
      rw [List.filterMap_cons_some decoded, List.map_cons, List.map_cons,
        decoded, induction fun later member =>
          encodes later (List.mem_cons_of_mem _ member)]

theorem routedBy_of_encodesSegment
    {packet : Packet}
    (encodes : ∀ value ∈ uriPath packet, EncodesSegment value) :
    RoutedBy packet (pathSegments (CoapRequest.decodePath packet)) := by
  have whole : ∀ part ∈ uriPathTexts packet, part ≠ [] ∧ '/' ∉ part := by
    intro part member
    rcases List.mem_map.mp member with ⟨text, isText, rfl⟩
    rcases List.mem_filterMap.mp isText with ⟨value, isValue, decoded⟩
    rcases encodes value isValue with ⟨same, decodedSame, nonempty, absent⟩
    obtain rfl : same = text :=
      Option.some.inj (decodedSame.symm.trans decoded)
    exact ⟨fun isNil => nonempty (String.toList_inj.mp isNil), absent⟩
  have texts : (uriPathTexts packet).map String.ofList =
      (uriPath packet).filterMap fromUtf8 := by
    rw [uriPathTexts, List.map_map]
    exact List.map_id'' (fun text => String.ofList_toList) _
  rw [RoutedBy, pathSegments_decodePath, flatMap_pieces_eq_self whole,
    texts, map_some_filterMap_fromUtf8 encodes]

/-- Segments determine the values they were decoded from. -/
theorem RoutedBy.uriPath_inj
    {first second : Packet} {segments : List String}
    (routedFirst : RoutedBy first segments)
    (routedSecond : RoutedBy second segments) :
    uriPath first = uriPath second := by
  have same : (uriPath first).map fromUtf8 =
      (uriPath second).map fromUtf8 :=
    Eq.trans routedFirst (Eq.symm routedSecond)
  have allDecode : ∀ value ∈ uriPath first, ∃ text,
      fromUtf8 value = some text := by
    intro value member
    have decoded : fromUtf8 value ∈ segments.map some := by
      rw [← routedFirst]
      exact List.mem_map_of_mem member
    rcases List.mem_map.mp decoded with ⟨text, _, isText⟩
    exact ⟨text, isText.symm⟩
  generalize uriPath first = values at same allDecode
  generalize uriPath second = others at same
  induction values generalizing others with
  | nil => exact (List.map_eq_nil_iff.mp same.symm).symm
  | cons value rest induction =>
      cases others with
      | nil => cases same
      | cons other more =>
          rw [List.map_cons, List.map_cons] at same
          injection same with sameHead sameRest
          rcases allDecode value List.mem_cons_self with ⟨text, decoded⟩
          rw [fromUtf8_inj decoded (sameHead.symm.trans decoded),
            induction (fun later member =>
              allDecode later (List.mem_cons_of_mem _ member)) more
              sameRest]

/--
A decoded request is routed by the Uri-Path values of its packet exactly if
each of them encodes a segment; and packets of which this holds are routed
alike only if their Uri-Path values are the same.
-/
theorem routedBy_iff_encodesSegment
    {codec : Codec} {packet : Packet} {request : CoapRequest}
    (decoded : CoapRequest.fromPacket codec packet = .ok (.ok request)) :
    (RoutedBy packet (pathSegments request.path) ↔
      ∀ value ∈ uriPath packet, EncodesSegment value) ∧
    ∀ other otherRequest,
      CoapRequest.fromPacket codec other = .ok (.ok otherRequest) →
      (∀ value ∈ uriPath packet, EncodesSegment value) →
      (∀ value ∈ uriPath other, EncodesSegment value) →
      pathSegments request.path = pathSegments otherRequest.path →
        uriPath packet = uriPath other := by
  rw [(CoapRequest.of_fromPacket_ok decoded).2.1]
  refine ⟨⟨encodesSegment_of_routedBy, routedBy_of_encodesSegment⟩, ?_⟩
  intro other otherRequest otherDecoded encodes otherEncodes alike
  rw [(CoapRequest.of_fromPacket_ok otherDecoded).2.1] at alike
  have routed := routedBy_of_encodesSegment encodes
  rw [alike] at routed
  exact routed.uriPath_inj (routedBy_of_encodesSegment otherEncodes)

/-- A GET with these Uri-Path values. -/
def getOf (values : List Bytes) : Packet :=
  { Packet.new with
    header := ⟨.confirmable, .request .get, 0⟩
    options := (∅ : Table CoapOption (List Bytes)).insert .uriPath values }

/-- What a GET whose only Uri-Path value is `a/b` decodes to. -/
def getAB : CoapRequest :=
  ⟨.get, "/a/b", [], none, [], none, true⟩

theorem fromPacket_getOf_slash :
    CoapRequest.fromPacket bareCodec (getOf [asBytes "a/b"]) =
      .ok (.ok getAB) :=
  rfl

theorem routedBy_iff_encodesSegment_on_slash :
    ¬ RoutedBy (getOf [asBytes "a/b"]) (pathSegments getAB.path) := by
  rw [(routedBy_iff_encodesSegment fromPacket_getOf_slash).1]
  intro encodes
  rcases encodes (asBytes "a/b") List.mem_cons_self with
    ⟨text, decoded, _, absent⟩
  obtain rfl : "a/b" = text := Option.some.inj (by rw [← decoded]; rfl)
  exact absent (by decide)

/-- A value with a slash is routed as two segments. -/
theorem not_always_routedBy :
    ¬ ∀ (codec : Codec) (packet : Packet) (request : CoapRequest),
      packet.header.code.isRequest = true →
      CoapRequest.fromPacket codec packet = .ok (.ok request) →
        RoutedBy packet (pathSegments request.path) := by
  intro always
  have routed := always _ _ _ rfl fromPacket_getOf_slash
  have sameNumber := congrArg List.length routed
  revert sameNumber
  decide

end Coapable.Server
