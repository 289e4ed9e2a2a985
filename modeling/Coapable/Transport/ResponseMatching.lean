import Coapable.BareCodec
import Coapable.Transport.Openings

/-!
# Which responses complete a request

A response has to come from the peer of the request, carry its token and, if
it is an acknowledgement, its MID.  A separate response is matched by its
token and always meets this.  A piggybacked response is matched by its MID
alone: its own token is never looked at, so the rule holds exactly as long as
the token that the MID index gives is the token that the packet carries.
-/

namespace Coapable.Transport.ResponseMatching

open Coapable.BareCodec
open Coapable.CoapLite
open Coapable.Foundation.Execution
open Coapable.MessageTypes

/-- The packet of the transition is a response that matches the request. -/
def Matches (codec : Codec) (transition : LoopTransition)
    (opening : Opening) : Prop :=
  ∃ raw parsed,
    transition.input.branch = .inbound raw opening.outbound.peer ∧
      codec.fromBytes raw = some parsed ∧
        parsed.header.code.isResponse = true ∧
          parsed.token = opening.token ∧
            (parsed.header.messageType = .acknowledgement →
              parsed.header.messageId = opening.mid)

/-- Every request that the transition completes with a response is matched by
its packet.  The channel of the result names the request. -/
def ResponseMatches (codec : Codec) (older : List LoopTransition)
    (transition : LoopTransition) : Prop :=
  ∀ delivery response, .deliver delivery ∈ transition.output →
    delivery.result = .ok response →
      ∃ opening, (∃ opener ∈ older, Opens codec opener opening) ∧
        opening.outbound.responseTx = delivery.sender ∧
          Matches codec transition opening

/-- An acknowledgement that carries a response carries the token that the
index gives for its MID, and the exchange open under this token is that of
the request with this MID. -/
def PiggybackAgrees (codec : Codec) (older : List LoopTransition)
    (transition : LoopTransition) : Prop :=
  ∀ raw peer parsed,
    transition.input.branch = .inbound raw peer →
      codec.fromBytes raw = some parsed →
        parsed.header.messageType = .acknowledgement →
          parsed.header.code.isResponse = true →
    ∀ token exchange,
      (transition.before.stack.client peer).midToToken.lookup
          parsed.header.messageId = some token →
        (transition.before.stack.client peer).exchanges.lookup token =
            some exchange →
          parsed.token = token ∧
            ∀ opening,
              OpenedFor codec older peer token exchange opening →
                opening.mid = parsed.header.messageId

section Step

variable {codec : Codec} {history : List LoopTransition} {loop : Loop}
  {transition : LoopTransition} {older : List LoopTransition}

theorem isResponse_of_decoded
    {packet : Packet} {response : CoapResponse}
    (decoded : CoapResponse.fromPacket codec packet = .ok response) :
    packet.header.code.isResponse = true := by
  rw [((CoapResponse.fromPacket_ok_iff codec packet response).mp
    decoded).1]
  rfl

/-- A result that completes a request is what the packet of the transition
decodes to. -/
theorem decoded_of_completed
    {before after : Loop} {iteration : Iteration} {effects : List Effect}
    (facts : StepFacts codec before iteration after effects)
    {delivery : Delivery} {response : CoapResponse}
    (member : .deliver delivery ∈ effects)
    (completes : delivery.result = .ok response)
    {raw : Bytes} {peer : SocketAddr} {parsed : Packet}
    (taken : iteration.branch = .inbound raw peer)
    (parses : codec.fromBytes raw = some parsed) :
    CoapResponse.fromPacket codec parsed = .ok response := by
  rw [← mem_deliveriesOf, mem_deliveriesOf_iff facts.branch] at member
  rcases member with ⟨source, member⟩
  rcases (ExchangeTable.step_apply _ _).completed member completes with
    ⟨_, _, _, _, isAnswered | ⟨mid, isPiggybacked, _⟩⟩
  · have origin := clientEvent_origin codec before.stack iteration source
    rw [isAnswered] at origin
    cases origin with
    | @answered other otherParsed _ isInbound otherParses _ _ decoded =>
        rw [taken, Branch.inbound.injEq] at isInbound
        rw [← isInbound.1, parses, Option.some.injEq] at otherParses
        exact otherParses ▸ decoded
  · have origin := clientEvent_origin codec before.stack iteration source
    rw [isPiggybacked] at origin
    cases origin with
    | @piggybacked other otherParsed _ isInbound otherParses _ decoded =>
        rw [taken, Branch.inbound.injEq] at isInbound
        rw [← isInbound.1, parses, Option.some.injEq] at otherParses
        exact otherParses ▸ decoded

theorem responseMatches_of_piggybackAgrees
    (run : LoopRun codec history loop)
    (suffix : transition :: older <:+ history)
    (agrees : PiggybackAgrees codec older transition) :
    ResponseMatches codec older transition := by
  intro delivery response member completes
  rcases run.of_suffix suffix with ⟨earlier, stepped⟩
  have facts := step_cases stepped
  rw [← mem_deliveriesOf, mem_deliveriesOf_iff facts.branch] at member
  rcases member with ⟨peer, member⟩
  rcases (ExchangeTable.step_apply _ _).completed member completes with
    ⟨token, exchange, found, sender, isEvent⟩
  rcases exists_opening earlier found with ⟨opening, openedFor⟩
  refine ⟨opening, openedFor.opened,
    openedFor.responseTx.symm.trans sender.symm, ?_⟩
  have isPeer := openedFor.peer_eq
  have isToken := openedFor.token_eq
  have origin :=
    clientEvent_origin codec transition.before.stack transition.input peer
  rcases isEvent with isAnswered | ⟨mid, isPiggybacked, indexed⟩
  · rw [isAnswered] at origin
    cases origin with
    | @answered raw parsed _ taken parses kind fresh decoded =>
        refine ⟨raw, parsed, isPeer ▸ taken, parses,
          isResponse_of_decoded decoded, isToken.symm, ?_⟩
        intro isAck
        rcases kind with kind | kind <;>
          exact absurd (kind.symm.trans isAck) (by decide)
  · rw [isPiggybacked] at origin
    cases origin with
    | @piggybacked raw parsed _ taken parses kind decoded =>
        have isResponse := isResponse_of_decoded decoded
        rcases agrees raw peer parsed taken parses kind isResponse token
            exchange indexed found with
          ⟨carried, sameMid⟩
        exact ⟨raw, parsed, isPeer ▸ taken, parses, isResponse,
          carried.trans isToken.symm,
          fun _ => (sameMid opening openedFor).symm⟩

theorem piggybackAgrees_of_responseMatches
    (run : LoopRun codec history loop)
    (suffix : transition :: older <:+ history)
    (matched : ResponseMatches codec older transition) :
    PiggybackAgrees codec older transition := by
  intro raw peer parsed taken parses kind isResponse token exchange
    indexed found
  rcases run.of_suffix suffix with ⟨earlier, stepped⟩
  have facts := step_cases stepped
  rcases CoapResponse.exists_fromPacket_ok codec parsed isResponse with
    ⟨response, decoded⟩
  -- The acknowledgement completes the exchange that the index leads to.
  have isEvent :
      transition.before.stack.clientEvent codec transition.input peer =
        .piggybacked parsed.header.messageId response := by
    rw [clientEvent_inbound taken parses, if_pos rfl, packetEvent, kind]
    cases code : parsed.header.code with
    | response responseType => simp only [decoded]
    | _ => simp [code, MessageClass.isResponse] at isResponse
  have member :
      .deliver (exchange.complete response) ∈ transition.output := by
    rw [← mem_deliveriesOf, mem_deliveriesOf_iff facts.branch]
    refine ⟨peer, ?_⟩
    rw [isEvent]
    simp only [ExchangeTable.apply, indexed, ExchangeTable.answer,
      ExchangeTable.unindex_exchanges, found, Multiset.mem_singleton]
  rcases matched _ response member rfl with
    ⟨opening, ⟨opener, openerMember, opens⟩, sender, matchedRaw,
      matchedParsed, matchedTaken, matchedParses, _, carried, sameMid⟩
  have isBranch := taken.symm.trans matchedTaken
  rw [Branch.inbound.injEq] at isBranch
  rw [← isBranch.1, parses, Option.some.injEq] at matchedParses
  subst matchedParses
  have isOpening (other : Opening)
      (openedFor :
        OpenedFor codec older peer token exchange other) :
      opening = other := by
    rcases openedFor.opened with ⟨otherOpener, otherMember, otherOpens⟩
    exact opening_unique earlier openerMember otherMember opens otherOpens
      (sender.trans openedFor.responseTx)
  constructor
  · rcases exists_opening earlier found with ⟨other, openedFor⟩
    rw [carried, isOpening other openedFor]
    exact openedFor.token_eq
  · intro other openedFor
    rw [← isOpening other openedFor]
    exact (sameMid kind).symm

end Step

/--
Exactly the runs in which every piggybacked response agrees with the MID index
complete only requests that their responses match.
-/
theorem responses_match_iff_piggybacks_agree
    {codec : Codec} {history : List LoopTransition} {loop : Loop}
    (run : LoopRun codec history loop) :
    Along (ResponseMatches codec) history ↔
      Along (PiggybackAgrees codec) history := by
  apply along_congr
  intro transition older suffix
  exact ⟨piggybackAgrees_of_responseMatches run suffix,
    responseMatches_of_piggybackAgrees run suffix⟩

/-- A confirmable GET to port 5683. -/
def getRequest : OutboundRequest :=
  ⟨⟨.get, "", [], none, [], none, true⟩, .loopback 5683, ⟨0⟩⟩

/-- The answer acknowledges the MID of the request and carries the token
`0909`, which is not the token of the request. -/
def strangeTokenInputs : List Iteration :=
  [.plain (fromSecs 1) (.outboundRequest (some getRequest)),
    .plain (fromSecs 2)
      (.inbound [0x62, 0x45, 0, 0, 9, 9] (.loopback 5683))]

/-- The iteration receives a packet with the token `0909`. -/
def receivesStrangeToken (iteration : Iteration) : Bool :=
  match iteration.branch with
  | .inbound raw _ => (bareCodec.fromBytes raw).any (·.token = [9, 9])
  | _ => false

/-- Such a packet completes a request with another token. -/
def completesUnderToken : List LoopTransition → Bool
  | [answered, opened] =>
      decide (.deliver ⟨⟨0⟩, .ok ⟨.content, none, []⟩⟩ ∈
        answered.output) &&
      receivesStrangeToken answered.input &&
      (opened.before.stack.opening bareCodec opened.input).all
        (·.token = [0, 0, 0, 0])
  | _ => false

theorem exists_strange_token :
    ∃ history loop, LoopRun bareCodec history loop ∧
      ¬ Along (ResponseMatches bareCodec) history := by
  rcases exists_run_of_replay (Loop.initial_start bareCodec 0)
      strangeTokenInputs
      (fun history _ => completesUnderToken history) (by decide) with
    ⟨history, loop, run, checked⟩
  refine ⟨history, loop, run, ?_⟩
  unfold completesUnderToken at checked
  split at checked
  · next answered opened =>
      simp only [Bool.and_eq_true, decide_eq_true_eq] at checked
      rcases checked with ⟨⟨delivered, carries⟩, tokens⟩
      rintro ⟨matched, _⟩
      rcases matched _ _ delivered rfl with
        ⟨opening, ⟨opener, member, opens⟩, _, raw, parsed, taken, parses,
          _, sameToken, _⟩
      rw [List.mem_singleton] at member
      subst member
      rw [Opens] at opens
      rw [opens, Option.all_some, decide_eq_true_eq] at tokens
      rw [receivesStrangeToken, taken] at carries
      simp only [parses, Option.any_some, decide_eq_true_eq] at carries
      rw [carries, tokens] at sameToken
      exact absurd sameToken (by decide)
  · cases checked

theorem not_every_response_matches :
    ¬ ∀ codec history loop, LoopRun codec history loop →
      Along (ResponseMatches codec) history := by
  intro claimed
  rcases exists_strange_token with ⟨history, loop, run, mismatched⟩
  exact mismatched (claimed bareCodec history loop run)

theorem responses_match_iff_piggybacks_agree_on_strange_token :
    ∃ history loop, LoopRun bareCodec history loop ∧
      ¬ Along (PiggybackAgrees bareCodec) history := by
  rcases exists_strange_token with ⟨history, loop, run, mismatched⟩
  exact ⟨history, loop, run, fun agrees =>
    mismatched ((responses_match_iff_piggybacks_agree run).mpr agrees)⟩

end Coapable.Transport.ResponseMatching
