import Coapable.BareCodec
import Coapable.EndToEnd.Provenance
import Coapable.RoundTrip
import Coapable.Transport.PacketOrigins
import Coapable.Transport.ResponseMatching

/-!
# Whose response completes a request

A request that is completed with a response should get what the handler
returned for this very request: for a dispatch of the datagram that the
request was sent as.

A response names its request by the token.  So the rule holds as long as the
client gives every request to a peer a token of its own, the client looks at
the token of every response, and no datagram is cut off on its way.  The code
guarantees none of the three: an evicted session forgets its allocators, a
piggybacked response is matched by its MID, and the receive buffer is
bounded.
-/

namespace Coapable.EndToEnd

open Coapable.BareCodec
open Coapable.CoapLite
open Coapable.Foundation.Execution
open Coapable.MessageTypes
open Coapable.Transport
open Coapable.Transport.ResponseMatching

/-! ## The rule -/

/-- The response is what the handler of the peer returned for a dispatch of
the datagram of this request, and no other request was sent as the same
datagram. -/
structure OwnAnswer (codec : Codec) (history : List NetworkTransition)
    (client : SocketAddr) (opening : Opening) (response : CoapResponse) :
    Prop where
  answered : ∃ dispatch,
    Dispatched history opening.outbound.peer dispatch ∧
      dispatch.request.peer = client ∧
      dispatch.datagram = opening.bytes ∧
      Handled history opening.outbound.peer dispatch response
  alone : ∀ opener ∈ loopHistory client history, ∀ other,
    Opens codec opener other →
      other.outbound.peer = opening.outbound.peer →
        other.bytes = opening.bytes → other = opening

/-- Every request of the client that was completed with a response was
completed with its own answer. -/
def ResponsesIntact (codec : Codec) (history : List NetworkTransition)
    (client : SocketAddr) : Prop :=
  ∀ seen ∈ loopHistory client history, ∀ delivery response,
    .deliver delivery ∈ seen.output → delivery.result = .ok response →
      ∃ opening,
        (∃ opener ∈ loopHistory client history,
          Opens codec opener opening) ∧
        opening.outbound.responseTx = delivery.sender ∧
        OwnAnswer codec history client opening response

/-! ## The condition -/

/-- A datagram from or to the client fits the buffer it is read into. -/
def ArrivesWhole (client : SocketAddr)
    (transition : NetworkTransition) : Prop :=
  match transition.input with
  | .deliver datagram _ =>
      datagram.source = client ∨ datagram.target = client →
        datagram.bytes.length ≤ receiveBuffer
  | _ => True

instance (client : SocketAddr) (transition : NetworkTransition) :
    Decidable (ArrivesWhole client transition) := by
  simp only [ArrivesWhole]
  split <;> infer_instance

/-- A request gets a token that no earlier request to its peer had. -/
def FreshToken (codec : Codec) (older : List LoopTransition)
    (transition : LoopTransition) : Prop :=
  ∀ opening, Opens codec transition opening →
    ∀ opener ∈ older, ∀ previous, Opens codec opener previous →
      previous.outbound.peer = opening.outbound.peer →
        previous.token ≠ opening.token

instance (codec : Codec) (older : List LoopTransition)
    (transition : LoopTransition) :
    Decidable (FreshToken codec older transition) :=
  inferInstanceAs (Decidable
    (∀ opening ∈
        transition.before.stack.opening codec transition.input,
      ∀ opener ∈ older,
        ∀ previous ∈ opener.before.stack.opening codec opener.input,
          previous.outbound.peer = opening.outbound.peer →
            previous.token ≠ opening.token))

/-- At the client piggybacked responses agree with the MID index and tokens
are fresh, and its datagrams arrive whole. -/
def Undisturbed (codec : Codec) (client : SocketAddr)
    (older : List NetworkTransition) (transition : NetworkTransition) :
    Prop :=
  ArrivesWhole client transition ∧
    ∀ seen, loopTransition? client transition = some seen →
      PiggybackAgrees codec (loopHistory client older) seen ∧
        FreshToken codec (loopHistory client older) seen

/-- Fresh tokens name the requests to a peer. -/
theorem opening_eq_of_token
    {codec : Codec} {history : List LoopTransition}
    (fresh : Along (FreshToken codec) history)
    {left right : LoopTransition} {leftOpening rightOpening : Opening}
    (leftMember : left ∈ history) (rightMember : right ∈ history)
    (leftOpens : Opens codec left leftOpening)
    (rightOpens : Opens codec right rightOpening)
    (samePeer : leftOpening.outbound.peer = rightOpening.outbound.peer)
    (sameToken : leftOpening.token = rightOpening.token) :
    leftOpening = rightOpening := by
  induction history with
  | nil => cases leftMember
  | cons transition older induction =>
      rcases List.mem_cons.mp leftMember with rfl | leftOlder
      · rcases List.mem_cons.mp rightMember with rfl | rightOlder
        · exact Option.some.inj (leftOpens.symm.trans rightOpens)
        · exact absurd sameToken.symm
            (fresh.1 leftOpening leftOpens right rightOlder rightOpening
              rightOpens samePeer.symm)
      · rcases List.mem_cons.mp rightMember with rfl | rightOlder
        · exact absurd sameToken
            (fresh.1 rightOpening rightOpens left leftOlder leftOpening
              leftOpens samePeer)
        · exact induction fresh.2 leftOlder rightOlder

/-! ## What a datagram decodes to -/

section Decoding

variable {codec : Codec}

/-- The datagram of a client request decodes to a request with its token. -/
theorem decoded_opening
    (lawful : codec.Lawful)
    {stack : CoapStack} {iteration : Iteration} {opening : Opening}
    (opens : stack.opening codec iteration = some opening)
    {parsed : Packet}
    (parses : codec.fromBytes opening.bytes = some parsed)
    (isMessage : parsed.header.code.isRequest = true ∨
      parsed.header.code.isResponse = true) :
    parsed.header.code.isRequest = true ∧
      parsed.token = opening.token := by
  have carries : Carries
      (opening.outbound.request.toPacket codec opening.token opening.mid)
      _ opening.token :=
    CoapRequest.toPacket_carries lawful (opening_token_length opens)
      opening.outbound.request
  rw [lawful.decode_encode _ _ parsed carries.wellFormed
    (opening_cases opens).2.2.2 parses isMessage]
  exact ⟨by rw [carries.header_eq]; rfl, carries.token_eq⟩

/-- The datagram of a server response decodes to the response. -/
theorem decoded_response
    (lawful : codec.Lawful) {outbound : ServerResponse}
    (short : outbound.token.length ≤ 8)
    {mid : UInt16} {messageType : MessageType} {bytes : Bytes}
    (encoded : codec.toBytes (outbound.response.toPacket codec
      outbound.token mid messageType) = some bytes)
    {parsed : Packet} (parses : codec.fromBytes bytes = some parsed)
    (isMessage : parsed.header.code.isRequest = true ∨
      parsed.header.code.isResponse = true) :
    parsed.header.code.isResponse = true ∧
      parsed.token = outbound.token ∧
      CoapResponse.fromPacket codec parsed = .ok outbound.response := by
  have carries : Carries
      (outbound.response.toPacket codec outbound.token mid messageType)
      _ outbound.token :=
    CoapResponse.toPacket_carries lawful short outbound.response
      messageType
  rw [lawful.decode_encode _ _ parsed carries.wellFormed encoded parses
    isMessage]
  exact ⟨by rw [carries.header_eq]; rfl, carries.token_eq,
    CoapResponse.fromPacket_toPacket lawful.toFormatFrame
      lawful.toFormatRead outbound.response messageType⟩

theorem not_message_of_emptyAck
    (lawful : codec.Lawful) {mid : UInt16} {bytes : Bytes}
    (encoded : codec.toBytes (emptyAck mid) = some bytes)
    {parsed : Packet} (parses : codec.fromBytes bytes = some parsed) :
    ¬(parsed.header.code.isRequest = true ∨
      parsed.header.code.isResponse = true) := by
  intro isMessage
  have carries : Carries (emptyAck mid)
      ⟨.acknowledgement, .empty, mid⟩ [] :=
    carries_bare (Nat.zero_le 8) (by simp)
  have isAck := lawful.decode_encode _ _ parsed carries.wellFormed encoded
    parses isMessage
  subst isAck
  simp [emptyAck, MessageClass.isRequest, MessageClass.isResponse]
    at isMessage

theorem not_isResponse_of_isRequest
    {code : MessageClass} (isRequest : code.isRequest = true) :
    ¬code.isResponse = true := by
  cases code <;> simp [MessageClass.isRequest, MessageClass.isResponse]
    at isRequest ⊢

end Decoding

/-! ## Following a datagram back -/

section Origins

variable {codec : Codec} {history : List NetworkTransition}
  {network : Network} {client server : SocketAddr}

/-- A dispatched request is what its datagram decodes to. -/
theorem decoded_of_dispatched
    (run : NetworkRun codec history network)
    {dispatch : Dispatch}
    (dispatched : Dispatched history server dispatch) :
    ∃ parsed, codec.fromBytes dispatch.datagram = some parsed ∧
      parsed.header.code.isRequest = true ∧
        dispatch.request.token = parsed.token := by
  rcases dispatched with ⟨receiver, member, taken, emitted⟩
  have facts := (run_loopHistory run server).facts_of_mem member
  rcases sendRequest_dispatches facts.branch emitted with
    ⟨raw, parsed, isTaken, parses, _, _, decoded, isToken⟩
  injection taken.symm.trans isTaken with isRaw
  rw [isRaw]
  exact ⟨parsed, parses,
    CoapRequest.isRequest_of_fromPacket_ok decoded, isToken⟩

/-- An answer echoes the token of a request that was read from the wire. -/
theorem answer_token_length
    (lawful : codec.Lawful) (run : NetworkRun codec history network)
    {answer : ServerResponse} (answers : Answers history server answer) :
    answer.token.length ≤ 8 := by
  rcases answers with ⟨dispatch, dispatched, _, _, isToken⟩
  rcases decoded_of_dispatched run dispatched with
    ⟨parsed, parses, _, isParsed⟩
  rw [isToken, isParsed]
  exact lawful.fromBytes_token_length _ parsed parses

/-- What arrives whole was composed by the stack it comes from. -/
theorem composed_of_received
    (run : NetworkRun codec history network)
    (whole : Along (fun _ transition => ArrivesWhole client transition)
      history)
    {address peer : SocketAddr} {raw : Bytes} {seen : LoopTransition}
    (member : seen ∈ loopHistory address history)
    (taken : seen.input.branch = .inbound raw peer)
    (concerns : peer = client ∨ address = client) :
    Composed codec (loopHistory peer history) address raw := by
  rcases delivered_of_received run member taken with
    ⟨delivery, isMember, datagram, iteration, isDelivery, rfl, rfl, isRaw,
      sender, isSender, emitted⟩
  have fits : datagram.bytes.length ≤ receiveBuffer := by
    rcases List.append_of_mem isMember with ⟨newer, older, rfl⟩
    have here := (whole.of_suffix (List.suffix_append newer _)).1
    simp only [ArrivesWhole, isDelivery] at here
    exact here concerns
  rw [List.take_of_length_le fits] at isRaw
  rw [← isRaw]
  exact composed_of_sent (run_loopHistory run datagram.source) isSender
    emitted

/-- A request on the wire was composed for a request of the client. -/
theorem opening_of_composed
    (lawful : codec.Lawful) (run : NetworkRun codec history network)
    {raw : Bytes} {parsed : Packet}
    (composed : Composed codec (loopHistory client history) server raw)
    (parses : codec.fromBytes raw = some parsed)
    (isRequest : parsed.header.code.isRequest = true) :
    ∃ opener ∈ loopHistory client history, ∃ opening,
      Opens codec opener opening ∧ opening.outbound.peer = server ∧
        opening.bytes = raw ∧ opening.token = parsed.token := by
  cases composed with
  | ack mid encoded =>
      exact absurd (Or.inl isRequest)
        (not_message_of_emptyAck lawful encoded parses)
  | request opener opening member opens isPeer isBytes =>
      subst isBytes
      exact ⟨opener, member, opening, opens, isPeer, rfl,
        (decoded_opening lawful opens parses (.inl isRequest)).2.symm⟩
  | response responder member responds =>
      rcases responds with ⟨outbound, mid, messageType, taken, _, encoded⟩
      have short := answer_token_length lawful run
        (answers_of_taken run member taken)
      exact absurd
        (decoded_response lawful short encoded parses (.inl isRequest)).1
        (not_isResponse_of_isRequest isRequest)

/-- A response on the wire was composed for an answer of the server. -/
theorem answer_of_composed
    (lawful : codec.Lawful) (run : NetworkRun codec history network)
    {raw : Bytes} {parsed : Packet}
    (composed : Composed codec (loopHistory server history) client raw)
    (parses : codec.fromBytes raw = some parsed)
    (isResponse : parsed.header.code.isResponse = true) :
    ∃ answer, Answers history server answer ∧ answer.peer = client ∧
      answer.token = parsed.token ∧
        CoapResponse.fromPacket codec parsed = .ok answer.response := by
  cases composed with
  | ack mid encoded =>
      exact absurd (Or.inr isResponse)
        (not_message_of_emptyAck lawful encoded parses)
  | request opener opening member opens isPeer isBytes =>
      subst isBytes
      exact absurd isResponse (not_isResponse_of_isRequest
        (decoded_opening lawful opens parses (.inr isResponse)).1)
  | response responder member responds =>
      rcases responds with
        ⟨outbound, mid, messageType, taken, isPeer, encoded⟩
      have answers := answers_of_taken run member taken
      have short := answer_token_length lawful run answers
      rcases decoded_response lawful short encoded parses
          (.inr isResponse) with
        ⟨_, isToken, decoded⟩
      exact ⟨outbound, answers, isPeer, isToken.symm, decoded⟩

end Origins

/-! ## Integrity -/

/-- Along an undisturbed run every request of the client that is completed
with a response is completed with its own answer. -/
theorem responses_intact
    {codec : Codec} {history : List NetworkTransition}
    {network : Network} {client : SocketAddr}
    (lawful : codec.Lawful) (run : NetworkRun codec history network)
    (undisturbed : Along (Undisturbed codec client) history) :
    ResponsesIntact codec history client := by
  have whole : Along (fun _ transition => ArrivesWhole client transition)
      history :=
    undisturbed.mono fun _ _ here => here.1
  have agrees : Along (PiggybackAgrees codec)
      (loopHistory client history) :=
    Along.component (undisturbed.mono fun _ _ here seen isSeen =>
      (here.2 seen isSeen).1)
  have fresh : Along (FreshToken codec) (loopHistory client history) :=
    Along.component (undisturbed.mono fun _ _ here seen isSeen =>
      (here.2 seen isSeen).2)
  have clientRun := run_loopHistory run client
  intro seen member delivery response delivered completes
  -- The request that the response completes.
  rcases List.append_of_mem member with ⟨newer, older, split⟩
  have suffix : seen :: older <:+ loopHistory client history :=
    split ▸ List.suffix_append newer _
  have isOlder {opener : LoopTransition} (past : opener ∈ older) :
      opener ∈ loopHistory client history :=
    suffix.subset (List.mem_cons_of_mem _ past)
  rcases responseMatches_of_piggybackAgrees clientRun suffix
      (agrees.of_suffix suffix).1 delivery response delivered completes with
    ⟨opening, ⟨opener, isOpener, opens⟩, isSender, raw, parsed, taken,
      parses, isResponse, isToken, _⟩
  refine ⟨opening, ⟨opener, isOlder isOpener, opens⟩, isSender, ?_⟩
  -- The answer that was composed into this response.
  rcases answer_of_composed lawful run
      (composed_of_received run whole member taken (.inr rfl)) parses
      isResponse with
    ⟨answer, ⟨dispatch, dispatched, handled, isPeer, echoes⟩, toClient,
      carries, decoded⟩
  have isAnswer : answer.response = response := by
    have isDecoded := decoded_of_completed (clientRun.facts_of_mem member)
      delivered completes taken parses
    rw [decoded] at isDecoded
    injection isDecoded
  -- The request that the answered datagram was composed for.
  rcases decoded_of_dispatched run dispatched with
    ⟨received, receives, isRequest, dispatchToken⟩
  have fromClient : dispatch.request.peer = client :=
    isPeer.symm.trans toClient
  rcases dispatched with ⟨receiver, isReceiver, receiverTaken, emitted⟩
  have composed :
      Composed codec (loopHistory client history) opening.outbound.peer
        dispatch.datagram := by
    rw [fromClient] at receiverTaken
    exact composed_of_received run whole isReceiver receiverTaken (.inl rfl)
  have sameAs (other : Opening) (otherOpener : LoopTransition)
      (isMember : otherOpener ∈ loopHistory client history)
      (otherOpens : Opens codec otherOpener other)
      (samePeer : other.outbound.peer = opening.outbound.peer)
      (sameToken : other.token = received.token) :
      other = opening := by
    refine opening_eq_of_token fresh isMember (isOlder isOpener)
      otherOpens opens samePeer ?_
    rw [sameToken, ← isToken, ← carries, echoes, dispatchToken]
  rcases opening_of_composed lawful run composed receives isRequest with
    ⟨origin, isOrigin, own, ownOpens, ownPeer, ownBytes, ownToken⟩
  have isOwn := sameAs own origin isOrigin ownOpens ownPeer ownToken
  subst isOwn
  exact {
    answered := ⟨dispatch,
      ⟨receiver, isReceiver, receiverTaken, emitted⟩, fromClient,
      ownBytes.symm, isAnswer ▸ handled⟩
    alone := by
      intro otherOpener isMember other otherOpens samePeer sameBytes
      refine sameAs other otherOpener isMember otherOpens samePeer ?_
      rw [← ownBytes, ← sameBytes] at receives
      exact (decoded_opening lawful otherOpens receives
        (.inl isRequest)).2.symm }

/-! ## Two runs between two stacks -/

namespace TwoStacks

/-- A network in which everything was spawned at time zero. -/
def spawned : Network where
  nodes _ := Node.start 0
  sent := []

theorem spawned_fresh : spawned.Fresh where
  nodes _ := ⟨0, rfl⟩
  sent := rfl

/-- Where the client of the runs below is. -/
def clientAddress : SocketAddr := .loopback 5000

/-- Where the server of the runs below is. -/
def serverAddress : SocketAddr := .loopback 5683

/-- The response of every handler run below. -/
def answer : CoapResponse := ⟨.content, none, [1]⟩

/-- The response as the server task hands it to its stack. -/
def answerToClient : ServerResponse :=
  ⟨answer, clientAddress, [0, 0, 0, 0]⟩

/-- A branch of a stack at a time. -/
def runs (address : SocketAddr) (seconds : Nat) (branch : Branch) : Move :=
  .run address (.plain (fromSecs seconds) branch)

/-- A datagram is received whole, as far as it fits, at a time. -/
def arrives (seconds : Nat) (datagram : UdpDatagram) : Move :=
  .deliver datagram
    (.plain (fromSecs seconds)
      (.inbound (datagram.bytes.take receiveBuffer) datagram.source))

/-- A CON GET that is answered in its acknowledgement. -/
def answeredMoves : List Move :=
  [runs clientAddress 1 (.outboundRequest
      (some ⟨⟨.get, "", [], none, [], none, true⟩, serverAddress, ⟨0⟩⟩)),
    arrives 1 ⟨clientAddress, serverAddress, [0x44, 1, 0, 0, 0, 0, 0, 0]⟩,
    .accept serverAddress,
    .answer serverAddress (some answer),
    runs serverAddress 2 (.outboundResponse (some answerToClient)),
    arrives 2 ⟨serverAddress, clientAddress,
      [0x64, 0x45, 0, 0, 0, 0, 0, 0, 0xFF, 1]⟩]

/-- An acknowledgement that is received carries the token its MID indexes,
and every request so far was sent with this MID. -/
def ackAgrees (older : List LoopTransition) (transition : LoopTransition) :
    Bool :=
  match transition.input.branch with
  | .inbound raw peer => (bareCodec.fromBytes raw).all fun parsed =>
      parsed.header.messageType != .acknowledgement ||
        decide ((transition.before.stack.client peer).midToToken.lookup
          parsed.header.messageId = some parsed.token) &&
        older.all fun opener =>
          (opener.before.stack.opening bareCodec opener.input).all
            fun opening =>
              decide (opening.mid = parsed.header.messageId)
  | _ => true

theorem piggybackAgrees_of_ackAgrees
    {older : List LoopTransition} {transition : LoopTransition}
    (checked : ackAgrees older transition = true) :
    PiggybackAgrees bareCodec older transition := by
  intro raw peer parsed taken parses isAck _ token exchange indexed _
  simp only [ackAgrees, taken, parses, isAck, Option.all_some,
    bne_self_eq_false, Bool.false_or, Bool.and_eq_true, decide_eq_true_eq,
    List.all_eq_true] at checked
  rcases checked with ⟨own, allMids⟩
  refine ⟨Option.some.inj (own.symm.trans indexed), ?_⟩
  intro opening opened
  rcases opened.opened with ⟨opener, isOlder, opens⟩
  have sameMid := allMids opener isOlder
  rw [show opener.before.stack.opening bareCodec opener.input =
    some opening from opens, Option.all_some, decide_eq_true_eq] at sameMid
  exact sameMid

/-- Nothing disturbs the client, as far as this can be checked. -/
abbrev AcksAgree (older : List NetworkTransition)
    (transition : NetworkTransition) : Prop :=
  ArrivesWhole clientAddress transition ∧
    ∀ seen ∈ loopTransition? clientAddress transition,
      ackAgrees (loopHistory clientAddress older) seen = true ∧
        FreshToken bareCodec (loopHistory clientAddress older) seen

theorem undisturbed_of_acksAgree
    {history : List NetworkTransition}
    (agree : Along AcksAgree history) :
    Along (Undisturbed bareCodec clientAddress) history :=
  agree.mono fun _ _ here => ⟨here.1, fun seen isSeen =>
    ⟨piggybackAgrees_of_ackAgrees (here.2 seen isSeen).1,
      (here.2 seen isSeen).2⟩⟩

/-- The completion is that of an acknowledgement. -/
def completesByAck (seen : LoopTransition) : Bool :=
  decide (.deliver ⟨⟨0⟩, .ok answer⟩ ∈ seen.output) &&
    (bareCodec.fromBytes (receivedBytes seen.input)).any
      (·.header.messageType = .acknowledgement)

theorem responses_intact_on_answered_get :
    ∃ history network, NetworkRun bareCodec history network ∧
      ResponsesIntact bareCodec history clientAddress ∧
      ∃ seen ∈ loopHistory clientAddress history,
        completesByAck seen = true := by
  rcases exists_run_of_replay
      (show (networkMachine bareCodec).Initial spawned from spawned_fresh)
      answeredMoves
      (fun history _ =>
        decide (Along AcksAgree history) &&
        decide (∃ seen ∈ loopHistory clientAddress history,
          completesByAck seen = true))
      (by decide) with
    ⟨history, network, run, checked⟩
  rw [Bool.and_eq_true, decide_eq_true_eq, decide_eq_true_eq] at checked
  exact ⟨history, network, run, responses_intact bareCodec_lawful run
    (undisturbed_of_acksAgree checked.1), checked.2⟩

/-- The datagram of the second request. -/
def secondDatagram : UdpDatagram :=
  ⟨clientAddress, serverAddress, [0x44, 2, 0, 0, 0, 0, 0, 1, 0xFF, 7]⟩

/--
A CON GET is answered, the idle session of the client is evicted, and a CON
POST in the new session draws the MID of the GET again.  The server takes the
POST for a duplicate of the GET and replays the answer.
-/
def replayedMoves : List Move :=
  [runs clientAddress 1 (.outboundRequest
      (some ⟨⟨.get, "", [], none, [], none, true⟩, serverAddress, ⟨0⟩⟩)),
    arrives 1 ⟨clientAddress, serverAddress, [0x44, 1, 0, 0, 0, 0, 0, 0]⟩,
    .accept serverAddress,
    .answer serverAddress (some answer),
    runs serverAddress 2 (.outboundResponse (some answerToClient)),
    arrives 2 ⟨serverAddress, clientAddress,
      [0x64, 0x45, 0, 0, 0, 0, 0, 0, 0xFF, 1]⟩,
    runs clientAddress 30 .cleanupTimer,
    .run clientAddress
      { Iteration.plain (fromSecs 31) (.outboundRequest
          (some ⟨⟨.post, "", [], none, [7], none, true⟩, serverAddress,
            ⟨1⟩⟩)) with
        drawnToken := 1 },
    arrives 31 secondDatagram,
    arrives 31 ⟨serverAddress, clientAddress,
      [0x64, 0x45, 0, 0, 0, 0, 0, 0, 0xFF, 1]⟩]

/-- The POST is completed although it was never dispatched. -/
theorem exists_foreign_answer :
    ∃ history network, NetworkRun bareCodec history network ∧
      ¬ResponsesIntact bareCodec history clientAddress := by
  rcases exists_run_of_replay
      (show (networkMachine bareCodec).Initial spawned from spawned_fresh)
      replayedMoves
      (fun history _ =>
        decide (∃ seen ∈ loopHistory clientAddress history,
          Effect.deliver ⟨⟨1⟩, .ok answer⟩ ∈ seen.output) &&
        (loopHistory clientAddress history).all (fun opener =>
          (opener.before.stack.opening bareCodec opener.input).all
            fun opening : Opening =>
              decide (opening.outbound.responseTx = ⟨1⟩ →
                opening.outbound.peer = serverAddress ∧
                  opening.bytes = secondDatagram.bytes)) &&
        (loopHistory serverAddress history).all (fun receiver =>
          decide (receivedBytes receiver.input = secondDatagram.bytes →
            receiver.output.filterMap (dispatch? []) = [])))
      (by decide) with
    ⟨history, network, run, checked⟩
  refine ⟨history, network, run, ?_⟩
  simp only [Bool.and_eq_true, decide_eq_true_eq, List.all_eq_true]
    at checked
  rcases checked with ⟨⟨⟨seen, member, delivered⟩, sentAs⟩, undispatched⟩
  intro intact
  rcases intact seen member _ answer delivered rfl with
    ⟨opening, ⟨opener, isOpener, opens⟩, isSender, own⟩
  have isSecond := sentAs opener isOpener
  rw [show opener.before.stack.opening bareCodec opener.input =
    some opening from opens, Option.all_some, decide_eq_true_eq]
    at isSecond
  rcases isSecond isSender with ⟨isPeer, isBytes⟩
  rcases own.answered with
    ⟨dispatch, ⟨receiver, isReceiver, taken, emitted⟩, _, isDatagram, _⟩
  rw [isPeer] at isReceiver
  have none := undispatched receiver isReceiver
    (by rw [receivedBytes, taken]; exact isDatagram.trans isBytes)
  have dispatched : ⟨dispatch.request, []⟩ ∈
      receiver.output.filterMap (dispatch? []) :=
    List.mem_filterMap.mpr ⟨_, emitted, rfl⟩
  rw [none] at dispatched
  cases dispatched

theorem not_every_response_intact :
    ¬∀ codec history network client, codec.Lawful →
      NetworkRun codec history network →
        ResponsesIntact codec history client := by
  intro claimed
  rcases exists_foreign_answer with ⟨history, network, run, foreign⟩
  exact foreign (claimed bareCodec history network clientAddress
    bareCodec_lawful run)

end TwoStacks

end Coapable.EndToEnd
