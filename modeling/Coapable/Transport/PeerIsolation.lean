import Coapable.Transport.PacketOrigins
import Coapable.BareCodec

/-!
# Peers do not interfere

The sessions of different peers share nothing but the timers.  Restricted to
one peer, a run of the loop is a run of the same branch bodies on a stack that
holds the session of this peer only, and every effect is one of exactly such a
body.  So what a peer is sent, what the server and the callers get of it and
the state that is kept for it are determined by the iterations that concern
this peer, whatever all the others do.
-/

namespace Coapable.Transport

open Coapable.BareCodec
open Coapable.CoapLite
open Coapable.Foundation.Execution
open Coapable.Foundation.FiniteMap
open Coapable.MessageTypes

/-! ## One peer -/

/-- What an iteration is for a peer: its own packets, requests and answers,
the timer with the order of its own exchanges, and cleanup. -/
def Iteration.seenBy (peer : SocketAddr) (iteration : Iteration) :
    Option Iteration :=
  match iteration.branch with
  | .inbound _ source => if source = peer then some iteration else none
  | .outboundRequest (some outbound) =>
      if outbound.peer = peer then some iteration else none
  | .outboundResponse (some outbound) =>
      if outbound.peer = peer then some iteration else none
  | .retransmissionTimer order =>
      (order.lookup peer).map fun tokens =>
        { iteration with branch := .retransmissionTimer [(peer, tokens)] }
  | .cleanupTimer => some iteration
  | .outboundRequest none | .outboundResponse none => none

/-- The stack that holds the session of one peer only, if there is one. -/
def CoapStack.solo (peer : SocketAddr) (session : Option PeerSession) :
    CoapStack where
  sessions :=
    match session with
    | some session => (∅ : Table SocketAddr PeerSession).insert peer session
    | none => ∅
  nextCleanup := 0

/-- The branch body on the session of one peer, `none` if it does not
finish. -/
def soloStep (codec : Codec) (peer : SocketAddr)
    (session : Option PeerSession) (iteration : Iteration) :
    Option (Option PeerSession × List Effect) :=
  match (CoapStack.solo peer session).branchBody codec iteration with
  | .ok (after, effects) => some (after.sessions.lookup peer, effects)
  | .error _ => none

/-- The session of one peer, driven by the iterations that it sees. -/
def soloMachine (codec : Codec) (peer : SocketAddr) :
    Machine (Option PeerSession) Iteration (List Effect) where
  Initial session := session = none
  step := soloStep codec peer

/-- One iteration on the session of one peer. -/
abbrev SoloTransition :=
  Transition (Option PeerSession) Iteration (List Effect)

/-- What a transition of the loop is for one peer. -/
def soloTransition? (codec : Codec) (peer : SocketAddr)
    (transition : LoopTransition) : Option SoloTransition :=
  (transition.input.seenBy peer).map fun iteration =>
    { before := transition.before.stack.sessions.lookup peer
      input := iteration
      output :=
        match soloStep codec peer
            (transition.before.stack.sessions.lookup peer) iteration with
        | some (_, effects) => effects
        | none => []
      after := transition.after.stack.sessions.lookup peer }

/-- The effects of a transition that its body on the session of one peer
has. -/
def ownEffects (codec : Codec) (peer : SocketAddr)
    (transition : LoopTransition) : List Effect :=
  match soloTransition? codec peer transition with
  | some own => own.output
  | none => []

/-- The effect is a packet to the peer or a request from it.  A result that is
delivered names no peer. -/
def Effect.concerns (peer : SocketAddr) : Effect → Bool
  | .sendPacket _ target => target = peer
  | .sendRequest request => request.peer = peer
  | .deliver _ => false

/-- The effects of a transition are those of the bodies of the peers: each
peer finds its own messages in their order, and all effects together are the
own effects of some peers, each counted once. -/
structure Splits (codec : Codec) (transition : LoopTransition) : Prop where
  ordered : ∀ peer,
    transition.output.filter (Effect.concerns peer) =
      (ownEffects codec peer transition).filter (Effect.concerns peer)
  complete : ∃ peers : List SocketAddr, peers.Nodup ∧
    (∀ peer, peer ∉ peers → ownEffects codec peer transition = []) ∧
      transition.output.Perm
        (peers.flatMap fun peer => ownEffects codec peer transition)

/-- An association list finds what it contains if no key occurs twice. -/
theorem lookup_of_mem
    {Key Value : Type} [DecidableEq Key] {pairs : List (Key × Value)}
    {pair : Key × Value}
    (distinct : (pairs.map Prod.fst).Nodup) (member : pair ∈ pairs) :
    pairs.lookup pair.1 = some pair.2 := by
  induction pairs with
  | nil => cases member
  | cons first rest induction =>
      rw [List.map_cons, List.nodup_cons] at distinct
      rcases List.mem_cons.mp member with rfl | later
      · rw [List.lookup_cons_self]
      · have different : pair.1 ≠ first.1 := by
          intro same
          exact distinct.1 (List.mem_map.mpr ⟨pair, later, same⟩)
        rw [List.lookup_cons, beq_false_of_ne different]
        exact induction distinct.2 later

/-! ## Packets to the peer only -/

theorem eq_sendPacket_of_request
    {codec : Codec} {session : PeerSession} {iteration : Iteration}
    {outbound : OutboundRequest} {effect : Effect}
    (member : effect ∈
      (sendOutboundRequest codec session iteration outbound).2) :
    ∃ bytes, effect = .sendPacket bytes outbound.peer := by
  simp only [sendOutboundRequest] at member
  split at member
  · cases member
  · exact ⟨_, List.mem_singleton.mp member⟩

theorem eq_sendPacket_of_response
    {codec : Codec} {session : PeerSession} {outbound : ServerResponse}
    {effect : Effect}
    (member : effect ∈ (sendOutboundResponse codec session outbound).2) :
    ∃ bytes, effect = .sendPacket bytes outbound.peer := by
  simp only [sendOutboundResponse, PeerSession.takeInboundConMid] at member
  cases waiting : session.inboundConMids.lookup outbound.token with
  | none =>
      simp only [waiting] at member
      split at member
      · exact ⟨_, List.mem_singleton.mp member⟩
      · cases member
  | some mid =>
      simp only [waiting] at member
      split at member
      · exact ⟨_, List.mem_singleton.mp member⟩
      · cases member

/-! ## A stack with one session -/

section Solo

variable {codec : Codec} {stack : CoapStack} {iteration : Iteration}
  {peer : SocketAddr}

@[simp]
theorem CoapStack.solo_lookup (peer : SocketAddr)
    (session : Option PeerSession) :
    (CoapStack.solo peer session).sessions.lookup peer = session := by
  cases session with
  | none => rfl
  | some session =>
      exact (lookup_insert_eq _ _ _ _).trans (if_pos rfl)

@[simp]
theorem CoapStack.solo_sessionFor :
    (CoapStack.solo peer (stack.sessions.lookup peer)).sessionFor iteration
        peer =
      stack.sessionFor iteration peer := by
  rw [CoapStack.sessionFor, CoapStack.sessionFor, CoapStack.solo_lookup]

/-- The timer on a stack with one session. -/
theorem soloStep_timer
    {session : PeerSession} {tokens : List Token}
    (taken : iteration.branch = .retransmissionTimer [(peer, tokens)]) :
    soloStep codec peer (some session) iteration =
      some (some (session.tick iteration.now tokens).1,
        (session.tick iteration.now tokens).2.2.map .deliver ++
          (session.tick iteration.now tokens).2.1.map
            fun packet => .sendPacket packet.2 packet.1) := by
  have visited : tickSessions iteration.now [(peer, tokens)]
      (CoapStack.solo peer (some session)).sessions =
        ((CoapStack.solo peer (some session)).sessions.insert peer
            (session.tick iteration.now tokens).1,
          (session.tick iteration.now tokens).2.1,
          (session.tick iteration.now tokens).2.2) := by
    simp only [tickSessions, CoapStack.solo_lookup, List.append_nil]
  have finished : (CoapStack.solo peer (some session)).branchBody codec
      iteration =
        .ok ((CoapStack.solo peer (some session)).retransmit iteration.now
          [(peer, tokens)]) := by
    rw [CoapStack.branchBody, taken]
  rw [soloStep, finished]
  simp only [CoapStack.retransmit, visited, Option.some.injEq,
    Prod.mk.injEq, and_true]
  exact (lookup_insert_eq _ _ _ _).trans (if_pos rfl)

end Solo

/-! ## One step -/

section Step

variable {codec : Codec} {before after : Loop} {iteration : Iteration}
  {effects : List Effect}

/-- The inbound branch finishes only while the endpoint task is alive. -/
theorem endpointOpen_of_inbound
    (stepped : before.step codec iteration = some (after, effects))
    {raw : Bytes} {source : SocketAddr}
    (taken : iteration.branch = .inbound raw source) :
    iteration.endpointOpen = true := by
  by_contra closed
  have refused : before.stack.iterate codec iteration =
      .error (.returned (.error .endpointClosed)) := by
    simp only [CoapStack.iterate, CoapStack.branchBody, taken,
      Bool.eq_false_of_not_eq_true closed, Bool.false_eq_true, if_false]
  simp only [Loop.step, refused] at stepped
  split at stepped <;> cases stepped

/-- A peer that does not see an iteration keeps its session. -/
theorem lookup_of_unseen
    (stepped : before.step codec iteration = some (after, effects))
    {peer : SocketAddr} (unseen : iteration.seenBy peer = none) :
    after.stack.sessions.lookup peer = before.stack.sessions.lookup peer := by
  have put {session : PeerSession} {other : SocketAddr}
      (different : other ≠ peer) :
      (before.stack.putSession other session).sessions.lookup peer =
        before.stack.sessions.lookup peer := by
    rw [lookup_putSession, if_neg different.symm]
  generalize isAfter : after.stack = stack
  have branch := (step_cases stepped).branch
  rw [isAfter] at branch
  cases branch with
  | unparsed taken unparseable => rfl
  | inbound taken parses received =>
      apply put
      rintro rfl
      simp [Iteration.seenBy, taken] at unseen
  | request taken =>
      apply put
      rintro rfl
      simp [Iteration.seenBy, taken] at unseen
  | response taken =>
      apply put
      rintro rfl
      simp [Iteration.seenBy, taken] at unseen
  | @timer order taken due enumerates =>
      simp only [Iteration.seenBy, taken, Option.map_eq_none_iff,
        List.lookup_eq_none_iff] at unseen
      apply tickSessions_lookup_of_unvisited
      intro visited
      rcases List.mem_map.mp visited with ⟨visit, member, rfl⟩
      have apart := unseen visit member
      rw [bne_self_eq_false] at apart
      cases apart
  | cleanup taken due => simp [Iteration.seenBy, taken] at unseen

/-- A peer that sees an iteration other than the timer has its body, with all
its effects. -/
theorem soloStep_of_seen
    (stepped : before.step codec iteration = some (after, effects))
    {peer : SocketAddr} {own : Iteration}
    (seen : iteration.seenBy peer = some own)
    (noTimer : ∀ order, iteration.branch ≠ .retransmissionTimer order) :
    soloStep codec peer (before.stack.sessions.lookup peer) own =
      some (after.stack.sessions.lookup peer, effects) := by
  have openEndpoint := @endpointOpen_of_inbound _ _ _ _ _ stepped
  generalize isAfter : after.stack = stack
  have branch := (step_cases stepped).branch
  rw [isAfter] at branch
  cases branch with
  | unparsed taken unparseable =>
      simp only [Iteration.seenBy, taken, Option.ite_none_right_eq_some,
        Option.some.injEq] at seen
      rcases seen with ⟨rfl, rfl⟩
      rw [soloStep]
      simp only [CoapStack.branchBody, taken, openEndpoint taken, if_true,
        CoapStack.inbound, unparseable, CoapStack.solo_lookup]
  | inbound taken parses received =>
      simp only [Iteration.seenBy, taken, Option.ite_none_right_eq_some,
        Option.some.injEq] at seen
      rcases seen with ⟨rfl, rfl⟩
      rw [soloStep]
      simp only [CoapStack.branchBody, taken, openEndpoint taken, if_true,
        CoapStack.inbound, parses, CoapStack.solo_sessionFor, received,
        lookup_putSession]
  | request taken =>
      simp only [Iteration.seenBy, taken, Option.ite_none_right_eq_some,
        Option.some.injEq] at seen
      rcases seen with ⟨rfl, rfl⟩
      rw [soloStep]
      simp only [CoapStack.branchBody, taken, CoapStack.solo_sessionFor,
        lookup_putSession, if_true]
  | response taken =>
      simp only [Iteration.seenBy, taken, Option.ite_none_right_eq_some,
        Option.some.injEq] at seen
      rcases seen with ⟨rfl, rfl⟩
      rw [soloStep]
      simp only [CoapStack.branchBody, taken, CoapStack.solo_sessionFor,
        lookup_putSession, if_true]
  | timer taken due enumerates => exact absurd taken (noTimer _)
  | cleanup taken due =>
      simp only [Iteration.seenBy, taken, Option.some.injEq] at seen
      subst seen
      rw [soloStep]
      simp only [CoapStack.branchBody, taken, lookup_cleanup,
        CoapStack.solo_lookup]

/-- The visit that a peer sees of the timer. -/
theorem visit_of_seen
    (stepped : before.step codec iteration = some (after, effects))
    {order : List (SocketAddr × List Token)}
    (taken : iteration.branch = .retransmissionTimer order)
    {peer : SocketAddr} {own : Iteration}
    (seen : iteration.seenBy peer = some own) :
    ∃ session tokens,
      before.stack.sessions.lookup peer = some session ∧
        (peer, tokens) ∈ order ∧
          own =
            { iteration with
              branch := .retransmissionTimer [(peer, tokens)] } := by
  rcases (step_cases stepped).branch.of_timer taken with
    ⟨_, enumerates, _, _⟩
  simp only [Iteration.seenBy, taken, Option.map_eq_some_iff] at seen
  rcases seen with ⟨tokens, visits, rfl⟩
  have member : (peer, tokens) ∈ order := by
    rcases List.lookup_eq_some_iff.mp visits with ⟨_, _, rfl, _⟩
    exact List.mem_append_right _ List.mem_cons_self
  rcases (enumerates.1.mem_iff peer).mp
      (List.mem_map.mpr ⟨_, member, rfl⟩) with
    ⟨session, stored⟩
  exact ⟨session, tokens, stored, member, rfl⟩

/-- A peer that sees an iteration does a step of its own. -/
theorem exists_soloStep_of_seen
    (stepped : before.step codec iteration = some (after, effects))
    {peer : SocketAddr} {own : Iteration}
    (seen : iteration.seenBy peer = some own) :
    ∃ ownOutput,
      soloStep codec peer (before.stack.sessions.lookup peer) own =
        some (after.stack.sessions.lookup peer, ownOutput) := by
  by_cases isTimer : ∃ order, iteration.branch = .retransmissionTimer order
  · rcases isTimer with ⟨order, taken⟩
    rcases visit_of_seen stepped taken seen with
      ⟨session, tokens, stored, member, rfl⟩
    rcases (step_cases stepped).branch.of_timer taken with
      ⟨_, enumerates, isAfter, _⟩
    have ticked := tickSessions_lookup_of_visited iteration.now order
      before.stack.sessions enumerates.1.nodup member
    rw [stored] at ticked
    have isTicked : after.stack.sessions.lookup peer =
        some (session.tick iteration.now tokens).1 := by
      rw [isAfter]
      exact ticked
    rw [isTicked, stored, soloStep_timer rfl]
    exact ⟨_, rfl⟩
  · exact ⟨effects, soloStep_of_seen stepped seen fun order taken =>
      isTimer ⟨order, taken⟩⟩

/-- The iterations that a peer does not see have no effects of its own. -/
theorem ownEffects_of_unseen
    {peer : SocketAddr} (unseen : iteration.seenBy peer = none) :
    ownEffects codec peer ⟨before, iteration, effects, after⟩ = [] := by
  simp only [ownEffects, soloTransition?, unseen, Option.map_none]

theorem ownEffects_of_soloStep
    {peer : SocketAddr} {own : Iteration} {ownOutput : List Effect}
    {ownAfter : Option PeerSession}
    (seen : iteration.seenBy peer = some own)
    (stepped : soloStep codec peer (before.stack.sessions.lookup peer) own =
      some (ownAfter, ownOutput)) :
    ownEffects codec peer ⟨before, iteration, effects, after⟩ =
      ownOutput := by
  simp only [ownEffects, soloTransition?, seen, Option.map_some, stepped]

end Step

/-! ## The timer -/

section Timer

variable {codec : Codec} {before after : Loop} {iteration : Iteration}
  {effects : List Effect} {order : List (SocketAddr × List Token)}

/-- What the timer does for one peer, in the order of its body. -/
def visitResults (now : Nat) (sessions : Table SocketAddr PeerSession)
    (visit : SocketAddr × List Token) : List Effect :=
  match sessions.lookup visit.1 with
  | some session => (session.tick now visit.2).2.2.map .deliver
  | none => []

/-- The copies that the timer sends when it visits a session. -/
def visitPackets (now : Nat) (sessions : Table SocketAddr PeerSession)
    (visit : SocketAddr × List Token) : List Effect :=
  match sessions.lookup visit.1 with
  | some session =>
      (session.tick now visit.2).2.1.map fun packet =>
        .sendPacket packet.2 packet.1
  | none => []

theorem retransmit_effects
    {stack : CoapStack} (now : Nat)
    (distinct : (order.map Prod.fst).Nodup) :
    (stack.retransmit now order).2 =
      order.flatMap (visitResults now stack.sessions) ++
        order.flatMap (visitPackets now stack.sessions) := by
  rw [CoapStack.retransmit]
  simp only [tickSessions_output now order stack.sessions distinct,
    List.map_flatMap]
  congr 1
  · apply List.flatMap_congr
    intro visit _
    cases found : stack.sessions.lookup visit.1 <;>
      simp only [visitResults, found, List.map_nil]
  · apply List.flatMap_congr
    intro visit _
    cases found : stack.sessions.lookup visit.1 <;>
      simp only [visitPackets, found, List.map_nil]

theorem ownEffects_of_visit
    (stepped : before.step codec iteration = some (after, effects))
    (taken : iteration.branch = .retransmissionTimer order)
    {visit : SocketAddr × List Token} (member : visit ∈ order) :
    ownEffects codec visit.1 ⟨before, iteration, effects, after⟩ =
      visitResults iteration.now before.stack.sessions visit ++
        visitPackets iteration.now before.stack.sessions visit := by
  rcases (step_cases stepped).branch.of_timer taken with
    ⟨_, enumerates, _, _⟩
  rcases (enumerates.1.mem_iff visit.1).mp
      (List.mem_map.mpr ⟨_, member, rfl⟩) with
    ⟨session, stored⟩
  have visits : order.lookup visit.1 = some visit.2 :=
    lookup_of_mem enumerates.1.nodup member
  have seen : iteration.seenBy visit.1 =
      some { iteration with
        branch := .retransmissionTimer [(visit.1, visit.2)] } := by
    simp only [Iteration.seenBy, taken, visits, Option.map_some]
  have ticked := @soloStep_timer codec
    { iteration with branch := .retransmissionTimer [(visit.1, visit.2)] }
    visit.1 session visit.2 rfl
  rw [← stored] at ticked
  rw [ownEffects_of_soloStep seen ticked]
  simp only [visitResults, visitPackets, stored]

/-- No result names a peer. -/
theorem filter_visitResults
    (now : Nat) (sessions : Table SocketAddr PeerSession)
    (visit : SocketAddr × List Token) (peer : SocketAddr) :
    (visitResults now sessions visit).filter (Effect.concerns peer) =
      [] := by
  rw [visitResults]
  split
  · rw [List.filter_map, List.map_eq_nil_iff, List.filter_eq_nil_iff]
    intro delivery _ concerned
    cases concerned
  · rfl

/-- The packets of a session go to the peer it is stored under. -/
theorem concerns_of_visitPackets
    {stack : CoapStack} (matched : stack.PeersMatch) {now : Nat}
    {visit : SocketAddr × List Token} {effect : Effect}
    {peer : SocketAddr}
    (member : effect ∈ visitPackets now stack.sessions visit) :
    effect.concerns peer = true ↔ visit.1 = peer := by
  rw [visitPackets] at member
  split at member
  · next session stored =>
      rcases List.mem_map.mp member with ⟨packet, sent, rfl⟩
      have samePeer : packet.1 = visit.1 := by
        rcases List.mem_map.mp sent with ⟨bytes, _, rfl⟩
        exact (collectRetransmissions_frame session now visit.2).1.trans
          (matched _ _ stored)
      simp only [Effect.concerns, samePeer, decide_eq_true_eq]
  · cases member

theorem filter_visitPackets
    {stack : CoapStack} (matched : stack.PeersMatch) (now : Nat)
    (peer : SocketAddr) (distinct : (order.map Prod.fst).Nodup) :
    (order.flatMap (visitPackets now stack.sessions)).filter
        (Effect.concerns peer) =
      ((order.lookup peer).map fun tokens =>
        visitPackets now stack.sessions (peer, tokens)).getD [] := by
  induction order with
  | nil => rfl
  | cons visit rest induction =>
      rw [List.map_cons, List.nodup_cons] at distinct
      rw [List.flatMap_cons, List.filter_append, induction distinct.2,
        List.lookup_cons]
      by_cases isPeer : visit.1 = peer
      · -- No later visit is to this peer.
        subst isPeer
        have unvisited : rest.lookup visit.1 = none := by
          rw [List.lookup_eq_none_iff]
          intro other member
          exact bne_iff_ne.mpr fun same =>
            distinct.1 (List.mem_map.mpr ⟨other, member, same.symm⟩)
        rw [unvisited, beq_self_eq_true]
        exact (List.append_nil _).trans
          (List.filter_eq_self.mpr fun effect member =>
            (concerns_of_visitPackets matched member).mpr rfl)
      · rw [beq_false_of_ne (Ne.symm isPeer)]
        have others : (visitPackets now stack.sessions visit).filter
            (Effect.concerns peer) = [] :=
          List.filter_eq_nil_iff.mpr fun effect member concerned =>
            isPeer ((concerns_of_visitPackets matched member).mp concerned)
        rw [others]
        rfl

theorem splits_timer
    (stepped : before.step codec iteration = some (after, effects))
    (matched : before.stack.PeersMatch)
    (taken : iteration.branch = .retransmissionTimer order) :
    Splits codec ⟨before, iteration, effects, after⟩ := by
  rcases (step_cases stepped).branch.of_timer taken with
    ⟨_, enumerates, _, isOutput⟩
  have distinct := enumerates.1.nodup
  rw [retransmit_effects iteration.now distinct] at isOutput
  constructor
  · intro peer
    have noResults : (order.flatMap
        (visitResults iteration.now before.stack.sessions)).filter
          (Effect.concerns peer) = [] := by
      rw [List.filter_flatMap, List.flatMap_eq_nil_iff]
      exact fun visit _ => filter_visitResults _ _ visit peer
    have ordered : effects.filter (Effect.concerns peer) =
        ((order.lookup peer).map fun tokens =>
          visitPackets iteration.now before.stack.sessions
            (peer, tokens)).getD [] := by
      rw [isOutput, List.filter_append, noResults, List.nil_append,
        filter_visitPackets matched iteration.now peer distinct]
    refine ordered.trans ?_
    cases visits : order.lookup peer with
    | none =>
        rw [ownEffects_of_unseen (by
          simp only [Iteration.seenBy, taken, visits, Option.map_none])]
        rfl
    | some tokens =>
        have member : (peer, tokens) ∈ order := by
          rcases List.lookup_eq_some_iff.mp visits with ⟨_, _, rfl, _⟩
          exact List.mem_append_right _ List.mem_cons_self
        rw [ownEffects_of_visit stepped taken member, List.filter_append,
          filter_visitResults, List.nil_append]
        exact (List.filter_eq_self.mpr fun effect sent =>
          (concerns_of_visitPackets matched sent).mpr rfl).symm
  · refine ⟨order.map Prod.fst, distinct, ?_, ?_⟩
    · intro peer unvisited
      apply ownEffects_of_unseen
      simp only [Iteration.seenBy, taken, Option.map_eq_none_iff,
        List.lookup_eq_none_iff]
      intro visit member
      exact bne_iff_ne.mpr fun same =>
        unvisited (List.mem_map.mpr ⟨visit, member, same.symm⟩)
    · rw [List.flatMap_map]
      have each : (order.flatMap fun visit =>
          ownEffects codec visit.1 ⟨before, iteration, effects, after⟩) =
            order.flatMap fun visit =>
              visitResults iteration.now before.stack.sessions visit ++
                visitPackets iteration.now before.stack.sessions visit :=
        List.flatMap_congr fun visit member =>
          ownEffects_of_visit stepped taken member
      rw [each, isOutput]
      exact List.flatMap_append_perm _ _ _

end Timer

/-! ## Runs -/

section Runs

variable {codec : Codec} {history : List LoopTransition} {loop : Loop}

/-- An iteration that one peer sees has the effects of this peer. -/
theorem splits_of_single
    {before after : Loop} {iteration : Iteration}
    {effects : List Effect} (peer : SocketAddr)
    (stepped : before.step codec iteration = some (after, effects))
    (noTimer : ∀ order, iteration.branch ≠ .retransmissionTimer order)
    (sees : ∀ other, iteration.seenBy other =
      if peer = other then some iteration else none)
    (only : ∀ effect ∈ effects, ∀ other,
      effect.concerns other = true → other = peer) :
    Splits codec ⟨before, iteration, effects, after⟩ := by
  have isOwn : ownEffects codec peer ⟨before, iteration, effects, after⟩ =
      effects :=
    have seen := (sees peer).trans (if_pos rfl)
    ownEffects_of_soloStep seen (soloStep_of_seen stepped seen noTimer)
  have others (other : SocketAddr) (different : other ≠ peer) :
      ownEffects codec other ⟨before, iteration, effects, after⟩ = [] :=
    ownEffects_of_unseen ((sees other).trans (if_neg different.symm))
  constructor
  · intro other
    by_cases isPeer : other = peer
    · rw [isPeer, isOwn]
    · rw [others other isPeer, List.filter_nil]
      exact List.filter_eq_nil_iff.mpr fun effect member concerned =>
        isPeer (only effect member other concerned)
  · refine ⟨[peer], List.nodup_singleton _, ?_, ?_⟩
    · intro other elsewhere
      exact others other fun same =>
        elsewhere (List.mem_singleton.mpr same)
    · rw [List.flatMap_singleton, isOwn]

/-- Apart from the timer, the effects of an iteration are those of the peer
whose branch body was run, and cleanup has none. -/
theorem splits_of_body
    {before after : Loop} {iteration : Iteration} {effects : List Effect}
    (stepped : before.step codec iteration = some (after, effects))
    (noTimer : ∀ order, iteration.branch ≠ .retransmissionTimer order) :
    Splits codec ⟨before, iteration, effects, after⟩ := by
  generalize isAfter : after.stack = stack
  have branch := (step_cases stepped).branch
  rw [isAfter] at branch
  cases branch with
  | @unparsed raw source taken unparseable =>
      refine splits_of_single source stepped noTimer
        (fun other => by simp only [Iteration.seenBy, taken]) ?_
      intro effect member
      cases member
  | @inbound raw source parsed session effects taken parses received =>
      refine splits_of_single source stepped noTimer
        (fun other => by simp only [Iteration.seenBy, taken]) ?_
      intro effect member other concerned
      rcases receivePacket_effects received with ⟨rest, rfl, inRest⟩
      rcases List.mem_append.mp member with isAck | isRest
      · rcases List.mem_map.mp isAck with ⟨ack, _, rfl⟩
        exact (of_decide_eq_true concerned).symm
      · cases inRest _ isRest with
        | dispatch => exact (of_decide_eq_true concerned).symm
        | deliver => cases concerned
  | @request outbound taken =>
      refine splits_of_single outbound.peer stepped noTimer
        (fun other => by simp only [Iteration.seenBy, taken]) ?_
      intro effect member other concerned
      rcases eq_sendPacket_of_request member with ⟨bytes, rfl⟩
      exact (of_decide_eq_true concerned).symm
  | @response outbound taken =>
      refine splits_of_single outbound.peer stepped noTimer
        (fun other => by simp only [Iteration.seenBy, taken]) ?_
      intro effect member other concerned
      rcases eq_sendPacket_of_response member with ⟨bytes, rfl⟩
      exact (of_decide_eq_true concerned).symm
  | timer taken due enumerates => exact absurd taken (noTimer _)
  | cleanup taken due =>
      have noEffects (peer : SocketAddr) :
          ownEffects codec peer ⟨before, iteration, [], after⟩ = [] :=
        have seen : iteration.seenBy peer = some iteration := by
          simp only [Iteration.seenBy, taken]
        ownEffects_of_soloStep seen
          (soloStep_of_seen stepped seen noTimer)
      constructor
      · intro peer
        rw [noEffects]
      · exact ⟨[], List.nodup_nil, fun peer _ => noEffects peer, .nil⟩

theorem splits_of_run (run : LoopRun codec history loop) :
    ∀ transition ∈ history, Splits codec transition := by
  intro transition member
  rcases List.append_of_mem member with ⟨newer, older, rfl⟩
  rcases run.of_suffix (List.suffix_append newer _) with
    ⟨earlier, stepped⟩
  by_cases isTimer : ∃ order,
      transition.input.branch = .retransmissionTimer order
  · rcases isTimer with ⟨order, taken⟩
    exact splits_timer stepped (peersMatch_of_run earlier) taken
  · exact splits_of_body stepped fun order taken =>
      isTimer ⟨order, taken⟩

/--
The loop is the product of what it is for each peer: its run restricted to a
peer is a run on the session of this peer alone, and its effects are those of
the peers, none added and none lost.
-/
theorem peers_do_not_interfere (run : LoopRun codec history loop) :
    (∀ peer, Run (soloMachine codec peer)
      (history.filterMap (soloTransition? codec peer))
      (loop.stack.sessions.lookup peer)) ∧
      ∀ transition ∈ history, Splits codec transition := by
  refine ⟨fun peer => ?_, splits_of_run run⟩
  refine run.component (fun loop => loop.stack.sessions.lookup peer)
    (soloTransition? codec peer) ?_ ?_ ?_
  · rintro _ ⟨now, rfl⟩
    rfl
  · intro before after iteration effects stepped unobserved
    exact lookup_of_unseen stepped (Option.map_eq_none_iff.mp unobserved)
  · intro before after iteration effects stepped own observed
    rcases Option.map_eq_some_iff.mp observed with ⟨ownInput, seen, rfl⟩
    rcases exists_soloStep_of_seen stepped seen with ⟨ownOutput, ownStep⟩
    refine ⟨rfl, rfl, ?_⟩
    simp only [soloMachine, ownStep]

end Runs

/-- A confirmable GET to a port of the local host. -/
def getFrom (port : UInt16) (channel : Nat) : OutboundRequest :=
  ⟨⟨.get, "", [], none, [], none, true⟩, .loopback port, ⟨channel⟩⟩

/-- Requests to two peers, and the timer that repeats both. -/
def twoPeersInputs : List Iteration :=
  [.plain (fromSecs 1) (.outboundRequest (some (getFrom 5683 0))),
    .plain (fromSecs 1) (.outboundRequest (some (getFrom 5684 1))),
    .plain (fromSecs 4) (.retransmissionTimer
      [(.loopback 5684, [[0, 0, 0, 0]]),
        (.loopback 5683, [[0, 0, 0, 0]])])]

/-- The first peer sees its own request and the timer. -/
def seesTwo (history : List LoopTransition) : Bool :=
  decide (history.length = 3 ∧
    (history.filterMap
      (soloTransition? bareCodec (.loopback 5683))).length = 2)

theorem peers_do_not_interfere_on_two_peers :
    ∃ (history : List LoopTransition) (session : Option PeerSession),
      Run (soloMachine bareCodec (.loopback 5683))
        (history.filterMap (soloTransition? bareCodec (.loopback 5683)))
        session ∧
      (∀ transition ∈ history, Splits bareCodec transition) ∧
      history.length = 3 ∧
      (history.filterMap
        (soloTransition? bareCodec (.loopback 5683))).length = 2 := by
  rcases exists_run_of_replay (Loop.initial_start bareCodec 0)
      twoPeersInputs
      (fun history _ => seesTwo history) (by decide) with
    ⟨history, loop, run, checked⟩
  rcases peers_do_not_interfere run with ⟨projected, splits⟩
  exact ⟨history, _, projected _, splits, of_decide_eq_true checked⟩

end Coapable.Transport
