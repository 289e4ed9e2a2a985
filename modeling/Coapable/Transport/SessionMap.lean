import Coapable.Transport.Loop
import Coapable.Transport.Timers

/-!
# The session map after a step

Which sessions a step can change: an inbound packet, a client request or a
server response changes the session of one peer, the retransmission timer
treats every session on its own, and cleanup drops idle sessions.
-/

namespace Coapable.Transport

open Coapable.CoapLite
open Coapable.Foundation.FiniteMap
open Coapable.MessageTypes

theorem lookup_putSession
    (stack : CoapStack) (peer other : SocketAddr)
    (session : PeerSession) :
    (stack.putSession peer session).sessions.lookup other =
      if other = peer then some session
      else stack.sessions.lookup other :=
  lookup_insert_eq _ _ _ _

/-- A session after `putSession` is the one that was put, or was stored. -/
theorem stored_of_putSession
    {stack : CoapStack} {peer other : SocketAddr}
    {session stored : PeerSession}
    (found : (stack.putSession peer session).sessions.lookup other =
      some stored) :
    (peer = other ∧ session = stored) ∨
      (peer ≠ other ∧ stack.sessions.lookup other = some stored) := by
  rw [lookup_putSession] at found
  split at found
  · next equal => exact Or.inl ⟨equal.symm, Option.some.inj found⟩
  · next different => exact Or.inr ⟨Ne.symm different, found⟩

theorem sessionFor_of_found
    {stack : CoapStack} {peer : SocketAddr} {session : PeerSession}
    (iteration : Iteration)
    (found : stack.sessions.lookup peer = some session) :
    stack.sessionFor iteration peer = session := by
  rw [CoapStack.sessionFor, found]
  rfl

/-- Putting back the stored session changes nothing. -/
theorem putSession_stored
    {stack : CoapStack} {peer : SocketAddr} {session : PeerSession}
    (stored : stack.sessions.lookup peer = some session) :
    stack.putSession peer session = stack := by
  have same : stack.sessions.insert peer session = stack.sessions := by
    apply Finmap.ext_lookup
    intro other
    rw [lookup_insert_eq]
    split
    · next equal => rw [equal, stored]
    · rfl
  rw [CoapStack.putSession, same]

theorem lookup_cleanup
    (stack : CoapStack) (now : Nat) (peer : SocketAddr) :
    (stack.cleanup now).sessions.lookup peer =
      (stack.sessions.lookup peer).filter fun session =>
        !session.isIdle :=
  lookup_retain _ _ _

theorem isIdle_iff (session : PeerSession) :
    session.isIdle = true ↔
      (∀ token, session.exchanges.lookup token = none) ∧
        (∀ mid, session.midToToken.lookup mid = none) ∧
          (∀ mid, session.inboundDedup.lookup mid = none) ∧
            ∀ token, session.inboundConMids.lookup token = none := by
  simp only [PeerSession.isIdle, Bool.and_eq_true, isEmpty_eq_true_iff,
    and_assoc]

/-! ## The timer loop over all sessions -/

/-- A session that is not visited stays as it was. -/
theorem tickSessions_lookup_of_unvisited
    (now : Nat) (order : List (SocketAddr × List Token))
    (sessions : Table SocketAddr PeerSession) (peer : SocketAddr)
    (unvisited : peer ∉ order.map Prod.fst) :
    (tickSessions now order sessions).1.lookup peer =
      sessions.lookup peer := by
  induction order generalizing sessions with
  | nil => rfl
  | cons visit rest induction =>
      rcases visit with ⟨visited, exchangeOrder⟩
      simp only [List.map_cons, List.mem_cons, not_or] at unvisited
      cases found : sessions.lookup visited with
      | none =>
          simp only [tickSessions, found]
          exact induction sessions unvisited.2
      | some session =>
          simp only [tickSessions, found]
          rw [induction _ unvisited.2, lookup_insert_eq,
            if_neg unvisited.1]

/-- A visited session ticks once, in the order given for it. -/
theorem tickSessions_lookup_of_visited
    (now : Nat) (order : List (SocketAddr × List Token))
    (sessions : Table SocketAddr PeerSession)
    (distinct : (order.map Prod.fst).Nodup)
    {peer : SocketAddr} {exchangeOrder : List Token}
    (visited : (peer, exchangeOrder) ∈ order) :
    (tickSessions now order sessions).1.lookup peer =
      (sessions.lookup peer).map
        fun session => (session.tick now exchangeOrder).1 := by
  induction order generalizing sessions with
  | nil => cases visited
  | cons visit rest induction =>
      rcases visit with ⟨head, headOrder⟩
      rw [List.map_cons, List.nodup_cons] at distinct
      rcases List.mem_cons.mp visited with equal | inRest
      · injection equal with peerEqual orderEqual
        subst peerEqual
        subst orderEqual
        cases found : sessions.lookup peer with
        | none =>
            simp only [tickSessions, found]
            rw [tickSessions_lookup_of_unvisited _ _ _ _ distinct.1,
              found]
            rfl
        | some session =>
            simp only [tickSessions, found]
            rw [tickSessions_lookup_of_unvisited _ _ _ _ distinct.1,
              lookup_insert_eq, if_pos rfl]
            rfl
      · have other : peer ≠ head := by
          rintro rfl
          exact distinct.1 (List.mem_map.mpr ⟨_, inRest, rfl⟩)
        cases found : sessions.lookup head with
        | none =>
            simp only [tickSessions, found]
            exact induction sessions distinct.2 inRest
        | some session =>
            simp only [tickSessions, found]
            rw [induction _ distinct.2 inRest, lookup_insert_eq,
              if_neg other]

/-- What the timer loop sends and delivers, session by session. -/
theorem tickSessions_output
    (now : Nat) (order : List (SocketAddr × List Token))
    (sessions : Table SocketAddr PeerSession)
    (distinct : (order.map Prod.fst).Nodup) :
    (tickSessions now order sessions).2 =
      (order.flatMap fun visit =>
          match sessions.lookup visit.1 with
          | some session => (session.tick now visit.2).2.1
          | none => [],
        order.flatMap fun visit =>
          match sessions.lookup visit.1 with
          | some session => (session.tick now visit.2).2.2
          | none => []) := by
  induction order generalizing sessions with
  | nil => rfl
  | cons visit rest induction =>
      rcases visit with ⟨head, headOrder⟩
      rw [List.map_cons, List.nodup_cons] at distinct
      cases found : sessions.lookup head with
      | none =>
          simp only [tickSessions, found, List.flatMap_cons,
            List.nil_append]
          exact induction sessions distinct.2
      | some session =>
          have unvisited (visit : SocketAddr × List Token)
              (member : visit ∈ rest) :
              (sessions.insert head (session.tick now headOrder).1).lookup
                  visit.1 =
                sessions.lookup visit.1 := by
            rw [lookup_insert_eq, if_neg]
            intro equal
            exact distinct.1 (List.mem_map.mpr ⟨visit, member, equal⟩)
          simp only [tickSessions, found, List.flatMap_cons,
            induction _ distinct.2]
          rw [Prod.mk.injEq]
          constructor
          · congr 1
            apply List.flatMap_congr
            intro visit member
            rw [unvisited visit member]
          · congr 1
            apply List.flatMap_congr
            intro visit member
            rw [unvisited visit member]

/-- The visit that the enumeration makes to a stored session. -/
theorem exists_visit
    {stack : CoapStack} {order : List (SocketAddr × List Token)}
    (enumerates : stack.EnumeratesSessions order)
    {peer : SocketAddr} {session : PeerSession}
    (found : stack.sessions.lookup peer = some session) :
    ∃ exchangeOrder, (peer, exchangeOrder) ∈ order ∧
      Enumerates exchangeOrder session.exchanges := by
  have visited : peer ∈ order.map Prod.fst :=
    (enumerates.1.mem_iff peer).mpr ⟨session, found⟩
  rcases List.mem_map.mp visited with
    ⟨⟨visitedPeer, exchangeOrder⟩, member, equal⟩
  have peerEqual : visitedPeer = peer := equal
  subst peerEqual
  exact ⟨exchangeOrder, member,
    enumerates.2 _ member session found⟩

/-- Every session after the timer branch is a session that ticked. -/
theorem lookup_retransmit
    {stack : CoapStack} {order : List (SocketAddr × List Token)}
    (now : Nat)
    (enumerates : stack.EnumeratesSessions order) (peer : SocketAddr) :
    match stack.sessions.lookup peer with
    | none =>
        (stack.retransmit now order).1.sessions.lookup peer = none
    | some session =>
        ∃ exchangeOrder, (peer, exchangeOrder) ∈ order ∧
          Enumerates exchangeOrder session.exchanges ∧
          (stack.retransmit now order).1.sessions.lookup peer =
            some (session.tick now exchangeOrder).1 := by
  cases found : stack.sessions.lookup peer with
  | none =>
      have unvisited : peer ∉ order.map Prod.fst := by
        rw [enumerates.1.mem_iff]
        rintro ⟨session, stored⟩
        rw [found] at stored
        cases stored
      exact (tickSessions_lookup_of_unvisited now order stack.sessions
        peer unvisited).trans found
  | some session =>
      rcases exists_visit enumerates found with
        ⟨exchangeOrder, member, visits⟩
      refine ⟨exchangeOrder, member, visits, ?_⟩
      have ticked :=
        tickSessions_lookup_of_visited now order stack.sessions
          enumerates.1.nodup member
      rw [found] at ticked
      exact ticked

theorem stored_of_retransmit
    {stack : CoapStack} {order : List (SocketAddr × List Token)}
    {now : Nat} (enumerates : stack.EnumeratesSessions order)
    {peer : SocketAddr} {session : PeerSession}
    (found : (stack.retransmit now order).1.sessions.lookup peer =
      some session) :
    ∃ previous exchangeOrder,
      stack.sessions.lookup peer = some previous ∧
        session = (previous.tick now exchangeOrder).1 := by
  have visited := lookup_retransmit now enumerates peer
  cases stored : stack.sessions.lookup peer with
  | none =>
      rw [stored] at visited
      rw [visited] at found
      cases found
  | some previous =>
      rw [stored] at visited
      rcases visited with ⟨exchangeOrder, _, _, ticked⟩
      exact ⟨previous, exchangeOrder, rfl,
        Option.some.inj (found.symm.trans ticked)⟩

end Coapable.Transport
