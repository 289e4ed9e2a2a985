import Coapable.Transport.Allocators

/-!
# The tokens of the open exchanges

A session numbers its tokens with a wrapping 32-bit counter, and a session
that was evicted starts a new one at a random value.  The tokens of the open
exchanges of a session are therefore among the last ones it allocated, and as
long as it has allocated fewer than `2 ^ 32` the next one is not in use.
-/

namespace Coapable.Transport

open Coapable.CoapLite
open Coapable.Foundation.Execution
open Coapable.Foundation.FiniteMap

/-- How many tokens the present session of the peer has allocated. -/
def tokensAllocated (peer : SocketAddr) : List LoopTransition → Nat
  | [] => 0
  | transition :: older =>
      if (transition.after.stack.sessions.lookup peer).isNone then 0
      else
        tokensAllocated peer older +
          (transition.input.requests peer).toNat

/-- No session has allocated as many tokens as there are. -/
def TokensNotExhausted (older : List LoopTransition)
    (transition : LoopTransition) : Prop :=
  ∀ peer, tokensAllocated peer (transition :: older) < 2 ^ 32

theorem tokensAllocated_le_length
    (peer : SocketAddr) (history : List LoopTransition) :
    tokensAllocated peer history ≤ history.length := by
  induction history with
  | nil => exact le_rfl
  | cons transition older induction =>
      rw [tokensAllocated, List.length_cons]
      split
      · exact Nat.zero_le _
      · have atMostOne := Bool.toNat_le (transition.input.requests peer)
        omega

/-- A history of fewer than `2 ^ 32` iterations exhausts no tokens. -/
theorem tokensNotExhausted_of_length
    {history : List LoopTransition} (short : history.length < 2 ^ 32) :
    Along TokensNotExhausted history := by
  rw [along_iff_forall_suffix]
  intro transition older suffix peer
  have allocated := tokensAllocated_le_length peer (transition :: older)
  have shorter := suffix.length_le
  omega

/-! ## Tokens along a run -/

theorem exists_session_of_request
    {codec : Codec} {stack after : CoapStack} {iteration : Iteration}
    {effects : List Effect}
    (branch : BranchStep codec stack iteration after effects)
    {outbound : OutboundRequest}
    (taken : iteration.branch = .outboundRequest (some outbound)) :
    ∃ session, after.sessions.lookup outbound.peer = some session := by
  rw [(branch.of_request taken).1, lookup_putSession, if_pos rfl]
  exact ⟨_, rfl⟩

/-- The token was allocated so many tokens ago. -/
def TokenOfAge (session : PeerSession) (token : Token) (age : Nat) :
    Prop :=
  token = toBeBytes (session.tokenAllocator.next - UInt32.ofNat age)

theorem tokenOfAge_opened
    {codec : Codec} {stack after : CoapStack} {iteration : Iteration}
    {effects : List Effect}
    (branch : BranchStep codec stack iteration after effects)
    {opening : Opening}
    (opens : stack.opening codec iteration = some opening)
    {session : PeerSession}
    (stored :
      after.sessions.lookup opening.outbound.peer = some session) :
    iteration.requests opening.outbound.peer = true ∧
      TokenOfAge session opening.token 1 := by
  rcases opening_cases opens with ⟨taken, isToken, _, _⟩
  have requested :
      iteration.requests opening.outbound.peer = true := by
    rw [Iteration.requests, taken]
    exact decide_eq_true rfl
  have advanced := tokenAllocator_step branch stored
  rw [requested] at advanced
  have previousToken :
      session.tokenAllocator.next - UInt32.ofNat 1 =
        (stack.sessionFor iteration
          opening.outbound.peer).tokenAllocator.next := by
    rw [advanced]
    exact UInt32.add_sub_cancel _ _
  refine ⟨requested, ?_⟩
  rw [TokenOfAge, previousToken]
  exact isToken

/-- Each request to the peer makes the tokens of its session older. -/
theorem TokenOfAge.step
    {codec : Codec} {stack after : CoapStack} {iteration : Iteration}
    {effects : List Effect}
    (branch : BranchStep codec stack iteration after effects)
    {peer : SocketAddr} {previous session : PeerSession}
    (storedBefore : stack.sessions.lookup peer = some previous)
    (stored : after.sessions.lookup peer = some session)
    {token : Token} {age : Nat}
    (isToken : TokenOfAge previous token age) :
    TokenOfAge session token
      (age + (iteration.requests peer).toNat) := by
  have advanced := tokenAllocator_step branch stored
  rw [sessionFor_of_found iteration storedBefore] at advanced
  have sameToken :
      session.tokenAllocator.next -
          UInt32.ofNat (age + (iteration.requests peer).toNat) =
        previous.tokenAllocator.next - UInt32.ofNat age := by
    rw [advanced, UInt32.ofNat_add]
    grind
  rw [TokenOfAge, sameToken]
  exact isToken

/-- The tokens of the open exchanges are among those that the session of
their peer has allocated. -/
theorem exists_age
    {codec : Codec} {history : List LoopTransition} {loop : Loop}
    (run : LoopRun codec history loop)
    {peer : SocketAddr} {session : PeerSession}
    (stored : loop.stack.sessions.lookup peer = some session)
    {token : Token} {exchange : Exchange}
    (found : (loop.stack.client peer).exchanges.lookup token =
      some exchange) :
    ∃ age, 0 < age ∧ age ≤ tokensAllocated peer history ∧
      TokenOfAge session token age := by
  induction run generalizing exchange session with
  | start initial =>
      rcases initial with ⟨now, rfl⟩
      cases stored
  | @extend history before after iteration effects earlier stepped
      induction =>
      have branch := (step_cases stepped).branch
      have allocated : tokensAllocated peer
          (⟨before, iteration, effects, after⟩ :: history) =
            tokensAllocated peer history +
              (iteration.requests peer).toNat := by
        rw [tokensAllocated, if_neg (by rw [stored]; simp)]
      rw [client_step branch peer] at found
      rcases (ExchangeTable.step_apply _ _).origin found with
        isOpened | ⟨previous, wasOpen, _⟩
      · rcases opening_of_opened isOpened with
          ⟨opening, opens, rfl, rfl, _⟩
        rcases tokenOfAge_opened branch opens stored with
          ⟨requested, isToken⟩
        rw [requested] at allocated
        exact ⟨1, Nat.one_pos, allocated ▸ Nat.le_add_left _ _, isToken⟩
      · rcases exists_session_of_open wasOpen with
          ⟨previousSession, previousStored, _⟩
        rcases induction previousStored wasOpen with
          ⟨age, positive, bounded, isToken⟩
        exact ⟨age + (iteration.requests peer).toNat, by omega,
          by omega, isToken.step branch previousStored stored⟩

/-- A request is given a token that no open exchange of its peer has. -/
theorem token_fresh
    {codec : Codec} {history : List LoopTransition}
    {before after : Loop} {iteration : Iteration}
    {effects : List Effect}
    (run : LoopRun codec history before)
    (stepped : before.step codec iteration = some (after, effects))
    (notExhausted : TokensNotExhausted history
      ⟨before, iteration, effects, after⟩)
    {opening : Opening}
    (opens : before.stack.opening codec iteration = some opening) :
    (before.stack.client opening.outbound.peer).exchanges.lookup
      opening.token = none := by
  rw [Option.eq_none_iff_forall_ne_some]
  intro exchange found
  rcases exists_session_of_open found with ⟨session, stored, _⟩
  rcases exists_age run stored found with ⟨age, positive, bounded, isToken⟩
  rcases opening_cases opens with ⟨taken, isNext, _, _⟩
  rw [sessionFor_of_found iteration stored] at isNext
  -- The new token is the counter, so the old one came `2 ^ 32` before it.
  have same : session.tokenAllocator.next - UInt32.ofNat age =
      session.tokenAllocator.next :=
    toBeBytes_injective (isToken.symm.trans isNext)
  have wrapped : UInt32.ofNat age = 0 := by grind
  have multiple := congrArg UInt32.toNat wrapped
  rw [UInt32.toNat_ofNat'] at multiple
  rcases exists_session_of_request (step_cases stepped).branch taken with
    ⟨sessionAfter, storedAfter⟩
  have bound := notExhausted opening.outbound.peer
  rw [tokensAllocated, if_neg (by rw [storedAfter]; simp)] at bound
  change age % 2 ^ 32 = 0 at multiple
  rw [Nat.mod_eq_of_lt (by omega)] at multiple
  omega

end Coapable.Transport
