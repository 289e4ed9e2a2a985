import Coapable.Server.RouteTable

/-!
# Which routes the router finds

The descent through the trie is greedy and never returns to a parameter child
it passed by.  A request for which some route matches is therefore answered
with `NotFound` exactly if all routes that match are shadowed: each of them
has a parameter at a position where a route of the same shape so far has the
segment of the path.
-/

namespace Coapable.Server

open Coapable.Foundation.Patterns
open Coapable.CoapLite
open Coapable.MessageTypes
open Coapable.Transport

variable {Handler State : Type}

/-- If a registered route matches the path of the request, the lookup finds a
node and the request is not answered with `NotFound`. -/
def FindsMatch (state : State) (calls : List (RouteCall Handler))
    (request : CoapRequest) (peer : SocketAddr) : Prop :=
  (∃ call ∈ calls,
      Matches (pattern call.1) (pathSegments request.path)) →
    ((Router.routes state calls).lookup
        (pathSegments request.path)).isSome = true ∧
      (Router.routes state calls).dispatch request peer ≠ .notFound

theorem lookup_isSome_iff
    (state : State) (calls : List (RouteCall Handler))
    (segments : List String) :
    ((Router.routes state calls).lookup segments).isSome = true ↔
      select segments (calls.map entry) ≠ [] := by
  rw [Router.lookup, Router.routes_root, lookup_built]
  split <;> simp_all

theorem dispatch_eq_notFound_iff
    (state : State) (calls : List (RouteCall Handler))
    (request : CoapRequest) (peer : SocketAddr) :
    (Router.routes state calls).dispatch request peer = .notFound ↔
      select (pathSegments request.path) (calls.map entry) = [] := by
  rw [dispatch_routes]
  split
  · simp_all
  · next some =>
      rw [List.isEmpty_iff] at some
      simp only [some, iff_false]
      split <;> simp

/-- The greedy selection is not empty exactly if a call is visible. -/
theorem select_calls_ne_nil_iff
    (calls : List (RouteCall Handler)) (segments : List String) :
    select segments (calls.map entry) ≠ [] ↔
      ∃ call ∈ calls, Matches (pattern call.1) segments ∧
        ¬ Shadowed (calls.map entry) (pattern call.1) segments := by
  rw [select_ne_nil_iff]
  constructor
  · rintro ⟨stored, member, visible⟩
    rcases List.mem_map.mp member with ⟨call, isCall, rfl⟩
    exact ⟨call, isCall, visible⟩
  · rintro ⟨call, isCall, visible⟩
    exact ⟨entry call, List.mem_map_of_mem isCall, visible⟩

/-- The router finds a match exactly if one of the routes that match, if
there are any, is not shadowed. -/
theorem findsMatch_iff_visible
    (state : State) (calls : List (RouteCall Handler))
    (request : CoapRequest) (peer : SocketAddr) :
    FindsMatch state calls request peer ↔
      ((∃ call ∈ calls,
          Matches (pattern call.1) (pathSegments request.path)) →
        ∃ call ∈ calls,
          Matches (pattern call.1) (pathSegments request.path) ∧
            ¬ Shadowed (calls.map entry) (pattern call.1)
              (pathSegments request.path)) := by
  apply imp_congr_right
  intro _
  rw [lookup_isSome_iff, ← select_calls_ne_nil_iff]
  simp only [ne_eq, dispatch_eq_notFound_iff, and_self]

/-- Routes `a/b` and `:x/c`, in this order. -/
def overlappingCalls : List (RouteCall Nat) :=
  [("a/b", get 0), (":x/c", get 1)]

/-- A GET for `/a/c`. -/
def getAC : CoapRequest :=
  ⟨.get, "/a/c", [], none, [], none, true⟩

/-- The static child `a` has no child `c`, and the parameter child is not
tried. -/
theorem not_every_match_found :
    ¬ ∀ (calls : List (RouteCall Nat)) (request : CoapRequest)
      (peer : SocketAddr), FindsMatch () calls request peer := by
  intro claimed
  have finds := claimed overlappingCalls getAC ⟨[127, 0, 0, 1], 5000⟩
  have found := (finds ⟨(":x/c", get 1), by simp [overlappingCalls],
    .cons trivial (.cons rfl .nil)⟩).1
  have isNone : ((Router.routes () overlappingCalls).lookup
      (pathSegments getAC.path)).isSome = false := by decide
  rw [isNone] at found
  cases found

end Coapable.Server
