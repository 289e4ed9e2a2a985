import Coapable.Server.RouteTable

/-!
# The path parameters a handler is given

The name of a parameter is stored on the node it leads to, by the first route
that goes through there; later routes keep it.  A handler is therefore given
its segments under the names recorded for its pattern, which are the names of
the pattern itself only if no earlier route used others.
-/

namespace Coapable.Server

open Coapable.Foundation.FiniteMap
open Coapable.Foundation.Patterns
open Coapable.CoapLite
open Coapable.MessageTypes
open Coapable.Transport

variable {Handler State : Type}

/-- The call sets the handler for some method. -/
def Registers (call : RouteCall Handler) (handler : Handler) : Prop :=
  ∃ method, call.2.handlers.retrieveHandler method = some handler

/-- The handler was registered by this call and by no other. -/
def RegisteredBy (calls : List (RouteCall Handler))
    (call : RouteCall Handler) (handler : Handler) : Prop :=
  call ∈ calls ∧ Registers call handler ∧
    ∀ other ∈ calls, Registers other handler → other = call

/-- The parameters are exactly those of the pattern: its names, each with the
segment at its position. -/
def ParamsOf (params : Params) (pattern : List (Piece String String))
    (segments : List String) : Prop :=
  ∀ name segment, params.lookup name = some segment ↔
    (name, segment) ∈ captured pattern segments

/-- What is invoked was registered by a visible call, and is given what the
pattern of that call captures under the recorded names. -/
theorem exists_call_of_invoked
    {state : State} {calls : List (RouteCall Handler)}
    {request : CoapRequest} {peer : SocketAddr} {handler : Handler}
    {handlerRequest : HandlerRequest}
    (invoked : (Router.routes state calls).dispatch request peer =
      .invoked handler handlerRequest) :
    ∃ call ∈ calls, Registers call handler ∧
      Matches (pattern call.1) (pathSegments request.path) ∧
        handlerRequest.ctx.params =
          insertAll ∅ (captured
            (recorded (calls.map entry) (pattern call.1))
            (pathSegments request.path)) := by
  rw [dispatch_routes] at invoked
  split at invoked
  · cases invoked
  · split at invoked
    · cases invoked
    · next found retrieved =>
        injection invoked with isHandler isRequest
        subst isHandler
        subst isRequest
        rw [merged_retrieveHandler] at retrieved
        rcases List.mem_filterMap.mp
            (List.mem_of_getLast? retrieved) with
          ⟨call, selected, set⟩
        rcases (mem_select_iff _ _ _).mp selected with
          ⟨stored, member, matched, visible⟩
        rcases List.mem_map.mp member with ⟨same, isCall, equal⟩
        injection equal with isPattern isValue
        subst isValue
        subst isPattern
        exact ⟨same, isCall, ⟨_, set⟩, matched, by
          rw [captures_eq_captured member matched visible]⟩

/--
A handler is given the parameters of its own pattern exactly if the recorded
names and the segments are, as pairs, those of the pattern in some order.
-/
theorem paramsOf_iff_recorded
    {state : State} {calls : List (RouteCall Handler)}
    {request : CoapRequest} {peer : SocketAddr} {handler : Handler}
    {handlerRequest : HandlerRequest} {call : RouteCall Handler}
    (invoked : (Router.routes state calls).dispatch request peer =
      .invoked handler handlerRequest)
    (registered : RegisteredBy calls call handler)
    (distinct : ((pattern call.1).filterMap Piece.name?).Nodup) :
    ParamsOf handlerRequest.ctx.params (pattern call.1)
        (pathSegments request.path) ↔
      (captured (recorded (calls.map entry) (pattern call.1))
          (pathSegments request.path)).Perm
        (captured (pattern call.1) (pathSegments request.path)) := by
  rcases exists_call_of_invoked invoked with
    ⟨chosen, isCall, registers, matched, isParams⟩
  obtain rfl : chosen = call := registered.2.2 chosen isCall registers
  rw [ParamsOf, isParams]
  apply lookup_insertAll_iff_perm
  · rw [map_fst_captured matched]
    exact distinct
  · exact length_captured_recorded _ _ _

/-- Routes `devices/:id` and `devices/:name/state`, in this order. -/
def sharedPrefixCalls : List (RouteCall Nat) :=
  [("devices/:id", get 0), ("devices/:name/state", get 1)]

/-- A GET for the given path. -/
def getPath (path : String) : CoapRequest :=
  ⟨.get, path, [], none, [], none, true⟩

/-- The peer of the request below. -/
def requester : SocketAddr :=
  ⟨[127, 0, 0, 1], 5000⟩

theorem state_registeredBy :
    RegisteredBy sharedPrefixCalls ("devices/:name/state", get 1) 1 := by
  refine ⟨by simp [sharedPrefixCalls], ⟨.get, rfl⟩, ?_⟩
  intro other member
  rcases List.mem_cons.mp member with rfl | member
  · rintro ⟨method, set⟩
    cases method <;> cases set
  · rw [List.mem_singleton.mp member]
    exact fun _ => rfl

/-- The handler of `devices/:name/state` is given an `id`. -/
theorem dispatch_state :
    (Router.routes () sharedPrefixCalls).dispatch
        (getPath "/devices/7/state") requester =
      .invoked 1 ⟨getPath "/devices/7/state", requester,
        insertAll ∅ [("id", "7")], .none⟩ :=
  rfl

theorem paramsOf_iff_recorded_on_shared_prefix :
    ¬ ParamsOf (insertAll ∅ [("id", "7")])
        (pattern "devices/:name/state")
        (pathSegments "/devices/7/state") := by
  intro paramsOf
  have sameNames := (paramsOf_iff_recorded dispatch_state
    state_registeredBy (by decide)).mp paramsOf
  revert sameNames
  decide

/-- Not every handler is given the parameters of its pattern. -/
theorem not_always_paramsOf :
    ¬ ∀ (calls : List (RouteCall Nat)) (request : CoapRequest)
      (peer : SocketAddr) (handler : Nat) (handlerRequest : HandlerRequest)
      (call : RouteCall Nat),
      (Router.routes () calls).dispatch request peer =
        .invoked handler handlerRequest →
      RegisteredBy calls call handler →
      ((pattern call.1).filterMap Piece.name?).Nodup →
        ParamsOf handlerRequest.ctx.params (pattern call.1)
          (pathSegments request.path) := by
  intro always
  have paramsOf := always _ _ _ _ _ _ dispatch_state
    state_registeredBy (by decide)
  -- The handler looks up its own `name` and finds nothing.
  have isSome := (paramsOf "name" "7").mpr (by decide)
  cases isSome

end Coapable.Server
