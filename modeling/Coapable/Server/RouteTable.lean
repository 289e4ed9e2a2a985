import Coapable.Server.Router

/-!
# The trie refines a list of routes

The trie that a sequence of `route` calls builds is determined, at every
node, by the calls that lead through it: its static child for a segment by
those that continue with the segment, its parameter child by those that
continue with a parameter, and its handlers by those that end there.  A lookup
is therefore the greedy selection from the list of calls, and the parameters
it extracts are the captures of that selection.

On the plain list of registrations (pattern, method, handler) this gives the
meaning of `handle`: the last registration of the method that the selection
keeps.
-/

namespace Coapable.Server

open Coapable.Foundation.FiniteMap
open Coapable.Foundation.Patterns
open Coapable.CoapLite
open Coapable.MessageTypes
open Coapable.Transport

variable {Handler State : Type}

/-! ## Routes as patterns -/

/-- A call of `route`. -/
abbrev RouteCall (Handler : Type) := String × MethodRouter Handler

/-- A segment of a registered path. -/
def piece (segment : String) : Piece String String :=
  match paramName segment with
  | some name => .wildcard name
  | none => .literal segment

/-- The pattern of a registered path. -/
def pattern (path : String) : List (Piece String String) :=
  (pathSegments path).map piece

/-- The call as an entry under its pattern. -/
def entry (call : RouteCall Handler) :
    Entry String String (RouteCall Handler) :=
  ⟨pattern call.1, call⟩

namespace Node

/-- `walkOrCreate` along a pattern. -/
def register (change : Node Handler → Node Handler) :
    List (Piece String String) → Node Handler → Node Handler
  | [], node => change node
  | .wildcard name :: rest, node =>
      let (kept, child) := node.param.getD (name, new)
      { node with param := some (kept, register change rest child) }
  | .literal segment :: rest, node =>
      let child := (node.children segment).getD new
      { node with
        children := fun key =>
          if key = segment then some (register change rest child)
          else node.children key }

theorem walkOrCreate_eq_register
    (change : Node Handler → Node Handler) (segments : List String)
    (node : Node Handler) :
    node.walkOrCreate change segments =
      node.register change (segments.map piece) := by
  induction segments generalizing node with
  | nil => rfl
  | cons segment rest induction =>
      rw [walkOrCreate, List.map_cons, piece]
      cases paramName segment <;> simp only [register, induction]

end Node

/-! ## The node of a list of calls -/

/-- The node that calls with the remaining patterns build. -/
def built (entries : List (Entry String String (RouteCall Handler))) :
    Node Handler :=
  entries.foldl
    (fun node entry => node.register
      (fun node =>
        { node with
          handlers := node.handlers.merge entry.value.2.handlers })
      entry.pattern)
    Node.new

theorem built_append_singleton
    (entries : List (Entry String String (RouteCall Handler)))
    (entry : Entry String String (RouteCall Handler)) :
    built (entries ++ [entry]) =
      (built entries).register
        (fun node =>
          { node with
            handlers := node.handlers.merge entry.value.2.handlers })
        entry.pattern :=
  List.foldl_append ..

theorem Router.routes_root
    (state : State) (calls : List (RouteCall Handler)) :
    (Router.routes state calls).root = built (calls.map entry) := by
  induction calls using List.reverseRecOn with
  | nil => rfl
  | append_singleton calls call induction =>
      rw [Router.routes, List.foldl_append, List.map_append,
        List.map_singleton, built_append_singleton, ← induction]
      exact Node.walkOrCreate_eq_register _ _ _

theorem built_children
    (entries : List (Entry String String (RouteCall Handler)))
    (segment : String) :
    (built entries).children segment =
      if (below segment entries).isEmpty then none
      else some (built (below segment entries)) := by
  induction entries using List.reverseRecOn with
  | nil => rfl
  | append_singleton entries entry induction =>
      rw [built_append_singleton, below_append, below_singleton]
      rcases entry with ⟨_ | ⟨own | name, rest⟩, call⟩
      · simpa [Node.register, afterLiteral] using induction
      · by_cases same : own = segment
        · subst same
          have child : ((built entries).children own).getD Node.new =
              built (below own entries) := by
            rw [induction]
            split
            · next none =>
                rw [List.isEmpty_iff.mp none]
                rfl
            · rfl
          simp [Node.register, child, afterLiteral, built_append_singleton]
        · simpa [Node.register, afterLiteral, same, Ne.symm same]
            using induction
      · simpa [Node.register, afterLiteral] using induction

theorem built_param
    (entries : List (Entry String String (RouteCall Handler))) :
    (built entries).param =
      (wildcardName entries).map fun name =>
        (name, built (belowWildcard entries)) := by
  induction entries using List.reverseRecOn with
  | nil => rfl
  | append_singleton entries entry induction =>
      rw [built_append_singleton, belowWildcard_append,
        belowWildcard_singleton, wildcardName_append,
        wildcardName_singleton]
      rcases entry with ⟨_ | ⟨own | name, rest⟩, call⟩
      · simpa [Node.register, afterWildcard] using induction
      · simpa [Node.register, afterWildcard, Piece.name?] using induction
      · cases first : wildcardName entries with
        | none =>
            rw [first] at induction
            rw [wildcardName_eq_none_iff] at first
            simp [Node.register, induction, first, Piece.name?,
              afterWildcard]
            rfl
        | some kept =>
            rw [first] at induction
            simp [Node.register, induction, afterWildcard,
              built_append_singleton]

theorem built_handlers
    (entries : List (Entry String String (RouteCall Handler))) :
    (built entries).handlers =
      (ending entries).foldl
        (fun handlers call => handlers.merge call.2.handlers)
        MethodHandlers.new := by
  induction entries using List.reverseRecOn with
  | nil => rfl
  | append_singleton entries entry induction =>
      rw [built_append_singleton, ending_append, List.foldl_append,
        ← induction]
      rcases entry with ⟨_ | ⟨own | name, rest⟩, call⟩ <;> rfl

/-! ## The handlers of a node -/

namespace MethodHandlers

theorem retrieveHandler_merge
    (handlers other : MethodHandlers Handler) (method : RequestType) :
    (handlers.merge other).retrieveHandler method =
      (other.retrieveHandler method).or
        (handlers.retrieveHandler method) := by
  rcases other with ⟨get, post, put, delete⟩
  cases method <;> simp only [retrieveHandler, merge, Option.or_none]
  · cases get <;> rfl
  · cases post <;> rfl
  · cases put <;> rfl
  · cases delete <;> rfl

theorem hasAny_eq_true_iff (handlers : MethodHandlers Handler) :
    handlers.hasAny = true ↔
      ∃ method handler, handlers.retrieveHandler method = some handler := by
  constructor
  · simp only [hasAny, Bool.or_eq_true, Option.isSome_iff_exists]
    rintro (((⟨handler, set⟩ | ⟨handler, set⟩) | ⟨handler, set⟩) |
      ⟨handler, set⟩)
    · exact ⟨.get, handler, set⟩
    · exact ⟨.post, handler, set⟩
    · exact ⟨.put, handler, set⟩
    · exact ⟨.delete, handler, set⟩
  · rintro ⟨method, handler, set⟩
    simp only [hasAny]
    cases method <;> simp_all [retrieveHandler]

end MethodHandlers

/-- The slots after the handlers of some calls are merged, in order. -/
def merged (calls : List (RouteCall Handler)) : MethodHandlers Handler :=
  calls.foldl (fun handlers call => handlers.merge call.2.handlers)
    MethodHandlers.new

/-- The handler of the last call that set the method. -/
theorem merged_retrieveHandler
    (calls : List (RouteCall Handler)) (method : RequestType) :
    (merged calls).retrieveHandler method =
      (calls.filterMap fun call =>
        call.2.handlers.retrieveHandler method).getLast? := by
  induction calls using List.reverseRecOn with
  | nil => cases method <;> rfl
  | append_singleton calls call induction =>
      rw [merged, List.foldl_append, List.foldl_cons, List.foldl_nil,
        MethodHandlers.retrieveHandler_merge, List.filterMap_append,
        List.getLast?_append, ← induction, List.filterMap_cons]
      cases call.2.handlers.retrieveHandler method <;> rfl

theorem merged_hasAny (calls : List (RouteCall Handler)) :
    (merged calls).hasAny = !calls.isEmpty := by
  rw [Bool.eq_iff_iff, MethodHandlers.hasAny_eq_true_iff]
  simp only [merged_retrieveHandler, Bool.not_eq_true',
    List.isEmpty_eq_false_iff]
  constructor
  · rintro ⟨method, handler, set⟩ rfl
    cases set
  · intro nonempty
    rcases List.exists_mem_of_ne_nil _ nonempty with ⟨call, member⟩
    rcases (MethodHandlers.hasAny_eq_true_iff _).mp call.2.hasAny with
      ⟨method, handler, set⟩
    have stored : handler ∈ calls.filterMap fun call =>
        call.2.handlers.retrieveHandler method :=
      List.mem_filterMap.mpr ⟨call, member, set⟩
    exact ⟨method, _, List.getLast?_eq_some_getLast
      (List.ne_nil_of_mem stored)⟩

/-! ## Lookups -/

/-- A lookup is the greedy selection, with its captures. -/
theorem lookup_built (path : List String)
    (entries : List (Entry String String (RouteCall Handler)))
    (params : Params) :
    (built entries).lookup path params =
      if (select path entries).isEmpty then none
      else some (built (remaining path entries),
        insertAll params (captures path entries)) := by
  induction path generalizing entries params with
  | nil =>
      rw [Node.lookup, built_handlers]
      change (if (merged (ending entries)).hasAny then _ else _) = _
      rw [merged_hasAny, select, remaining]
      cases ending entries <;> rfl
  | cons segment path induction =>
      simp only [select] at induction
      rw [Node.lookup, built_children, select, remaining, captures]
      by_cases absent : (below segment entries).isEmpty
      · simp only [absent, if_true, built_param]
        cases first : wildcardName entries with
        | none =>
            rw [wildcardName_eq_none_iff] at first
            simp [first, ending]
        | some name =>
            simp only [Option.map_some, induction]
            rfl
      · simp only [absent, Bool.false_eq_true, if_false, induction]
        rfl

/-! ## The list of registrations -/

/-- The methods a call sets, with their handlers. -/
def methods (call : RouteCall Handler) : List (RequestType × Handler) :=
  [.get, .post, .put, .delete].filterMap fun method =>
    (call.2.handlers.retrieveHandler method).map fun handler =>
      (method, handler)

theorem methods_ne_nil (call : RouteCall Handler) :
    methods call ≠ [] := by
  rcases (MethodHandlers.hasAny_eq_true_iff _).mp call.2.hasAny with
    ⟨method, handler, set⟩
  apply List.ne_nil_of_mem (a := (method, handler))
  refine List.mem_filterMap.mpr ⟨method, ?_, by rw [set]; rfl⟩
  cases method <;> simp_all [MethodHandlers.retrieveHandler]

theorem methods_filterMap
    (call : RouteCall Handler) (method : RequestType) :
    ((methods call).filterMap fun registered =>
      if registered.1 = method then some registered.2 else none) =
      (call.2.handlers.retrieveHandler method).toList := by
  rcases call with ⟨path, ⟨⟨get, post, put, delete⟩, hasAny⟩⟩
  cases get <;> cases post <;> cases put <;> cases delete <;>
    cases method <;> rfl

/-- All registrations of a sequence of calls: pattern, method, handler. -/
def registrations (calls : List (RouteCall Handler)) :
    List (Entry String String (RequestType × Handler)) :=
  expand methods (calls.map entry)

/-- How a request is answered. -/
inductive Answer (Handler : Type) where
  | notFound
  | methodNotAllowed
  | runs (handler : Handler)
  deriving DecidableEq

/-- What `handle` is to do, on the list of registrations: the last one of
the method among those that the path selects. -/
def specification
    (registered : List (Entry String String (RequestType × Handler)))
    (segments : List String) (method : RequestType) : Answer Handler :=
  let kept := select segments registered
  if kept.isEmpty then .notFound
  else
    match (kept.filterMap fun registration =>
        if registration.1 = method then some registration.2
        else none).getLast? with
    | some handler => .runs handler
    | none => .methodNotAllowed

/-- The answer without the request that the handler is given. -/
def Outcome.answer : Outcome Handler → Answer Handler
  | .notFound => .notFound
  | .methodNotAllowed => .methodNotAllowed
  | .invoked handler _ => .runs handler

/-- The outcome of a request, on the list of calls. -/
theorem dispatch_routes
    (state : State) (calls : List (RouteCall Handler))
    (request : CoapRequest) (peer : SocketAddr) :
    (Router.routes state calls).dispatch request peer =
      if (select (pathSegments request.path)
          (calls.map entry)).isEmpty then .notFound
      else
        match (merged (select (pathSegments request.path)
            (calls.map entry))).retrieveHandler request.method with
        | none => .methodNotAllowed
        | some handler =>
            .invoked handler ⟨request, peer,
              insertAll ∅
                (captures (pathSegments request.path)
                  (calls.map entry)), .none⟩ := by
  rw [Router.dispatch, Router.lookup, Router.routes_root, lookup_built]
  by_cases none : (select (pathSegments request.path)
      (calls.map entry)).isEmpty
  · simp only [none, if_true]
  · simp only [none, Bool.false_eq_true, if_false, built_handlers]
    rfl

theorem flatMap_methods_filterMap
    (calls : List (RouteCall Handler)) (method : RequestType) :
    ((calls.flatMap methods).filterMap fun registration =>
      if registration.1 = method then some registration.2 else none) =
      calls.filterMap fun call =>
        call.2.handlers.retrieveHandler method := by
  induction calls with
  | nil => rfl
  | cons call calls induction =>
      rw [List.flatMap_cons, List.filterMap_append, induction,
        methods_filterMap, List.filterMap_cons]
      cases call.2.handlers.retrieveHandler method <;> rfl

theorem flatMap_methods_isEmpty (calls : List (RouteCall Handler)) :
    (calls.flatMap methods).isEmpty = calls.isEmpty := by
  cases calls with
  | nil => rfl
  | cons call calls => simp [methods_ne_nil]

/-- The router does what the specification says, whatever was registered. -/
theorem dispatch_refines_specification
    (state : State) (calls : List (RouteCall Handler))
    (request : CoapRequest) (peer : SocketAddr) :
    ((Router.routes state calls).dispatch request peer).answer =
      specification (registrations calls) (pathSegments request.path)
        request.method := by
  rw [dispatch_routes, specification, registrations,
    select_expand methods methods_ne_nil]
  simp only [flatMap_methods_isEmpty, flatMap_methods_filterMap,
    merged_retrieveHandler]
  split
  · rfl
  · cases (List.filterMap _ _).getLast? <;> rfl

end Coapable.Server
