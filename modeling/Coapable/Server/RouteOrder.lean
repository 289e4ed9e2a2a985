import Coapable.Server.RouteTable

/-!
# When the order of registration matters

A call of `route` leaves its mark in two places: it names the parameter nodes
that it is the first to create, and it sets the handlers of its methods,
replacing those that were set before.  Two calls are compatible if they
disagree in neither.  Compatible calls commute, and a sequence of calls builds
one and the same router in every order exactly if its calls are compatible in
pairs.
-/

namespace Coapable.Server

open Coapable.CoapLite
open Coapable.Foundation.Patterns
open Coapable.MessageTypes

variable {Handler State : Type}

/-! ## Compatible calls -/

/-- Where both patterns have a wildcard after the same shape, they use one
name. -/
def NamesAgree : List (Piece String String) → List (Piece String String) →
    Prop
  | .literal left :: lefts, .literal right :: rights =>
      left = right → NamesAgree lefts rights
  | .wildcard left :: lefts, .wildcard right :: rights =>
      left = right ∧ NamesAgree lefts rights
  | _, _ => True

/-- Where both set a method, they set one handler. -/
def HandlersAgree (left right : MethodHandlers Handler) : Prop :=
  ∀ method handler other,
    left.retrieveHandler method = some handler →
      right.retrieveHandler method = some other → handler = other

/-- The calls agree on the names of the nodes that both lead through, and on
the methods of the node that both end at. -/
structure Compatible (left right : RouteCall Handler) : Prop where
  names : NamesAgree (pattern left.1) (pattern right.1)
  handlers : (pattern left.1).map Piece.shape =
      (pattern right.1).map Piece.shape →
    HandlersAgree left.2.handlers right.2.handlers

theorem NamesAgree.symm
    {left right : List (Piece String String)}
    (agree : NamesAgree left right) : NamesAgree right left := by
  induction left generalizing right with
  | nil => cases right with
    | nil => trivial
    | cons piece rights => cases piece <;> trivial
  | cons piece lefts induction =>
      cases right with
      | nil => cases piece <;> trivial
      | cons other rights =>
          cases piece with
          | literal own =>
              cases other with
              | literal label =>
                  intro same
                  exact induction (agree same.symm)
              | wildcard name => trivial
          | wildcard own =>
              cases other with
              | literal label => trivial
              | wildcard name =>
                  exact ⟨agree.1.symm, induction agree.2⟩

theorem Compatible.symm
    {left right : RouteCall Handler} (compatible : Compatible left right) :
    Compatible right left where
  names := compatible.names.symm
  handlers := by
    intro sameShape method handler other isHandler isOther
    exact (compatible.handlers sameShape.symm method other handler isOther
      isHandler).symm

instance : Std.Symm (@Compatible Handler) where
  symm _ _ compatible := compatible.symm

/-! ## Compatible calls commute -/

namespace MethodHandlers

theorem ext_retrieveHandler
    {left right : MethodHandlers Handler}
    (same : ∀ method,
      left.retrieveHandler method = right.retrieveHandler method) :
    left = right := by
  rcases left with ⟨get, post, put, delete⟩
  have isGet := same .get
  have isPost := same .post
  have isPut := same .put
  have isDelete := same .delete
  simp only [retrieveHandler] at isGet isPost isPut isDelete
  rw [isGet, isPost, isPut, isDelete]

theorem merge_comm_of_agree
    {left right : MethodHandlers Handler}
    (agree : HandlersAgree left right) (handlers : MethodHandlers Handler) :
    (handlers.merge left).merge right =
      (handlers.merge right).merge left := by
  apply ext_retrieveHandler
  intro method
  simp only [retrieveHandler_merge]
  cases isLeft : left.retrieveHandler method with
  | none => rfl
  | some handler =>
      cases isRight : right.retrieveHandler method with
      | none => rfl
      | some other =>
          rw [agree method handler other isLeft isRight]

end MethodHandlers

namespace Node

/-- Add the handlers to those of the node. -/
def add (handlers : MethodHandlers Handler) (node : Node Handler) :
    Node Handler :=
  { node with handlers := node.handlers.merge handlers }

theorem register_comm
    {left right : MethodHandlers Handler}
    {lefts rights : List (Piece String String)}
    (names : NamesAgree lefts rights)
    (handlers : lefts.map Piece.shape = rights.map Piece.shape →
      HandlersAgree left right)
    (node : Node Handler) :
    (node.register (add left) lefts).register (add right) rights =
      (node.register (add right) rights).register (add left) lefts := by
  induction lefts generalizing rights node with
  | nil =>
      cases rights with
      | nil =>
          have commutes := MethodHandlers.merge_comm_of_agree
            (handlers rfl) node.handlers
          simp only [register, add, commutes]
      | cons piece rights => cases piece <;> rfl
  | cons piece lefts induction =>
      cases rights with
      | nil => cases piece <;> rfl
      | cons other rights =>
          cases piece with
          | literal own =>
              cases other with
              | wildcard name => rfl
              | literal label =>
                  simp only [register]
                  congr 1
                  funext key
                  by_cases same : own = label
                  · subst same
                    by_cases here : key = own
                    · have commutes := induction (names rfl)
                        (fun shapes => handlers (by
                          rw [List.map_cons, shapes]
                          rfl))
                        ((node.children own).getD new)
                      simpa [here] using commutes
                    · simp [here]
                  · by_cases here : key = own
                    · subst here
                      simp [same]
                    · by_cases there : key = label
                      · subst there
                        simp [Ne.symm same]
                      · simp [here, there]
          | wildcard own =>
              cases other with
              | literal label => rfl
              | wildcard name =>
                  rcases names with ⟨rfl, names⟩
                  have commutes := induction names (fun shapes =>
                    handlers (by
                      rw [List.map_cons, shapes]
                      rfl))
                  cases isParam : node.param with
                  | none => simp [register, isParam, commutes]
                  | some child => simp [register, isParam, commutes]

end Node

theorem Router.route_comm
    {left right : RouteCall Handler} (compatible : Compatible left right)
    (router : Router Handler State) :
    (router.route left.1 left.2).route right.1 right.2 =
      (router.route right.1 right.2).route left.1 left.2 := by
  simp only [Router.route, Node.walkOrCreate_eq_register]
  congr 1
  exact Node.register_comm compatible.names compatible.handlers router.root

/-! ## Calls that commute are compatible -/

section Exchange

/-- A call of `route` as an entry under its pattern. -/
abbrev CallEntry (Handler : Type) :=
  Entry String String (RouteCall Handler)

theorem below_pair
    (own : String) (rest : List (CallEntry Handler))
    (lefts rights : List (Piece String String))
    (left right : RouteCall Handler) :
    below own (rest ++ [⟨.literal own :: lefts, left⟩,
        ⟨.literal own :: rights, right⟩]) =
      below own rest ++ [⟨lefts, left⟩, ⟨rights, right⟩] := by
  rw [below_append]
  simp [below, descend, afterLiteral]

theorem below_cons_cons
    (own : String) (lefts rights : List (Piece String String))
    (left right : RouteCall Handler) (rest : List (CallEntry Handler)) :
    below own (⟨.literal own :: lefts, left⟩ ::
        ⟨.literal own :: rights, right⟩ :: rest) =
      ⟨lefts, left⟩ :: ⟨rights, right⟩ :: below own rest := by
  simp [below, descend, afterLiteral]

theorem child_of_built
    (segment : String) {entries others : List (CallEntry Handler)}
    (same : built entries = built others)
    (isChild : below segment entries ≠ [])
    (isOther : below segment others ≠ []) :
    built (below segment entries) = built (below segment others) := by
  have children := congrArg (fun node => node.children segment) same
  simp only [built_children, List.isEmpty_iff, isChild, isOther, if_false,
    Option.some.injEq] at children
  exact children

theorem param_of_built
    {entries others : List (CallEntry Handler)} {name other : String}
    (same : built entries = built others)
    (isName : wildcardName entries = some name)
    (isOther : wildcardName others = some other) :
    name = other ∧
      built (belowWildcard entries) = built (belowWildcard others) := by
  have params := congrArg Node.param same
  simpa only [built_param, isName, isOther, Option.map_some,
    Option.some.injEq, Prod.mk.injEq] using params

/-- The first of two calls names the nodes. -/
theorem namesAgree_of_built
    {lefts rights : List (Piece String String)}
    {left right : RouteCall Handler} {rest : List (CallEntry Handler)}
    (same : built (⟨lefts, left⟩ :: ⟨rights, right⟩ :: rest) =
      built (⟨rights, right⟩ :: ⟨lefts, left⟩ :: rest)) :
    NamesAgree lefts rights := by
  induction lefts generalizing rights rest with
  | nil => cases rights with
    | nil => trivial
    | cons piece rights => cases piece <;> trivial
  | cons piece lefts induction =>
      cases rights with
      | nil => cases piece <;> trivial
      | cons other rights =>
          cases piece with
          | literal own =>
              cases other with
              | wildcard name => trivial
              | literal label =>
                  rintro rfl
                  have isLeft := below_cons_cons own lefts rights left
                    right rest
                  have isRight := below_cons_cons own rights lefts right
                    left rest
                  have inner := child_of_built own same
                    (by simp [isLeft]) (by simp [isRight])
                  rw [isLeft, isRight] at inner
                  exact induction inner
          | wildcard own =>
              cases other with
              | literal label => trivial
              | wildcard name =>
                  have inner := param_of_built same
                    (show _ = some own from rfl)
                    (show _ = some name from rfl)
                  exact ⟨inner.1, induction inner.2⟩

/-- The last of two calls sets the handlers. -/
theorem handlersAgree_of_built
    {lefts rights : List (Piece String String)}
    {left right : RouteCall Handler} {rest : List (CallEntry Handler)}
    (same : built (rest ++ [⟨lefts, left⟩, ⟨rights, right⟩]) =
      built (rest ++ [⟨rights, right⟩, ⟨lefts, left⟩]))
    (sameShape : lefts.map Piece.shape = rights.map Piece.shape) :
    HandlersAgree left.2.handlers right.2.handlers := by
  induction lefts generalizing rights rest with
  | nil =>
      obtain rfl : rights = [] := by simpa using sameShape.symm
      intro method handler other isHandler isOther
      have handlers := congrArg
        (fun node => node.handlers.retrieveHandler method) same
      have last (first second : RouteCall Handler) :
          ending [⟨[], first⟩, (⟨[], second⟩ : CallEntry Handler)] =
            [first, second] := rfl
      simp only [built_handlers, ending_append, last, List.foldl_append,
        List.foldl_cons, List.foldl_nil,
        MethodHandlers.retrieveHandler_merge, isHandler, isOther,
        Option.some_or, Option.some.injEq] at handlers
      exact handlers.symm
  | cons piece lefts induction =>
      cases rights with
      | nil => cases sameShape
      | cons other rights =>
          rw [List.map_cons, List.map_cons, List.cons.injEq] at sameShape
          rcases sameShape with ⟨samePiece, sameRest⟩
          cases piece with
          | literal own =>
              cases other with
              | wildcard name => cases samePiece
              | literal label =>
                  cases samePiece
                  have isLeft := below_pair own rest lefts rights left
                    right
                  have isRight := below_pair own rest rights lefts right
                    left
                  have inner := child_of_built own same
                    (by simp [isLeft]) (by simp [isRight])
                  rw [isLeft, isRight] at inner
                  exact induction inner sameRest
          | wildcard own =>
              cases other with
              | literal label => cases samePiece
              | wildcard name =>
                  have isName : ∃ kept, wildcardName (rest ++
                      [⟨.wildcard own :: lefts, left⟩,
                        ⟨.wildcard name :: rights, right⟩]) =
                      some kept := by
                    rw [wildcardName_append]
                    cases wildcardName rest <;> exact ⟨_, rfl⟩
                  have isOther : ∃ kept, wildcardName (rest ++
                      [⟨.wildcard name :: rights, right⟩,
                        ⟨.wildcard own :: lefts, left⟩]) =
                      some kept := by
                    rw [wildcardName_append]
                    cases wildcardName rest <;> exact ⟨_, rfl⟩
                  rcases isName with ⟨kept, isName⟩
                  rcases isOther with ⟨other, isOther⟩
                  have inner := (param_of_built same isName isOther).2
                  rw [belowWildcard_append, belowWildcard_append] at inner
                  exact induction inner sameRest

end Exchange

/-! ## Every order -/

theorem Router.routes_perm
    {calls others : List (RouteCall Handler)}
    (compatible : calls.Pairwise Compatible) (perm : others.Perm calls)
    (state : State) :
    Router.routes state others = Router.routes state calls := by
  refine perm.foldl_eq' ?_ (Router.new state)
  intro left leftMember right rightMember router
  by_cases same : left = right
  · rw [same]
  · exact Router.route_comm (compatible.forall (perm.subset leftMember)
      (perm.subset rightMember) same) router

/-- Two calls of a sequence that may be exchanged at its front and at its end
are compatible. -/
theorem compatible_of_exchanged
    {left right : RouteCall Handler} {rest : List (RouteCall Handler)}
    {state : State}
    (front : Router.routes state (left :: right :: rest) =
      Router.routes state (right :: left :: rest))
    (back : Router.routes state (rest ++ [left, right]) =
      Router.routes state (rest ++ [right, left])) :
    Compatible left right := by
  have fronts := congrArg Router.root front
  have backs := congrArg Router.root back
  rw [Router.routes_root, Router.routes_root] at fronts backs
  rw [List.map_append, List.map_append] at backs
  exact ⟨namesAgree_of_built fronts, handlersAgree_of_built backs⟩

/--
A sequence of calls of `route` builds the same router in every order exactly
if its calls are compatible in pairs.
-/
theorem order_irrelevant_iff_compatible
    (state : State) (calls : List (RouteCall Handler)) :
    (∀ others : List (RouteCall Handler), others.Perm calls →
      Router.routes state others = Router.routes state calls) ↔
      calls.Pairwise Compatible := by
  constructor
  · intro irrelevant
    rw [List.pairwise_iff_forall_sublist]
    intro left right sublist
    rcases sublist.exists_perm_append with ⟨rest, perm⟩
    have exchanged : List.Perm ([right, left] ++ rest) calls :=
      ((List.Perm.swap left right []).append_right rest).trans perm.symm
    have last : List.Perm (rest ++ [left, right]) calls :=
      List.perm_append_comm.trans perm.symm
    have lastExchanged : List.Perm (rest ++ [right, left]) calls :=
      List.perm_append_comm.trans exchanged
    exact compatible_of_exchanged
      ((irrelevant _ perm.symm).trans (irrelevant _ exchanged).symm)
      ((irrelevant _ last).trans (irrelevant _ lastExchanged).symm)
  · intro compatible others perm
    exact Router.routes_perm compatible perm state

end Coapable.Server
