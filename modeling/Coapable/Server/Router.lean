import Coapable.Foundation.Patterns
import Coapable.Transport.Session

/-!
# The router of the server

A trie with static children and one parameter child per node, and handler
slots per method.  A handler is a value of any type; invoking one is left to
the caller of `handle`, so that which handler runs, and with what, is visible.

The hash map of static children is only read and updated by key, so it is
modelled as the partial function it is.
-/

namespace Coapable.Server

open Coapable.CoapLite
open Coapable.Foundation.FiniteMap
open Coapable.MessageTypes
open Coapable.Transport

/-! ## What a handler is given -/

/-- Security identity attached to a request by the security layer. -/
inductive SecurityContext where
  /-- No security applied. -/
  | none
  deriving DecidableEq, Repr

/-- Path parameters, from names to segments. -/
abbrev Params := Table String String

/-- What a handler learns beside the request: who sent it, what its path bound
and how it was protected. -/
structure RequestContext where
  peer : SocketAddr
  params : Params
  security : SecurityContext

/-- What a handler is called with. -/
structure HandlerRequest where
  request : CoapRequest
  ctx : RequestContext

/-! ## Handlers per method -/

/-- At most one handler for each of four methods. -/
structure MethodHandlers (Handler : Type) where
  get : Option Handler
  post : Option Handler
  put : Option Handler
  delete : Option Handler

namespace MethodHandlers

variable {Handler : Type}

/-- No handler. -/
def new : MethodHandlers Handler := ⟨none, none, none, none⟩

/-- The handler of the method; the other methods have none. -/
def retrieveHandler (handlers : MethodHandlers Handler) :
    RequestType → Option Handler
  | .get => handlers.get
  | .post => handlers.post
  | .put => handlers.put
  | .delete => handlers.delete
  | _ => none

/-- Some method has a handler. -/
def hasAny (handlers : MethodHandlers Handler) : Bool :=
  handlers.get.isSome || handlers.post.isSome || handlers.put.isSome ||
    handlers.delete.isSome

/-- Take over the slots that are set in the other handlers. -/
def merge (handlers other : MethodHandlers Handler) :
    MethodHandlers Handler where
  get := if other.get.isSome then other.get else handlers.get
  post := if other.post.isSome then other.post else handlers.post
  put := if other.put.isSome then other.put else handlers.put
  delete := if other.delete.isSome then other.delete else handlers.delete

end MethodHandlers

/--
Handlers for one route.  The slots are private and filled by the functions
below only, each of which sets one, so at least one is set.
-/
structure MethodRouter (Handler : Type) where
  handlers : MethodHandlers Handler
  hasAny : handlers.hasAny = true

namespace MethodRouter

variable {Handler : Type}

/-- Also handle GET, in place of the handler it had. -/
def get (router : MethodRouter Handler) (handler : Handler) :
    MethodRouter Handler where
  handlers := { router.handlers with get := some handler }
  hasAny := by simp [MethodHandlers.hasAny]

/-- Also handle POST, in place of the handler it had. -/
def post (router : MethodRouter Handler) (handler : Handler) :
    MethodRouter Handler where
  handlers := { router.handlers with post := some handler }
  hasAny := by simp [MethodHandlers.hasAny]

/-- Also handle PUT, in place of the handler it had. -/
def put (router : MethodRouter Handler) (handler : Handler) :
    MethodRouter Handler where
  handlers := { router.handlers with put := some handler }
  hasAny := by simp [MethodHandlers.hasAny]

/-- Also handle DELETE, in place of the handler it had. -/
def delete (router : MethodRouter Handler) (handler : Handler) :
    MethodRouter Handler where
  handlers := { router.handlers with delete := some handler }
  hasAny := by simp [MethodHandlers.hasAny]

end MethodRouter

/-- A method router with a GET handler. -/
def get {Handler : Type} (handler : Handler) : MethodRouter Handler where
  handlers := { MethodHandlers.new with get := some handler }
  hasAny := rfl

/-- A method router with a POST handler. -/
def post {Handler : Type} (handler : Handler) : MethodRouter Handler where
  handlers := { MethodHandlers.new with post := some handler }
  hasAny := rfl

/-- A method router with a PUT handler. -/
def put {Handler : Type} (handler : Handler) : MethodRouter Handler where
  handlers := { MethodHandlers.new with put := some handler }
  hasAny := rfl

/-- A method router with a DELETE handler. -/
def delete {Handler : Type} (handler : Handler) :
    MethodRouter Handler where
  handlers := { MethodHandlers.new with delete := some handler }
  hasAny := rfl

/-! ## The trie -/

/-- A node of the routing tree. -/
structure Node (Handler : Type) where
  /-- Static path segment children. -/
  children : String → Option (Node Handler)
  /-- Dynamic segment child, with its parameter name. -/
  param : Option (String × Node Handler)
  /-- Handlers per CoAP method. -/
  handlers : MethodHandlers Handler

/-- `segment.strip_prefix(':')` -/
def paramName (segment : String) : Option String :=
  match segment.toList with
  | ':' :: name => some (String.ofList name)
  | _ => none

namespace Node

variable {Handler : Type}

/-- A node without children and handlers. -/
def new : Node Handler := ⟨fun _ => none, none, MethodHandlers.new⟩

/--
Walk to the node of the segments, creating what is missing, and change it in
place.  A parameter child that exists keeps its name.
-/
def walkOrCreate (change : Node Handler → Node Handler) :
    List String → Node Handler → Node Handler
  | [], node => change node
  | segment :: rest, node =>
      match paramName segment with
      | some name =>
          let (kept, child) := node.param.getD (name, new)
          { node with
            param := some (kept, walkOrCreate change rest child) }
      | none =>
          let child := (node.children segment).getD new
          { node with
            children := fun key =>
              if key = segment then some (walkOrCreate change rest child)
              else node.children key }

/-- The loop of `lookup`: a static match takes priority over a param
match. -/
def lookup : List String → Node Handler → Params →
    Option (Node Handler × Params)
  | [], node, params =>
      if node.handlers.hasAny then some (node, params) else none
  | segment :: rest, node, params =>
      match node.children segment with
      | some child => lookup rest child params
      | none =>
          match node.param with
          | some (name, child) =>
              lookup rest child (params.insert name segment)
          | none => none

end Node

/-- The routing tree, and the state that its handlers share. -/
structure Router (Handler State : Type) where
  root : Node Handler
  state : State

/-- What `handle` decides to do with a request. -/
inductive Outcome (Handler : Type) where
  | notFound
  | methodNotAllowed
  | invoked (handler : Handler) (request : HandlerRequest)

namespace Router

variable {Handler State : Type}

/-- A router without routes. -/
def new (state : State) : Router Handler State := ⟨Node.new, state⟩

/-- Register handlers for a path.  Segments that start with a colon are
dynamic parameters. -/
def route (router : Router Handler State) (path : String)
    (methodRouter : MethodRouter Handler) : Router Handler State :=
  { router with
    root := router.root.walkOrCreate
      (fun node =>
        { node with
          handlers := node.handlers.merge methodRouter.handlers })
      (pathSegments path) }

/-- Match a path against the trie: the node and the extracted path
parameters. -/
def lookup (router : Router Handler State) (segments : List String) :
    Option (Node Handler × Params) :=
  router.root.lookup segments ∅

/-- What becomes of a request before its handler runs. -/
def dispatch (router : Router Handler State) (request : CoapRequest)
    (peer : SocketAddr) : Outcome Handler :=
  match router.lookup (pathSegments request.path) with
  | none => .notFound
  | some (node, params) =>
      match node.handlers.retrieveHandler request.method with
      | none => .methodNotAllowed
      | some handler => .invoked handler ⟨request, peer, params, .none⟩

/-- The answer to a request, given what the handlers do. -/
def handle (router : Router Handler State)
    (call : Handler → HandlerRequest → State → CoapResponse)
    (request : CoapRequest) (peer : SocketAddr) : Option CoapResponse :=
  match router.dispatch request peer with
  | .notFound => some ⟨.notFound, none, []⟩
  | .methodNotAllowed => some ⟨.methodNotAllowed, none, []⟩
  | .invoked handler handlerRequest =>
      some (call handler handlerRequest router.state)

/-- A router after a sequence of calls of `route`. -/
def routes (state : State)
    (calls : List (String × MethodRouter Handler)) :
    Router Handler State :=
  calls.foldl (fun router call => router.route call.1 call.2)
    (Router.new state)

end Router

end Coapable.Server
