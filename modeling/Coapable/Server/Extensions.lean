import Coapable.Foundation.Execution
import Coapable.Foundation.FiniteMap

/-!
# The extension map of a request

Middleware leaves values of any type in a request, at most one of each type.
The map stores them in boxes that have forgotten their type, under the ID of
the type, and every read asks the box for the type again.

A read may therefore find nothing for two reasons, no box or a box of another
type.  Over any sequence of calls only the first one occurs: the map behaves
as a family of optional values, one for each type.
-/

namespace Coapable.Server

open Coapable.Foundation.Execution
open Coapable.Foundation.FiniteMap

variable {TypeId : Type} [DecidableEq TypeId] {Value : TypeId → Type}

/-- `Box<dyn Any>`: a value with the ID of its type. -/
abbrev BoxedAny (Value : TypeId → Type) := (id : TypeId) × Value id

/-- `downcast`, `downcast_ref` and `downcast_mut`. -/
def BoxedAny.downcast (id : TypeId) (boxed : BoxedAny Value) :
    Option (Value id) :=
  if same : boxed.1 = id then some (same ▸ boxed.2) else none

@[simp]
theorem BoxedAny.downcast_self (id : TypeId) (value : Value id) :
    BoxedAny.downcast id (⟨id, value⟩ : BoxedAny Value) = some value := by
  simp [BoxedAny.downcast]

/-- Values of any types, at most one for each type. -/
structure Extensions (Value : TypeId → Type) where
  map : Table TypeId (BoxedAny Value)

namespace Extensions

/-- The empty map. -/
def new : Extensions Value := ⟨∅⟩

/-- Store a value under its type, in place of the one that was there. -/
def insert (id : TypeId) (value : Value id) (self : Extensions Value) :
    Extensions Value :=
  ⟨self.map.insert id ⟨id, value⟩⟩

/-- The value of the type.  A box that holds another type would be missed. -/
def get (id : TypeId) (self : Extensions Value) : Option (Value id) :=
  (self.map.lookup id).bind (BoxedAny.downcast id)

/-- The value behind the reference that `get_mut` returns, and the map after
the caller has written to it. -/
def getMut (id : TypeId) (write : Value id → Value id)
    (self : Extensions Value) : Option (Value id) × Extensions Value :=
  match (self.map.lookup id).bind (BoxedAny.downcast id) with
  | none => (none, self)
  | some value => (some value, ⟨self.map.insert id ⟨id, write value⟩⟩)

/-- The box leaves the map before it is asked for its type. -/
def remove (id : TypeId) (self : Extensions Value) :
    Option (Value id) × Extensions Value :=
  ((self.map.lookup id).bind (BoxedAny.downcast id),
    ⟨self.map.erase id⟩)

end Extensions

/-! ## Sequences of calls -/

/-- A call on the map, with the type it is made at. -/
inductive ExtensionsCall (Value : TypeId → Type) where
  | insert (id : TypeId) (value : Value id)
  | get (id : TypeId)
  | getMut (id : TypeId) (write : Value id → Value id)
  | remove (id : TypeId)

/-- What a call finds for its type; `insert` drops what it replaces. -/
abbrev Found (Value : TypeId → Type) := (id : TypeId) × Option (Value id)

/-- The map after a call, and what the call found. -/
def Extensions.step (self : Extensions Value) :
    ExtensionsCall Value → Extensions Value × Option (Found Value)
  | .insert id value => (self.insert id value, none)
  | .get id => (self, some ⟨id, self.get id⟩)
  | .getMut id write =>
      ((self.getMut id write).2, some ⟨id, (self.getMut id write).1⟩)
  | .remove id => ((self.remove id).2, some ⟨id, (self.remove id).1⟩)

/-- The map under any sequence of calls. -/
def extensionsMachine (Value : TypeId → Type) :
    Machine (Extensions Value) (ExtensionsCall Value)
      (Option (Found Value)) where
  Initial extensions := extensions = .new
  step extensions call := some (extensions.step call)

/-! ## One optional value for each type -/

/-- What a request carries. -/
abbrev Contents (Value : TypeId → Type) := (id : TypeId) → Option (Value id)

namespace Contents

/-- What a call leaves of the values. -/
def after (contents : Contents Value) :
    ExtensionsCall Value → Contents Value
  | .insert id value => Function.update contents id (some value)
  | .get _ => contents
  | .getMut id write =>
      Function.update contents id ((contents id).map write)
  | .remove id => Function.update contents id none

/-- What a call finds among the values. -/
def found (contents : Contents Value) :
    ExtensionsCall Value → Option (Found Value)
  | .insert _ _ => none
  | .get id | .getMut id _ | .remove id => some ⟨id, contents id⟩

/-- The contents after the calls of a history. -/
def ofHistory
    (history : List (Transition (Extensions Value) (ExtensionsCall Value)
      (Option (Found Value)))) : Contents Value :=
  history.foldr (fun transition contents => contents.after transition.input)
    fun _ => none

end Contents

/-! ## The map refines it -/

/-- Every box is stored under the ID of its own type. -/
def Extensions.Holds (extensions : Extensions Value)
    (contents : Contents Value) : Prop :=
  ∀ id, extensions.map.lookup id = (contents id).map (Sigma.mk id)

section Holds

variable {extensions : Extensions Value} {contents : Contents Value}

theorem Extensions.Holds.get
    (holds : extensions.Holds contents) (id : TypeId) :
    (extensions.map.lookup id).bind (BoxedAny.downcast id) =
      contents id := by
  rw [holds id]
  cases contents id with
  | none => rfl
  | some value => exact BoxedAny.downcast_self id value

theorem Extensions.Holds.insert
    (holds : extensions.Holds contents) (id : TypeId) (value : Value id) :
    (Extensions.mk (extensions.map.insert id ⟨id, value⟩)).Holds
      (Function.update contents id (some value)) := by
  intro other
  rw [lookup_insert_eq]
  by_cases same : other = id
  · subst same
    rw [if_pos rfl, Function.update_self, Option.map_some]
  · rw [if_neg same, Function.update_of_ne same]
    exact holds other

theorem Extensions.Holds.step
    (holds : extensions.Holds contents) (call : ExtensionsCall Value) :
    (extensions.step call).2 = contents.found call ∧
      (extensions.step call).1.Holds (contents.after call) := by
  cases call with
  | insert id value => exact ⟨rfl, holds.insert id value⟩
  | get id =>
      simp only [Extensions.step, Extensions.get, holds.get]
      exact ⟨rfl, holds⟩
  | getMut id write =>
      simp only [Extensions.step, Extensions.getMut, holds.get,
        Contents.found, Contents.after]
      cases present : contents id with
      | none =>
          have unchanged :
              Function.update contents id none = contents := by
            rw [← present, Function.update_eq_self]
          refine ⟨rfl, ?_⟩
          rw [Option.map_none, unchanged]
          exact holds
      | some value => exact ⟨rfl, holds.insert id (write value)⟩
  | remove id =>
      simp only [Extensions.step, Extensions.remove, holds.get]
      refine ⟨rfl, fun other => ?_⟩
      rw [lookup_erase_eq]
      by_cases same : other = id
      · subst same
        rw [if_pos rfl, Contents.after, Function.update_self]
        rfl
      · rw [if_neg same, Contents.after, Function.update_of_ne same]
        exact holds other

end Holds

/-! ## Runs -/

section Runs

variable {extensions : Extensions Value}
  {history : List (Transition (Extensions Value) (ExtensionsCall Value)
    (Option (Found Value)))}

theorem holds_of_run
    (run : Run (extensionsMachine Value) history extensions) :
    extensions.Holds (Contents.ofHistory history) := by
  refine run.invariant
    (fun history extensions =>
      extensions.Holds (Contents.ofHistory history)) ?_ ?_
  · rintro _ rfl id
    rfl
  · intro history before after call output _ holds stepped
    have isStep : before.step call = (after, output) :=
      Option.some.inj stepped
    have follows := (holds.step call).2
    rw [isStep] at follows
    exact follows

/--
After any sequence of calls the map has, for each type, the value of that type
that was last inserted or written and not removed since, and every call found
the value of its type that was there; no value is lost because its box is of
another type.
-/
theorem extensions_hold_one_value_of_each_type
    (run : Run (extensionsMachine Value) history extensions) :
    (∀ id, extensions.get id = Contents.ofHistory history id) ∧
      Along (fun older transition =>
        transition.output =
          (Contents.ofHistory older).found transition.input) history := by
  refine ⟨(holds_of_run run).get, ?_⟩
  rw [along_iff_forall_suffix]
  intro transition older suffix
  rcases run.of_suffix suffix with ⟨earlier, stepped⟩
  have isStep : transition.before.step transition.input =
      (transition.after, transition.output) :=
    Option.some.inj stepped
  have answered := ((holds_of_run earlier).step transition.input).1
  rw [isStep] at answered
  exact answered

end Runs

/-- Numbers and texts. -/
abbrev NumberOrText : Bool → Type
  | true => Nat
  | false => String

/-- A number is written to after a text came in between. -/
def writtenNumber : List (ExtensionsCall NumberOrText) :=
  [.insert true (3 : Nat), .insert false "text",
    .getMut true (fun number : Nat => number + 1)]

theorem extensions_hold_one_value_of_each_type_on_written_number :
    ∃ history, ∃ extensions : Extensions NumberOrText,
      Run (extensionsMachine NumberOrText) history extensions ∧
        extensions.get true = some (4 : Nat) := by
  have initial : (extensionsMachine NumberOrText).Initial .new := rfl
  rcases exists_run_of_replay initial writtenNumber
      (fun history _ =>
        Contents.ofHistory history true = some (4 : Nat))
      (by decide) with
    ⟨history, extensions, run, checked⟩
  refine ⟨history, extensions, run, ?_⟩
  rw [(extensions_hold_one_value_of_each_type run).1 true]
  exact of_decide_eq_true checked

end Coapable.Server
