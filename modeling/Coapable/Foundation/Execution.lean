import Mathlib.Data.List.Infix
import Mathlib.Logic.Relation

/-!
# Machines driven by their environment, and their runs

A `Machine` is a partial step function: in a given state it answers an input
with a new state and an output, or refuses the input.  Everything the machine
does not decide itself (arriving messages, the clock, random draws, which of
several ready branches is taken) is part of the input, so quantifying over all
inputs quantifies over every behaviour of the environment and every schedule.

A `Run` carries its history, the list of all transitions taken so far with the
newest one first.  Properties that speak about the past are therefore ordinary
predicates of a history and a state, and `Run.invariant` is the one induction
behind all of them.
-/

namespace Coapable.Foundation.Execution

/-- A partial step function with its initial states. -/
structure Machine (State Input Output : Type) where
  Initial : State → Prop
  step : State → Input → Option (State × Output)

/-- One step that was taken. -/
structure Transition (State Input Output : Type) where
  before : State
  input : Input
  output : Output
  after : State

variable {State Input Output : Type}

/-- The histories of a machine, newest transition first. -/
inductive Run (machine : Machine State Input Output) :
    List (Transition State Input Output) → State → Prop where
  | start {state : State}
      (initial : machine.Initial state) :
      Run machine [] state
  | extend {history : List (Transition State Input Output)}
      {before after : State} {input : Input} {output : Output}
      (earlier : Run machine history before)
      (stepped : machine.step before input = some (after, output)) :
      Run machine (⟨before, input, output, after⟩ :: history) after

/-- Every transition of the history meets the condition, which may look at
the history before it. -/
def Along
    (condition : List (Transition State Input Output) →
      Transition State Input Output → Prop) :
    List (Transition State Input Output) → Prop
  | [] => True
  | transition :: older => condition older transition ∧ Along condition older

instance instDecidableAlong
    (condition : List (Transition State Input Output) →
      Transition State Input Output → Prop)
    [decides : ∀ older transition, Decidable (condition older transition)] :
    (history : List (Transition State Input Output)) →
      Decidable (Along condition history)
  | [] => .isTrue trivial
  | _ :: older =>
      have := instDecidableAlong condition older
      inferInstanceAs (Decidable (_ ∧ _))

/-- Some transition of the history was a mark, and every transition after it
kept what it marked. -/
def Since (keeps marks : Transition State Input Output → Prop) :
    List (Transition State Input Output) → Prop
  | [] => False
  | transition :: older =>
      marks transition ∨ keeps transition ∧ Since keeps marks older

/-- Fewer transitions that keep a mark make it harder to have one. -/
theorem Since.mono
    {stronger weaker marks : Transition State Input Output → Prop}
    {history : List (Transition State Input Output)}
    (implies : ∀ transition, stronger transition → weaker transition)
    (since : Since stronger marks history) :
    Since weaker marks history := by
  induction history with
  | nil => exact since
  | cons transition older induction =>
      rcases since with marked | ⟨kept, earlier⟩
      · exact Or.inl marked
      · exact Or.inr ⟨implies transition kept, induction earlier⟩

section Induction

variable {machine : Machine State Input Output}
  {history : List (Transition State Input Output)} {state : State}

/-- What holds initially and survives every step holds after every run. -/
theorem Run.invariant
    (property : List (Transition State Input Output) → State → Prop)
    (start : ∀ state, machine.Initial state → property [] state)
    (step : ∀ history before after input output,
      Run machine history before → property history before →
        machine.step before input = some (after, output) →
          property (⟨before, input, output, after⟩ :: history) after)
    (run : Run machine history state) :
    property history state := by
  induction run with
  | start initial => exact start _ initial
  | extend earlier stepped induction =>
      exact step _ _ _ _ _ earlier induction stepped

/-- The same for runs all of whose transitions meet a condition. -/
theorem Run.invariant_along
    {condition : List (Transition State Input Output) →
      Transition State Input Output → Prop}
    (property : List (Transition State Input Output) → State → Prop)
    (start : ∀ state, machine.Initial state → property [] state)
    (step : ∀ history before after input output,
      Run machine history before → property history before →
        condition history ⟨before, input, output, after⟩ →
        machine.step before input = some (after, output) →
          property (⟨before, input, output, after⟩ :: history) after)
    (run : Run machine history state)
    (along : Along condition history) :
    property history state := by
  induction run with
  | start initial => exact start _ initial
  | extend earlier stepped induction =>
      exact step _ _ _ _ _ earlier (induction along.2) along.1 stepped

/-- A property of the state that a mark sets, that only a keeping transition
leaves, and that nothing else sets, says whether there was a mark since. -/
theorem Run.since_iff
    {keeps marks : Transition State Input Output → Prop}
    (property : State → Prop)
    (start : ∀ state, machine.Initial state → ¬ property state)
    (step : ∀ before after input output,
      machine.step before input = some (after, output) →
        (property after ↔
          marks ⟨before, input, output, after⟩ ∨
            keeps ⟨before, input, output, after⟩ ∧ property before))
    (run : Run machine history state) :
    property state ↔ Since keeps marks history := by
  induction run with
  | start initial => exact iff_of_false (start _ initial) id
  | extend earlier stepped induction =>
      rw [step _ _ _ _ stepped, induction, Since]

/-- A run stopped at one of its transitions is a run. -/
theorem Run.of_suffix
    {transition : Transition State Input Output}
    {older : List (Transition State Input Output)}
    (run : Run machine history state)
    (suffix : transition :: older <:+ history) :
    Run machine older transition.before ∧
      machine.step transition.before transition.input =
        some (transition.after, transition.output) := by
  induction run with
  | start initial => simp at suffix
  | extend earlier stepped induction =>
      rcases List.suffix_cons_iff.mp suffix with equal | older
      · injection equal with head tail
        subst head
        subst tail
        exact ⟨earlier, stepped⟩
      · exact induction older

/-- The last transition of a run ends in its state. -/
theorem Run.last
    {transition : Transition State Input Output}
    {older : List (Transition State Input Output)}
    (run : Run machine (transition :: older) state) :
    Run machine older transition.before ∧
      machine.step transition.before transition.input =
        some (transition.after, transition.output) ∧
          state = transition.after := by
  cases run with
  | extend earlier stepped => exact ⟨earlier, stepped, rfl⟩

theorem Run.stepped_of_mem
    {transition : Transition State Input Output}
    (run : Run machine history state)
    (member : transition ∈ history) :
    machine.step transition.before transition.input =
      some (transition.after, transition.output) := by
  rcases List.append_of_mem member with ⟨newer, older, rfl⟩
  exact (run.of_suffix (List.suffix_append newer _)).2

theorem Along.of_suffix
    {condition : List (Transition State Input Output) →
      Transition State Input Output → Prop}
    {transition : Transition State Input Output}
    {older : List (Transition State Input Output)}
    (along : Along condition history)
    (suffix : transition :: older <:+ history) :
    condition older transition ∧ Along condition older := by
  induction history with
  | nil => simp at suffix
  | cons head tail induction =>
      rcases List.suffix_cons_iff.mp suffix with equal | deeper
      · injection equal with headEqual tailEqual
        subst headEqual
        subst tailEqual
        exact along
      · exact induction along.2 deeper

/-- A condition along a history is one at each of its transitions. -/
theorem along_iff_forall_suffix
    {condition : List (Transition State Input Output) →
      Transition State Input Output → Prop} :
    Along condition history ↔
      ∀ transition older, transition :: older <:+ history →
        condition older transition := by
  constructor
  · intro along transition older suffix
    exact (along.of_suffix suffix).1
  · intro holds
    induction history with
    | nil => trivial
    | cons transition older induction =>
        exact ⟨holds transition older List.suffix_rfl,
          induction fun other rest suffix =>
            holds other rest (suffix.trans (List.suffix_cons _ _))⟩

/-- What holds along a history held along every earlier one. -/
theorem Along.suffix
    {condition : List (Transition State Input Output) →
      Transition State Input Output → Prop}
    {older : List (Transition State Input Output)}
    (along : Along condition history) (suffix : older <:+ history) :
    Along condition older := by
  rw [along_iff_forall_suffix] at along ⊢
  exact fun transition oldest isSuffix =>
    along transition oldest (isSuffix.trans suffix)

/-- Two conditions that agree at every point of a history hold along it
together. -/
theorem along_congr
    {left right : List (Transition State Input Output) →
      Transition State Input Output → Prop}
    (agree : ∀ transition older, transition :: older <:+ history →
      (left older transition ↔ right older transition)) :
    Along left history ↔ Along right history := by
  rw [along_iff_forall_suffix, along_iff_forall_suffix]
  exact forall_congr' fun transition => forall_congr' fun older =>
    forall_congr' fun suffix => agree transition older suffix

/-- A weaker condition holds along the same history. -/
theorem Along.mono
    {stronger weaker : List (Transition State Input Output) →
      Transition State Input Output → Prop}
    (implies : ∀ older transition, stronger older transition →
      weaker older transition)
    (along : Along stronger history) :
    Along weaker history := by
  rw [along_iff_forall_suffix] at along ⊢
  intro transition older suffix
  exact implies older transition (along transition older suffix)

/-- What holds initially and after every step holds at the end of a run. -/
theorem Run.of_along_after
    (property : State → Prop)
    (start : ∀ state, machine.Initial state → property state)
    (run : Run machine history state)
    (always :
      Along (fun _ transition => property transition.after) history) :
    property state := by
  cases run with
  | start initial => exact start _ initial
  | extend earlier stepped => exact always.1

/--
A property that holds initially and that a step keeps exactly under a
condition holds all along a run exactly if every step meets the condition.
-/
theorem Run.along_after_iff
    {property : State → Prop}
    {condition : List (Transition State Input Output) →
      Transition State Input Output → Prop}
    (start : ∀ state, machine.Initial state → property state)
    (step : ∀ history before after input output,
      Run machine history before → property before →
        machine.step before input = some (after, output) →
          (property after ↔
            condition history ⟨before, input, output, after⟩))
    (run : Run machine history state) :
    Along (fun _ transition => property transition.after) history ↔
      Along condition history := by
  induction run with
  | start initial => exact Iff.rfl
  | extend earlier stepped induction =>
      constructor
      · rintro ⟨now, before⟩
        exact ⟨(step _ _ _ _ _ earlier
          (earlier.of_along_after property start before) stepped).mp now,
          induction.mp before⟩
      · rintro ⟨now, before⟩
        have held := induction.mpr before
        exact ⟨(step _ _ _ _ _ earlier
          (earlier.of_along_after property start held) stepped).mpr now, held⟩

end Induction

/-! ## One component of a machine -/

section Component

variable {Part PartInput PartOutput : Type}

/-- What a run does to a component is a run of the component, if every step
is a step of the component or leaves it alone. -/
theorem Run.component
    {machine : Machine State Input Output}
    {part : Machine Part PartInput PartOutput}
    {history : List (Transition State Input Output)} {state : State}
    (restrict : State → Part)
    (observe : Transition State Input Output →
      Option (Transition Part PartInput PartOutput))
    (start : ∀ state, machine.Initial state →
      part.Initial (restrict state))
    (unobserved : ∀ before after input output,
      machine.step before input = some (after, output) →
        observe ⟨before, input, output, after⟩ = none →
          restrict after = restrict before)
    (observed : ∀ before after input output,
      machine.step before input = some (after, output) →
        ∀ transition,
          observe ⟨before, input, output, after⟩ = some transition →
            transition.before = restrict before ∧
              transition.after = restrict after ∧
              part.step transition.before transition.input =
                some (transition.after, transition.output))
    (run : Run machine history state) :
    Run part (history.filterMap observe) (restrict state) := by
  induction run with
  | start initial => exact .start (start _ initial)
  | @extend history before after input output earlier stepped
      induction =>
      cases seen : observe ⟨before, input, output, after⟩ with
      | none =>
          rw [List.filterMap_cons_none seen,
            unobserved before after input output stepped seen]
          exact induction
      | some transition =>
          rcases observed before after input output stepped transition
            seen with ⟨isBefore, isAfter, isStep⟩
          rw [List.filterMap_cons_some seen, ← isAfter]
          exact .extend (isBefore ▸ induction) isStep

/-- The same for a component that is there for a while only, until a step
after which it does not come back. -/
theorem Run.component_while
    {machine : Machine State Input Output}
    {part : Machine Part PartInput PartOutput}
    {history : List (Transition State Input Output)} {state : State}
    {current : Part}
    (restrict : State → Option Part)
    (observe : Transition State Input Output →
      Option (Transition Part PartInput PartOutput))
    (start : ∀ state current, machine.Initial state →
      restrict state = some current → part.Initial current)
    (step : ∀ before after input output current,
      machine.step before input = some (after, output) →
        restrict after = some current →
          ∃ previous, restrict before = some previous ∧
            (observe ⟨before, input, output, after⟩ = none ∧
                previous = current ∨
              ∃ partInput partOutput,
                observe ⟨before, input, output, after⟩ =
                    some ⟨previous, partInput, partOutput, current⟩ ∧
                  part.step previous partInput =
                    some (current, partOutput)))
    (run : Run machine history state)
    (present : restrict state = some current) :
    Run part (history.filterMap observe) current := by
  induction run generalizing current with
  | start initial => exact .start (start _ current initial present)
  | @extend history before after input output earlier stepped
      induction =>
      rcases step before after input output current stepped present with
        ⟨previous, wasPresent,
          ⟨seen, rfl⟩ | ⟨partInput, partOutput, seen, isStep⟩⟩
      · rw [List.filterMap_cons_none seen]
        exact induction wasPresent
      · rw [List.filterMap_cons_some seen]
        exact .extend (induction wasPresent) isStep

/-- A condition on what a component does holds along the history of the
component. -/
theorem Along.component
    {history : List (Transition State Input Output)}
    {observe : Transition State Input Output →
      Option (Transition Part PartInput PartOutput)}
    {condition : List (Transition Part PartInput PartOutput) →
      Transition Part PartInput PartOutput → Prop}
    (along : Along (fun older transition =>
      ∀ seen, observe transition = some seen →
        condition (older.filterMap observe) seen) history) :
    Along condition (history.filterMap observe) := by
  induction history with
  | nil => trivial
  | cons transition older induction =>
      cases seen : observe transition with
      | none =>
          rw [List.filterMap_cons_none seen]
          exact induction along.2
      | some observed =>
          rw [List.filterMap_cons_some seen]
          exact ⟨along.1 observed seen, induction along.2⟩

end Component

section Realization

variable {Other OtherInput OtherOutput View : Type}
  {machine : Machine State Input Output}
  {other : Machine Other OtherInput OtherOutput}
  {history : List (Transition State Input Output)} {state : State}

/--
A run is realized by a run of another machine that shows the same, if every
step is answered by a continuation that shows exactly this step.
-/
theorem Run.realized
    (related : State → Other → Prop)
    (view : Transition State Input Output → View)
    (observe : Transition Other OtherInput OtherOutput → Option View)
    (start : ∀ state, machine.Initial state →
      ∃ twin, other.Initial twin ∧ related state twin)
    {allowed : Transition State Input Output → Prop}
    (step : ∀ before after input output twin otherHistory,
      machine.step before input = some (after, output) →
        allowed ⟨before, input, output, after⟩ →
          related before twin → Run other otherHistory twin →
            ∃ newer next, Run other (newer ++ otherHistory) next ∧
              related after next ∧
                newer.filterMap observe =
                  [view ⟨before, input, output, after⟩])
    (run : Run machine history state)
    (allAllowed : ∀ transition ∈ history, allowed transition) :
    ∃ otherHistory twin, Run other otherHistory twin ∧
      related state twin ∧
        otherHistory.filterMap observe = history.map view := by
  induction run with
  | start initial =>
      rcases start _ initial with ⟨twin, isInitial, isRelated⟩
      exact ⟨[], twin, .start isInitial, isRelated, rfl⟩
  | @extend history before after input output earlier stepped induction =>
      rcases induction fun transition member =>
          allAllowed transition (List.mem_cons_of_mem _ member) with
        ⟨otherHistory, twin, follows, isRelated, same⟩
      rcases step _ _ _ _ _ _ stepped
          (allAllowed _ List.mem_cons_self) isRelated follows with
        ⟨newer, next, further, stillRelated, shows⟩
      refine ⟨newer ++ otherHistory, next, further, stillRelated, ?_⟩
      rw [List.filterMap_append, shows, same, List.map_cons]
      rfl

end Realization

/-- The machine that starts where another one stopped. -/
def Machine.resumedAt (machine : Machine State Input Output)
    (state : State) : Machine State Input Output :=
  { machine with Initial := fun initial => initial = state }

/-- What a run did after one of its transitions is a run from there. -/
theorem Run.resumed
    {machine : Machine State Input Output}
    {newer older : List (Transition State Input Output)}
    {transition : Transition State Input Output} {state : State}
    (run : Run machine (newer ++ transition :: older) state) :
    Run (machine.resumedAt transition.after) newer state := by
  induction newer generalizing state with
  | nil =>
      cases run with
      | extend earlier stepped => exact .start rfl
  | cons later newer induction =>
      cases run with
      | extend earlier stepped => exact .extend (induction earlier) stepped

/--
A budget that every counted transition pays for bounds how many there are.
The payment may rely on an invariant, and on what is known of the transitions.
-/
theorem Run.countP_add_le
    {machine : Machine State Input Output}
    {history : List (Transition State Input Output)} {state : State}
    (allowed : Transition State Input Output → Prop)
    (counted : Transition State Input Output → Bool)
    (property : State → Prop) (left : State → Nat) (budget : Nat)
    (start : ∀ state, machine.Initial state →
      property state ∧ left state ≤ budget)
    (step : ∀ transition,
      machine.step transition.before transition.input =
        some (transition.after, transition.output) →
      allowed transition → property transition.before →
        property transition.after ∧
          (counted transition).toNat + left transition.after ≤
            left transition.before)
    (run : Run machine history state)
    (allAllowed : ∀ transition ∈ history, allowed transition) :
    property state ∧ history.countP counted + left state ≤ budget := by
  induction run with
  | start initial => simpa using start _ initial
  | @extend history before after input output earlier stepped
      induction =>
      rcases induction fun transition member =>
          allAllowed transition (List.mem_cons_of_mem _ member) with
        ⟨held, within⟩
      rcases step ⟨before, input, output, after⟩ stepped
          (allAllowed _ List.mem_cons_self) held with
        ⟨holds, paid⟩
      refine ⟨holds, ?_⟩
      rw [List.countP_cons]
      cases isCounted : counted ⟨before, input, output, after⟩ <;>
        simp only [isCounted, Bool.toNat_true, Bool.toNat_false, if_true,
          Bool.false_eq_true, if_false] at paid ⊢ <;>
        omega

/-! ## First in, first out -/

/-- What the transitions of a history contribute, oldest first. -/
def collected {Item : Type}
    (part : Transition State Input Output → List Item)
    (history : List (Transition State Input Output)) : List Item :=
  history.reverse.flatMap part

@[simp]
theorem collected_nil {Item : Type}
    (part : Transition State Input Output → List Item) :
    collected part [] = [] :=
  rfl

theorem collected_cons {Item : Type}
    (part : Transition State Input Output → List Item)
    (transition : Transition State Input Output)
    (older : List (Transition State Input Output)) :
    collected part (transition :: older) =
      collected part older ++ part transition := by
  simp [collected]

/-- If every step takes from the front of what the state contains and adds at
its end, then nothing is lost, repeated or reordered on the way. -/
theorem Run.collected_append {Item : Type}
    {machine : Machine State Input Output}
    {history : List (Transition State Input Output)} {state : State}
    (contents : State → List Item)
    (enters leaves : Transition State Input Output → List Item)
    (start : ∀ state, machine.Initial state → contents state = [])
    (step : ∀ transition,
      machine.step transition.before transition.input =
          some (transition.after, transition.output) →
        leaves transition ++ contents transition.after =
          contents transition.before ++ enters transition)
    (run : Run machine history state) :
    collected leaves history ++ contents state =
      collected enters history := by
  induction run with
  | start initial => rw [start _ initial, collected_nil, collected_nil,
      List.append_nil]
  | @extend history before after input output earlier stepped induction =>
      have moved := step ⟨before, input, output, after⟩ stepped
      rw [collected_cons, collected_cons, List.append_assoc, moved,
        ← List.append_assoc, induction]

/-! ## Continuations that use some of the inputs only -/

namespace Machine

/-- A step on an allowed input. -/
def StepOn (machine : Machine State Input Output)
    (allowed : Input → Prop) (before after : State) : Prop :=
  ∃ input output, allowed input ∧
    machine.step before input = some (after, output)

/-- What the machine can reach while all its inputs are allowed ones. -/
def Reaches (machine : Machine State Input Output)
    (allowed : Input → Prop) : State → State → Prop :=
  Relation.ReflTransGen (machine.StepOn allowed)

variable {machine : Machine State Input Output} {allowed : Input → Prop}
  {before middle after : State}

theorem Reaches.refl (state : State) :
    machine.Reaches allowed state state :=
  Relation.ReflTransGen.refl

theorem Reaches.trans
    (first : machine.Reaches allowed before middle)
    (second : machine.Reaches allowed middle after) :
    machine.Reaches allowed before after :=
  Relation.ReflTransGen.trans first second

theorem Reaches.of_step {input : Input} {output : Output}
    (permitted : allowed input)
    (stepped : machine.step before input = some (after, output)) :
    machine.Reaches allowed before after :=
  Relation.ReflTransGen.single ⟨input, output, permitted, stepped⟩

/-- Allowing more inputs reaches no less. -/
theorem Reaches.mono {wider : Input → Prop}
    (includes : ∀ input, allowed input → wider input)
    (reaches : machine.Reaches allowed before after) :
    machine.Reaches wider before after := by
  have more (before after : State)
      (step : machine.StepOn allowed before after) :
      machine.StepOn wider before after := by
    rcases step with ⟨input, output, permitted, stepped⟩
    exact ⟨input, output, includes input permitted, stepped⟩
  exact Relation.ReflTransGen.mono more _ _ reaches

/-- What every allowed step keeps holds of all that is reached. -/
theorem Reaches.invariant (property : State → Prop)
    (keeps : ∀ before after input output, allowed input →
      property before → machine.step before input = some (after, output) →
        property after)
    (reaches : machine.Reaches allowed before after)
    (held : property before) :
    property after := by
  induction reaches with
  | refl => exact held
  | tail _ stepped induction =>
      rcases stepped with ⟨input, output, permitted, stepped⟩
      exact keeps _ _ input output permitted induction stepped

/-- A goal that can be approached step by step while an invariant holds is
reached. -/
theorem exists_reaches_of_progress
    (invariant goal : State → Prop) (distance : State → Nat)
    (progress : ∀ state, invariant state →
      ∃ next, machine.Reaches allowed state next ∧
        (goal next ∨
          invariant next ∧ distance next < distance state))
    (held : invariant before) :
    ∃ final, machine.Reaches allowed before final ∧ goal final := by
  induction away : distance before using Nat.strong_induction_on
    generalizing before with
  | _ away induction =>
      rcases progress before held with
        ⟨next, reaches, arrived | ⟨still, closer⟩⟩
      · exact ⟨next, reaches, arrived⟩
      · rcases induction (distance next) (away ▸ closer) still rfl with
          ⟨final, further, arrived⟩
        exact ⟨final, reaches.trans further, arrived⟩

end Machine

/-- What can be reached from an initial state ends a run. -/
theorem Machine.Reaches.exists_run
    {machine : Machine State Input Output} {allowed : Input → Prop}
    {state final : State}
    (initial : machine.Initial state)
    (reaches : machine.Reaches allowed state final) :
    ∃ history, Run machine history final := by
  induction reaches with
  | refl => exact ⟨[], .start initial⟩
  | tail _ stepped induction =>
      rcases induction with ⟨history, run⟩
      rcases stepped with ⟨input, output, _, stepped⟩
      exact ⟨_, run.extend stepped⟩

/-- A run can go on to what can be reached from its end. -/
theorem Run.exists_of_reaches
    {machine : Machine State Input Output} {allowed : Input → Prop}
    {history : List (Transition State Input Output)}
    {state final : State}
    (run : Run machine history state)
    (reaches : machine.Reaches allowed state final) :
    ∃ longer, Run machine longer final := by
  induction reaches with
  | refl => exact ⟨history, run⟩
  | tail _ stepped induction =>
      rcases induction with ⟨longer, run⟩
      rcases stepped with ⟨input, output, _, stepped⟩
      exact ⟨_, run.extend stepped⟩

/-- What can be reached is where a run ends that goes on from there. -/
theorem Machine.Reaches.exists_resumed
    {machine : Machine State Input Output} {allowed : Input → Prop}
    {state final : State}
    (reaches : machine.Reaches allowed state final) :
    ∃ newer, Run (machine.resumedAt state) newer final ∧
      ∀ transition ∈ newer, allowed transition.input := by
  induction reaches with
  | refl => exact ⟨[], .start rfl, by simp⟩
  | tail _ stepped induction =>
      rcases induction with ⟨newer, run, permitted⟩
      rcases stepped with ⟨input, output, isAllowed, stepped⟩
      exact ⟨_, run.extend stepped, by simpa using ⟨isAllowed, permitted⟩⟩

/-! ## Replaying a list of inputs -/

/-- Feed the inputs to the machine one by one, extending a history. -/
def replay (machine : Machine State Input Output)
    (history : List (Transition State Input Output)) (state : State) :
    List Input →
      Option (List (Transition State Input Output) × State)
  | [] => some (history, state)
  | input :: rest =>
      match machine.step state input with
      | none => none
      | some (after, output) =>
          replay machine (⟨state, input, output, after⟩ :: history) after rest

/-- A replay that no step refused continues the run it started from. -/
theorem Run.replay
    {machine : Machine State Input Output}
    {history earlier newer : List (Transition State Input Output)}
    {state final : State} {inputs : List Input}
    (run : Run machine (earlier ++ history) state)
    (replayed :
      Execution.replay machine earlier state inputs =
        some (newer, final)) :
    Run machine (newer ++ history) final := by
  induction inputs generalizing earlier state with
  | nil =>
      simp only [Execution.replay, Option.some.injEq, Prod.mk.injEq]
        at replayed
      rcases replayed with ⟨rfl, rfl⟩
      exact run
  | cons input rest induction =>
      simp only [Execution.replay] at replayed
      split at replayed
      · cases replayed
      · next after output stepped =>
          exact induction (run.extend stepped) replayed

/-- A check that a replay passes holds of some continuation of the run. -/
theorem Run.exists_of_replay
    {machine : Machine State Input Output}
    {history : List (Transition State Input Output)} {state : State}
    (run : Run machine history state) (inputs : List Input)
    (check : List (Transition State Input Output) → State → Bool)
    (passes :
      (Execution.replay machine [] state inputs).any
        (fun result => check result.1 result.2) = true) :
    ∃ newer final, Run machine (newer ++ history) final ∧
      check newer final = true := by
  rw [Option.any_eq_true] at passes
  rcases passes with ⟨⟨newer, final⟩, replayed, passed⟩
  have notYet : Run machine ([] ++ history) state := run
  exact ⟨newer, final, notYet.replay replayed, passed⟩

/-- The same from an initial state. -/
theorem exists_run_of_replay
    {machine : Machine State Input Output} {state : State}
    (initial : machine.Initial state) (inputs : List Input)
    (check : List (Transition State Input Output) → State → Bool)
    (passes :
      (replay machine [] state inputs).any
        (fun result => check result.1 result.2) = true) :
    ∃ history final, Run machine history final ∧
      check history final = true := by
  rcases (Run.start initial).exists_of_replay inputs check passes with
    ⟨newer, final, run, passed⟩
  exact ⟨newer, final, by simpa using run, passed⟩

/-- The same for two machines side by side. -/
theorem exists_runs_of_replays
    {Other OtherInput OtherOutput : Type}
    {machine : Machine State Input Output}
    {other : Machine Other OtherInput OtherOutput}
    {state : State} {twin : Other}
    (initial : machine.Initial state) (otherInitial : other.Initial twin)
    (inputs : List Input) (otherInputs : List OtherInput)
    (check : List (Transition State Input Output) → State →
      List (Transition Other OtherInput OtherOutput) → Other → Bool)
    (passes :
      (replay machine [] state inputs).any (fun result =>
        (replay other [] twin otherInputs).any fun otherResult =>
          check result.1 result.2 otherResult.1 otherResult.2) = true) :
    ∃ history final otherHistory otherFinal,
      Run machine history final ∧ Run other otherHistory otherFinal ∧
        check history final otherHistory otherFinal = true := by
  rcases exists_run_of_replay initial inputs
      (fun history final =>
        (replay other [] twin otherInputs).any fun otherResult =>
          check history final otherResult.1 otherResult.2) passes with
    ⟨history, final, run, otherPasses⟩
  rcases exists_run_of_replay otherInitial otherInputs
      (check history final) otherPasses with
    ⟨otherHistory, otherFinal, otherRun, passed⟩
  exact ⟨history, final, otherHistory, otherFinal, run, otherRun, passed⟩

end Coapable.Foundation.Execution
