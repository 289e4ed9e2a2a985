import Mathlib.Data.List.Basic

/-!
# Patterns with wildcards, matched greedily

A pattern is a list of pieces, each a fixed label or a named wildcard.  A
table of entries is matched against a path from left to right and greedily:
at each position the entries that have the label of the path there are kept if
there are any, and those that have a wildcard there otherwise.

The selection is not complete.  An entry that matches the path is selected
exactly if it is not `Shadowed`: nowhere does it have a wildcard where an
entry of the same shape so far has the label of the path.
-/

namespace Coapable.Foundation.Patterns

/-- One piece of a pattern. -/
inductive Piece (Label Name : Type) where
  | literal (label : Label)
  | wildcard (name : Name)
  deriving DecidableEq, Repr

/-- The piece without its name. -/
def Piece.shape {Label Name : Type} : Piece Label Name → Option Label
  | .literal label => some label
  | .wildcard _ => none

/-- The name of a wildcard. -/
def Piece.name? {Label Name : Type} : Piece Label Name → Option Name
  | .literal _ => none
  | .wildcard name => some name

/-- A pattern with what is stored under it. -/
structure Entry (Label Name Value : Type) where
  pattern : List (Piece Label Name)
  value : Value
  deriving DecidableEq

variable {Label Name Value : Type}

/-- The piece admits the label. -/
def Piece.Admits : Piece Label Name → Label → Prop
  | .literal own, label => own = label
  | .wildcard _, _ => True

/-- The pattern and the path have the same length, and every piece admits the
label at its position. -/
def Matches (pattern : List (Piece Label Name)) (path : List Label) :
    Prop :=
  List.Forall₂ Piece.Admits pattern path

/-- The labels a pattern captures from a path, under their names. -/
def captured : List (Piece Label Name) → List Label → List (Name × Label)
  | .wildcard name :: pattern, label :: path =>
      (name, label) :: captured pattern path
  | .literal _ :: pattern, _ :: path => captured pattern path
  | _, _ => []

/-! ## Descending one position -/

section Descent

variable [DecidableEq Label]

/-- The rest of a pattern that starts with the label. -/
def afterLiteral (label : Label) :
    List (Piece Label Name) → Option (List (Piece Label Name))
  | .literal own :: rest => if own = label then some rest else none
  | _ => none

/-- The rest of a pattern that starts with a wildcard. -/
def afterWildcard :
    List (Piece Label Name) → Option (List (Piece Label Name))
  | .wildcard _ :: rest => some rest
  | _ => none

/-- The entries whose patterns can take the step, with what is left. -/
def descend
    (step : List (Piece Label Name) → Option (List (Piece Label Name)))
    (entries : List (Entry Label Name Value)) :
    List (Entry Label Name Value) :=
  entries.filterMap fun entry =>
    (step entry.pattern).map fun rest => ⟨rest, entry.value⟩

/-- What is left of the entries that start with the label. -/
def below (label : Label) (entries : List (Entry Label Name Value)) :
    List (Entry Label Name Value) :=
  descend (afterLiteral label) entries

/-- What is left of the entries that start with a wildcard. -/
def belowWildcard (entries : List (Entry Label Name Value)) :
    List (Entry Label Name Value) :=
  descend afterWildcard entries

/-- The name of the first entry that starts with a wildcard. -/
def wildcardName (entries : List (Entry Label Name Value)) :
    Option Name :=
  entries.findSome? fun entry => entry.pattern.head?.bind Piece.name?

/-- The values of the entries that end here. -/
def ending (entries : List (Entry Label Name Value)) : List Value :=
  entries.filterMap fun entry =>
    if entry.pattern.isEmpty then some entry.value else none

/-- What is left of the entries after a greedy descent. -/
def remaining : List Label → List (Entry Label Name Value) →
    List (Entry Label Name Value)
  | [], entries => entries
  | label :: path, entries =>
      if (below label entries).isEmpty then
        remaining path (belowWildcard entries)
      else remaining path (below label entries)

/-- The greedy selection. -/
def select (path : List Label)
    (entries : List (Entry Label Name Value)) : List Value :=
  ending (remaining path entries)

/-- The pattern with each of its names replaced by that of the first entry
with the same shape so far. -/
def recorded (entries : List (Entry Label Name Value)) :
    List (Piece Label Name) → List (Piece Label Name)
  | [] => []
  | .literal label :: pattern =>
      .literal label :: recorded (below label entries) pattern
  | .wildcard name :: pattern =>
      .wildcard ((wildcardName entries).getD name) ::
        recorded (belowWildcard entries) pattern

/-- The labels captured along the greedy selection. -/
def captures : List Label → List (Entry Label Name Value) →
    List (Name × Label)
  | [], _ => []
  | label :: path, entries =>
      if (below label entries).isEmpty then
        match wildcardName entries with
        | some name =>
            (name, label) :: captures path (belowWildcard entries)
        | none => []
      else captures path (below label entries)

end Descent

/-- Where the pattern has a wildcard, an entry of the same shape so far has
the label of the path. -/
def Shadowed (entries : List (Entry Label Name Value))
    (pattern : List (Piece Label Name)) (path : List Label) : Prop :=
  ∃ before name after label,
    pattern = before ++ .wildcard name :: after ∧
      path[before.length]? = some label ∧
      ∃ entry ∈ entries, ∃ sameBefore rest,
        entry.pattern = sameBefore ++ .literal label :: rest ∧
          sameBefore.map Piece.shape = before.map Piece.shape

/-! ## One more entry -/

section Descent

variable [DecidableEq Label]

omit [DecidableEq Label] in
theorem ending_append (entries more : List (Entry Label Name Value)) :
    ending (entries ++ more) = ending entries ++ ending more :=
  List.filterMap_append

theorem below_append (label : Label)
    (entries more : List (Entry Label Name Value)) :
    below label (entries ++ more) =
      below label entries ++ below label more :=
  List.filterMap_append

omit [DecidableEq Label] in
theorem belowWildcard_append
    (entries more : List (Entry Label Name Value)) :
    belowWildcard (entries ++ more) =
      belowWildcard entries ++ belowWildcard more :=
  List.filterMap_append

omit [DecidableEq Label] in
theorem wildcardName_append
    (entries more : List (Entry Label Name Value)) :
    wildcardName (entries ++ more) =
      (wildcardName entries).or (wildcardName more) :=
  List.findSome?_append

theorem below_singleton (label : Label)
    (entry : Entry Label Name Value) :
    below label [entry] =
      ((afterLiteral label entry.pattern).map
        fun rest => ⟨rest, entry.value⟩).toList := by
  rw [below, descend, List.filterMap_cons]
  cases afterLiteral label entry.pattern <;> rfl

omit [DecidableEq Label] in
theorem belowWildcard_singleton (entry : Entry Label Name Value) :
    belowWildcard [entry] =
      ((afterWildcard entry.pattern).map
        fun rest => ⟨rest, entry.value⟩).toList := by
  rw [belowWildcard, descend, List.filterMap_cons]
  cases afterWildcard entry.pattern <;> rfl

omit [DecidableEq Label] in
theorem wildcardName_singleton (entry : Entry Label Name Value) :
    wildcardName [entry] = entry.pattern.head?.bind Piece.name? := by
  rw [wildcardName, List.findSome?_cons]
  cases entry.pattern.head?.bind Piece.name? <;> rfl

/-! ## Membership -/

omit [DecidableEq Label] in
theorem mem_ending_iff (value : Value)
    (entries : List (Entry Label Name Value)) :
    value ∈ ending entries ↔ ⟨[], value⟩ ∈ entries := by
  simp only [ending, List.mem_filterMap, Option.ite_none_right_eq_some,
    List.isEmpty_iff, Option.some.injEq]
  constructor
  · rintro ⟨⟨pattern, stored⟩, member, rfl, rfl⟩
    exact member
  · intro member
    exact ⟨_, member, rfl, rfl⟩

theorem mem_below_iff (label : Label)
    (entry : Entry Label Name Value)
    (entries : List (Entry Label Name Value)) :
    entry ∈ below label entries ↔
      ⟨.literal label :: entry.pattern, entry.value⟩ ∈ entries := by
  simp only [below, descend, List.mem_filterMap, Option.map_eq_some_iff]
  constructor
  · rintro ⟨⟨pattern, value⟩, member, rest, kept, rfl⟩
    rcases pattern with _ | ⟨own | name, pattern⟩
    · cases kept
    · simp only [afterLiteral, Option.ite_none_right_eq_some,
        Option.some.injEq] at kept
      rcases kept with ⟨rfl, rfl⟩
      exact member
    · cases kept
  · intro member
    exact ⟨_, member, entry.pattern, by simp [afterLiteral], rfl⟩

omit [DecidableEq Label] in
theorem mem_belowWildcard_iff
    (entry : Entry Label Name Value)
    (entries : List (Entry Label Name Value)) :
    entry ∈ belowWildcard entries ↔
      ∃ name, ⟨.wildcard name :: entry.pattern, entry.value⟩ ∈
        entries := by
  simp only [belowWildcard, descend, List.mem_filterMap,
    Option.map_eq_some_iff]
  constructor
  · rintro ⟨⟨pattern, value⟩, member, rest, kept, rfl⟩
    rcases pattern with _ | ⟨own | name, pattern⟩
    · cases kept
    · cases kept
    · obtain rfl : pattern = rest := Option.some.inj kept
      exact ⟨name, member⟩
  · rintro ⟨name, member⟩
    exact ⟨_, member, entry.pattern, rfl, rfl⟩

/-! ## Shadowing -/

theorem shadowed_literal_iff (own label : Label)
    (entries : List (Entry Label Name Value))
    (pattern : List (Piece Label Name)) (path : List Label) :
    Shadowed entries (.literal own :: pattern) (label :: path) ↔
      Shadowed (below own entries) pattern path := by
  constructor
  · rintro ⟨before, name, after, blocked, isPattern, isLabel,
      ⟨_, value⟩, member, sameBefore, rest, rfl, shapes⟩
    rcases before with _ | ⟨first, before⟩
    · cases isPattern
    · injection isPattern with isFirst isPattern
      subst isFirst
      rcases sameBefore with _ | ⟨other, sameBefore⟩
      · cases shapes
      · rw [List.map_cons, List.map_cons, List.cons.injEq] at shapes
        cases other with
        | wildcard name => cases shapes.1
        | literal other =>
            obtain rfl : other = own := Option.some.inj shapes.1
            refine ⟨before, name, after, blocked, isPattern, isLabel,
              ⟨sameBefore ++ .literal blocked :: rest, value⟩, ?_,
              sameBefore, rest, rfl, shapes.2⟩
            exact (mem_below_iff _ _ _).mpr member
  · rintro ⟨before, name, after, blocked, isPattern, isLabel, entry,
      member, sameBefore, rest, isEntry, shapes⟩
    rw [mem_below_iff, isEntry] at member
    exact ⟨.literal own :: before, name, after, blocked,
      by rw [isPattern, List.cons_append], isLabel, _, member,
      .literal own :: sameBefore, rest, rfl,
      by rw [List.map_cons, List.map_cons, shapes]⟩

theorem shadowed_wildcard_iff (name : Name) (label : Label)
    (entries : List (Entry Label Name Value))
    (pattern : List (Piece Label Name)) (path : List Label) :
    Shadowed entries (.wildcard name :: pattern) (label :: path) ↔
      below label entries ≠ [] ∨
        Shadowed (belowWildcard entries) pattern path := by
  constructor
  · rintro ⟨before, own, after, blocked, isPattern, isLabel,
      ⟨_, value⟩, member, sameBefore, rest, rfl, shapes⟩
    rcases before with _ | ⟨first, before⟩
    · left
      obtain rfl : sameBefore = [] := List.map_eq_nil_iff.mp shapes
      obtain rfl : label = blocked := Option.some.inj isLabel
      apply List.ne_nil_of_mem (a := ⟨rest, value⟩)
      exact (mem_below_iff _ _ _).mpr member
    · right
      injection isPattern with isFirst isPattern
      subst isFirst
      rcases sameBefore with _ | ⟨other, sameBefore⟩
      · cases shapes
      · rw [List.map_cons, List.map_cons, List.cons.injEq] at shapes
        cases other with
        | literal other => cases shapes.1
        | wildcard other =>
            refine ⟨before, own, after, blocked, isPattern, isLabel,
              ⟨sameBefore ++ .literal blocked :: rest, value⟩, ?_,
              sameBefore, rest, rfl, shapes.2⟩
            exact (mem_belowWildcard_iff _ _).mpr ⟨other, member⟩
  · rintro (nonempty | ⟨before, own, after, blocked, isPattern, isLabel,
      entry, member, sameBefore, rest, isEntry, shapes⟩)
    · rcases List.exists_mem_of_ne_nil _ nonempty with ⟨entry, member⟩
      rw [mem_below_iff] at member
      exact ⟨[], name, pattern, label, rfl, rfl, _, member, [],
        entry.pattern, rfl, rfl⟩
    · rw [mem_belowWildcard_iff, isEntry] at member
      rcases member with ⟨other, member⟩
      exact ⟨.wildcard name :: before, own, after, blocked,
        by rw [isPattern, List.cons_append], isLabel, _, member,
        .wildcard other :: sameBefore, rest, rfl,
        by rw [List.map_cons, List.map_cons, shapes]; rfl⟩

omit [DecidableEq Label] in
theorem not_shadowed_nil (entries : List (Entry Label Name Value))
    (path : List Label) :
    ¬ Shadowed entries [] path := by
  rintro ⟨before, name, after, _, isPattern, _⟩
  simp at isPattern

/-! ## The selection -/

/-- The selection consists of the entries that match and are not
shadowed. -/
theorem mem_select_iff (value : Value) (path : List Label)
    (entries : List (Entry Label Name Value)) :
    value ∈ select path entries ↔
      ∃ pattern, ⟨pattern, value⟩ ∈ entries ∧ Matches pattern path ∧
        ¬ Shadowed entries pattern path := by
  induction path generalizing entries with
  | nil =>
      rw [select, remaining, mem_ending_iff]
      constructor
      · intro member
        exact ⟨[], member, .nil, not_shadowed_nil entries []⟩
      · rintro ⟨pattern, member, matched, _⟩
        cases matched
        exact member
  | cons label path induction =>
      simp only [select] at induction
      rw [select, remaining]
      split
      · next none =>
          rw [List.isEmpty_iff] at none
          rw [induction]
          constructor
          · rintro ⟨pattern, member, matched, visible⟩
            rcases (mem_belowWildcard_iff _ _).mp member with
              ⟨name, member⟩
            refine ⟨_, member, .cons trivial matched, ?_⟩
            rw [shadowed_wildcard_iff]
            rintro (some | shadowed)
            · exact some none
            · exact visible shadowed
          · rintro ⟨pattern, member, matched, visible⟩
            cases matched with
            | @cons piece _ rest _ admits matched =>
                cases piece with
                | literal own =>
                    obtain rfl : own = label := admits
                    have present :=
                      (mem_below_iff own ⟨rest, value⟩ entries).mpr member
                    rw [none] at present
                    cases present
                | wildcard name =>
                    rw [shadowed_wildcard_iff, not_or] at visible
                    exact ⟨rest, (mem_belowWildcard_iff _ _).mpr
                      ⟨name, member⟩, matched, visible.2⟩
      · next some =>
          rw [List.isEmpty_iff] at some
          rw [induction]
          constructor
          · rintro ⟨pattern, member, matched, visible⟩
            refine ⟨_, (mem_below_iff _ _ _).mp member,
              .cons rfl matched, ?_⟩
            rw [shadowed_literal_iff]
            exact visible
          · rintro ⟨pattern, member, matched, visible⟩
            cases matched with
            | @cons piece _ rest _ admits matched =>
                cases piece with
                | literal own =>
                    obtain rfl : own = label := admits
                    rw [shadowed_literal_iff] at visible
                    exact ⟨rest, (mem_below_iff _ _ _).mpr member,
                      matched, visible⟩
                | wildcard name =>
                    rw [shadowed_wildcard_iff, not_or] at visible
                    exact absurd some visible.1

theorem select_ne_nil_iff (path : List Label)
    (entries : List (Entry Label Name Value)) :
    select path entries ≠ [] ↔
      ∃ entry ∈ entries, Matches entry.pattern path ∧
        ¬ Shadowed entries entry.pattern path := by
  constructor
  · intro nonempty
    rcases List.exists_mem_of_ne_nil _ nonempty with ⟨value, member⟩
    rcases (mem_select_iff _ _ _).mp member with
      ⟨pattern, stored, visible⟩
    exact ⟨_, stored, visible⟩
  · rintro ⟨⟨pattern, value⟩, stored, visible⟩
    exact List.ne_nil_of_mem
      ((mem_select_iff value _ _).mpr ⟨pattern, stored, visible⟩)

@[simp]
theorem remaining_nil (path : List Label) :
    remaining path ([] : List (Entry Label Name Value)) = [] := by
  induction path with
  | nil => rfl
  | cons label path induction =>
      simpa [remaining, below, belowWildcard, descend] using induction

omit [DecidableEq Label] in
theorem wildcardName_eq_none_iff
    (entries : List (Entry Label Name Value)) :
    wildcardName entries = none ↔ belowWildcard entries = [] := by
  simp only [wildcardName, List.findSome?_eq_none_iff, belowWildcard,
    descend, List.filterMap_eq_nil_iff, Option.map_eq_none_iff]
  refine forall_congr' fun entry => imp_congr_right fun _ => ?_
  rcases entry with ⟨_ | ⟨own | name, rest⟩, value⟩ <;>
    simp [afterWildcard, Piece.name?]

omit [DecidableEq Label] in
theorem wildcardName_of_mem
    {name : Name} {pattern : List (Piece Label Name)} {value : Value}
    {entries : List (Entry Label Name Value)}
    (member : ⟨.wildcard name :: pattern, value⟩ ∈ entries) :
    ∃ first, wildcardName entries = some first := by
  rw [← Option.ne_none_iff_exists', ne_eq, wildcardName_eq_none_iff]
  exact List.ne_nil_of_mem
    ((mem_belowWildcard_iff ⟨pattern, value⟩ _).mpr ⟨name, member⟩)

/-- What the selection captures are the labels of each selected entry, under
the names recorded for its wildcards. -/
theorem captures_eq_captured
    {pattern : List (Piece Label Name)} {value : Value}
    {path : List Label} {entries : List (Entry Label Name Value)}
    (member : ⟨pattern, value⟩ ∈ entries)
    (matched : Matches pattern path)
    (visible : ¬ Shadowed entries pattern path) :
    captures path entries = captured (recorded entries pattern) path := by
  induction matched generalizing entries with
  | nil => rfl
  | @cons piece label pattern path admits matched induction =>
      cases piece with
      | literal own =>
          obtain rfl : own = label := admits
          rw [shadowed_literal_iff] at visible
          have below := (mem_below_iff own ⟨pattern, value⟩ _).mpr member
          have some := List.ne_nil_of_mem below
          rw [captures, if_neg (by simpa using some), recorded, captured]
          exact induction below visible
      | wildcard name =>
          rw [shadowed_wildcard_iff, not_or, not_not] at visible
          rcases wildcardName_of_mem member with ⟨first, found⟩
          rw [captures, if_pos (by simpa using visible.1), recorded,
            captured, found]
          have below := (mem_belowWildcard_iff ⟨pattern, value⟩ _).mpr
            ⟨name, member⟩
          simp only [Option.getD_some, induction below visible.2]

theorem length_captured_recorded
    (entries : List (Entry Label Name Value))
    (pattern : List (Piece Label Name)) (path : List Label) :
    (captured (recorded entries pattern) path).length =
      (captured pattern path).length := by
  induction pattern generalizing entries path with
  | nil => rfl
  | cons piece pattern induction =>
      cases piece <;> cases path <;>
        simp [recorded, captured, induction]

omit [DecidableEq Label] in
theorem map_fst_captured
    {pattern : List (Piece Label Name)} {path : List Label}
    (matched : Matches pattern path) :
    (captured pattern path).map Prod.fst =
      pattern.filterMap Piece.name? := by
  induction matched with
  | nil => rfl
  | @cons piece label pattern path admits matched induction =>
      cases piece <;>
        simp [captured, Piece.name?, induction, List.filterMap_cons]

/-! ## Entries with several items -/

section Items

variable {Item : Type} (items : Value → List Item)

/-- One entry for each item of a value. -/
def expand (entries : List (Entry Label Name Value)) :
    List (Entry Label Name Item) :=
  entries.flatMap fun entry =>
    (items entry.value).map fun item => ⟨entry.pattern, item⟩

omit [DecidableEq Label] in
theorem descend_expand
    (step : List (Piece Label Name) → Option (List (Piece Label Name)))
    (entries : List (Entry Label Name Value)) :
    descend step (expand items entries) =
      expand items (descend step entries) := by
  simp only [descend, expand]
  induction entries with
  | nil => rfl
  | cons entry entries induction =>
      rw [List.flatMap_cons, List.filterMap_append, List.filterMap_map,
        induction, List.filterMap_cons]
      cases kept : step entry.pattern <;> simp [kept]

omit [DecidableEq Label] in
theorem ending_expand (entries : List (Entry Label Name Value)) :
    ending (expand items entries) = (ending entries).flatMap items := by
  simp only [ending, expand]
  induction entries with
  | nil => rfl
  | cons entry entries induction =>
      rw [List.flatMap_cons, List.filterMap_append, List.filterMap_map,
        induction, List.filterMap_cons]
      rcases entry with ⟨pattern, value⟩
      cases pattern <;> simp

omit [DecidableEq Label] in
theorem expand_eq_nil_iff
    (nonempty : ∀ value, items value ≠ [])
    (entries : List (Entry Label Name Value)) :
    expand items entries = [] ↔ entries = [] := by
  cases entries with
  | nil => simp [expand]
  | cons entry entries => simp [expand, nonempty entry.value]

theorem remaining_expand
    (nonempty : ∀ value, items value ≠ [])
    (path : List Label) (entries : List (Entry Label Name Value)) :
    remaining path (expand items entries) =
      expand items (remaining path entries) := by
  induction path generalizing entries with
  | nil => rfl
  | cons label path induction =>
      simp only [remaining, below, belowWildcard, descend_expand, induction,
        List.isEmpty_iff, expand_eq_nil_iff items nonempty]
      split <;> rfl

/-- Selecting items is selecting values and taking all their items. -/
theorem select_expand
    (nonempty : ∀ value, items value ≠ [])
    (path : List Label) (entries : List (Entry Label Name Value)) :
    select path (expand items entries) =
      (select path entries).flatMap items := by
  rw [select, remaining_expand items nonempty, ending_expand, select]

end Items

end Descent

end Coapable.Foundation.Patterns
