import Mathlib.Data.Finmap
import Mathlib.Data.Multiset.Fold

/-!
# Finite maps as mutable tables

Mathlib's `Finmap` is a finite map up to the order of its entries, which is
exactly what a hash table is to a program that never relies on its iteration
order.  This module adds the table operations a mutable program uses on top
of `lookup`, `insert` and `erase`: updating a value in place, keeping the
entries that pass a test, testing for emptiness and taking the soonest of the
deadlines stored in the values.

An iteration over a table visits its keys in an order the program does not
choose.  `Enumerates` says that a list is one such order, so that a loop can
be modelled as a recursion over a list while its results are proved for every
enumeration.

The multiset of stored values is the accounting view of a table: inserting
under a fresh key adds one value and erasing a present key removes one.
-/

namespace Coapable.Foundation.FiniteMap

/-- A finite map from keys to values of one type. -/
abbrev Table (Key Value : Type) := Finmap fun _ : Key => Value

variable {Key Value : Type} [DecidableEq Key]

/-! ## Lookup after an update -/

/-- Lookup after an insertion, as one conditional. -/
theorem lookup_insert_eq
    (map : Table Key Value) (key other : Key) (value : Value) :
    (map.insert key value).lookup other =
      if other = key then some value else map.lookup other := by
  split
  · next equal =>
      subst equal
      exact Finmap.lookup_insert map
  · next distinct =>
      exact Finmap.lookup_insert_of_ne map distinct

/-- Lookup after an erasure, as one conditional. -/
theorem lookup_erase_eq
    (map : Table Key Value) (key other : Key) :
    (map.erase key).lookup other =
      if other = key then none else map.lookup other := by
  split
  · next equal =>
      subst equal
      exact Finmap.lookup_erase other map
  · next distinct =>
      exact Finmap.lookup_erase_ne distinct

/-- Apply a function to the value stored under a key, if there is one. -/
def modify (key : Key) (change : Value → Value)
    (map : Table Key Value) : Table Key Value :=
  match map.lookup key with
  | some value => map.insert key (change value)
  | none => map

theorem lookup_modify
    (map : Table Key Value) (key other : Key)
    (change : Value → Value) :
    (modify key change map).lookup other =
      if other = key then (map.lookup other).map change
      else map.lookup other := by
  simp only [modify]
  split
  · next value found =>
      rw [lookup_insert_eq]
      split
      · next equal =>
          subst equal
          simp [found]
      · rfl
  · next absent =>
      split
      · next equal =>
          subst equal
          simp [absent]
      · rfl

/-- Modifying what was just inserted inserts the modified value. -/
theorem modify_insert_self
    (map : Table Key Value) (key : Key) (value : Value)
    (change : Value → Value) :
    modify key change (map.insert key value) =
      map.insert key (change value) := by
  rw [modify, Finmap.lookup_insert map]
  exact Finmap.insert_insert map

/-! ## Inserting a list of pairs -/

/-- Insert the pairs one after the other; a later pair replaces an earlier
one with its key. -/
def insertAll (map : Table Key Value) (pairs : List (Key × Value)) :
    Table Key Value :=
  pairs.foldl (fun map pair => map.insert pair.1 pair.2) map

theorem mem_of_lookup_insertAll
    {pairs : List (Key × Value)} {map : Table Key Value}
    {key : Key} {value : Value}
    (found : (insertAll map pairs).lookup key = some value) :
    (key, value) ∈ pairs ∨ map.lookup key = some value := by
  induction pairs generalizing map with
  | nil => exact Or.inr found
  | cons pair pairs induction =>
      rcases induction found with member | before
      · exact Or.inl (List.mem_cons_of_mem _ member)
      · rw [lookup_insert_eq] at before
        split at before
        · next same =>
            injection before with isValue
            subst same
            subst isValue
            exact Or.inl List.mem_cons_self
        · exact Or.inr before

theorem lookup_insertAll_of_not_mem
    {pairs : List (Key × Value)} {map : Table Key Value} {key : Key}
    (absent : key ∉ pairs.map Prod.fst) :
    (insertAll map pairs).lookup key = map.lookup key := by
  induction pairs generalizing map with
  | nil => rfl
  | cons pair pairs induction =>
      rw [List.map_cons, List.mem_cons, not_or] at absent
      change (insertAll (map.insert pair.1 pair.2) pairs).lookup key = _
      rw [induction absent.2, lookup_insert_eq, if_neg absent.1]

theorem lookup_insertAll_of_mem
    {pairs : List (Key × Value)} {map : Table Key Value}
    (distinct : (pairs.map Prod.fst).Nodup)
    {key : Key} {value : Value} (member : (key, value) ∈ pairs) :
    (insertAll map pairs).lookup key = some value := by
  induction pairs generalizing map with
  | nil => cases member
  | cons pair pairs induction =>
      rw [List.map_cons, List.nodup_cons] at distinct
      rcases List.mem_cons.mp member with rfl | later
      · change (insertAll (map.insert key value) pairs).lookup key = _
        rw [lookup_insertAll_of_not_mem distinct.1, lookup_insert_eq,
          if_pos rfl]
      · exact induction distinct.2 later

/-- Inserting pairs gives the map of other pairs, with distinct keys and of
the same number, exactly if they are the same pairs in some order. -/
theorem lookup_insertAll_iff_perm
    {pairs others : List (Key × Value)}
    (distinct : (others.map Prod.fst).Nodup)
    (length : pairs.length = others.length) :
    (∀ key value,
        (insertAll (∅ : Table Key Value) pairs).lookup key = some value ↔
          (key, value) ∈ others) ↔
      pairs.Perm others := by
  constructor
  · intro same
    have included : others ⊆ pairs := by
      rintro ⟨key, value⟩ member
      rcases mem_of_lookup_insertAll ((same key value).mpr member) with
        present | impossible
      · exact present
      · cases impossible
    exact ((List.subperm_of_subset distinct.of_map
      included).perm_of_length_le length.le).symm
  · intro perm key value
    rw [← perm.mem_iff]
    constructor
    · intro found
      rcases mem_of_lookup_insertAll found with present | impossible
      · exact present
      · cases impossible
    · exact lookup_insertAll_of_mem
        ((perm.map Prod.fst).nodup_iff.mpr distinct)

/-! ## Keeping and rewriting entries -/

/-- A table entry is exactly a successful lookup. -/
theorem mem_entries_iff
    (map : Table Key Value) (key : Key) (value : Value) :
    (⟨key, value⟩ : Sigma fun _ : Key => Value) ∈ map.entries ↔
      map.lookup key = some value := by
  induction map using Finmap.induction_on with
  | H list =>
      simp only [AList.toFinmap_entries, Finmap.lookup_toFinmap]
      exact AList.mem_lookup_iff.symm

/-- Keep the entries that pass the test. -/
def retain (keep : Key → Value → Bool)
    (map : Table Key Value) : Table Key Value where
  entries := map.entries.filter fun entry => keep entry.1 entry.2
  nodupKeys := by
    have distinct := map.nodupKeys
    rw [← Multiset.nodup_keys] at distinct ⊢
    exact Multiset.nodup_of_le
      (Multiset.map_le_map (Multiset.filter_le _ _)) distinct

theorem lookup_retain
    (keep : Key → Value → Bool) (map : Table Key Value) (key : Key) :
    (retain keep map).lookup key =
      (map.lookup key).filter (keep key) := by
  apply Option.ext
  intro value
  rw [← mem_entries_iff]
  simp only [retain, Multiset.mem_filter, mem_entries_iff]
  simp [Option.filter_eq_some_iff]

omit [DecidableEq Key] in
private theorem keys_filterMap_le
    (change : Value → Option Value)
    (entries : Multiset (Sigma fun _ : Key => Value)) :
    (entries.filterMap fun entry =>
        (change entry.2).map fun value =>
          (⟨entry.1, value⟩ : Sigma fun _ : Key => Value)).keys ≤
      entries.keys := by
  induction entries using Multiset.induction_on with
  | empty => simp
  | cons head tail induction =>
      cases changed : change head.2 with
      | none =>
          rw [Multiset.filterMap_cons_none _ _ (by simp [changed]),
            Multiset.keys_cons]
          exact induction.trans (Multiset.le_cons_self _ _)
      | some value =>
          rw [Multiset.filterMap_cons_some _ _ _ (b := ⟨head.1, value⟩)
              (by simp [changed]),
            Multiset.keys_cons, Multiset.keys_cons]
          exact Multiset.cons_le_cons _ induction

/-- Rewrite every value, dropping the entries whose value is refused. -/
def filterMapValues (change : Value → Option Value)
    (map : Table Key Value) : Table Key Value where
  entries := map.entries.filterMap fun entry =>
    (change entry.2).map fun value => ⟨entry.1, value⟩
  nodupKeys := by
    have distinct := map.nodupKeys
    rw [← Multiset.nodup_keys] at distinct ⊢
    exact Multiset.nodup_of_le (keys_filterMap_le change _) distinct

theorem lookup_filterMapValues
    (change : Value → Option Value) (map : Table Key Value) (key : Key) :
    (filterMapValues change map).lookup key =
      (map.lookup key).bind change := by
  apply Option.ext
  intro value
  rw [← mem_entries_iff]
  simp only [filterMapValues, Multiset.mem_filterMap, Option.map_eq_some_iff,
    Option.bind_eq_some_iff]
  constructor
  · rintro ⟨⟨stored, old⟩, member, new, changed, equal⟩
    cases equal
    exact ⟨old, (mem_entries_iff map _ old).mp member, changed⟩
  · rintro ⟨old, found, changed⟩
    exact ⟨⟨key, old⟩, (mem_entries_iff map key old).mpr found,
      value, changed, rfl⟩

/-! ## Emptiness -/

/-- The map stores nothing. -/
def isEmpty (map : Table Key Value) : Bool :=
  map.entries.card == 0

theorem isEmpty_eq_true_iff (map : Table Key Value) :
    isEmpty map = true ↔ ∀ key, map.lookup key = none := by
  simp only [isEmpty, beq_iff_eq, Multiset.card_eq_zero]
  constructor
  · intro empty key
    rw [Option.eq_none_iff_forall_ne_some]
    intro value found
    have member := (mem_entries_iff map key value).mpr found
    simp [empty] at member
  · intro absent
    apply Multiset.eq_zero_of_forall_notMem
    rintro ⟨key, value⟩ member
    have found := (mem_entries_iff map key value).mp member
    simp [absent key] at found

/-! ## The stored values -/

/-- The stored values, with multiplicity. -/
def values (map : Table Key Value) : Multiset Value :=
  map.entries.map Sigma.snd

theorem mem_values_iff (map : Table Key Value) (value : Value) :
    value ∈ values map ↔ ∃ key, map.lookup key = some value := by
  simp only [values, Multiset.mem_map, Sigma.exists]
  constructor
  · rintro ⟨key, stored, member, rfl⟩
    exact ⟨key, (mem_entries_iff map key stored).mp member⟩
  · rintro ⟨key, found⟩
    exact ⟨key, value, (mem_entries_iff map key value).mpr found, rfl⟩

theorem values_insert_of_absent
    (map : Table Key Value) (key : Key) (value : Value)
    (absent : map.lookup key = none) :
    values (map.insert key value) = value ::ₘ values map := by
  rw [values, Finmap.entries_insert_of_notMem
    (Finmap.lookup_eq_none.mp absent), Multiset.map_cons]
  rfl

/-- Erasing a present key removes exactly its value. -/
theorem values_eq_cons_erase
    (map : Table Key Value) (key : Key) (value : Value)
    (found : map.lookup key = some value) :
    values map = value ::ₘ values (map.erase key) := by
  have restored : (map.erase key).insert key value = map := by
    apply Finmap.ext_lookup
    intro other
    rw [lookup_insert_eq, lookup_erase_eq]
    split
    · next equal => rw [equal, found]
    · rfl
  have absent : (map.erase key).lookup key = none :=
    Finmap.lookup_erase key map
  rw [← values_insert_of_absent _ _ _ absent, restored]

/-- Overwriting a present key exchanges one value for the other. -/
theorem values_insert_of_present
    (map : Table Key Value) (key : Key) (old value : Value)
    (found : map.lookup key = some old) :
    old ::ₘ values (map.insert key value) = value ::ₘ values map := by
  have absent : (map.erase key).lookup key = none :=
    Finmap.lookup_erase key map
  have overwritten :
      map.insert key value = (map.erase key).insert key value := by
    apply Finmap.ext_lookup
    intro other
    simp only [lookup_insert_eq, lookup_erase_eq]
    split <;> rfl
  rw [overwritten, values_insert_of_absent _ _ _ absent,
    values_eq_cons_erase map key old found, Multiset.cons_swap]

omit [DecidableEq Key] in
/-- Rewriting the entries rewrites the stored values. -/
theorem values_filterMapValues
    (change : Value → Option Value) (map : Table Key Value) :
    values (filterMapValues change map) =
      (values map).filterMap change := by
  simp only [values, filterMapValues, Multiset.map_filterMap,
    Multiset.filterMap_map]
  congr 1
  funext entry
  cases changed : change entry.2 <;> simp [changed]

omit [DecidableEq Key] in
/-- What is kept and what is dropped make up the stored values. -/
theorem values_retain_add
    (keep : Key → Value → Bool) (map : Table Key Value) :
    values (retain keep map) +
        values (retain (fun key value => !keep key value) map) =
      values map := by
  have split := Multiset.filter_add_not
    (fun entry : Sigma fun _ : Key => Value => keep entry.1 entry.2 = true)
    map.entries
  simp only [values, retain, ← Multiset.map_add]
  congr 1
  simpa using split

/-! ## Totals over the stored values -/

/-- The weight of the value stored under the key, zero if there is none. -/
def weightAt (weight : Value → Nat) (map : Table Key Value)
    (key : Key) : Nat :=
  ((map.lookup key).map weight).getD 0

/-- The weights of all stored values together. -/
def total (weight : Value → Nat) (map : Table Key Value) : Nat :=
  ((values map).map weight).sum

variable {weight : Value → Nat}

theorem total_eq_add_erase (map : Table Key Value) (key : Key) :
    total weight map =
      weightAt weight map key + total weight (map.erase key) := by
  cases found : map.lookup key with
  | none =>
      have unchanged : map.erase key = map := by
        apply Finmap.ext_lookup
        intro other
        rw [lookup_erase_eq]
        split
        · next equal => rw [equal, found]
        · rfl
      rw [weightAt, found, unchanged]
      exact (Nat.zero_add _).symm
  | some value =>
      rw [weightAt, found, total, values_eq_cons_erase map key value found,
        Multiset.map_cons, Multiset.sum_cons]
      rfl

theorem weightAt_erase (map : Table Key Value) (key other : Key) :
    weightAt weight (map.erase key) other =
      if other = key then 0 else weightAt weight map other := by
  rw [weightAt, lookup_erase_eq]
  split <;> rfl

/-- Erasing a key keeps one table below the other. -/
theorem weightAt_erase_le
    {left right : Table Key Value}
    (below : ∀ key, weightAt weight left key ≤ weightAt weight right key)
    (erased key : Key) :
    weightAt weight (left.erase erased) key ≤
      weightAt weight (right.erase erased) key := by
  rw [weightAt_erase, weightAt_erase]
  split
  · exact le_rfl
  · exact below key

/-- A table below another one at every key has the smaller total. -/
theorem total_le_total
    {left right : Table Key Value}
    (below : ∀ key,
      weightAt weight left key ≤ weightAt weight right key) :
    total weight left ≤ total weight right := by
  induction size : (values left).card generalizing left right with
  | zero =>
      rw [total, Multiset.card_eq_zero.mp size]
      exact Nat.zero_le _
  | succ smaller induction =>
      have nonempty : 0 < (values left).card := by omega
      rcases Multiset.card_pos_iff_exists_mem.mp nonempty with
        ⟨value, member⟩
      rcases (mem_values_iff left value).mp member with ⟨key, found⟩
      rw [values_eq_cons_erase left key value found, Multiset.card_cons,
        Nat.add_right_cancel_iff] at size
      rw [total_eq_add_erase left key, total_eq_add_erase right key]
      exact Nat.add_le_add (below key)
        (induction (weightAt_erase_le below key) size)

/-- A strictly smaller weight at one key makes the total smaller. -/
theorem total_lt_total
    {left right : Table Key Value}
    (below : ∀ key, weightAt weight left key ≤ weightAt weight right key)
    {key : Key}
    (smaller : weightAt weight left key < weightAt weight right key) :
    total weight left < total weight right := by
  rw [total_eq_add_erase left key, total_eq_add_erase right key]
  exact Nat.add_lt_add_of_lt_of_le smaller
    (total_le_total (weightAt_erase_le below key))

/-! ## Enumerations -/

/-- The list visits every key of the map exactly once. -/
def Enumerates (order : List Key) (map : Table Key Value) : Prop :=
  (order : Multiset Key) = map.keys.val

instance (order : List Key) (map : Table Key Value) :
    Decidable (Enumerates order map) :=
  inferInstanceAs (Decidable (_ = _))

omit [DecidableEq Key] in
theorem Enumerates.nodup
    {order : List Key} {map : Table Key Value}
    (enumerates : Enumerates order map) : order.Nodup := by
  have distinct := map.keys.nodup
  rw [← enumerates] at distinct
  exact distinct

omit [DecidableEq Key] in
theorem exists_enumerates (map : Table Key Value) :
    ∃ order, Enumerates order map :=
  ⟨map.keys.toList, Finset.coe_toList map.keys⟩

theorem Enumerates.mem_iff
    {order : List Key} {map : Table Key Value}
    (enumerates : Enumerates order map) (key : Key) :
    key ∈ order ↔ ∃ value, map.lookup key = some value := by
  have stored : key ∈ map ↔ ∃ value, map.lookup key = some value :=
    Finmap.mem_iff
  rw [← stored, ← Finmap.mem_keys, ← Finset.mem_val, ← enumerates,
    Multiset.mem_coe]

private theorem filterMap_eq_map_of_forall
    {Source Target : Type} (source : Multiset Source)
    (partialMap : Source → Option Target) (map : Source → Target)
    (agree : ∀ element ∈ source,
      partialMap element = some (map element)) :
    source.filterMap partialMap = source.map map := by
  induction source using Multiset.induction_on with
  | empty => rfl
  | cons head tail induction =>
      rw [Multiset.filterMap_cons_some _ _ _
          (agree head (Multiset.mem_cons_self _ _)),
        Multiset.map_cons,
        induction fun element member =>
          agree element (Multiset.mem_cons_of_mem member)]

/-- Looking up the keys in any enumeration order yields the values. -/
theorem Enumerates.values_eq
    {order : List Key} {map : Table Key Value}
    (enumerates : Enumerates order map) :
    values map =
      ((order.filterMap fun key => map.lookup key : List Value) :
        Multiset Value) := by
  have keys : (order : Multiset Key) = map.entries.map Sigma.fst :=
    enumerates
  rw [← Multiset.filterMap_coe, keys, Multiset.filterMap_map]
  apply Eq.symm
  apply filterMap_eq_map_of_forall
  rintro ⟨key, value⟩ member
  exact (mem_entries_iff map key value).mp member

/-! ## The soonest deadline -/

/-- The earlier of two optional deadlines; `none` is no deadline at all. -/
def sooner : Option Nat → Option Nat → Option Nat
  | none, right => right
  | some left, none => some left
  | some left, some right => some (min left right)

instance : Std.Commutative sooner where
  comm left right := by
    cases left <;> cases right <;> simp [sooner, Nat.min_comm]

instance : Std.Associative sooner where
  assoc first second third := by
    cases first <;> cases second <;> cases third <;>
      simp [sooner, Nat.min_assoc]

/-- The soonest deadline that any stored value has. -/
def soonest (deadline : Value → Option Nat)
    (map : Table Key Value) : Option Nat :=
  ((values map).map deadline).fold sooner none

theorem sooner_eq_some_iff (left right : Option Nat) (least : Nat) :
    sooner left right = some least ↔
      (left = some least ∨ right = some least) ∧
        (∀ bound, left = some bound → least ≤ bound) ∧
          ∀ bound, right = some bound → least ≤ bound := by
  cases left with
  | none =>
      cases right with
      | none => simp [sooner]
      | some right =>
          simp only [sooner, Option.some.injEq, reduceCtorEq,
            false_or, false_implies, implies_true, true_and]
          constructor
          · rintro rfl
            exact ⟨rfl, fun _ equal => equal ▸ le_rfl⟩
          · exact And.left
  | some left =>
      cases right with
      | none =>
          simp only [sooner, Option.some.injEq, reduceCtorEq,
            or_false, false_implies, implies_true, and_true]
          constructor
          · rintro rfl
            exact ⟨rfl, fun _ equal => equal ▸ le_rfl⟩
          · exact And.left
      | some right =>
          simp only [sooner, Option.some.injEq]
          constructor
          · rintro rfl
            refine ⟨?_, ?_, ?_⟩
            · rcases Nat.le_total left right with le | le
              · exact Or.inl (Nat.min_eq_left le).symm
              · exact Or.inr (Nat.min_eq_right le).symm
            · rintro _ rfl
              exact Nat.min_le_left _ _
            · rintro _ rfl
              exact Nat.min_le_right _ _
          · rintro ⟨attained, leftLe, rightLe⟩
            have lower := leftLe left rfl
            have upper := rightLe right rfl
            omega

theorem fold_sooner_eq_none
    {deadlines : Multiset (Option Nat)}
    (folded : deadlines.fold sooner none = none) (bound : Nat) :
    some bound ∉ deadlines := by
  induction deadlines using Multiset.induction_on with
  | empty => simp
  | cons head tail induction =>
      rw [Multiset.fold_cons_left] at folded
      cases head with
      | some head =>
          cases rest : tail.fold sooner none <;>
            simp [rest, sooner] at folded
      | none =>
          intro member
          rcases Multiset.mem_cons.mp member with impossible | inTail
          · cases impossible
          · exact induction (by simpa [sooner] using folded) inTail

/-- The fold attains its result and bounds every deadline it folds. -/
theorem fold_sooner_eq_some_iff
    (deadlines : Multiset (Option Nat)) (least : Nat) :
    deadlines.fold sooner none = some least ↔
      some least ∈ deadlines ∧
        ∀ bound, some bound ∈ deadlines → least ≤ bound := by
  induction deadlines using Multiset.induction_on generalizing least with
  | empty => simp
  | cons head tail induction =>
      rw [Multiset.fold_cons_left, sooner_eq_some_iff, induction]
      simp only [Multiset.mem_cons]
      constructor
      · rintro ⟨attained, headLe, tailLe⟩
        refine ⟨?_, ?_⟩
        · rcases attained with head | ⟨tail, _⟩
          · exact Or.inl head.symm
          · exact Or.inr tail
        · rintro bound (head | member)
          · exact headLe bound head.symm
          · cases folded : tail.fold sooner none with
            | none =>
                exact absurd member
                  (fold_sooner_eq_none folded bound)
            | some value =>
                have bounded := (induction value).mp folded
                exact (tailLe value folded).trans
                  (bounded.2 bound member)
      · rintro ⟨member, bounded⟩
        refine ⟨?_, ?_, ?_⟩
        · rcases member with head | tail
          · exact Or.inl head.symm
          · exact Or.inr
              ⟨tail, fun bound inTail => bounded bound (Or.inr inTail)⟩
        · intro bound head
          exact bounded bound (Or.inl head.symm)
        · intro bound folded
          exact bounded bound (Or.inr ((induction bound).mp folded).1)
theorem soonest_eq_some_iff
    (deadline : Value → Option Nat)
    (map : Table Key Value) (least : Nat) :
    soonest deadline map = some least ↔
      (∃ key value, map.lookup key = some value ∧
        deadline value = some least) ∧
        ∀ key value bound, map.lookup key = some value →
          deadline value = some bound → least ≤ bound := by
  simp only [soonest, fold_sooner_eq_some_iff, Multiset.mem_map,
    mem_values_iff]
  constructor
  · rintro ⟨⟨value, ⟨key, found⟩, due⟩, bounded⟩
    exact ⟨⟨key, value, found, due⟩, fun key value bound found due =>
      bounded bound ⟨value, ⟨key, found⟩, due⟩⟩
  · rintro ⟨⟨key, value, found, due⟩, bounded⟩
    exact ⟨⟨value, ⟨key, found⟩, due⟩,
      fun bound ⟨value, ⟨key, found⟩, due⟩ =>
        bounded key value bound found due⟩

/-- A stored deadline is never earlier than the soonest one. -/
theorem exists_soonest_le
    (deadline : Value → Option Nat) (map : Table Key Value)
    {key : Key} {value : Value} {bound : Nat}
    (found : map.lookup key = some value)
    (due : deadline value = some bound) :
    ∃ least, soonest deadline map = some least ∧ least ≤ bound := by
  cases folded : soonest deadline map with
  | none =>
      have impossible :=
        fold_sooner_eq_none folded bound
      exact absurd
        (Multiset.mem_map.mpr
          ⟨value, (mem_values_iff map value).mpr ⟨key, found⟩, due⟩)
        impossible
  | some least =>
      exact ⟨least, rfl,
        ((soonest_eq_some_iff deadline map least).mp folded).2
          key value bound found due⟩

end Coapable.Foundation.FiniteMap
