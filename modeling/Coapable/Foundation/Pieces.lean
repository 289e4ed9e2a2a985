import Mathlib.Data.List.Basic

/-!
# The non-empty pieces between separators

Splitting a list at a separator and dropping the empty pieces undoes joining
with that separator on lists of non-empty parts without it, and yields only
such parts.
-/

namespace Coapable.Foundation.Pieces

variable {Symbol : Type} [DecidableEq Symbol] {separator : Symbol}

/-- The pieces between separators, empty pieces dropped. -/
def pieces (separator : Symbol) (text : List Symbol) : List (List Symbol) :=
  (text.splitOn separator).filter fun piece => !piece.isEmpty

theorem pieces_append_cons (first rest : List Symbol) :
    pieces separator (first ++ separator :: rest) =
      pieces separator first ++ pieces separator rest := by
  rw [pieces, List.splitOn_append_cons_self, List.filter_append]
  rfl

@[simp]
theorem pieces_cons_self (rest : List Symbol) :
    pieces separator (separator :: rest) = pieces separator rest :=
  pieces_append_cons [] rest

theorem separator_not_mem_of_mem_splitOn
    {text piece : List Symbol} (member : piece ∈ text.splitOn separator) :
    separator ∉ piece := by
  induction text generalizing piece with
  | nil =>
      rw [List.splitOn_nil, List.mem_singleton] at member
      simp [member]
  | cons symbol rest induction =>
      rw [List.splitOn_cons_eq_if_modifyHead] at member
      split at member
      · rcases List.mem_cons.mp member with rfl | later
        · exact List.not_mem_nil
        · exact induction later
      · next different =>
          -- The symbol joins the first piece of the rest.
          rcases List.exists_cons_of_ne_nil
              (List.splitOn_ne_nil separator rest) with
            ⟨head, tail, isSplit⟩
          rw [isSplit] at member induction
          rcases List.mem_cons.mp member with rfl | later
          · rw [List.mem_cons, not_or]
            refine ⟨fun same => different ?_,
              induction List.mem_cons_self⟩
            rw [same]
            exact beq_self_eq_true _
          · exact induction (List.mem_cons_of_mem _ later)

theorem ne_nil_and_not_mem_of_mem_pieces
    {text piece : List Symbol} (member : piece ∈ pieces separator text) :
    piece ≠ [] ∧ separator ∉ piece := by
  rcases List.mem_filter.mp member with ⟨isPiece, nonempty⟩
  exact ⟨by simpa using nonempty, separator_not_mem_of_mem_splitOn isPiece⟩

theorem pieces_of_not_mem
    {text : List Symbol} (nonempty : text ≠ [])
    (absent : separator ∉ text) :
    pieces separator text = [text] := by
  rw [pieces, List.splitOn_eq_singleton absent]
  simp [nonempty]

/-- Joining concatenates the pieces. -/
theorem pieces_intercalate (parts : List (List Symbol)) :
    pieces separator ([separator].intercalate parts) =
      parts.flatMap (pieces separator) := by
  induction parts with
  | nil => rfl
  | cons part rest induction =>
      cases rest with
      | nil => simp
      | cons next others =>
          rw [List.intercalate_cons_cons, List.append_assoc,
            List.singleton_append, pieces_append_cons, induction]
          rfl

/-- Non-empty parts without the separator survive joining and splitting. -/
theorem flatMap_pieces_eq_self
    {parts : List (List Symbol)}
    (whole : ∀ part ∈ parts, part ≠ [] ∧ separator ∉ part) :
    parts.flatMap (pieces separator) = parts := by
  induction parts with
  | nil => rfl
  | cons part rest induction =>
      rcases whole part List.mem_cons_self with ⟨nonempty, absent⟩
      rw [List.flatMap_cons, pieces_of_not_mem nonempty absent,
        induction fun later member =>
          whole later (List.mem_cons_of_mem _ member)]
      rfl

end Coapable.Foundation.Pieces
