import VersionInfo.Proofs.Text.Cut
import VersionInfo.Source

/-!
# Lines of a text

A text is written line by line, each line ended by a line feed. Where no line holds a line feed of
its own, the lines can be read back off the text.

* `lineText_injective`: different lists of such lines make different texts.
* `linesOf_lineText`: the lines of a text are those it was written from.
-/

namespace VersionInfo

/-- A text without a line feed. -/
def OneLine (s : String) : Prop := '\n' ∉ s.toList

instance (s : String) : Decidable (OneLine s) := inferInstanceAs (Decidable (¬ _))

theorem oneLine_append {a b : String} : OneLine (a ++ b) ↔ OneLine a ∧ OneLine b := by
  unfold OneLine
  rw [String.toList_append, List.mem_append, not_or]

theorem toList_lineText_cons (line : String) (lines : List String) :
    (lineText (line :: lines)).toList = line.toList ++ '\n' :: (lineText lines).toList := by
  unfold lineText
  rw [String.toList_ofList, String.toList_ofList, List.flatMap_cons, List.append_assoc,
    List.singleton_append]

theorem lineText_cons_ne (line : String) (lines : List String) : lineText (line :: lines) ≠ "" := by
  intro h
  have chars := congrArg String.toList h
  rw [toList_lineText_cons] at chars
  exact List.append_ne_nil_of_right_ne_nil _ (List.cons_ne_nil _ _) chars

/-- **Lines are read back off their text.** -/
theorem lineText_injective {xs ys : List String} (hx : ∀ x ∈ xs, OneLine x)
    (hy : ∀ y ∈ ys, OneLine y) (h : lineText xs = lineText ys) : xs = ys := by
  induction xs generalizing ys with
  | nil =>
    cases ys with
    | nil => rfl
    | cons y ys => exact absurd h.symm (lineText_cons_ne y ys)
  | cons x xs ih =>
    cases ys with
    | nil => exact absurd h (lineText_cons_ne x xs)
    | cons y ys =>
      obtain ⟨firstX, restX⟩ := List.forall_mem_cons.mp hx
      obtain ⟨firstY, restY⟩ := List.forall_mem_cons.mp hy
      have chars := congrArg String.toList h
      rw [toList_lineText_cons, toList_lineText_cons] at chars
      obtain ⟨same, rest⟩ := Text.cut_first firstX firstY chars
      rw [String.toList_inj.mp same, ih restX restY (String.toList_inj.mp rest)]

/-- The lines of a text. The last one need not be ended. -/
def linesOf (text : String) : List String :=
  let pieces := (text.toList.splitOn '\n').map String.ofList
  if pieces.getLast? = some "" then pieces.dropLast else pieces

theorem splitOn_lineText {lines : List String} (h : ∀ line ∈ lines, OneLine line) :
    (lineText lines).toList.splitOn '\n' = lines.map String.toList ++ [[]] := by
  induction lines with
  | nil => rfl
  | cons line lines ih =>
    obtain ⟨first, rest⟩ := List.forall_mem_cons.mp h
    have apart : ∀ c ∈ line.toList, (c == '\n') = false := fun c mem =>
      beq_eq_false_iff_ne.mpr fun same => first (same ▸ mem)
    rw [toList_lineText_cons, List.splitOn,
      List.splitOnP_append_cons_of_forall_mem apart _ (beq_self_eq_true _)]
    exact congrArg (line.toList :: ·) (ih rest)

/-- **The lines of a text** are those it was written from. -/
theorem linesOf_lineText {lines : List String} (h : ∀ line ∈ lines, OneLine line) :
    linesOf (lineText lines) = lines := by
  have chars : (lines.map String.toList).map String.ofList = lines := by
    rw [List.map_map]
    exact (List.map_congr_left fun line _ => String.ofList_toList).trans (List.map_id lines)
  unfold linesOf
  rw [splitOn_lineText h, List.map_append, chars]
  simp only [List.map_singleton, String.ofList_nil, List.getLast?_concat, List.dropLast_concat,
    if_true]

end VersionInfo
