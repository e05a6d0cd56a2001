/-!
# Cutting a text at a mark

A text that is put together around a mark can be cut there again if it is known which of the marks
in it is meant: the first one, the last one, or one that the parts tell apart.

* `cut_cases`: two ways to cut one text at a mark are the same, or one of them is further left.
* `cut_first`, `cut_last`: what is in front of the first mark and behind the last one is fixed.
* `cut_append`: a cut through two texts goes through one of them.
* `cut_flatMap`: a cut through a text made of pieces goes through one of the pieces.
-/

namespace VersionInfo.Text

variable {α : Type} {mark : α} {x y z w : List α}

theorem cut_cases (h : x ++ mark :: z = y ++ mark :: w) :
    (x = y ∧ z = w) ∨ (∃ t, y = x ++ mark :: t ∧ z = t ++ mark :: w) ∨
      ∃ t, x = y ++ mark :: t ∧ w = t ++ mark :: z := by
  rcases List.append_eq_append_iff.mp h with ⟨t, rfl, ht⟩ | ⟨t, rfl, ht⟩
  · cases t with
    | nil => exact Or.inl ⟨(List.append_nil x).symm, (List.cons.inj ht).2⟩
    | cons c t =>
      obtain ⟨rfl, rfl⟩ := List.cons.inj ht
      exact Or.inr (Or.inl ⟨t, rfl, rfl⟩)
  · cases t with
    | nil => exact Or.inl ⟨List.append_nil y, (List.cons.inj ht).2.symm⟩
    | cons c t =>
      obtain ⟨rfl, rfl⟩ := List.cons.inj ht
      exact Or.inr (Or.inr ⟨t, rfl, rfl⟩)

/-- The first mark is found again. -/
theorem cut_first (hx : mark ∉ x) (hy : mark ∉ y) (h : x ++ mark :: z = y ++ mark :: w) :
    x = y ∧ z = w := by
  rcases cut_cases h with same | ⟨t, rfl, -⟩ | ⟨t, rfl, -⟩
  · exact same
  · exact absurd (List.mem_append_right _ List.mem_cons_self) hy
  · exact absurd (List.mem_append_right _ List.mem_cons_self) hx

/-- The last mark is found again. -/
theorem cut_last (hz : mark ∉ z) (hw : mark ∉ w) (h : x ++ mark :: z = y ++ mark :: w) :
    x = y ∧ z = w := by
  rcases cut_cases h with same | ⟨t, -, rfl⟩ | ⟨t, -, rfl⟩
  · exact same
  · exact absurd (List.mem_append_right _ List.mem_cons_self) hz
  · exact absurd (List.mem_append_right _ List.mem_cons_self) hw

/-- A text has one ending of each length. -/
theorem suffix_unique {text : List α} (hx : x <:+ text) (hy : y <:+ text)
    (length : x.length = y.length) : x = y :=
  (List.suffix_of_suffix_length_le hx hy (Nat.le_of_eq length)).eq_of_length length

/-- A mark in two texts stands in one of them. -/
theorem cut_append (h : x ++ y = z ++ mark :: w) :
    (∃ t, x = z ++ mark :: t ∧ w = t ++ y) ∨ ∃ t, z = x ++ t ∧ y = t ++ mark :: w := by
  rcases List.append_eq_append_iff.mp h with ⟨t, rfl, ht⟩ | ⟨t, rfl, ht⟩
  · exact Or.inr ⟨t, rfl, ht⟩
  · cases t with
    | nil => exact Or.inr ⟨[], (List.append_nil _).symm.trans (List.append_nil _).symm, ht.symm⟩
    | cons c t =>
      obtain ⟨rfl, rfl⟩ := List.cons.inj ht
      exact Or.inl ⟨t, rfl, rfl⟩

/-- A mark in a text that is written piece by piece stands in one of the pieces. -/
theorem cut_flatMap {β : Type} {write : β → List α} {cs : List β}
    (h : cs.flatMap write = x ++ mark :: y) :
    ∃ (before : List β) (c : β) (after : List β) (front back : List α),
      cs = before ++ c :: after ∧ write c = front ++ mark :: back ∧
        x = before.flatMap write ++ front ∧ y = back ++ after.flatMap write := by
  induction cs generalizing x with
  | nil => exact absurd h.symm (List.append_ne_nil_of_right_ne_nil _ (List.cons_ne_nil _ _))
  | cons c cs ih =>
    rw [List.flatMap_cons] at h
    rcases cut_append h with ⟨t, piece, rfl⟩ | ⟨t, rfl, ht⟩
    · exact ⟨[], c, cs, x, t, rfl, piece, rfl, rfl⟩
    · obtain ⟨before, d, after, front, back, rfl, piece, rfl, rfl⟩ := ih ht
      exact ⟨c :: before, d, after, front, back, rfl, piece,
        by rw [List.flatMap_cons, List.append_assoc], rfl⟩

end VersionInfo.Text
