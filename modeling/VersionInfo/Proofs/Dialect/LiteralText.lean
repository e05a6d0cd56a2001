import Mathlib.Algebra.Group.Nat.Even
import Mathlib.Data.Bool.AllAny
import Mathlib.Data.List.Basic
import VersionInfo.Dialect.Literal
import VersionInfo.Proofs.Text.Cut

/-!
# The text of string literals

Each character of a string is written as itself or by an escape: a backslash with what follows it,
or, where quotes are doubled, a text between two quotes. Either way nothing in a literal breaks its
line, and every quote in it can be told from one that opens a literal.

* `escapedChar_cases`, `doubledChar_cases`: the two ways to write a character.
* `breaksLine_of_mem_stringLiteral`: a literal holds none of the characters that break a line.
* `literalBody_cut`: what stands in front of a quote in a literal.
-/

namespace VersionInfo

open Text (hexDigit fourHex writeNat)

/-! ## Characters -/

theorem plain_global : ∀ x ∈ Dialect.visualBasic.global.toList, breaksLine x = false ∧ x ≠ '"' :=
  List.all_iff_forall_prop.mp (by decide)

theorem hexDigit_plain (n : Nat) : breaksLine (hexDigit n) = false ∧ hexDigit n ≠ '"' := by
  have digits : ∀ d < 16, breaksLine (Nat.digitChar d) = false ∧ Nat.digitChar d ≠ '"' := by
    decide
  exact digits (n % 16) (Nat.mod_lt n (by decide))

theorem digit_plain {c : Char} (h : c.isDigit = true) : breaksLine c = false ∧ c ≠ '"' := by
  have range : 48 ≤ c.toNat ∧ c.toNat ≤ 57 := Char.isDigit_iff_toNat.mp h
  constructor
  · unfold breaksLine
    simp only [Bool.or_eq_false_iff, Bool.and_eq_false_iff, decide_eq_false_iff_not,
      beq_eq_false_iff_ne, ne_eq]
    omega
  · rintro rfl
    exact absurd h (by decide)

/-- **A character is written as itself, or behind a backslash.** -/
theorem escapedChar_cases (c : Char) :
    (escapedChar c = [c] ∧ breaksLine c = false ∧ c ≠ '"') ∨
      ∃ sequence, escapedChar c = '\\' :: sequence ∧ (∀ x ∈ sequence, breaksLine x = false) ∧
        (sequence = ['"'] ∨ '"' ∉ sequence) := by
  unfold escapedChar
  have letter : ∀ c, breaksLine c = false → ∀ x ∈ [c], breaksLine x = false :=
    fun _ h => List.forall_mem_singleton.mpr h
  split
  · exact Or.inr ⟨_, rfl, letter _ rfl, Or.inl rfl⟩
  · exact Or.inr ⟨_, rfl, letter _ rfl, Or.inr (by decide)⟩
  · exact Or.inr ⟨_, rfl, letter _ rfl, Or.inr (by decide)⟩
  · exact Or.inr ⟨_, rfl, letter _ rfl, Or.inr (by decide)⟩
  · exact Or.inr ⟨_, rfl, letter _ rfl, Or.inr (by decide)⟩
  · rename_i quote _ _ _ _
    split
    · refine Or.inr ⟨_, rfl, ?_, Or.inr ?_⟩
      · simp only [fourHex, List.forall_mem_cons, hexDigit_plain, List.not_mem_nil, false_implies,
          implies_true, and_true]
        decide
      · simp only [fourHex, List.mem_cons, List.not_mem_nil, or_false, not_or]
        exact ⟨by decide, (hexDigit_plain _).2.symm, (hexDigit_plain _).2.symm,
          (hexDigit_plain _).2.symm, (hexDigit_plain _).2.symm⟩
    · rename_i plain
      exact Or.inl ⟨rfl, eq_false_of_ne_true plain, quote⟩

/-- **A character is written as itself, or by a text between two quotes.** -/
theorem doubledChar_cases {global : String}
    (hg : ∀ x ∈ global.toList, breaksLine x = false ∧ x ≠ '"') (c : Char) :
    (doubledChar global c = [c] ∧ breaksLine c = false ∧ c ≠ '"') ∨
      ∃ inner, doubledChar global c = '"' :: (inner ++ ['"']) ∧
        (∀ x ∈ inner, breaksLine x = false ∧ x ≠ '"') ∧ (inner = [] ∨ ['&', ' '] <:+ inner) := by
  unfold doubledChar
  split
  · exact Or.inr ⟨[], rfl, List.forall_mem_nil _, Or.inl rfl⟩
  · rename_i quote
    split
    · refine Or.inr ⟨" & ".toList ++ global.toList ++ "Microsoft.VisualBasic.ChrW(".toList ++
        writeNat c.toNat ++ ") ".toList ++ ['&', ' '], ?_, ?_, Or.inr (List.suffix_append _ _)⟩
      · have opens : "\" & ".toList = '"' :: " & ".toList := rfl
        have closes : spliceClose.toList = ") ".toList ++ (['&', ' '] ++ ['"']) := rfl
        simp only [spliceOpen, String.toList_append, opens, closes, List.cons_append,
          List.append_assoc]
      · intro x hx
        simp only [List.mem_append] at hx
        rcases hx with ((((hx | hx) | hx) | hx) | hx) | hx
        · revert x; exact List.all_iff_forall_prop.mp (by decide)
        · exact hg x hx
        · revert x; exact List.all_iff_forall_prop.mp (by decide)
        · exact digit_plain (Text.isDigit_of_mem_writeNat hx)
        · revert x; exact List.all_iff_forall_prop.mp (by decide)
        · revert x; exact List.all_iff_forall_prop.mp (by decide)
    · rename_i plain
      exact Or.inl ⟨rfl, eq_false_of_ne_true plain, quote⟩

/-! ## Quotes -/

/-- A quote in an escaped character stands right behind its backslash. -/
theorem escapedChar_cut {c : Char} {front back : List Char}
    (h : escapedChar c = front ++ '"' :: back) : front = ['\\'] := by
  have nonempty : ∀ start : List Char, start ++ '"' :: back ≠ [] := fun _ =>
    List.append_ne_nil_of_right_ne_nil _ (List.cons_ne_nil _ _)
  rcases escapedChar_cases c with ⟨same, -, plain⟩ | ⟨sequence, same, -, quote⟩
  · have mem : '"' ∈ [c] := by
      rw [← same, h]
      exact List.mem_append_right _ List.mem_cons_self
    exact absurd (List.mem_singleton.mp mem).symm plain
  · cases front with
    | nil =>
      rw [same] at h
      cases h
    | cons first front =>
      obtain ⟨rfl, rest⟩ := List.cons.inj (same.symm.trans h)
      rcases quote with rfl | absent
      · cases front with
        | nil => rfl
        | cons second front => exact absurd (List.cons.inj rest).2.symm (nonempty front)
      · rw [rest] at absent
        exact absurd (List.mem_append_right _ List.mem_cons_self) absent

section Doubled

variable {global : String} (hg : ∀ x ∈ global.toList, breaksLine x = false ∧ x ≠ '"')
include hg

/-- A character takes no quote or two: a doubled one, or those around a splice. -/
theorem count_quote_doubledChar (c : Char) :
    (doubledChar global c).count '"' = 0 ∨ (doubledChar global c).count '"' = 2 := by
  rcases doubledChar_cases hg c with ⟨same, -, plain⟩ | ⟨inner, same, plain, -⟩
  · rw [same, List.count_singleton, beq_eq_false_iff_ne.mpr plain]
    exact Or.inl rfl
  · have none : inner.count '"' = 0 := List.count_eq_zero.mpr fun mem => (plain _ mem).2 rfl
    rw [same, List.count_cons_self, List.count_append, none]
    exact Or.inr rfl

/-- Quotes come in pairs. -/
theorem even_count_quote (cs : List Char) : Even ((cs.flatMap (doubledChar global)).count '"') := by
  induction cs with
  | nil => exact Even.zero
  | cons c cs ih =>
    rw [List.flatMap_cons, List.count_append]
    rcases count_quote_doubledChar hg c with none | two
    · rwa [none, Nat.zero_add]
    · rw [two]
      exact Even.add (by decide) ih

/-- A quote that an even number of quotes follows is the second of two, or opens the literal again
behind a splice. -/
theorem doubledChar_cut {c : Char} {front back : List Char}
    (h : doubledChar global c = front ++ '"' :: back) (even : Even (back.count '"')) :
    ['"'] <:+ front ∨ ['&', ' '] <:+ front := by
  have total := count_quote_doubledChar hg c
  rw [h, List.count_append, List.count_cons_self] at total
  have last : back.count '"' = 0 := by
    obtain ⟨k, hk⟩ := even
    omega
  rcases doubledChar_cases hg c with ⟨same, -, plain⟩ | ⟨inner, same, -, ends⟩
  · have mem : '"' ∈ [c] := by
      rw [← same, h]
      exact List.mem_append_right _ List.mem_cons_self
    exact absurd (List.mem_singleton.mp mem).symm plain
  · have cut : ('"' :: inner) ++ '"' :: [] = front ++ '"' :: back := same.symm.trans h
    obtain ⟨rfl, -⟩ := Text.cut_last List.not_mem_nil (List.count_eq_zero.mp last) cut
    rcases ends with rfl | ends
    · exact Or.inl List.suffix_rfl
    · exact Or.inr (ends.trans (List.suffix_cons _ _))

end Doubled

/-! ## Literals -/

namespace Dialect

/-- The characters of a literal between its quotes. -/
def literalBody (d : Dialect) (s : String) : List Char := s.toList.flatMap d.literalChar

theorem toList_stringLiteral (d : Dialect) (s : String) :
    (d.stringLiteral s).toList = '"' :: (d.literalBody s ++ ['"']) := by
  rw [stringLiteral, String.toList_ofList, List.cons_append]
  rfl

theorem breaksLine_of_mem_literalChar {l : Language} {c x : Char}
    (h : x ∈ (of l).literalChar c) : breaksLine x = false := by
  have escaped : x ∈ escapedChar c → breaksLine x = false := by
    intro h
    rcases escapedChar_cases c with ⟨same, plain, -⟩ | ⟨sequence, same, plain, -⟩
    · rw [same, List.mem_singleton] at h
      rwa [h]
    · rw [same, List.mem_cons] at h
      rcases h with rfl | h
      · decide
      · exact plain x h
  cases l with
  | cSharp => exact escaped h
  | fSharp => exact escaped h
  | visualBasic =>
    change x ∈ doubledChar visualBasic.global c at h
    rcases doubledChar_cases plain_global c with ⟨same, plain, -⟩ | ⟨inner, same, plain, -⟩
    · rw [same, List.mem_singleton] at h
      rwa [h]
    · rw [same, List.mem_cons, List.mem_append, List.mem_singleton] at h
      rcases h with rfl | h | rfl
      · decide
      · exact (plain x h).1
      · decide

/-- **A literal holds none of the characters that break a line.** -/
theorem breaksLine_of_mem_stringLiteral {l : Language} {s : String} {x : Char}
    (h : x ∈ ((of l).stringLiteral s).toList) : breaksLine x = false := by
  rw [toList_stringLiteral, List.mem_cons, List.mem_append, List.mem_singleton] at h
  rcases h with rfl | h | rfl
  · decide
  · obtain ⟨c, -, written⟩ := List.mem_flatMap.mp h
    exact breaksLine_of_mem_literalChar written
  · decide

/-- **What stands in front of a quote in a literal**, if what follows the quote could be a literal
itself. -/
theorem literalBody_cut {l : Language} {s t : String} {front : List Char}
    (h : (of l).literalBody s = front ++ '"' :: (of l).literalBody t) :
    ['\\'] <:+ front ∨ ['"'] <:+ front ∨ ['&', ' '] <:+ front := by
  obtain ⟨before, c, after, start, back, -, piece, rfl, rest⟩ := Text.cut_flatMap h
  have escaped : (of l).literalChar = escapedChar → ['\\'] <:+ start := by
    intro char
    rw [char] at piece
    obtain rfl := escapedChar_cut piece
    exact List.suffix_rfl
  cases l with
  | cSharp => exact Or.inl ((escaped rfl).trans (List.suffix_append _ _))
  | fSharp => exact Or.inl ((escaped rfl).trans (List.suffix_append _ _))
  | visualBasic =>
    have even : Even (back.count '"') := by
      have all : Even (((of .visualBasic).literalBody t).count '"') :=
        even_count_quote plain_global _
      rw [rest, List.count_append] at all
      exact (Nat.even_add.mp all).mpr (even_count_quote plain_global _)
    rcases doubledChar_cut plain_global piece even with ends | ends
    · exact Or.inr (Or.inl (ends.trans (List.suffix_append _ _)))
    · exact Or.inr (Or.inr (ends.trans (List.suffix_append _ _)))

end Dialect

end VersionInfo
