import Mathlib.Data.List.TakeWhile
import VersionInfo.Text.Blank

/-!
# Text without the blanks around it

A text is cut into blanks, what is left of it and blanks again. What is left neither starts nor ends
with a blank, and that makes the cut the only one of its kind.

* `strip_eq_iff`: `strip` finds what is left.
-/

namespace VersionInfo.Text

/-- Neither end is blank. -/
structure Trimmed (cs : List Char) : Prop where
  first : ∀ c, cs.head? = some c → isBlank c = false
  last : ∀ c, cs.getLast? = some c → isBlank c = false

/-- `core` is left of `cs` without the blanks in front of it and behind it. -/
def StripsTo (cs core : List Char) : Prop :=
  Trimmed core ∧ ∃ front back, cs = front ++ core ++ back ∧
    (∀ c ∈ front, isBlank c = true) ∧ ∀ c ∈ back, isBlank c = true

theorem head?_dropWhile_isBlank {cs : List Char} {c : Char}
    (h : (cs.dropWhile isBlank).head? = some c) : isBlank c = false := by
  have found := List.head?_dropWhile_not isBlank cs
  rwa [h] at found

theorem dropWhile_isBlank_of_head {cs : List Char}
    (h : ∀ c, cs.head? = some c → isBlank c = false) :
    cs.dropWhile isBlank = cs := by
  cases cs with
  | nil => rfl
  | cons c rest => rw [List.dropWhile_cons, h c rfl, if_neg Bool.false_ne_true]

/-- Exactly the blanks in front are dropped, if what follows does not start with one. -/
theorem dropWhile_isBlank_append {front rest : List Char} (blank : ∀ c ∈ front, isBlank c = true)
    (h : ∀ c, rest.head? = some c → isBlank c = false) :
    (front ++ rest).dropWhile isBlank = rest := by
  rw [List.dropWhile_append_of_pos blank, dropWhile_isBlank_of_head h]

theorem strip_of_blank {cs : List Char} (h : ∀ c ∈ cs, isBlank c = true) : strip cs = [] := by
  rw [strip, List.dropWhile_eq_nil_iff.mpr h]
  rfl

/-- The core that a text strips to is its trimmed text. -/
theorem strip_of_stripsTo {cs core : List Char} (h : StripsTo cs core) : strip cs = core := by
  obtain ⟨trimmed, front, back, rfl, hfront, hback⟩ := h
  by_cases empty : core = []
  · subst empty
    refine strip_of_blank fun c mem => ?_
    rw [List.append_nil, List.mem_append] at mem
    exact mem.elim (hfront c) (hback c)
  · have starts : ∀ c, (core ++ back).head? = some c → isBlank c = false := by
      intro c hc
      rw [List.head?_append, List.head?_eq_some_head empty, Option.some_or] at hc
      exact trimmed.first c ((List.head?_eq_some_head empty).trans hc)
    have ends : ∀ c, core.reverse.head? = some c → isBlank c = false := by
      rw [List.head?_reverse]
      exact trimmed.last
    have blank : ∀ c ∈ back.reverse, isBlank c = true :=
      fun c mem => hback c (List.mem_reverse.mp mem)
    rw [strip, List.append_assoc, dropWhile_isBlank_append hfront starts, List.reverse_append,
      dropWhile_isBlank_append blank ends, List.reverse_reverse]

/-- Every text strips to its trimmed text, so `StripsTo` says what trimming does. -/
theorem stripsTo_strip (cs : List Char) : StripsTo cs (strip cs) := by
  -- what is in front of the first character that is no blank, and behind the last one
  let front := cs.takeWhile isBlank
  let rest := cs.dropWhile isBlank
  let back := (rest.reverse.takeWhile isBlank).reverse
  have parts : rest = strip cs ++ back := by
    have whole : rest.reverse.takeWhile isBlank ++ rest.reverse.dropWhile isBlank = rest.reverse :=
      List.takeWhile_append_dropWhile
    have turned := congrArg List.reverse whole
    rw [List.reverse_append, List.reverse_reverse] at turned
    exact turned.symm
  refine ⟨⟨fun c hc => ?_, fun c hc => ?_⟩, front, back, ?_, fun c mem => ?_, fun c mem => ?_⟩
  · have inRest : rest.head? = some c := by rw [parts, List.head?_append, hc, Option.some_or]
    exact head?_dropWhile_isBlank inRest
  · rw [strip, List.getLast?_reverse] at hc
    exact head?_dropWhile_isBlank hc
  · rw [List.append_assoc, ← parts]
    exact List.takeWhile_append_dropWhile.symm
  · exact List.mem_takeWhile_imp mem
  · exact List.mem_takeWhile_imp (List.mem_reverse.mp mem)

/-- **`strip` finds what is left** without the blanks around it. -/
theorem strip_eq_iff {cs core : List Char} : strip cs = core ↔ StripsTo cs core :=
  ⟨fun h => h ▸ stripsTo_strip cs, strip_of_stripsTo⟩

end VersionInfo.Text
