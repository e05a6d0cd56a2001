import Mathlib.Data.Bool.AllAny
import VersionInfo.Proofs.Json.Sameness
import VersionInfo.Text.Blank

/-!
# Written values hold no spaces but in their strings

A text is read character by character, and its **place** says whether the next one stands in a
string: a quote opens and closes one, unless a backslash stands before it.

* `bare`: the characters of a text that stand in no string.
* `compact_text`: of a written value, none of them is blank.
-/

namespace VersionInfo.Json

open Text (fourHex hexDigit isBlank)

/-! ## Places -/

/-- Where a character of a text stands. -/
inductive Place where
  | outside
  | inString
  /-- In a string, right behind a backslash. -/
  | afterBackslash
deriving DecidableEq

/-- The place behind a character. -/
def Place.next : Place → Char → Place
  | outside, c => if c = '"' then inString else outside
  | inString, c => if c = '"' then outside else if c = '\\' then afterBackslash else inString
  | afterBackslash, _ => inString

/-- The characters of a text that stand in no string, if the text starts at `place`. The quotes
count to the strings. -/
def bare (place : Place) : List Char → List Char
  | [] => []
  | c :: s =>
    if place = .outside ∧ c ≠ '"' then c :: bare (place.next c) s else bare (place.next c) s

/-- No blank character stands outside the strings of the text. -/
def Compact (s : List Char) : Prop := ∀ c ∈ bare .outside s, isBlank c = false

theorem compact_nil : Compact [] := nofun

/-- Outside strings a compact text has no blank. -/
theorem compact_cons {c : Char} {s : List Char} (other : c ≠ '"') :
    Compact (c :: s) ↔ isBlank c = false ∧ Compact s := by
  have place : Place.next .outside c = .outside := if_neg other
  unfold Compact
  rw [bare, if_pos ⟨rfl, other⟩, place, List.forall_mem_cons]

theorem Compact.append {w s : List Char} (plain : ∀ c ∈ w, c ≠ '"' ∧ isBlank c = false)
    (h : Compact s) : Compact (w ++ s) := by
  induction w with
  | nil => exact h
  | cons c w ih =>
    obtain ⟨⟨other, solid⟩, others⟩ := List.forall_mem_cons.mp plain
    exact (compact_cons other).mpr ⟨solid, ih others⟩

/-! ## Strings -/

theorem bare_inString {c : Char} (quote : c ≠ '"') (backslash : c ≠ '\\') (s : List Char) :
    bare .inString (c :: s) = bare .inString s := by
  simp [bare, Place.next, quote, backslash]

/-- The character behind a backslash ends no string. -/
theorem bare_backslash (c : Char) (s : List Char) :
    bare .inString ('\\' :: c :: s) = bare .inString s := by
  simp [bare, Place.next]

theorem bare_fourHex (n : Nat) (s : List Char) :
    bare .inString (fourHex n ++ s) = bare .inString s := by
  have digits : ∀ d < 16, Nat.digitChar d ≠ '"' ∧ Nat.digitChar d ≠ '\\' := by decide
  have plain : ∀ n, hexDigit n ≠ '"' ∧ hexDigit n ≠ '\\' :=
    fun n => digits (n % 16) (Nat.mod_lt n (by decide))
  have pass : ∀ n s, bare .inString (hexDigit n :: s) = bare .inString s :=
    fun n s => bare_inString (plain n).1 (plain n).2 s
  simp only [fourHex, List.cons_append, List.nil_append, pass]

/-- A written character does not leave its string. -/
theorem bare_escaped (c : Char) (s : List Char) :
    bare .inString (escaped c ++ s) = bare .inString s := by
  unfold escaped
  split
  · exact bare_backslash _ s
  · exact bare_backslash _ s
  · exact bare_backslash _ s
  · exact bare_backslash _ s
  · exact bare_backslash _ s
  · exact bare_backslash _ s
  · exact bare_backslash _ s
  · rename_i quote backslash _ _ _ _ _
    split
    · rw [List.cons_append, List.cons_append, bare_backslash, bare_fourHex]
    · exact bare_inString quote backslash s

/-- A written string is passed as a whole: the blanks inside it do not count, and its end is found.
-/
theorem bare_stringText (s : String) (rest : List Char) :
    bare .outside (stringText s ++ rest) = bare .outside rest := by
  have inside : ∀ cs : List Char,
      bare .inString (cs.flatMap escaped ++ '"' :: rest) = bare .outside rest := by
    intro cs
    induction cs with
    | nil => simp [bare, Place.next]
    | cons c cs ih => rw [List.flatMap_cons, List.append_assoc, bare_escaped, ih]
  have opened : stringText s ++ rest = '"' :: (s.toList.flatMap escaped ++ '"' :: rest) := by
    simp [stringText]
  rw [opened, ← inside s.toList]
  simp [bare, Place.next]

theorem Compact.stringText {rest : List Char} (h : Compact rest) (s : String) :
    Compact (Json.stringText s ++ rest) := by
  unfold Compact
  rwa [bare_stringText]

/-! ## Values -/

theorem Compact.writeInt {rest : List Char} (h : Compact rest) (n : Int) :
    Compact (Text.writeInt n ++ rest) := by
  refine h.append fun c mem => ?_
  rcases Text.eq_or_isDigit_of_mem_writeInt mem with rfl | digit
  · decide
  · refine ⟨?_, Text.isBlank_of_isDigit digit⟩
    rintro rfl
    exact absurd digit (by decide)

/-- The parts of a value may stand in front of any compact text. -/
def CompactParts (vs : List Value) : Prop :=
  ∀ v ∈ vs, ∀ rest, Compact rest → Compact (v.text ++ rest)

/-- Elements behind commas are compact if each of them is. -/
theorem compact_moreElements {vs : List Value} (parts : CompactParts vs) {rest : List Char}
    (h : Compact rest) : Compact (Value.moreElements vs ++ rest) := by
  induction vs with
  | nil => exact (compact_cons (by decide)).mpr ⟨by decide, h⟩
  | cons v vs ih =>
    obtain ⟨first, others⟩ := List.forall_mem_cons.mp parts
    rw [Value.moreElements, List.cons_append, List.cons_append, List.append_assoc]
    exact (compact_cons (by decide)).mpr ⟨by decide, first _ (ih others)⟩

/-- The colon and the value behind a key. -/
theorem Compact.member {v : Value} {rest : List Char} (k : String)
    (h : Compact (v.text ++ rest)) :
    Compact (Json.stringText k ++ ':' :: (v.text ++ rest)) :=
  Compact.stringText ((compact_cons (by decide)).mpr ⟨by decide, h⟩) k

theorem compact_moreMembers {ms : List (String × Value)} (parts : CompactParts (ms.map Prod.snd))
    {rest : List Char} (h : Compact rest) : Compact (Value.moreMembers ms ++ rest) := by
  induction ms with
  | nil => exact (compact_cons (by decide)).mpr ⟨by decide, h⟩
  | cons m ms ih =>
    obtain ⟨first, others⟩ := List.forall_mem_cons.mp parts
    have member := (first _ (ih others)).member m.1
    simp only [Value.moreMembers, List.cons_append, List.append_assoc]
    exact (compact_cons (by decide)).mpr ⟨by decide, member⟩

/-- **A written value holds no blank characters outside its strings.** -/
theorem compact_text {v : Value} (noFloat : v.NoFloat) {rest : List Char} (h : Compact rest) :
    Compact (v.text ++ rest) := by
  induction noFloat generalizing rest with
  | @intro v here _ ih =>
    have parts : CompactParts v.parts := fun u mem rest h => ih u mem h
    have word : ∀ {w : List Char}, (w.all fun c => decide (c ≠ '"' ∧ isBlank c = false)) = true →
        Compact (w ++ rest) := fun plain => h.append (List.all_iff_forall_prop.mp plain)
    cases v with
    | null => exact word (w := "null".toList) (by decide)
    | boolean b =>
      cases b with
      | false => exact word (w := "false".toList) (by decide)
      | true => exact word (w := "true".toList) (by decide)
    | integer n => exact h.writeInt n
    | float x => exact absurd rfl (here x)
    | string s => exact h.stringText s
    | array vs =>
      cases vs with
      | nil => exact word (w := ['[', ']']) (by decide)
      | cons v vs =>
        obtain ⟨first, others⟩ := List.forall_mem_cons.mp parts
        rw [Value.text, List.cons_append, List.cons_append, List.append_assoc]
        exact (compact_cons (by decide)).mpr ⟨by decide, first _ (compact_moreElements others h)⟩
    | object ms =>
      cases ms with
      | nil => exact word (w := ['\x7b', '\x7d']) (by decide)
      | cons m ms =>
        obtain ⟨first, others⟩ := List.forall_mem_cons.mp parts
        have member := (first _ (compact_moreMembers others h)).member m.1
        simp only [Value.text, List.cons_append, List.append_assoc]
        exact (compact_cons (by decide)).mpr ⟨by decide, member⟩

end VersionInfo.Json
