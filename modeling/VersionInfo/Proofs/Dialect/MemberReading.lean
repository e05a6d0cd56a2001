import VersionInfo.Dialect.Line
import VersionInfo.Proofs.Dialect.LiteralReading

/-!
# Reading member lines

A member line gives its name as it is, in front of an equals sign and a literal. The name may look
like any part of the line, so it could end at more than one place; but only at one of them the rest
is a literal. The last character of a literal tells its type. A quote in a string literal follows a
backslash, a quote or an ampersand with a blank, and never an equals sign with a blank.

* `append_literal_inj`: a literal is told from what stands in front of it.
* `memberLine_inj`: a member line has one name and one value.
-/

namespace VersionInfo

open Text (writeInt)

namespace Dialect

variable {l : Language} {x y : List Char}

/-! ## The literal at the end of a line -/

/-- The last character of a literal. -/
def closing : FieldType → Char
  | .string => '"'
  | .boolean => 'e'
  | .ticks => ')'

theorem closing_injective : Function.Injective closing := by
  intro s t
  cases s <;> cases t <;> decide

theorem closing_suffix (l : Language) (value : FieldValue) :
    [closing value.type] <:+ ((of l).literal value).toList := by
  cases value with
  | string s =>
    refine ⟨'"' :: (of l).literalBody s, ?_⟩
    rw [literal, toList_stringLiteral]
    rfl
  | boolean b => cases l <;> cases b <;> decide
  | ticks t =>
    rw [literal, dateTimeLiteral, String.toList_append]
    exact List.IsSuffix.trans (show [')'] <:+ "System.DateTimeKind.Utc)".toList by decide)
      (List.suffix_append _ _)

/-- No other literal opens within a string literal. -/
theorem not_equals_in_literal {s t : String} {front : List Char}
    (h : (of l).literalBody s = front ++ '"' :: (of l).literalBody t) :
    ¬ ['=', ' '] <:+ x ++ '"' :: front := by
  intro equals
  have whole : front <:+ x ++ '"' :: front := (List.suffix_cons _ _).trans (List.suffix_append _ _)
  have blank : [' '] <:+ x ++ '"' :: front := List.IsSuffix.trans (by decide) equals
  rcases literalBody_cut h with ends | ends | ends
  · exact absurd (Text.suffix_unique (ends.trans whole) blank rfl) (by decide)
  · exact absurd (Text.suffix_unique (ends.trans whole) blank rfl) (by decide)
  · exact absurd (Text.suffix_unique (ends.trans whole) equals rfl) (by decide)

/-- A string literal is told from what stands in front of it, if that ends with an equals sign. -/
theorem append_stringLiteral_inj (hx : ['=', ' '] <:+ x) (hy : ['=', ' '] <:+ y) {s t : String}
    (h : x ++ ((of l).stringLiteral s).toList = y ++ ((of l).stringLiteral t).toList) :
    x = y ∧ s = t := by
  have bodies : x ++ '"' :: (of l).literalBody s = y ++ '"' :: (of l).literalBody t := by
    rw [toList_stringLiteral, toList_stringLiteral, ← List.cons_append, ← List.cons_append,
      ← List.append_assoc, ← List.append_assoc] at h
    exact List.append_cancel_right h
  rcases Text.cut_cases bodies with ⟨rfl, -⟩ | ⟨front, rfl, cut⟩ | ⟨front, rfl, cut⟩
  · refine ⟨rfl, stringLiteral_injective l ?_⟩
    exact String.toList_inj.mp (List.append_cancel_left h)
  · exact absurd hy (not_equals_in_literal cut)
  · exact absurd hx (not_equals_in_literal cut)

/-- A truth value is told from what stands in front of it. -/
theorem append_booleanLiteral_inj {a b : Bool}
    (h : x ++ ((of l).booleanLiteral a).toList = y ++ ((of l).booleanLiteral b).toList) :
    x = y ∧ a = b := by
  -- The last two characters, of which the first tells the truth.
  have ends : ∀ c, [if c then 'u' else 's', 'e'] <:+ ((of l).booleanLiteral c).toList := by
    intro c
    cases l <;> cases c <;> decide
  have first := (ends a).trans (List.suffix_append x _)
  rw [h] at first
  have same := Text.suffix_unique first ((ends b).trans (List.suffix_append y _)) rfl
  obtain rfl : a = b := by
    clear h ends first
    revert a b
    decide
  exact ⟨List.append_cancel_right h, rfl⟩

/-- A date is told from what stands in front of it. -/
theorem append_dateTimeLiteral_inj {t u : Ticks}
    (h : x ++ ((of l).dateTimeLiteral t).toList = y ++ ((of l).dateTimeLiteral u).toList) :
    x = y ∧ t = u := by
  have split : ∀ ticks, ((of l).dateTimeLiteral ticks).toList = (of l).newDateTime.toList ++
      '(' :: (writeInt ticks.toInt ++
        ("L, " ++ (of l).global ++ "System.DateTimeKind.Utc)").toList) := by
    intro ticks
    simp only [dateTimeLiteral, String.toList_append, String.toList_ofList, List.append_assoc]
    rfl
  have noParenthesis : ∀ n, '(' ∉ writeInt n ++
      ("L, " ++ (of l).global ++ "System.DateTimeKind.Utc)").toList := by
    intro n h
    rcases List.mem_append.mp h with h | h
    · exact absurd (Text.eq_or_isDigit_of_mem_writeInt h) (by decide)
    · revert h
      cases l <;> decide
  rw [split, split, ← List.append_assoc, ← List.append_assoc] at h
  obtain ⟨front, digits⟩ := Text.cut_last (noParenthesis _) (noParenthesis _) h
  have ticks : t.toInt = u.toInt := by
    have read := Text.readInt_writeInt t.toInt
    rw [List.append_cancel_right digits, Text.readInt_writeInt] at read
    exact (Option.some.inj read).symm
  exact ⟨List.append_cancel_right front, Int64.toInt_inj.mp ticks⟩

/-- The end of a literal tells its type. -/
theorem type_of_append_literal {v w : FieldValue}
    (h : x ++ ((of l).literal v).toList = y ++ ((of l).literal w).toList) : v.type = w.type := by
  have first := (closing_suffix l v).trans (List.suffix_append x _)
  rw [h] at first
  have same := Text.suffix_unique first ((closing_suffix l w).trans (List.suffix_append y _)) rfl
  exact closing_injective (List.cons.inj same).1

/-- **A literal is told from what stands in front of it**, if that ends with an equals sign. -/
theorem append_literal_inj (hx : ['=', ' '] <:+ x) (hy : ['=', ' '] <:+ y) {v w : FieldValue}
    (h : x ++ ((of l).literal v).toList = y ++ ((of l).literal w).toList) : x = y ∧ v = w := by
  have types := type_of_append_literal h
  cases v with
  | string s =>
    cases w with
    | string t =>
      obtain ⟨front, rfl⟩ := append_stringLiteral_inj hx hy h
      exact ⟨front, rfl⟩
    | boolean _ => cases types
    | ticks _ => cases types
  | boolean a =>
    cases w with
    | string _ => cases types
    | boolean b =>
      obtain ⟨front, rfl⟩ := append_booleanLiteral_inj h
      exact ⟨front, rfl⟩
    | ticks _ => cases types
  | ticks t =>
    cases w with
    | string _ => cases types
    | boolean _ => cases types
    | ticks u =>
      obtain ⟨front, rfl⟩ := append_dateTimeLiteral_inj h
      exact ⟨front, rfl⟩

/-! ## The line -/

/-- What a member line has in front of the name. -/
def memberLead (d : Dialect) (type : FieldType) (kind : ValueKind) : List Char :=
  d.member.indent.toList ++ (d.modifiers kind).toList ++
    match d.member.typePlacement with
    | .beforeName => (d.typeName type).toList ++ [' ']
    | .asClause | .omitted => []

/-- What a member line has between the name and the literal. -/
def memberLink (d : Dialect) (type : FieldType) : List Char :=
  (match d.member.typePlacement with
    | .asClause => " As ".toList ++ (d.typeName type).toList
    | .beforeName | .omitted => []) ++ [' ', '=', ' ']

theorem toList_memberLine (d : Dialect) (name : String) (value : FieldValue) :
    (d.memberLine name value).toList = d.memberLead value.type value.kind ++ name.toList ++
      d.memberLink value.type ++ (d.literal value).toList ++ d.member.terminator.toList := by
  have equals : " = ".toList = [' ', '=', ' '] := rfl
  have blank : " ".toList = [' '] := rfl
  unfold memberLine declare declaration memberLead memberLink
  cases d.member.typePlacement <;>
    simp only [String.toList_append, equals, blank, List.append_assoc, List.nil_append]

theorem equals_suffix_link (d : Dialect) (name : List Char) (type : FieldType) :
    ['=', ' '] <:+ name ++ d.memberLink type :=
  List.IsSuffix.trans (List.IsSuffix.trans (by decide) (List.suffix_append _ _))
    (List.suffix_append _ _)

/-- **A member line has one name and one value.** -/
theorem memberLine_inj {m n : String} {v w : FieldValue}
    (h : (of l).memberLine m v = (of l).memberLine n w) : m = n ∧ v = w := by
  have chars := congrArg String.toList h
  rw [toList_memberLine, toList_memberLine] at chars
  obtain ⟨front, rfl⟩ := append_literal_inj (equals_suffix_link _ _ _) (equals_suffix_link _ _ _)
    (List.append_cancel_right chars)
  exact ⟨String.toList_inj.mp (List.append_cancel_left (List.append_cancel_right front)), rfl⟩

end Dialect

end VersionInfo
