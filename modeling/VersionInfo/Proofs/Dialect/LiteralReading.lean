import VersionInfo.Proofs.Dialect.LiteralText

/-!
# Reading string literals

A string literal is read back piece by piece: each piece of its text is a character of the value or
the closing quote. With backslash escapes, the first quote without a backslash closes the literal.
With doubled quotes, a quote closes it unless another quote or a spliced character follows.

* `readPieces_flatMap`: a text made of pieces is read piece by piece.
* `readLiteral_append`: a literal is read back, whatever follows it, as long as it does not go on
  the literal.
* `stringLiteral_injective`: different strings have different literals.
* `readLiteral_stringLiteral`: literals are read back in every language and hold no control.
-/

namespace VersionInfo

open Text (readFourHex fourHex readNat writeNat)

/-! ## Pieces -/

/-- Reads what follows a backslash: one character, and the rest. -/
def escapeSequence : List Char → Option (Char × List Char)
  | 'u' :: a :: b :: c :: d :: rest => (readFourHex a b c d).map fun n => (Char.ofNat n, rest)
  | '"' :: rest => some ('"', rest)
  | '\\' :: rest => some ('\\', rest)
  | 'n' :: rest => some ('\n', rest)
  | 'r' :: rest => some ('\r', rest)
  | 't' :: rest => some ('\t', rest)
  | _ => none

/-- Reads a piece of a literal with backslash escapes: a character, or nothing for the closing
quote, and the rest. -/
def escapedPiece : List Char → Option (Option Char × List Char)
  | [] => none
  | c :: rest =>
    if c = '"' then some (none, rest)
    else if c = '\\' then (escapeSequence rest).map fun r => (some r.1, r.2)
    else some (some c, rest)

/-- Reads a spliced character by its number. -/
def splice (s : List Char) : Option (Char × List Char) := do
  let number ← s.dropPrefix? "\" & Global.Microsoft.VisualBasic.ChrW(".toList
  let n ← readNat (number.takeWhile Char.isDigit)
  let rest ← (number.dropWhile Char.isDigit).dropPrefix? ") & \"".toList
  return (Char.ofNat n, rest)

/-- Reads a piece of a literal with doubled quotes: a character, or nothing for the closing quote,
and the rest. -/
def doubledPiece : List Char → Option (Option Char × List Char)
  | [] => none
  | c :: rest =>
    if c ≠ '"' then some (some c, rest)
    else if rest.head? = some '"' then some (some '"', rest.tail)
    else
      match splice (c :: rest) with
      | some r => some (some r.1, r.2)
      | none => some (none, rest)

/-- Reads pieces up to the closing quote. -/
def readPieces (piece : List Char → Option (Option Char × List Char)) (s : List Char) :
    Option (List Char × List Char) :=
  match piece s with
  | none => none
  | some (none, rest) => some ([], rest)
  | some (some c, rest) =>
    if rest.length < s.length then (readPieces piece rest).map fun r => (c :: r.1, r.2) else none
termination_by s.length

/-- **A text made of pieces is read piece by piece.** -/
theorem readPieces_flatMap {piece : List Char → Option (Option Char × List Char)}
    {write : Char → List Char} (nonempty : ∀ c, write c ≠ [])
    (reads : ∀ c tail, piece (write c ++ tail) = some (some c, tail)) {close rest : List Char}
    (closes : piece close = some (none, rest)) (cs : List Char) :
    readPieces piece (cs.flatMap write ++ close) = some (cs, rest) := by
  induction cs with
  | nil =>
    rw [List.flatMap_nil, List.nil_append, readPieces, closes]
  | cons c cs ih =>
    have shorter : (cs.flatMap write ++ close).length <
        (write c ++ (cs.flatMap write ++ close)).length := by
      have positive := List.length_pos_iff.mpr (nonempty c)
      rw [List.length_append, List.length_append, List.length_append]
      omega
    rw [List.flatMap_cons, List.append_assoc, readPieces, reads]
    dsimp only
    rw [if_pos shorter, ih]
    rfl

/-! ## Backslash escapes -/

/-- The characters that break lines have numbers of four hexadecimal digits, so one escape is enough
for them. -/
theorem toNat_lt_of_breaksLine {c : Char} (h : breaksLine c = true) : c.toNat < 65536 := by
  unfold breaksLine at h
  simp only [Bool.or_eq_true, Bool.and_eq_true, decide_eq_true_eq, beq_iff_eq] at h
  omega

theorem escapedChar_ne_nil (c : Char) : escapedChar c ≠ [] := by
  unfold escapedChar
  split <;> try exact List.cons_ne_nil _ _
  split <;> exact List.cons_ne_nil _ _

theorem escapedPiece_escapedChar (c : Char) (tail : List Char) :
    escapedPiece (escapedChar c ++ tail) = some (some c, tail) := by
  unfold escapedChar
  split
  · rfl
  · rfl
  · rfl
  · rfl
  · rfl
  · rename_i quote backslash _ _ _
    split
    · rename_i breaks
      have read := Text.readFourHex_fourHex (toNat_lt_of_breaksLine breaks)
      simp only [escapedPiece, escapeSequence, fourHex, List.cons_append, List.nil_append, read,
        Option.map_some, Char.ofNat_toNat, ↓reduceIte, Char.reduceEq]
    · rw [List.singleton_append, escapedPiece, if_neg quote, if_neg backslash]

/-! ## Doubled quotes -/

theorem doubledChar_ne_nil (global : String) (c : Char) : doubledChar global c ≠ [] := by
  unfold doubledChar
  split
  · exact List.cons_ne_nil _ _
  · split
    · exact List.append_ne_nil_of_right_ne_nil _ (by decide)
    · exact List.cons_ne_nil _ _

theorem dropPrefix?_append (start rest : List Char) :
    (start ++ rest).dropPrefix? start = some rest :=
  List.dropPrefix?_eq_some_iff.mpr ⟨start, rfl, beq_self_eq_true start⟩

theorem toList_spliceOpen :
    (spliceOpen "Global.").toList = "\" & Global.Microsoft.VisualBasic.ChrW(".toList := by decide

/-- A character that was spliced in by its number is read back, and the literal goes on behind it.
-/
theorem splice_append (c : Char) (tail : List Char) :
    splice ((spliceOpen "Global.").toList ++
      (writeNat c.toNat ++ (spliceClose.toList ++ tail))) = some (c, tail) := by
  have close : ∀ c', (spliceClose.toList ++ tail).head? = some c' → c'.isDigit = false := by
    rintro _ ⟨⟩
    decide
  obtain ⟨digits, after⟩ := Text.span_writeNat c.toNat close
  have closed : (spliceClose.toList ++ tail).dropPrefix? ") & \"".toList = some tail :=
    dropPrefix?_append spliceClose.toList tail
  simp only [splice, toList_spliceOpen, dropPrefix?_append, Option.bind_eq_bind, Option.bind_some,
    digits, after, closed, Text.readNat_writeNat, Char.ofNat_toNat]
  rfl

theorem doubledPiece_doubledChar (c : Char) (tail : List Char) :
    doubledPiece (doubledChar "Global." c ++ tail) = some (some c, tail) := by
  unfold doubledChar
  split
  · rename_i quote
    subst quote
    rfl
  · rename_i quote
    split
    · have read := splice_append c tail
      obtain ⟨more, opens⟩ : ∃ more, (spliceOpen "Global.").toList = '"' :: ' ' :: more := ⟨_, rfl⟩
      rw [List.append_assoc, List.append_assoc]
      rw [opens, List.cons_append, List.cons_append] at read ⊢
      rw [doubledPiece, if_neg (by decide), if_neg (by simp)]
      simp only [read]
    · rw [List.singleton_append, doubledPiece, if_pos quote]

/-- What goes on a literal with doubled quotes after what would have been its closing quote. -/
def Continues (rest : List Char) : Prop := rest.head? = some '"' ∨ " & ".toList <+: rest

/-- A quote closes the literal, unless what follows continues it: a second quote or a splice. -/
theorem doubledPiece_close {rest : List Char} (h : ¬ Continues rest) :
    doubledPiece ('"' :: rest) = some (none, rest) := by
  obtain ⟨single, apart⟩ := not_or.mp h
  have noSplice : splice ('"' :: rest) = none := by
    have opens : ('"' :: rest).dropPrefix? "\" & Global.Microsoft.VisualBasic.ChrW(".toList =
        none := by
      rw [Option.eq_none_iff_forall_ne_some]
      intro after found
      obtain ⟨start, split, same⟩ := List.dropPrefix?_eq_some_iff.mp found
      rw [eq_of_beq same] at split
      exact apart ⟨_, (List.cons.inj split).2.symm⟩
    simp only [splice, opens, Option.bind_eq_bind, Option.bind_none]
  rw [doubledPiece, if_neg (by decide), if_neg single, noSplice]

/-! ## Literals -/

namespace Dialect

/-- Reads a piece of a literal of the dialect. -/
def literalPiece (d : Dialect) : List Char → Option (Option Char × List Char) :=
  match d.stringSyntax with
  | .escaped => escapedPiece
  | .doubled => doubledPiece

/-- Reads a string literal of the dialect: its value, and the rest. -/
def readLiteral (d : Dialect) : List Char → Option (String × List Char)
  | [] => none
  | c :: body =>
    if c = '"' then (readPieces d.literalPiece body).map fun r => (String.ofList r.1, r.2) else none

/-- A literal is read back if each of its characters is and its end is found. This is what the
dialects share. -/
theorem readLiteral_append_of {d : Dialect} (nonempty : ∀ c, d.literalChar c ≠ [])
    (reads : ∀ c tail, d.literalPiece (d.literalChar c ++ tail) = some (some c, tail))
    {rest : List Char} (closes : d.literalPiece ('"' :: rest) = some (none, rest)) (s : String) :
    d.readLiteral ((d.stringLiteral s).toList ++ rest) = some (s, rest) := by
  rw [toList_stringLiteral, List.cons_append, List.append_assoc, readLiteral, if_pos rfl,
    literalBody, List.singleton_append, readPieces_flatMap nonempty reads closes, Option.map_some,
    String.ofList_toList]

/-- **A literal is read back**, and the rest is left, unless that goes on a literal with doubled
quotes. -/
theorem readLiteral_append {l : Language} {rest : List Char}
    (h : (of l).stringSyntax = .doubled → ¬ Continues rest) (s : String) :
    (of l).readLiteral (((of l).stringLiteral s).toList ++ rest) = some (s, rest) := by
  cases syn : (of l).stringSyntax with
  | escaped =>
    have char : (of l).literalChar = escapedChar := by unfold literalChar; rw [syn]
    have piece : (of l).literalPiece = escapedPiece := by unfold literalPiece; rw [syn]
    refine readLiteral_append_of (fun c => ?_) (fun c tail => ?_) ?_ s
    · rw [char]; exact escapedChar_ne_nil c
    · rw [char, piece]; exact escapedPiece_escapedChar c tail
    · rw [piece]; rfl
  | doubled =>
    have global : (of l).global = "Global." := by cases l <;> first | rfl | cases syn
    have char : (of l).literalChar = doubledChar "Global." := by
      unfold literalChar
      rw [syn, global]
    have piece : (of l).literalPiece = doubledPiece := by unfold literalPiece; rw [syn]
    refine readLiteral_append_of (fun c => ?_) (fun c tail => ?_) ?_ s
    · rw [char]; exact doubledChar_ne_nil "Global." c
    · rw [char, piece]; exact doubledPiece_doubledChar c tail
    · rw [piece]; exact doubledPiece_close (h syn)

/-- Two literals in front of what does not go on a literal are told apart from what follows. -/
theorem stringLiteral_append_inj {l : Language} {s t : String} {x y : List Char}
    (hx : ¬ Continues x) (hy : ¬ Continues y)
    (h : ((of l).stringLiteral s).toList ++ x = ((of l).stringLiteral t).toList ++ y) :
    s = t ∧ x = y := by
  have read := readLiteral_append (l := l) (fun _ => hx) s
  rw [h, readLiteral_append fun _ => hy] at read
  obtain ⟨rfl, rfl⟩ := Prod.mk.inj (Option.some.inj read)
  exact ⟨rfl, rfl⟩

/-- **Different strings have different literals.** -/
theorem stringLiteral_injective (l : Language) : Function.Injective (of l).stringLiteral := by
  intro s t h
  have ends : ¬ Continues [] := by
    rintro (none | ⟨more, none⟩)
    · cases none
    · cases none
  refine (stringLiteral_append_inj (l := l) ends ends ?_).1
  rw [h]

end Dialect

/-! ## What a literal holds -/

/-- The control characters. -/
def Control (c : Char) : Prop := c.toNat < 0x20 ∨ 0x7f ≤ c.toNat ∧ c.toNat ≤ 0x9f

theorem breaksLine_eq_false_iff {c : Char} :
    breaksLine c = false ↔ ¬ Control c ∧ c ≠ '\u2028' ∧ c ≠ '\u2029' := by
  have separator : ∀ d : Char, c ≠ d ↔ c.toNat ≠ d.toNat := fun _ => Char.toNat_inj.not.symm
  have line : '\u2028'.toNat = 0x2028 := rfl
  have paragraph : '\u2029'.toNat = 0x2029 := rfl
  rw [separator, separator, line, paragraph]
  unfold breaksLine Control
  simp only [Bool.or_eq_false_iff, Bool.and_eq_false_iff, decide_eq_false_iff_not,
    beq_eq_false_iff_ne, ne_eq]
  omega

/-- **Literals are read back**, whatever the string is and whatever follows, unless that goes on a
literal with doubled quotes. A literal holds no control character and no separator of lines or
paragraphs. -/
theorem Dialect.readLiteral_stringLiteral (l : Language) (s : String) {rest : List Char}
    (apart : (of l).stringSyntax = .doubled → ¬ Continues rest) :
    (of l).readLiteral (((of l).stringLiteral s).toList ++ rest) = some (s, rest) ∧
      ∀ c ∈ ((of l).stringLiteral s).toList, ¬ Control c ∧ c ≠ '\u2028' ∧ c ≠ '\u2029' :=
  ⟨readLiteral_append apart s,
    fun _ mem => breaksLine_eq_false_iff.mp (breaksLine_of_mem_stringLiteral mem)⟩

/-- A quote, a line feed and what looks like a spliced character. -/
def splicedString : String := "\"\n\" & Global.Microsoft.VisualBasic.ChrW(65) & \""

/-- A string with a line break and a quote, in front of the end of an attribute. -/
theorem Dialect.readLiteral_stringLiteral_spliced :
    ¬ Continues ")>".toList ∧
      (of .visualBasic).readLiteral
        (((of .visualBasic).stringLiteral splicedString).toList ++ ")>".toList) =
          some (splicedString, ")>".toList) := by
  have apart : ¬ Continues ")>".toList := by
    rintro (quote | splice)
    · exact absurd quote (by decide)
    · exact absurd splice (by decide)
  exact ⟨apart, (readLiteral_stringLiteral .visualBasic splicedString fun _ => apart).1⟩

end VersionInfo
