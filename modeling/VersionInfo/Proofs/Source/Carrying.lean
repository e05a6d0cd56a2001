import VersionInfo.Proofs.Dialect.Unbroken
import VersionInfo.Proofs.Members.Emitted
import VersionInfo.Proofs.Source.Parts

/-!
# What breaks the lines of a text

Only two kinds of names are written as they are, that of a namespace and those of a record's own
fields. Every line holds at most one of them, and what stands around it is unbroken. So a text has
as many line feeds as lines, but for those within such names, and everything else in it that breaks
a line lies within one of them.

* `Carrying.count`: the line feeds of a text.
* `Carrying.standsIn`: where a text is broken.
* `Dialect.carrying_sourceLines`: the names that the lines of a text hold.
* `sourceText_lineFeeds`: what breaks the text of a record.
-/

namespace VersionInfo

open Dialect (of)

/-! ## Lines and the names they hold -/

/-- The line holds a name as it is, and nothing around it that breaks a line. -/
def UnbrokenAround (name line : String) : Prop :=
  ∃ front back, Unbroken front ∧ Unbroken back ∧ line = front ++ name ++ back

/-- The lines hold some names as they are, one after another, and otherwise nothing that breaks a
line. -/
inductive Carrying : List String → List String → Prop
  | nil : Carrying [] []
  | unbroken {line : String} {lines names : List String} (h : Unbroken line)
      (rest : Carrying lines names) : Carrying (line :: lines) names
  | around {line name : String} {lines names : List String} (h : UnbrokenAround name line)
      (rest : Carrying lines names) : Carrying (line :: lines) (name :: names)

/-- A character among others stands in a name. -/
def StandsIn (name : String) (before : List Char) (c : Char) (after : List Char) : Prop :=
  ∃ front back, name.toList = front ++ c :: back ∧ front <:+ before ∧ back <+: after

theorem Unbroken.count {s : String} (h : Unbroken s) : s.toList.count '\n' = 0 :=
  List.count_eq_zero.mpr h.oneLine

theorem unbrokenAround_self (name : String) : UnbrokenAround name name :=
  ⟨"", "", by decide, by decide, by rw [String.empty_append, String.append_empty]⟩

/-- An unbroken text behind the name changes nothing. -/
theorem UnbrokenAround.append {name line : String} (h : UnbrokenAround name line) {more : String}
    (plain : Unbroken more) : UnbrokenAround name (line ++ more) := by
  obtain ⟨front, back, hfront, hback, rfl⟩ := h
  exact ⟨front, back ++ more, hfront, unbroken_append.mpr ⟨hback, plain⟩, String.append_assoc⟩

theorem UnbrokenAround.prepend {name line : String} (h : UnbrokenAround name line) {lead : String}
    (plain : Unbroken lead) : UnbrokenAround name (lead ++ line) := by
  obtain ⟨front, back, hfront, hback, rfl⟩ := h
  exact ⟨lead ++ front, back, unbroken_append.mpr ⟨plain, hfront⟩, hback,
    by simp only [String.append_assoc]⟩

/-- A line around a name has the line feeds of the name and no others. -/
theorem UnbrokenAround.count {name line : String} (h : UnbrokenAround name line) :
    line.toList.count '\n' = name.toList.count '\n' := by
  obtain ⟨front, back, hfront, hback, rfl⟩ := h
  rw [String.toList_append, String.toList_append, List.count_append, List.count_append,
    hfront.count, hback.count, Nat.zero_add, Nat.add_zero]

theorem UnbrokenAround.oneLine {name line : String} (h : UnbrokenAround name line)
    (given : OneLine name) : OneLine line := by
  obtain ⟨front, back, hfront, hback, rfl⟩ := h
  exact oneLine_append.mpr ⟨oneLine_append.mpr ⟨hfront.oneLine, given⟩, hback.oneLine⟩

theorem UnbrokenAround.unbroken {name line : String} (h : UnbrokenAround name line)
    (given : Unbroken name) : Unbroken line := by
  obtain ⟨front, back, hfront, hback, rfl⟩ := h
  exact unbroken_append.mpr ⟨unbroken_append.mpr ⟨hfront, given⟩, hback⟩

/-- What breaks the line stands in the name. -/
theorem UnbrokenAround.standsIn {name line : String} (h : UnbrokenAround name line)
    {before after : List Char} {c : Char} (breaks : breaksLine c = true)
    (cut : line.toList = before ++ c :: after) : StandsIn name before c after := by
  obtain ⟨front, back, hfront, hback, rfl⟩ := h
  have outside {part : String} (plain : Unbroken part) : c ∉ part.toList := fun mem =>
    Bool.false_ne_true ((plain c mem).symm.trans breaks)
  rw [String.toList_append, String.toList_append] at cut
  rcases Text.cut_append cut with ⟨rest, inner, rfl⟩ | ⟨rest, -, inBack⟩
  · rcases Text.cut_append inner with ⟨_, inFront, -⟩ | ⟨start, rfl, inName⟩
    · exact absurd (inFront ▸ List.mem_append_right _ List.mem_cons_self) (outside hfront)
    · exact ⟨start, rest, inName, List.suffix_append _ _, List.prefix_append _ _⟩
  · exact absurd (inBack ▸ List.mem_append_right _ List.mem_cons_self) (outside hback)

namespace Carrying

variable {lines names : List String}

theorem append (h : Carrying lines names) {lines' names' : List String}
    (h' : Carrying lines' names') : Carrying (lines ++ lines') (names ++ names') := by
  induction h with
  | nil => exact h'
  | unbroken line _ ih => exact .unbroken line ih
  | around line _ ih => exact .around line ih

theorem of_unbroken (h : ∀ line ∈ lines, Unbroken line) : Carrying lines [] := by
  induction lines with
  | nil => exact .nil
  | cons line lines ih =>
    obtain ⟨first, rest⟩ := List.forall_mem_cons.mp h
    exact .unbroken first (ih rest)

/-- Every line is unbroken or stands around one of the names. -/
theorem line_cases (h : Carrying lines names) :
    ∀ line ∈ lines, Unbroken line ∨ ∃ name ∈ names, UnbrokenAround name line := by
  induction h with
  | nil => exact List.forall_mem_nil _
  | unbroken line _ ih => exact List.forall_mem_cons.mpr ⟨Or.inl line, ih⟩
  | around line _ ih =>
    refine List.forall_mem_cons.mpr ⟨Or.inr ⟨_, List.mem_cons_self, line⟩, fun other mem => ?_⟩
    exact (ih other mem).imp_right fun ⟨name, given, held⟩ =>
      ⟨name, List.mem_cons_of_mem _ given, held⟩

/-- **The line feeds of a text** end its lines or lie within the names that it holds. -/
theorem count (h : Carrying lines names) : (lineText lines).toList.count '\n' =
    lines.length + (names.flatMap String.toList).count '\n' := by
  induction h with
  | nil => rfl
  | unbroken line _ ih =>
    rw [toList_lineText_cons, List.count_append, List.count_cons_self, line.count, ih,
      List.length_cons]
    omega
  | around line _ ih =>
    rw [toList_lineText_cons, List.count_append, List.count_cons_self, line.count, ih,
      List.length_cons, List.flatMap_cons, List.count_append]
    omega

theorem oneLine (h : Carrying lines names) (given : ∀ name ∈ names, OneLine name) :
    ∀ line ∈ lines, OneLine line := by
  intro line mem
  rcases h.line_cases line mem with plain | ⟨name, held, around⟩
  · exact plain.oneLine
  · exact around.oneLine (given name held)

/-- **What breaks a text**, apart from its line feeds, stands in a name that it holds. -/
theorem standsIn (h : Carrying lines names) {before after : List Char} {c : Char}
    (cut : (lineText lines).toList = before ++ c :: after) (breaks : breaksLine c = true)
    (feed : c ≠ '\n') : ∃ name ∈ names, StandsIn name before c after := by
  unfold lineText at cut
  rw [String.toList_ofList] at cut
  -- The character is in one of the lines or ends it; only a line feed ends a line.
  obtain ⟨earlier, line, later, front, back, rfl, piece, rfl, rfl⟩ := Text.cut_flatMap cut
  have given : line ∈ earlier ++ line :: later := List.mem_append_right _ List.mem_cons_self
  rcases Text.cut_append piece with ⟨rest, inner, rfl⟩ | ⟨rest, -, ending⟩
  · rcases h.line_cases line given with plain | ⟨name, held, around⟩
    · have mem : c ∈ line.toList := inner ▸ List.mem_append_right _ List.mem_cons_self
      exact absurd ((plain c mem).symm.trans breaks) Bool.false_ne_true
    · obtain ⟨start, tail, whole, first, last⟩ := around.standsIn breaks inner
      exact ⟨name, held, start, tail, whole, first.trans (List.suffix_append _ _),
        last.trans ((List.prefix_append _ _).trans (List.prefix_append _ _))⟩
  · have only : c ∈ ['\n'] := ending ▸ List.mem_append_right _ List.mem_cons_self
    exact absurd (List.mem_singleton.mp only) feed

end Carrying

/-! ## The lines of a text -/

namespace Dialect

/-- The name on the namespace line in front of the attributes. -/
def fileNames (d : Dialect) (r : Record) : List String :=
  match d.namespacePlacement with
  | .wholeFile fallback => [r.effectiveNamespace?.getD fallback]
  | .aroundType _ => []

/-- The name on the namespace line in front of the type. -/
def typeNames (d : Dialect) (r : Record) : List String :=
  match d.namespacePlacement with
  | .wholeFile _ => []
  | .aroundType _ => r.explicitNamespace?.toList

/-- The names of the members that are not built-in ones. -/
def ownNames (members : NameMap FieldValue) : List String :=
  (members.map Prod.fst).filter fun name => name ∉ builtinNames

/-- The names that a text holds as they are: that of a namespace, and those of the fields that are
emitted. -/
def writtenNames (d : Dialect) (r : Record) (members : NameMap FieldValue) : List String :=
  d.fileNames r ++ if r.emitType then d.typeNames r ++ ownNames members else []

theorem fileNamespace_eq (d : Dialect) (r : Record) :
    d.fileNamespace r = (d.fileNames r).map d.namespaceLine := by
  unfold fileNamespace fileNames
  cases d.namespacePlacement <;> rfl

/-- The lines that open a namespace around the type are those of its names, of which there is at
most one. -/
theorem typeNamespace_eq (d : Dialect) (r : Record) :
    (d.typeNamespace r).1 = (d.typeNames r).map d.namespaceLine := by
  unfold typeNamespace typeNames
  cases d.namespacePlacement <;> cases r.explicitNamespace? <;> rfl

variable (l : Language)

theorem unbroken_fileHead : ∀ line ∈ (of l).fileHead, Unbroken line := by
  have comment : Unbroken (of l).comment := unbroken_spellings l _ (by simp [spellings])
  have text : ∀ line ∈ banner, Unbroken line := by decide +kernel
  refine List.forall_mem_append.mpr ⟨List.forall_mem_map.mpr fun line mem => ?_, ?_⟩
  · exact unbroken_append.mpr ⟨comment, text line mem⟩
  · simp only [List.forall_mem_cons, unbroken_warningLine l, List.not_mem_nil, false_implies,
      implies_true]
    decide

theorem unbroken_attributes (r : Record) : ∀ line ∈ (of l).attributes r, Unbroken line := by
  simp only [attributes, List.forall_mem_cons, List.not_mem_nil, false_implies, implies_true,
    and_true]
  exact ⟨unbroken_assemblyAttribute l (by decide +kernel) _,
    unbroken_assemblyAttribute l (by decide +kernel) _,
    unbroken_assemblyAttribute l (by decide +kernel) _⟩

theorem unbroken_attributeBlockEnd : ∀ line ∈ (of l).attributeBlockEnd.toList, Unbroken line :=
  fun line mem => unbroken_spellings l line (List.mem_append_right _ mem)

/-- The head of a type breaks no line, whatever the generator is named. -/
theorem unbroken_typeHead (name version : String) :
    ∀ line ∈ (of l).typeHead name version, Unbroken line := by
  have spelled := unbroken_spellings l
  have framework : ∀ symbol ∈ frameworkSymbols, Unbroken symbol := by decide +kernel
  have modern : ∀ symbol ∈ modernFrameworkSymbols, Unbroken symbol := by decide +kernel
  have fixed : ∀ line ∈ [(of l).conditionals.elseLine, (of l).conditionals.endLine,
      (of l).typeHeader], Unbroken line := fun line mem => spelled line (by
    simp only [List.mem_cons, List.not_mem_nil, or_false] at mem
    rcases mem with rfl | rfl | rfl <;> simp [spellings])
  simp only [List.forall_mem_cons] at fixed
  unfold typeHead
  dsimp only
  split <;> simp only [List.forall_mem_cons, unbroken_generatedCodeAttribute l name version,
    unbroken_coverageAttribute l, unbroken_conditionals l framework,
    unbroken_conditionals l modern, fixed, List.not_mem_nil, false_implies,
    implies_true, and_true]

/-- What closes the type and the namespace around it. -/
theorem unbroken_close (r : Record) :
    ∀ line ∈ (of l).typeClose :: ((of l).typeNamespace r).2, Unbroken line := by
  refine List.forall_mem_cons.mpr ⟨unbroken_spellings l _ (by simp [spellings]), ?_⟩
  unfold typeNamespace
  split
  · rename_i close _ placement _
    refine List.forall_mem_singleton.mpr ?_
    revert placement
    cases l with
    | cSharp => rintro ⟨⟩; decide
    | fSharp => rintro ⟨⟩
    | visualBasic => rintro ⟨⟩; decide +kernel
  · exact List.forall_mem_nil _

/-- A namespace is written as it is, between spellings. -/
theorem unbrokenAround_namespaceLine (name : String) :
    UnbrokenAround name ((of l).namespaceLine name) := by
  have spelled := unbroken_spellings l
  exact ((unbrokenAround_self name).prepend (spelled _ (by simp [spellings]))).append
    (spelled _ (by simp [spellings]))

theorem carrying_namespaceLines (names : List String) :
    Carrying (names.map (of l).namespaceLine) names := by
  induction names with
  | nil => exact .nil
  | cons name names ih => exact .around (unbrokenAround_namespaceLine l name) ih

theorem unbrokenAround_declaration (name : String) (type : FieldType) :
    UnbrokenAround name ((of l).declaration name type) := by
  have typed : Unbroken ((of l).typeName type) :=
    unbroken_spellings l _ (by cases type <;> simp [spellings, typeName])
  have self := unbrokenAround_self name
  unfold declaration
  split
  · exact self.prepend (unbroken_append.mpr ⟨typed, by decide⟩)
  · exact (self.append (by decide)).append typed
  · exact self

/-- The line of a member holds its name and a literal, which is unbroken. -/
theorem unbrokenAround_memberLine (name : String) (value : FieldValue) :
    UnbrokenAround name ((of l).memberLine name value) := by
  have spelled := unbroken_spellings l
  have modified : Unbroken ((of l).modifiers value.kind) :=
    spelled _ (by cases value.kind <;> simp [spellings, modifiers])
  have lead : Unbroken ((of l).member.indent ++ (of l).modifiers value.kind) :=
    unbroken_append.mpr ⟨spelled _ (by simp [spellings]), modified⟩
  have declared := (unbrokenAround_declaration l name value.type).prepend lead
  exact ((declared.append (by decide)).append (unbroken_literal l value)).append
    (spelled _ (by simp [spellings]))

/-- **The members** hold the names of the fields among them. -/
theorem carrying_memberLines (members : NameMap FieldValue) :
    Carrying ((of l).memberLines members) (ownNames members) := by
  have builtin : ∀ name ∈ builtinNames, Unbroken name := by decide +kernel
  induction members with
  | nil => exact .nil
  | cons m members ih =>
    have held := unbrokenAround_memberLine l m.1 m.2
    by_cases known : m.1 ∈ builtinNames
    · have own : ownNames (m :: members) = ownNames members := by simp [ownNames, known]
      rw [own]
      exact .unbroken (held.unbroken (builtin m.1 known)) ih
    · have own : ownNames (m :: members) = m.1 :: ownNames members := by simp [ownNames, known]
      rw [own]
      exact .around held ih

/-- The preamble carries the namespace of the file and no other name. -/
theorem carrying_preamble (r : Record) :
    Carrying ((of l).preamble r) ((of l).fileNames r) := by
  have behind : ∀ line ∈ (of l).attributes r ++ (of l).attributeBlockEnd.toList, Unbroken line :=
    List.forall_mem_append.mpr ⟨unbroken_attributes l r, unbroken_attributeBlockEnd l⟩
  have space := carrying_namespaceLines l ((of l).fileNames r)
  rw [preamble_eq, fileNamespace_eq]
  have whole := (Carrying.of_unbroken (unbroken_fileHead l)).append
    (space.append (Carrying.of_unbroken behind))
  rwa [List.nil_append, List.append_nil] at whole

/-- The type carries its namespace and the names of the own members. -/
theorem carrying_typeBlock (r : Record) (members : NameMap FieldValue) :
    Carrying ((of l).typeBlock r members) ((of l).typeNames r ++ ownNames members) := by
  have head := Carrying.of_unbroken (unbroken_typeHead l r.generator r.generatorRelease)
  have close := Carrying.of_unbroken (unbroken_close l r)
  have whole := (carrying_namespaceLines l ((of l).typeNames r)).append
    (head.append ((carrying_memberLines l members).append close))
  rw [typeBlock_eq, typeNamespace_eq]
  rwa [List.nil_append, List.append_nil] at whole

/-- **The names that the lines of a text hold**, and nothing else breaks a line. -/
theorem carrying_sourceLines (r : Record) (members : NameMap FieldValue) :
    Carrying ((of l).sourceLines r members) ((of l).writtenNames r members) := by
  have type : Carrying (if r.emitType then (of l).typeBlock r members else [])
      (if r.emitType then (of l).typeNames r ++ ownNames members else []) := by
    split
    · exact carrying_typeBlock l r members
    · exact .nil
  exact (carrying_preamble l r).append type

/-! ## How many lines there are -/

/-- The number of lines in front of the type. -/
def preambleLength : Language → Nat
  | .cSharp | .visualBasic => 15
  | .fSharp => 17

/-- The number of lines of a type without members and without a namespace of its own. -/
def typeLength : Language → Nat
  | .cSharp | .fSharp => 8
  | .visualBasic => 11

theorem length_preamble (r : Record) : ((of l).preamble r).length = preambleLength l := by
  rw [preamble_eq, List.length_append, List.length_append, List.length_append, length_fileHead,
    length_attributes]
  cases l <;> rfl

/-- A namespace around the type takes two lines, where the language puts it there and one is given.
-/
theorem length_typeNamespace (r : Record) :
    ((of l).typeNamespace r).1.length + ((of l).typeNamespace r).2.length =
      if l ≠ .fSharp ∧ r.explicitNamespace?.isSome then 2 else 0 := by
  unfold typeNamespace
  cases l <;> cases r.explicitNamespace? <;> rfl

theorem length_typeBlock (r : Record) (members : NameMap FieldValue) :
    ((of l).typeBlock r members).length = typeLength l + members.length +
      if l ≠ .fSharp ∧ r.explicitNamespace?.isSome then 2 else 0 := by
  have head : ((of l).typeHead r.generator r.generatorRelease).length + 1 = typeLength l := by
    rw [length_typeHead]
    cases l <;> rfl
  rw [← length_typeNamespace, ← head]
  unfold typeBlock memberLines
  simp only [List.length_append, List.length_map, List.length_singleton]
  omega

/-- The number of lines depends on the language, the type, its namespace and the number of members.
-/
theorem length_sourceLines (r : Record) (members : NameMap FieldValue) :
    ((of l).sourceLines r members).length = preambleLength l +
      if r.emitType then typeLength l + members.length +
        if l ≠ .fSharp ∧ r.explicitNamespace?.isSome then 2 else 0
      else 0 := by
  unfold sourceLines
  rw [List.length_append, length_preamble]
  split
  · rw [length_typeBlock]
  · rfl

end Dialect

theorem getLast?_lineText {lines : List String} (given : lines ≠ []) :
    (lineText lines).toList.getLast? = some '\n' := by
  obtain ⟨earlier, line, rfl⟩ := (List.eq_nil_or_concat lines).resolve_left given
  rw [List.concat_eq_append, lineText_append, lineText_singleton, String.toList_append,
    String.toList_append, ← List.append_assoc]
  exact List.getLast?_concat

open Dialect (preambleLength typeLength) in
/-- **What breaks the text of a record.** The text ends in a line feed. It has a number of lines
that its language fixes, one more for each member and two more for a namespace around the type; no
value in the record adds a line, splits one or merges two. All further line feeds and all other
characters that break a line stand in the names that are written as they are; around such a name
its line is unbroken. -/
theorem sourceText_lineFeeds {r : Record} {text : String} (made : r.sourceText = .ok text) :
    ∃ l members, r.language = .ok l ∧ r.members = .ok members ∧ members.Ascending ∧
      (∀ name value, (name, value) ∈ members ↔ r.Emits name value) ∧
      let lines := (of l).sourceLines r members
      let written := (of l).writtenNames r members
      text = lineText lines ∧ Carrying lines written ∧
        text.toList.getLast? = some '\n' ∧
        text.toList.count '\n' = preambleLength l +
          (if r.emitType then typeLength l + members.length +
              if l ≠ .fSharp ∧ r.explicitNamespace?.isSome then 2 else 0
            else 0) +
          (written.flatMap String.toList).count '\n' ∧
        ∀ before c after, text.toList = before ++ c :: after → breaksLine c = true → c ≠ '\n' →
          ∃ name ∈ written, StandsIn name before c after := by
  have accepted := (exists_sourceText_iff r).mp ⟨text, made⟩
  obtain ⟨l, members, language, hmembers, rfl⟩ := Record.sourceText_eq_ok_iff.mp made
  have carrying := Dialect.carrying_sourceLines l r members
  have length := Dialect.length_sourceLines l r members
  have given : (of l).sourceLines r members ≠ [] := by
    refine List.ne_nil_of_length_pos ?_
    rw [length]
    cases l <;> exact Nat.add_pos_left (by decide) _
  exact ⟨l, members, language, hmembers, Record.ascending_members hmembers,
    Record.mem_members_iff accepted hmembers, rfl, carrying, getLast?_lineText given,
    carrying.count.trans (congrArg (· + _) length), fun before c after => carrying.standsIn⟩

/-- A record with characters that break a line in all that it can hold. -/
def brokenRecord : Record where
  selector := "vb"
  informationalVersion := "1.0\r\n"
  company := "One\nTwo\u2028"
  typeNamespace := some "Name\nSpace\u2029"
  fields := [.string "Own\nName\r" "\n\u0085", .string "Silent\n" ""]
  generatorName := some "\n"

/-- The breaks of the names stand in the text, those of the values do not. -/
theorem sourceText_lineFeeds_broken :
    ∃ text lines, brokenRecord.sourceText = .ok text ∧ text = lineText lines ∧
      Carrying lines ["Name\nSpace\u2029", "Own\nName\r"] ∧ text.toList.count '\n' = 38 := by
  obtain ⟨text, made⟩ : ∃ text, brokenRecord.sourceText = .ok text := ⟨_, rfl⟩
  obtain ⟨l, members, language, hmembers, -, -, same, carrying, -, count, -⟩ :=
    sourceText_lineFeeds made
  cases language
  cases hmembers
  exact ⟨text, _, made, same, carrying, count⟩

end VersionInfo
