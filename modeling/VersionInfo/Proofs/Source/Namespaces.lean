import VersionInfo.Proofs.Source.Guards

/-!
# What the namespaces of a record do

Two parts of a record name a namespace. In two languages the one that is asked for stands around
the type, if there is a type and it is not blank; the root namespace is only the value of a member.
In the third language a namespace stands in front of all code, in every text and never closed; it is
the one that is asked for, or else the root namespace, or else a fixed one. Nothing else in a text
depends on the two.

* `exists_members_withNamespaces`: the members, but for the one of the root namespace.
* `aroundType_of_sourceText`, `overFile_of_sourceText`: either kind of language.
* `sourceText_namespaces`: what the namespaces do, in each language.
-/

namespace VersionInfo

open Conditional (Apart Starts)
open Dialect (of)
open Text (Blank)

/-- The record with other namespaces. -/
def Record.withNamespaces (r : Record) (root type : Option String) : Record :=
  { r with rootNamespace := root, typeNamespace := type }

/-! ## Which namespace counts -/

/-- The name of the namespace in front of all code: the one that is asked for counts unless it is
blank, then the root namespace. -/
inductive FileNamespace : Option String → Option String → String → Prop
  | type {root : Option String} {name : String} (given : ¬ Blank name) :
      FileNamespace root (some name) name
  | root {type : Option String} {name : String} (unasked : ∀ other ∈ type, Blank other)
      (given : ¬ Blank name) : FileNamespace (some name) type name
  | fallback {root type : Option String} (unasked : ∀ other ∈ type, Blank other)
      (unrooted : ∀ other ∈ root, Blank other) : FileNamespace root type "AssemblyInfo"

/-- A namespace counts if it is given and not blank, as `non_blank` has it. -/
theorem filter_not_blank_eq_some_iff {space : Option String} {name : String} :
    (space.filter fun s => ¬ Blank s) = some name ↔ space = some name ∧ ¬ Blank name := by
  rw [Option.filter_eq_some_iff, decide_eq_true_eq]

theorem filter_not_blank_eq_none_iff {space : Option String} :
    (space.filter fun s => ¬ Blank s) = none ↔ ∀ name ∈ space, Blank name := by
  simp only [Option.filter_eq_none_iff, decide_eq_true_eq, not_not, Option.mem_def]

theorem fileNamespace_effectiveNamespace (r : Record) :
    FileNamespace r.rootNamespace r.typeNamespace
      (r.effectiveNamespace?.getD "AssemblyInfo") := by
  unfold Record.effectiveNamespace? Record.explicitNamespace?
  cases asked : r.typeNamespace.filter fun s => ¬ Blank s with
  | some name =>
    obtain ⟨type, given⟩ := filter_not_blank_eq_some_iff.mp asked
    rw [type]
    exact .type given
  | none =>
    have unasked := filter_not_blank_eq_none_iff.mp asked
    cases rooted : r.rootNamespace.filter fun s => ¬ Blank s with
    | some name =>
      obtain ⟨root, given⟩ := filter_not_blank_eq_some_iff.mp rooted
      rw [root]
      exact .root unasked given
    | none => exact .fallback unasked (filter_not_blank_eq_none_iff.mp rooted)

/-! ## The members -/

section Members

variable {r : Record}

/-- No check looks at the namespaces. -/
theorem Record.Accepted.withNamespaces (h : r.Accepted) (root type : Option String) :
    (r.withNamespaces root type).Accepted where
  language := h.language
  commitDate := h.commitDate
  resolves := h.resolves
  distinct := h.distinct
  unreserved := h.unreserved

/-- Of the members only the one of the root namespace depends on the namespaces. -/
theorem exists_entries_withNamespaces (r : Record) :
    ∃ front back, ∀ root type, (r.withNamespaces root type).entries =
      front ++ ("RootNamespace", .string (root.getD "")) :: back := by
  let later := r.plainBuiltins.drop 6 ++
    (r.commitDate.toList.map fun t => ⟨"GitCommitDate", .ticks t, false⟩)
  refine ⟨((r.plainBuiltins.take 5).filter Field.shouldEmit).map Record.entry,
    ((later ++ Record.resolvedFields r.fields).filter Field.shouldEmit).map Record.entry,
    fun root type => ?_⟩
  have split : (r.withNamespaces root type).builtins = r.plainBuiltins.take 5 ++
      ⟨"RootNamespace", .string (root.getD ""), true⟩ :: later := rfl
  have fields : (r.withNamespaces root type).fields = r.fields := rfl
  unfold Record.entries
  rw [split, fields, List.append_assoc, List.cons_append, List.filter_append,
    List.filter_cons_of_pos (by rfl), List.map_append, List.map_cons]

/-- **The members**, but for the one of the root namespace, do not depend on the namespaces. -/
theorem exists_members_withNamespaces (accepted : r.Accepted) :
    ∃ before after, ∀ root type members, (r.withNamespaces root type).members = .ok members →
      members = before ++ ("RootNamespace", .string (root.getD "")) :: after := by
  obtain ⟨front, back, entries⟩ := exists_entries_withNamespaces r
  -- It is about names only, so it does not matter which namespaces the record has.
  have nodup := accepted.nodup_entries
  have own : r.entries = _ := entries r.rootNamespace r.typeNamespace
  rw [own, List.map_append, List.map_cons] at nodup
  obtain ⟨before, after, placed⟩ := NameMap.exists_ofList_middle nodup
  refine ⟨before, after, fun root type members h => ?_⟩
  rw [Record.members_eq_ofList h, entries, placed]

/-- The lines of a record with other namespaces. -/
theorem sourceText_withNamespaces {text : String} (made : r.sourceText = .ok text) {l : Language}
    (language : r.language = .ok l) :
    ∃ before after, ∀ root type, (r.withNamespaces root type).sourceText =
      .ok (lineText ((of l).sourceLines (r.withNamespaces root type)
        (before ++ ("RootNamespace", .string (root.getD "")) :: after))) := by
  have accepted := (exists_sourceText_iff r).mp ⟨text, made⟩
  obtain ⟨before, after, members⟩ := exists_members_withNamespaces accepted
  refine ⟨before, after, fun root type => ?_⟩
  obtain ⟨text', made'⟩ := (exists_sourceText_iff _).mpr (accepted.withNamespaces root type)
  obtain ⟨l', members', language', hmembers, rfl⟩ := Record.sourceText_eq_ok_iff.mp made'
  obtain rfl : l = l' := Except.ok.inj (language.symm.trans language')
  rw [made', members root type members' hmembers]

end Members

/-! ## Around the type -/

namespace Dialect

/-- The line of the member that holds the root namespace. -/
def rootLine (d : Dialect) (root : Option String) : String :=
  d.memberLine "RootNamespace" (.string (root.getD ""))

/-- The lines of the type without a namespace around it. -/
def bareType (d : Dialect) (r : Record) (members : NameMap FieldValue) : List String :=
  d.typeHead r.generator r.generatorRelease ++ (d.memberLines members ++ [d.typeClose])

theorem typeBlock_eq_bareType (d : Dialect) (r : Record) (members : NameMap FieldValue) :
    d.typeBlock r members =
      (d.typeNamespace r).1 ++ (d.bareType r members ++ (d.typeNamespace r).2) := by
  rw [typeBlock_eq]
  unfold bareType back
  simp only [List.append_assoc, List.singleton_append]

theorem typeNamespace_of_blank (d : Dialect) {r : Record} (blank : r.explicitNamespace? = none) :
    d.typeNamespace r = ([], []) := by
  unfold typeNamespace
  rw [blank]
  split
  · contradiction
  · rfl

theorem sourceLines_of_blank (d : Dialect) {r : Record}
    (blank : r.emitType = true → r.explicitNamespace? = none) (members : NameMap FieldValue) :
    d.sourceLines r members = d.preamble r ++ if r.emitType then d.bareType r members else [] := by
  unfold sourceLines
  cases emit : r.emitType with
  | false => rfl
  | true =>
    rw [if_pos rfl, if_pos rfl, typeBlock_eq_bareType, typeNamespace_of_blank d (blank emit),
      List.nil_append, List.append_nil]

section AroundType

variable {d : Dialect} {close : String} (placement : d.namespacePlacement = .aroundType close)
  (r : Record)

include placement

theorem preamble_of_aroundType :
    d.preamble r = d.fileHead ++ (d.attributes r ++ d.attributeBlockEnd.toList) := by
  have space : d.fileNamespace r = [] := by
    unfold fileNamespace
    rw [placement]
  rw [preamble_eq, space, List.nil_append]

theorem preamble_withNamespaces (root type : Option String) :
    d.preamble (r.withNamespaces root type) = d.preamble r := by
  rw [preamble_of_aroundType placement, preamble_of_aroundType placement]
  rfl

theorem sourceLines_of_explicit {r : Record} (emit : r.emitType = true) {name : String}
    (explicit : r.explicitNamespace? = some name) (members : NameMap FieldValue) :
    d.sourceLines r members =
      d.preamble r ++ d.namespaceLine name :: (d.bareType r members ++ [close]) := by
  have around : d.typeNamespace r = ([d.namespaceLine name], [close]) := by
    unfold typeNamespace
    rw [placement, explicit]
  unfold sourceLines
  rw [if_pos emit, typeBlock_eq_bareType, around]
  rfl

theorem sourceLines_withoutType (root : Option String) (members : NameMap FieldValue) :
    d.sourceLines (r.withNamespaces root none) members =
      d.preamble r ++ if r.emitType then d.bareType r members else [] := by
  rw [sourceLines_of_blank d fun _ => rfl, preamble_withNamespaces placement]
  rfl

/-- The root namespace is no part of any other line. -/
theorem sourceLines_withRoot (root : Option String) (members : NameMap FieldValue) :
    d.sourceLines (r.withNamespaces root r.typeNamespace) members = d.sourceLines r members := by
  unfold sourceLines
  rw [preamble_withNamespaces placement]
  rfl

end AroundType

end Dialect

/-- What the namespaces do to a text, where a namespace stands around the type. -/
structure AroundType (d : Dialect) (close : String) (r : Record) (text : String) : Prop where
  /-- The namespace that is asked for opens behind the attributes and closes at the end. -/
  asked : ∀ name, r.emitType = true → r.typeNamespace = some name → ¬ Blank name →
    ∃ rest, (r.withNamespaces r.rootNamespace none).sourceText =
        .ok (lineText (d.fileHead ++ d.attributes r) ++ rest) ∧
      text = lineText (d.fileHead ++ d.attributes r) ++ (d.namespaceLine name ++ "\n") ++ rest ++
        (close ++ "\n")
  unasked : (∀ name, r.emitType = true → r.typeNamespace = some name → Blank name) →
    (r.withNamespaces r.rootNamespace none).sourceText = .ok text
  /-- The root namespace is the value of a member. -/
  root : ∃ before after, ∀ root, (r.withNamespaces root r.typeNamespace).sourceText =
    .ok (before ++ (if r.emitType then d.rootLine root ++ "\n" else "") ++ after)

/-- A language whose attributes end by themselves, with a namespace around the type. -/
theorem aroundType_of_sourceText {r : Record} {text : String} (made : r.sourceText = .ok text)
    {l : Language} (language : r.language = .ok l) {close : String}
    (placement : (of l).namespacePlacement = .aroundType close)
    (ending : (of l).attributeBlockEnd = none) : AroundType (of l) close r text := by
  obtain ⟨before, after, texts⟩ := sourceText_withNamespaces made language
  have preamble : (of l).preamble r = (of l).fileHead ++ (of l).attributes r := by
    rw [Dialect.preamble_of_aroundType placement, ending]
    exact congrArg _ (List.append_nil _)
  -- The record itself is the one with its own namespaces.
  have own : text = lineText ((of l).sourceLines r
      (before ++ ("RootNamespace", .string (r.rootNamespace.getD "")) :: after)) :=
    Except.ok.inj (made.symm.trans (texts r.rootNamespace r.typeNamespace))
  have without := texts r.rootNamespace none
  rw [Dialect.sourceLines_withoutType placement] at without
  constructor
  case asked =>
    intro name emit type given
    have explicit : r.explicitNamespace? = some name :=
      filter_not_blank_eq_some_iff.mpr ⟨type, given⟩
    rw [if_pos emit, preamble, lineText_append] at without
    rw [Dialect.sourceLines_of_explicit placement emit explicit, preamble, lineText_append,
      lineText_cons, lineText_append _ [close], lineText_singleton] at own
    refine ⟨_, without, own.trans ?_⟩
    simp only [String.append_assoc]
  case unasked =>
    intro blank
    have absent : r.emitType = true → r.explicitNamespace? = none := fun emit =>
      filter_not_blank_eq_none_iff.mpr fun name type => blank name emit type
    rw [Dialect.sourceLines_of_blank _ absent] at own
    rw [without, own]
  case root =>
    simp only [texts, Dialect.sourceLines_withRoot placement]
    cases emit : r.emitType with
    | false =>
      refine ⟨lineText ((of l).preamble r), "", fun root => ?_⟩
      rw [sourceLines_of_not_emitType emit, if_neg Bool.false_ne_true, String.append_empty,
        String.append_empty]
    | true =>
      simp only [lineText_sourceLines_insert emit, if_true]
      exact ⟨_, _, fun root => rfl⟩

/-! ## In front of all code -/

/-- What lines start with that open or close a namespace, in any language. -/
def namespaceMarks : List String :=
  Language.all.flatMap fun l => (of l).namespaceOpen :: match (of l).namespacePlacement with
    | .wholeFile _ => []
    | .aroundType close => [close]

/-- The line opens or closes a namespace. -/
def BoundsNamespace (line : String) : Prop := ∃ mark ∈ namespaceMarks, Starts mark line

instance : DecidablePred BoundsNamespace := fun line =>
  List.decidableBEx (fun mark => Starts mark line) namespaceMarks

namespace Dialect

/-- The lines of a text with a namespace in front of all code; `before` and `after` stand around
the member of the root namespace. -/
def linesOver (d : Dialect) (r : Record) (before after : List String) (root : Option String)
    (name : String) : List String :=
  d.fileHead ++ d.namespaceLine name :: (d.attributes r ++ d.attributeBlockEnd.toList ++
    if r.emitType then before ++ d.rootLine root :: after else [])

/-- The root namespace stands in the line of its member. -/
theorem bareType_middle (d : Dialect) (r : Record) (root : Option String)
    (before after : NameMap FieldValue) :
    d.bareType r (before ++ ("RootNamespace", .string (root.getD "")) :: after) =
      d.typeHead r.generator r.generatorRelease ++ d.memberLines before ++
        d.rootLine root :: (d.memberLines after ++ [d.typeClose]) := by
  unfold bareType memberLines
  rw [List.map_append, List.map_cons, List.append_assoc, List.append_assoc]
  rfl

/-- Where the namespace stands over the file, its line is in the preamble and nothing closes it. -/
theorem sourceLines_of_wholeFile {d : Dialect} {fallback : String}
    (placement : d.namespacePlacement = .wholeFile fallback) (r : Record)
    (root type : Option String) (before after : NameMap FieldValue) :
    d.sourceLines (r.withNamespaces root type)
        (before ++ ("RootNamespace", .string (root.getD "")) :: after) =
      d.linesOver r (d.typeHead r.generator r.generatorRelease ++ d.memberLines before)
        (d.memberLines after ++ [d.typeClose]) root
        ((r.withNamespaces root type).effectiveNamespace?.getD fallback) := by
  have space : d.fileNamespace (r.withNamespaces root type) =
      [d.namespaceLine ((r.withNamespaces root type).effectiveNamespace?.getD fallback)] := by
    unfold fileNamespace
    rw [placement]
  have bare : d.typeNamespace (r.withNamespaces root type) = ([], []) := by
    unfold typeNamespace
    rw [placement]
  have kept : (r.withNamespaces root type).emitType = r.emitType ∧
      d.attributes (r.withNamespaces root type) = d.attributes r := ⟨rfl, rfl⟩
  unfold sourceLines linesOver
  rw [preamble_eq, space, typeBlock_eq_bareType, bare, bareType_middle, kept.1, kept.2,
    List.nil_append, List.append_nil, List.singleton_append, List.append_assoc, List.cons_append]
  rfl

/-- What the lines of a text start with, but for those of a namespace. -/
def otherLeads (d : Dialect) : List String :=
  [d.comment, d.assemblyAttributeOpen] ++ d.attributeBlockEnd.toList ++ d.guardLeads ++ d.backLeads

/-- A line with one of the other leads neither opens nor closes a namespace. -/
theorem not_boundsNamespace {lead line : String} (given : lead ∈ (of .fSharp).otherLeads)
    (h : Starts lead line) : ¬ BoundsNamespace line := by
  have apart : ∀ lead ∈ (of .fSharp).otherLeads, ∀ mark ∈ namespaceMarks, Apart lead mark := by
    decide
  rintro ⟨mark, bounds, starts⟩
  exact (apart lead given mark bounds).not_starts h starts

theorem not_boundsNamespace_fileHead :
    ∀ line ∈ (of .fSharp).fileHead, ¬ BoundsNamespace line := by
  have fixed : ∀ line ∈ ["", (of .fSharp).warningLine], ¬ BoundsNamespace line := by decide
  intro line mem
  rcases starts_fileHead .fSharp line mem with known | starts
  · exact fixed line known
  · exact not_boundsNamespace (by simp [otherLeads]) starts

theorem not_boundsNamespace_attributes (r : Record) :
    ∀ line ∈ (of .fSharp).attributes r ++ (of .fSharp).attributeBlockEnd.toList,
      ¬ BoundsNamespace line := by
  have ending : ∀ line ∈ (of .fSharp).attributeBlockEnd.toList, ¬ BoundsNamespace line := by decide
  refine List.forall_mem_append.mpr ⟨fun line mem => ?_, ending⟩
  exact not_boundsNamespace (by simp [otherLeads]) (starts_attributes .fSharp r line mem)

/-- No name of a member makes a line that opens or closes a namespace. -/
theorem not_boundsNamespace_bareType (r : Record) (members : NameMap FieldValue) :
    ∀ line ∈ (of .fSharp).bareType r members, ¬ BoundsNamespace line := by
  have back : ∀ lead ∈ (of .fSharp).backLeads, lead ∈ (of .fSharp).otherLeads :=
    fun lead => List.mem_append_right _
  have guards : ∀ lead ∈ (of .fSharp).guardLeads, lead ∈ (of .fSharp).otherLeads :=
    fun lead given => List.mem_append_left _ (List.mem_append_right _ given)
  refine List.forall_mem_append.mpr ⟨fun line mem => ?_, fun line mem => ?_⟩
  · obtain ⟨lead, given, starts⟩ := starts_typeHead _ _ line mem
    exact not_boundsNamespace (guards lead given) starts
  · -- The lines of the members and the one that closes the type stand behind the guards.
    obtain ⟨lead, given, starts⟩ := starts_back .fSharp r members line mem
    exact not_boundsNamespace (back lead given) starts

end Dialect

/-- What the namespaces do to a text, where one stands in front of all code. -/
structure OverFile (d : Dialect) (r : Record) (before after : List String) : Prop where
  text : ∀ root type, ∃ name, FileNamespace root type name ∧
    (r.withNamespaces root type).sourceText = .ok (lineText (d.linesOver r before after root name))
  /-- One line opens a namespace, and none closes it. -/
  only : ∀ root name, (d.linesOver r before after root name).filter (BoundsNamespace ·) =
    [d.namespaceLine name]

theorem overFile_of_sourceText {r : Record} {text : String} (made : r.sourceText = .ok text)
    (language : r.language = .ok .fSharp) :
    ∃ before after, OverFile (of .fSharp) r before after := by
  obtain ⟨before, after, texts⟩ := sourceText_withNamespaces made language
  refine ⟨(of .fSharp).typeHead r.generator r.generatorRelease ++ (of .fSharp).memberLines before,
    (of .fSharp).memberLines after ++ [(of .fSharp).typeClose], ?_, ?_⟩
  · intro root type
    refine ⟨_, fileNamespace_effectiveNamespace (r.withNamespaces root type), ?_⟩
    rw [texts, Dialect.sourceLines_of_wholeFile rfl]
  · intro root name
    have opens : BoundsNamespace ((of .fSharp).namespaceLine name) := by
      refine ⟨(of .fSharp).namespaceOpen, by decide, ?_⟩
      exact ((Dialect.starts_self .fSharp _ (by decide)).append _).append _
    have behind : ∀ line ∈ (of .fSharp).attributes r ++ (of .fSharp).attributeBlockEnd.toList ++
        (if r.emitType then (of .fSharp).bareType r
          (before ++ ("RootNamespace", .string (root.getD "")) :: after) else []),
        ¬ BoundsNamespace line := by
      refine List.forall_mem_append.mpr ⟨Dialect.not_boundsNamespace_attributes r, ?_⟩
      split
      · exact Dialect.not_boundsNamespace_bareType r _
      · exact List.forall_mem_nil _
    have none {lines : List String} (h : ∀ line ∈ lines, ¬ BoundsNamespace line) :
        lines.filter (BoundsNamespace ·) = [] :=
      List.filter_eq_nil_iff.mpr fun line mem => by simpa using h line mem
    rw [Dialect.bareType_middle] at behind
    unfold Dialect.linesOver
    rw [List.filter_append, none Dialect.not_boundsNamespace_fileHead, List.nil_append,
      List.filter_cons, if_pos (decide_eq_true opens), none behind]

/-- **What the namespaces do to a text.** Where one stands around the type, it is there if it is
asked for and the type is emitted: its line is put in behind the attributes and the closing line at
the end, and otherwise the text is that without it; the root namespace shows in one member line
only. Where one stands in front of all code, it does so in every text, with one line and no other
that opens or closes one, and nothing but that line and one member line depends on the two
namespaces. -/
theorem sourceText_namespaces {r : Record} {text : String} (made : r.sourceText = .ok text) :
    (r.language = .ok .cSharp → AroundType (of .cSharp) "\x7d" r text) ∧
      (r.language = .ok .visualBasic → AroundType (of .visualBasic) "End Namespace" r text) ∧
      (r.language = .ok .fSharp → ∃ before after, OverFile (of .fSharp) r before after) :=
  ⟨fun language => aroundType_of_sourceText made language rfl rfl,
    fun language => aroundType_of_sourceText made language rfl rfl,
    overFile_of_sourceText made⟩

/-- A record with both namespaces and with names that look like one. -/
def spacedRecord : Record where
  selector := "vb"
  company := "End Namespace"
  rootNamespace := some "Root"
  typeNamespace := some "Tool"
  fields := [.string "End Namespace" "Namespace "]

/-- An explicit namespace stands around the type; over the file a blank one gives way to the root
namespace, and no other line bounds one. -/
theorem sourceText_namespaces_spaced :
    (∃ text before rest, spacedRecord.sourceText = .ok text ∧
      (spacedRecord.withNamespaces (some "Root") none).sourceText = .ok (before ++ rest) ∧
      text = before ++ ("Namespace Tool" ++ "\n") ++ rest ++ ("End Namespace" ++ "\n")) ∧
    ∃ text lines, Record.sourceText { spacedRecord with selector := "f#" } = .ok text ∧
      (Record.withNamespaces { spacedRecord with selector := "f#" } (some "Root")
        (some "\u3000")).sourceText = .ok (lineText lines) ∧
      lines.filter (BoundsNamespace ·) = ["namespace Root"] := by
  constructor
  · obtain ⟨text, made⟩ : ∃ text, spacedRecord.sourceText = .ok text := ⟨_, rfl⟩
    obtain ⟨-, visualBasic, -⟩ := sourceText_namespaces made
    obtain ⟨rest, bare, same⟩ := (visualBasic rfl).asked "Tool" rfl rfl (by decide)
    exact ⟨text, _, rest, made, bare, same⟩
  · obtain ⟨text, made⟩ : ∃ text,
        Record.sourceText { spacedRecord with selector := "f#" } = .ok text := ⟨_, rfl⟩
    obtain ⟨-, -, fSharp⟩ := sourceText_namespaces made
    obtain ⟨before, after, file⟩ := fSharp rfl
    obtain ⟨name, counts, written⟩ := file.text (some "Root") (some "\u3000")
    refine ⟨text, _, made, written, ?_⟩
    rw [file.only]
    cases counts with
    | type given => exact absurd (by decide) given
    | root => rfl
    | fallback _ unrooted => exact absurd (unrooted "Root" rfl) (by decide)

end VersionInfo
