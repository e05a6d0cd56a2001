import VersionInfo.Proofs.Dialect.Conditionals
import VersionInfo.Proofs.Source.OneLine

/-!
# The guards of the type

The annotations of the type are guarded by conditionals, in one dialect by a chain with the header
of the type in each branch, in the others by one conditional for each annotation. Both say the same
once the conditionals are resolved. Each line starts with a text that its dialect fixes, so nothing
in a record can make a directive, a header or an annotation.

* `starts_front`, `starts_back`: what the lines around the guards start with.
* `resolve_typeHead`: what is left of the guards, in either style.
* `sourceText_resolved`: what is left of a text.
-/

namespace VersionInfo

open Conditional (Apart IsSymbol Starts asks_elseIfLine asks_ifLine grammar)
open Conditional.Grammar (plain_of_not_starts resolve_chained resolve_guarded resolve_plain)

namespace Dialect

/-! ## The lines around the guards -/

/-- What an annotation starts with, in front of its name. -/
def annotationOpen (d : Dialect) : String := d.attributeOpen ++ d.global

/-- The line is an annotation with a name. -/
def Annotates (d : Dialect) (name line : String) : Prop := Starts (d.annotationOpen ++ name) line

instance (d : Dialect) (name line : String) : Decidable (d.Annotates name line) :=
  inferInstanceAs (Decidable (Starts _ _))

/-- What lines in front of the guards start with. -/
def frontLeads (d : Dialect) : List String :=
  [d.comment, d.namespaceOpen, d.assemblyAttributeOpen] ++ d.attributeBlockEnd.toList

/-- What lines behind the guards start with. -/
def backLeads (d : Dialect) : List String :=
  [d.modifiers .constant, d.modifiers .runtime, d.typeClose] ++
    match d.namespacePlacement with
    | .wholeFile _ => []
    | .aroundType close => [close]

variable (l : Language)

/-- The lines are known by their leads, none of which begins with a blank. -/
theorem starts_self : ∀ lead ∈ (of l).frontLeads ++ (of l).backLeads, Starts lead lead := by
  cases l <;> decide +kernel

theorem starts_typeNamespace (r : Record) :
    (∀ line ∈ ((of l).typeNamespace r).1, Starts (of l).namespaceOpen line) ∧
      ∀ line ∈ ((of l).typeNamespace r).2, ∃ lead ∈ (of l).backLeads, Starts lead line := by
  have self := starts_self l
  unfold typeNamespace
  split
  · rename_i close name placement explicit
    have closes : close ∈ (of l).backLeads := by simp [backLeads, placement]
    refine ⟨List.forall_mem_singleton.mpr ?_, List.forall_mem_singleton.mpr ⟨close, closes, ?_⟩⟩
    · exact ((self _ (by simp [frontLeads])).append _).append _
    · exact self close (List.mem_append_right _ closes)
  · exact ⟨List.forall_mem_nil _, List.forall_mem_nil _⟩

/-- Every line of the banner is empty, the warning directive or a comment. -/
theorem starts_fileHead : ∀ line ∈ (of l).fileHead,
    line ∈ ["", (of l).warningLine] ∨ Starts (of l).comment line := by
  have self := starts_self l (of l).comment (by simp [frontLeads])
  intro line mem
  rcases List.mem_append.mp mem with banner | rest
  · obtain ⟨text, -, rfl⟩ := List.mem_map.mp banner
    exact Or.inr (self.append _)
  · simp only [List.mem_cons, List.not_mem_nil, or_false] at rest
    rcases rest with rfl | rfl | rfl <;> simp

theorem starts_attributes (r : Record) :
    ∀ line ∈ (of l).attributes r, Starts (of l).assemblyAttributeOpen line := by
  have self := starts_self l (of l).assemblyAttributeOpen (by simp [frontLeads])
  have lead : ∀ name argument, Starts (of l).assemblyAttributeOpen
      ((of l).assemblyAttribute name argument) := fun _ _ =>
    ((((((self.append _).append _).append _).append _).append _).append _).append _
  intro line mem
  simp only [attributes, List.mem_cons, List.not_mem_nil, or_false] at mem
  rcases mem with rfl | rfl | rfl <;> exact lead _ _

/-- Every line before the head of the type is empty, the warning directive or starts with one of the
leads that stand there. -/
theorem starts_front (r : Record) :
    ∀ line ∈ (of l).front r,
      line ∈ ["", (of l).warningLine] ∨ ∃ lead ∈ (of l).frontLeads, Starts lead line := by
  have self := fun lead mem => starts_self l lead (List.mem_append_left _ mem)
  have opens : (of l).namespaceOpen ∈ (of l).frontLeads := by simp [frontLeads]
  intro line mem
  unfold front at mem
  rw [preamble_eq] at mem
  simp only [List.mem_append] at mem
  rcases mem with (head | space | attribution | ending) | space
  · exact (starts_fileHead l line head).imp_right fun starts => ⟨_, by simp [frontLeads], starts⟩
  · refine Or.inr ⟨_, opens, ?_⟩
    unfold fileNamespace at space
    split at space
    · rw [List.mem_singleton.mp space]
      exact ((self _ opens).append _).append _
    · cases space
  · exact Or.inr ⟨_, by simp [frontLeads], starts_attributes l r line attribution⟩
  · have given : line ∈ (of l).frontLeads := List.mem_append_right _ ending
    exact Or.inr ⟨line, given, self line given⟩
  · exact Or.inr ⟨_, opens, (starts_typeNamespace l r).1 line space⟩

/-- A member starts with its modifiers, whatever its name and its value are. -/
theorem starts_memberLine (name : String) (value : FieldValue) :
    Starts ((of l).modifiers value.kind) ((of l).memberLine name value) := by
  have lead (kind : ValueKind) :
      Starts ((of l).modifiers kind) ((of l).member.indent ++ (of l).modifiers kind) := by
    cases l <;> cases kind <;> decide
  exact ((((lead value.kind).append _).append _).append _).append _

theorem starts_back (r : Record) (members : NameMap FieldValue) :
    ∀ line ∈ (of l).back r members, ∃ lead ∈ (of l).backLeads, Starts lead line := by
  intro line mem
  rcases List.mem_append.mp mem with member | mem
  · obtain ⟨⟨name, value⟩, -, rfl⟩ := List.mem_map.mp member
    refine ⟨(of l).modifiers value.kind, ?_, starts_memberLine l name value⟩
    cases value.kind <;> simp [backLeads]
  · rcases List.mem_cons.mp mem with rfl | close
    · have closes : (of l).typeClose ∈ (of l).backLeads := by simp [backLeads]
      exact ⟨_, closes, starts_self l _ (List.mem_append_right _ closes)⟩
    · exact (starts_typeNamespace l r).2 line close

/-- What the header of the type and the members behind it start with. -/
def laterLeads (d : Dialect) : List String :=
  [d.typeHeader, d.modifiers .constant, d.modifiers .runtime]

theorem modifiers_mem_laterLeads (d : Dialect) (kind : ValueKind) :
    d.modifiers kind ∈ d.laterLeads := by
  cases kind <;> simp [laterLeads]

/-- A line is no directive and starts with no mark if its lead is apart from all of these. -/
theorem not_starts_of_apart {lead line : String} {marks : List String}
    (apart : ∀ mark ∈ "#" :: marks, Apart lead mark) (h : Starts lead line) :
    (grammar l).Plain line ∧ ∀ mark ∈ marks, ¬ Starts mark line := by
  obtain ⟨hash, others⟩ := List.forall_mem_cons.mp apart
  exact ⟨plain_of_not_starts (hash.not_starts h), fun mark mem => (others mark mem).not_starts h⟩

/-- No line before the head of the type is a conditional directive, an annotation or a later line.
-/
theorem not_starts_front (r : Record) :
    ∀ line ∈ (of l).front r, (grammar l).Plain line ∧
      ∀ mark ∈ (of l).annotationOpen :: (of l).laterLeads, ¬ Starts mark line := by
  have fixed : ∀ line ∈ ["", (of l).warningLine], (grammar l).Plain line ∧
      ∀ mark ∈ (of l).annotationOpen :: (of l).laterLeads, ¬ Starts mark line := by
    cases l <;> decide +kernel
  have apart : ∀ lead ∈ (of l).frontLeads,
      ∀ mark ∈ "#" :: (of l).annotationOpen :: (of l).laterLeads, Apart lead mark := by
    cases l <;> decide +kernel
  intro line mem
  rcases starts_front l r line mem with known | ⟨lead, given, starts⟩
  · exact fixed line known
  · exact not_starts_of_apart l (apart lead given) starts

theorem not_starts_back (r : Record) (members : NameMap FieldValue) :
    ∀ line ∈ (of l).back r members, (grammar l).Plain line ∧
      ∀ mark ∈ [(of l).annotationOpen, (of l).typeHeader], ¬ Starts mark line := by
  have apart : ∀ lead ∈ (of l).backLeads,
      ∀ mark ∈ ["#", (of l).annotationOpen, (of l).typeHeader], Apart lead mark := by
    cases l <;> decide +kernel
  intro line mem
  obtain ⟨lead, given, starts⟩ := starts_back l r members line mem
  exact not_starts_of_apart l (apart lead given) starts

/-! ## The guards -/

/-- The name of the annotation of generated code. -/
def generatedCode : String := "System.CodeDom.Compiler.GeneratedCode"

/-- The name of the annotation for coverage. -/
def excludeFromCodeCoverage : String := "System.Diagnostics.CodeAnalysis.ExcludeFromCodeCoverage"

/-- The annotations that the defined symbols leave. -/
def annotations (d : Dialect) (defined : String → Bool) (name version : String) : List String :=
  (if frameworkSymbols.any defined then [d.generatedCodeAttribute name version] else []) ++
    if modernFrameworkSymbols.any defined then [d.coverageAttribute] else []

theorem annotates_generatedCodeAttribute (name version : String) :
    (of l).Annotates generatedCode ((of l).generatedCodeAttribute name version) := by
  have lead : (of l).Annotates generatedCode
      ((of l).attributeOpen ++ (of l).global ++ "System.CodeDom.Compiler.GeneratedCode(") := by
    cases l <;> decide +kernel
  exact (((((lead.append _).append _).append _).append _).append _)

theorem annotates_coverageAttribute :
    (of l).Annotates excludeFromCodeCoverage (of l).coverageAttribute := by
  cases l <;> decide +kernel

variable {l}

theorem Annotates.starts {name line : String} (h : (of l).Annotates name line) :
    Starts (of l).annotationOpen line := by
  refine List.IsPrefix.trans ?_ h
  rw [String.toList_append]
  exact List.prefix_append _ _

/-- What the lines of the guards start with. -/
def guardLeads (d : Dialect) : List String :=
  [d.conditionals.ifOpen, d.conditionals.elseIfOpen, d.conditionals.elseLine,
    d.conditionals.endLine, d.annotationOpen, d.typeHeader]

/-- Every line of the head of a type is a guard, an annotation or the header, as its lead tells. -/
theorem starts_typeHead (name version : String) :
    ∀ line ∈ (of l).typeHead name version, ∃ lead ∈ (of l).guardLeads, Starts lead line := by
  have self : ∀ lead ∈ (of l).guardLeads, ∃ lead' ∈ (of l).guardLeads, Starts lead' lead := by
    refine fun lead given => ⟨lead, given, ?_⟩
    revert lead
    cases l <;> decide +kernel
  have more {lead : String} (h : ∃ lead' ∈ (of l).guardLeads, Starts lead' lead) (rest : String) :
      ∃ lead' ∈ (of l).guardLeads, Starts lead' (lead ++ rest) :=
    h.imp fun _ starts => ⟨starts.1, starts.2.append rest⟩
  have annotated {name line : String} (h : (of l).Annotates name line) :
      ∃ lead ∈ (of l).guardLeads, Starts lead line :=
    ⟨(of l).annotationOpen, by simp [guardLeads], h.starts⟩
  have generated := annotated (annotates_generatedCodeAttribute l name version)
  have coverage := annotated (annotates_coverageAttribute l)
  simp only [guardLeads, List.forall_mem_cons] at self
  obtain ⟨ifs, elseIfs, otherwise, close, -, header, -⟩ := self
  unfold typeHead
  dsimp only
  split
  · simp only [List.forall_mem_cons]
    exact ⟨more ifs _, generated, close, more ifs _, coverage, close, header,
      List.forall_mem_nil _⟩
  · simp only [List.forall_mem_cons]
    exact ⟨more ifs _, generated, coverage, header, more elseIfs _, generated, header, otherwise,
      header, close, List.forall_mem_nil _⟩

/-- An annotation is neither a directive nor a later line. -/
theorem Annotates.not_starts {name line : String} (h : (of l).Annotates name line) :
    (grammar l).Plain line ∧ ∀ mark ∈ (of l).laterLeads, ¬ Starts mark line := by
  have apart : ∀ mark ∈ "#" :: (of l).laterLeads, Apart (of l).annotationOpen mark := by
    cases l <;> decide +kernel
  exact not_starts_of_apart l apart h.starts

theorem not_starts_annotations (defined : String → Bool) (name version : String) :
    ∀ line ∈ (of l).annotations defined name version,
      ∀ mark ∈ (of l).laterLeads, ¬ Starts mark line := by
  intro line mem
  rcases List.mem_append.mp mem with mem | mem
  · rw [List.mem_singleton.mp (List.mem_ite_nil_right.mp mem).2]
    exact (annotates_generatedCodeAttribute l name version).not_starts.2
  · rw [List.mem_singleton.mp (List.mem_ite_nil_right.mp mem).2]
    exact (annotates_coverageAttribute l).not_starts.2

/-- Each annotation stands once or not at all. -/
theorem filter_annotations (defined : String → Bool) (name version : String) :
    ((of l).annotations defined name version).filter
          (fun line => (of l).Annotates generatedCode line) =
        (if frameworkSymbols.any defined then [(of l).generatedCodeAttribute name version]
          else []) ∧
      ((of l).annotations defined name version).filter
          (fun line => (of l).Annotates excludeFromCodeCoverage line) =
        if modernFrameworkSymbols.any defined then [(of l).coverageAttribute] else [] := by
  have apart : Apart ((of l).annotationOpen ++ generatedCode)
      ((of l).annotationOpen ++ excludeFromCodeCoverage) := by
    cases l <;> decide +kernel
  have generated := annotates_generatedCodeAttribute l name version
  have coverage := annotates_coverageAttribute l
  have noCoverage : ¬ (of l).Annotates excludeFromCodeCoverage _ := apart.not_starts generated
  have noCode : ¬ (of l).Annotates generatedCode _ := apart.symm.not_starts coverage
  unfold annotations
  cases frameworkSymbols.any defined <;> cases modernFrameworkSymbols.any defined <;>
    simp [generated, coverage, noCoverage, noCode]

section Guards

variable (l : Language) {defined : String → Bool} (name version : String) (rest : List String)

/-- The guards ask for the symbols of the frameworks, each by the directive that stands there. -/
theorem asks_frameworks :
    (grammar l).Asks .opens frameworkSymbols ((of l).ifLine frameworkSymbols) ∧
      (grammar l).Asks .elseIf frameworkSymbols ((of l).elseIfLine frameworkSymbols) ∧
      (grammar l).Asks .opens modernFrameworkSymbols ((of l).ifLine modernFrameworkSymbols) := by
  have framework : frameworkSymbols ≠ [] ∧ ∀ symbol ∈ frameworkSymbols, IsSymbol symbol := by
    decide
  have modern : modernFrameworkSymbols ≠ [] ∧
      ∀ symbol ∈ modernFrameworkSymbols, IsSymbol symbol := by
    decide
  exact ⟨asks_ifLine l framework.1 framework.2, asks_elseIfLine l framework.1 framework.2,
    asks_ifLine l modern.1 modern.2⟩

theorem directive?_elseLine :
    (grammar l).directive? (of l).conditionals.elseLine = some ⟨.otherwise, []⟩ := by
  cases l <;> decide +kernel

theorem directive?_endLine :
    (grammar l).directive? (of l).conditionals.endLine = some ⟨.closes, []⟩ := by
  cases l <;> decide +kernel

theorem plain_typeHeader : (grammar l).Plain (of l).typeHeader := by
  cases l <;> decide +kernel

/-- A head whose annotations are guarded one by one resolves to those that are in force, and the
header. -/
theorem resolve_stacked {l : Language} (style : (of l).guard = .stacked) :
    (grammar l).resolve defined [] ((of l).typeHead name version ++ rest) =
      ((grammar l).resolve defined [] rest).map
        ((of l).annotations defined name version ++ (of l).typeHeader :: ·) := by
  obtain ⟨framework, -, modern⟩ := asks_frameworks l
  have closes := directive?_endLine l
  have generated := (annotates_generatedCodeAttribute l name version).not_starts.1
  have coverage := (annotates_coverageAttribute l).not_starts.1
  have header := plain_typeHeader l
  unfold typeHead annotations
  rw [style]
  -- The lines, cut where the directives stand.
  change (grammar l).resolve defined [] ((of l).ifLine frameworkSymbols ::
    ([(of l).generatedCodeAttribute name version] ++ (of l).conditionals.endLine ::
      (of l).ifLine modernFrameworkSymbols :: ([(of l).coverageAttribute] ++
        (of l).conditionals.endLine :: ([(of l).typeHeader] ++ rest)))) = _
  rw [resolve_guarded framework (List.forall_mem_singleton.mpr generated) closes,
    resolve_guarded modern (List.forall_mem_singleton.mpr coverage) closes,
    resolve_plain (List.forall_mem_singleton.mpr header)]
  simp only [Option.map_map, Function.comp_def, List.append_assoc, List.all_nil, if_true,
    List.singleton_append]

/-- A head with one chain of guards resolves to the same annotations, if a modern framework is a
framework at all. -/
theorem resolve_chained_head {l : Language} (style : (of l).guard = .chained)
    (target : modernFrameworkSymbols.any defined = true → frameworkSymbols.any defined = true) :
    (grammar l).resolve defined [] ((of l).typeHead name version ++ rest) =
      ((grammar l).resolve defined [] rest).map
        ((of l).annotations defined name version ++ (of l).typeHeader :: ·) := by
  obtain ⟨-, framework, modern⟩ := asks_frameworks l
  have header := List.forall_mem_singleton.mpr (plain_typeHeader l)
  have coverage := List.forall_mem_cons.mpr
    ⟨(annotates_coverageAttribute l).not_starts.1, header⟩
  have generated := (annotates_generatedCodeAttribute l name version).not_starts.1
  unfold typeHead annotations
  rw [style]
  change (grammar l).resolve defined [] ((of l).ifLine modernFrameworkSymbols ::
    ([(of l).generatedCodeAttribute name version, (of l).coverageAttribute,
        (of l).typeHeader] ++ (of l).elseIfLine frameworkSymbols ::
      ([(of l).generatedCodeAttribute name version, (of l).typeHeader] ++
        (of l).conditionals.elseLine :: ([(of l).typeHeader] ++
          (of l).conditionals.endLine :: rest)))) = _
  rw [resolve_chained modern (List.forall_mem_cons.mpr ⟨generated, coverage⟩) framework
    (List.forall_mem_cons.mpr ⟨generated, header⟩) (directive?_elseLine l) header
    (directive?_endLine l)]
  -- The modern symbols are asked for first; they may be so only because they imply the others.
  cases left : modernFrameworkSymbols.any defined with
  | true => simp only [target left, if_true]; rfl
  | false => cases frameworkSymbols.any defined <;> rfl

end Guards

/-- **The guards, resolved**: in either style the annotations of the frameworks and one header. -/
theorem resolve_typeHead {defined : String → Bool}
    (target : modernFrameworkSymbols.any defined = true → frameworkSymbols.any defined = true)
    (name version : String) (rest : List String) :
    (grammar l).resolve defined [] ((of l).typeHead name version ++ rest) =
      ((grammar l).resolve defined [] rest).map
        ((of l).annotations defined name version ++ (of l).typeHeader :: ·) := by
  cases style : (of l).guard with
  | stacked => exact resolve_stacked name version rest style
  | chained => exact resolve_chained_head name version rest style target

end Dialect

/-! ## The text, resolved -/

open Dialect (excludeFromCodeCoverage generatedCode of)

/-- What the lines in front of the header of the type and behind it have to be, once the
conditionals of a text are resolved. -/
structure Resolved (l : Language) (r : Record) (defined : String → Bool)
    (members : NameMap FieldValue) (before after : List String) : Prop where
  plain : ∀ line ∈ before ++ (of l).typeHeader :: after, (grammar l).Plain line
  /-- The header is the only one. -/
  header : ∀ line ∈ before ++ after, ¬ Starts (of l).typeHeader line
  generated : before.filter (fun line => (of l).Annotates generatedCode line) =
    if frameworkSymbols.any defined then
      [(of l).generatedCodeAttribute r.generator r.generatorRelease]
    else []
  coverage : before.filter (fun line => (of l).Annotates excludeFromCodeCoverage line) =
    if modernFrameworkSymbols.any defined then [(of l).coverageAttribute] else []
  /-- Annotations stand in front of the header. -/
  front : ∀ name, ∀ line ∈ after, ¬ (of l).Annotates name line
  /-- Members stand behind it. -/
  back : ∀ line ∈ (of l).memberLines members, line ∉ before
  members : (of l).memberLines members <+: after

/-- A text, resolved: the lines around the guards stay as they are. -/
theorem resolve_around (l : Language) {r : Record} (emit : r.emitType = true)
    {defined : String → Bool}
    (target : modernFrameworkSymbols.any defined = true → frameworkSymbols.any defined = true)
    (members : NameMap FieldValue) :
    (grammar l).resolve defined [] ((of l).sourceLines r members) =
      some (((of l).front r ++ (of l).annotations defined r.generator r.generatorRelease) ++
        (of l).typeHeader :: (of l).back r members) := by
  have split : (of l).sourceLines r members = (of l).front r ++
      ((of l).typeHead r.generator r.generatorRelease ++ ((of l).back r members ++ [])) := by
    rw [List.append_nil, sourceLines_eq emit]
  rw [split, resolve_plain fun line mem => (Dialect.not_starts_front l r line mem).1,
    Dialect.resolve_typeHead target,
    resolve_plain fun line mem => (Dialect.not_starts_back l r members line mem).1]
  simp only [Conditional.Grammar.resolve, List.all_nil, List.isEmpty_nil, if_true, Option.map_some,
    List.append_nil, List.append_assoc]

/-- The lines of a text with its type resolve under all symbols, and around the header stand the
lines that they should. -/
theorem resolved_around (l : Language) {r : Record} (emit : r.emitType = true)
    {defined : String → Bool}
    (target : modernFrameworkSymbols.any defined = true → frameworkSymbols.any defined = true)
    (members : NameMap FieldValue) :
    Resolved l r defined members
      ((of l).front r ++ (of l).annotations defined r.generator r.generatorRelease)
      ((of l).back r members) := by
  have front := fun line mem => (Dialect.not_starts_front l r line mem).2
  have back := fun line mem => (Dialect.not_starts_back l r members line mem).2
  have early : ∀ line ∈
      (of l).front r ++ (of l).annotations defined r.generator r.generatorRelease,
      ∀ mark ∈ (of l).laterLeads, ¬ Starts mark line := by
    refine List.forall_mem_append.mpr ⟨fun line mem => ?_, ?_⟩
    · exact (List.forall_mem_cons.mp (front line mem)).2
    · exact Dialect.not_starts_annotations defined r.generator r.generatorRelease
  have none_front (name : String) :
      ((of l).front r).filter (fun line => (of l).Annotates name line) = [] := by
    refine List.filter_eq_nil_iff.mpr fun line mem => ?_
    rw [decide_eq_true_eq]
    exact fun h => front line mem _ List.mem_cons_self h.starts
  have once := Dialect.filter_annotations (l := l) defined r.generator r.generatorRelease
  constructor
  case plain => exact Conditional.Grammar.plain_of_resolve (resolve_around l emit target members)
  case header =>
    refine List.forall_mem_append.mpr ⟨fun line mem => ?_, fun line mem => ?_⟩
    · exact early line mem _ List.mem_cons_self
    · exact back line mem _ (List.mem_cons_of_mem _ List.mem_cons_self)
  case generated => rw [List.filter_append, none_front, once.1, List.nil_append]
  case coverage => rw [List.filter_append, none_front, once.2, List.nil_append]
  case front => exact fun name line mem h => back line mem _ List.mem_cons_self h.starts
  case back =>
    intro line member mem
    obtain ⟨⟨name, value⟩, -, rfl⟩ := List.mem_map.mp member
    exact early _ mem _ ((of l).modifiers_mem_laterLeads value.kind)
      (Dialect.starts_memberLine l name value)
  case members => exact List.prefix_append _ _

/-- **The guards mean the same in every language.** Resolved for some symbols, the text of a record
has no directive left and one header, with the annotations that the symbols call for in front of it,
each once, and the members behind it. No framework is modern without being a framework. -/
theorem sourceText_resolved {r : Record} (generated : ∃ text, r.sourceText = .ok text)
    (emit : r.emitType = true) (names : r.OneLineNames) {defined : String → Bool}
    (target : modernFrameworkSymbols.any defined = true → frameworkSymbols.any defined = true) :
    ∃ members, r.members = .ok members ∧ ∀ l : Language, ∃ text before after,
      Record.sourceText { r with selector := l.selector } = .ok text ∧
        (grammar l).resolve defined [] (linesOf text) =
          some (before ++ (of l).typeHeader :: after) ∧
        Resolved l r defined members before after := by
  have accepted := (exists_sourceText_iff r).mp generated
  obtain ⟨text, made⟩ := generated
  obtain ⟨_, members, -, hmembers, -⟩ := Record.sourceText_eq_ok_iff.mp made
  refine ⟨members, hmembers, fun l => ?_⟩
  refine ⟨_, _, _, sourceText_withLanguage hmembers l, ?_, resolved_around l emit target members⟩
  rw [linesOf_lineText (Dialect.oneLine_sourceLines l names accepted hmembers)]
  exact resolve_around l emit target members

/-- A record whose names look like directives. -/
def hashedRecord : Record where
  selector := "vb"
  typeNamespace := some "#Else"
  fields := [.string "#End If" "#If", ⟨"#ElseIf", "Boolean", "true", false⟩]
  generatorName := some "<Global."

/-- The symbols of a framework that knows both annotations. -/
def modernCore (symbol : String) : Bool :=
  symbol == "NETCOREAPP" || symbol == "NETCOREAPP2_0_OR_GREATER"

/-- The names look like directives, and the target knows both annotations. -/
theorem sourceText_resolved_hashed :
    (∃ text, hashedRecord.sourceText = .ok text) ∧ hashedRecord.emitType = true ∧
      hashedRecord.OneLineNames ∧
      (modernFrameworkSymbols.any modernCore = true → frameworkSymbols.any modernCore = true) ∧
      ∃ text before after, hashedRecord.sourceText = .ok text ∧
        (grammar .visualBasic).resolve modernCore [] (linesOf text) =
          some (before ++ (of .visualBasic).typeHeader :: after) ∧
        before.filter (fun line => (of .visualBasic).Annotates generatedCode line) =
          [(of .visualBasic).generatedCodeAttribute "<Global." "1.0.0"] ∧
        before.filter (fun line => (of .visualBasic).Annotates excludeFromCodeCoverage line) =
          [(of .visualBasic).coverageAttribute] := by
  have generated : ∃ text, hashedRecord.sourceText = .ok text := ⟨_, rfl⟩
  have names : hashedRecord.OneLineNames := ⟨by decide, by decide, by decide⟩
  have target : modernFrameworkSymbols.any modernCore = true →
      frameworkSymbols.any modernCore = true := by decide
  obtain ⟨members, -, all⟩ := sourceText_resolved generated rfl names target
  obtain ⟨text, before, after, made, left, resolved⟩ := all .visualBasic
  exact ⟨generated, rfl, names, target, text, before, after, made, left,
    resolved.generated.trans rfl, resolved.coverage.trans rfl⟩

end VersionInfo
