import VersionInfo.Proofs.Dialect.MemberReading
import VersionInfo.Proofs.Source.OneLine

/-!
# Readability of the generated text

The lines of a text are read from its head to its end. The lines in front of the namespace tell the
language; from then on the dialect says how many lines come next, but for the namespace around the
type, which is told from a directive, and the members, which end where the type is closed.

* `typeBlock_inj`: the lines of the type tell the namespace, the generator and the members.
* `sourceLines_inj`: the lines of a text tell what it is to carry.
* `sourceText_determines`: two records with one text agree in all that the text is to carry.
-/

namespace VersionInfo

namespace Dialect

/-- The line of the namespace in a text, or none. -/
def namespaceLines (d : Dialect) (r : Record) : List String :=
  d.fileNamespace r ++ if r.emitType then (d.typeNamespace r).1 else []

/-! ## Reading the lines -/

/-- Whether a namespace stands in the preamble depends on the dialect only. -/
theorem length_fileNamespace (d : Dialect) (r s : Record) :
    (d.fileNamespace r).length = (d.fileNamespace s).length := by
  unfold fileNamespace
  split
  · rw [List.length_singleton, List.length_singleton]
  · rfl

/-- The banner tells the language. -/
theorem of_fileHead {l m : Language} {rest rest' : List String}
    (h : (of l).fileHead ++ rest = (of m).fileHead ++ rest') : l = m ∧ rest = rest' := by
  have lengths : (of l).fileHead.length = (of m).fileHead.length := by
    rw [length_fileHead, length_fileHead]
  obtain ⟨heads, same⟩ := List.append_inj h lengths
  refine ⟨?_, same⟩
  -- The line of the warning is the eleventh one.
  have warning : (of l).warningLine = (of m).warningLine := by
    have lines := congrArg (fun lines => lines[10]?) heads
    exact Option.some.inj lines
  revert warning
  cases l <;> cases m <;> decide

theorem assemblyAttribute_inj {l : Language} {name s t : String}
    (h : (of l).assemblyAttribute name s = (of l).assemblyAttribute name t) : s = t := by
  unfold assemblyAttribute at h
  rw [String.append_left_inj, String.append_left_inj, String.append_right_inj] at h
  exact stringLiteral_injective l h

theorem attributes_inj {l : Language} {r s : Record}
    (h : (of l).attributes r = (of l).attributes s) :
    r.assemblyVersion = s.assemblyVersion ∧ r.fileVersion = s.fileVersion ∧
      r.informationalVersion = s.informationalVersion := by
  obtain ⟨assembly, h⟩ := List.cons.inj h
  obtain ⟨file, h⟩ := List.cons.inj h
  obtain ⟨informational, -⟩ := List.cons.inj h
  exact ⟨assemblyAttribute_inj assembly, assemblyAttribute_inj file,
    assemblyAttribute_inj informational⟩

theorem generatedCodeAttribute_inj {l : Language} {name name' version version' : String}
    (h : (of l).generatedCodeAttribute name version =
      (of l).generatedCodeAttribute name' version') :
    name = name' ∧ version = version' := by
  have ends : ∀ rest, ¬ Continues (',' :: rest) := by
    rintro rest (quote | ⟨more, splice⟩)
    · cases quote
    · cases splice
  have comma : ",".toList = [','] := rfl
  unfold generatedCodeAttribute at h
  rw [String.append_left_inj, String.append_left_inj] at h
  have chars := congrArg String.toList h
  simp only [String.toList_append, comma, List.append_assoc, List.singleton_append] at chars
  have literals := List.append_cancel_left (List.append_cancel_left (List.append_cancel_left chars))
  obtain ⟨same, rest⟩ := stringLiteral_append_inj (ends _) (ends _) literals
  exact ⟨same, stringLiteral_injective l (String.toList_inj.mp (List.cons.inj rest).2)⟩

theorem typeHead_inj {l : Language} {name name' version version' : String}
    (h : (of l).typeHead name version = (of l).typeHead name' version') :
    name = name' ∧ version = version' := by
  unfold typeHead at h
  dsimp only at h
  split at h
  · exact generatedCodeAttribute_inj (List.cons.inj (List.cons.inj h).2).1
  · exact generatedCodeAttribute_inj (List.cons.inj (List.cons.inj h).2).1

theorem memberLines_injective (l : Language) : Function.Injective (of l).memberLines := by
  refine List.map_injective_iff.mpr ?_
  rintro ⟨m, v⟩ ⟨n, w⟩ h
  obtain ⟨rfl, rfl⟩ := memberLine_inj h
  rfl

/-- What a line starts with tells a directive from a namespace. -/
theorem typeHead_ne_namespaceLine {l : Language} {name version space : String}
    {rest rest' : List String} :
    (of l).typeHead name version ++ rest ≠ (of l).namespaceLine space :: rest' := by
  have directive :
      ∃ symbols more, (of l).typeHead name version = (of l).ifLine symbols :: more := by
    cases l <;> exact ⟨_, _, rfl⟩
  have hash : ∀ symbols, ((of l).ifLine symbols).toList.head? = some '#' := by
    have opened : (of l).conditionals.ifOpen.toList.head? = some '#' := by cases l <;> rfl
    intro symbols
    rw [ifLine, String.toList_append, List.head?_append, opened]
    rfl
  have letter : ((of l).namespaceLine space).toList.head? ≠ some '#' := by
    rw [namespaceLine, String.toList_append, String.toList_append, List.append_assoc]
    cases l <;> exact fun h => absurd (Option.some.inj h) (by decide)
  intro h
  obtain ⟨symbols, more, head⟩ := directive
  rw [head] at h
  exact letter ((List.cons.inj h).1 ▸ hash symbols)

theorem typeNamespace_cases (d : Dialect) (r : Record) :
    d.typeNamespace r = ([], []) ∨
      ∃ name close, d.typeNamespace r = ([d.namespaceLine name], [close]) := by
  unfold typeNamespace
  split
  · exact Or.inr ⟨_, _, rfl⟩
  · exact Or.inl rfl

/-- The lines of the type tell whether a namespace stands around it, and which. -/
theorem typeNamespace_of_typeBlock {l : Language} {r s : Record}
    {members members' : NameMap FieldValue}
    (h : (of l).typeBlock r members = (of l).typeBlock s members') :
    ((of l).typeNamespace r).1 = ((of l).typeNamespace s).1 ∧
      ((of l).typeNamespace r).2.length = ((of l).typeNamespace s).2.length := by
  unfold typeBlock at h
  simp only [List.append_assoc] at h
  rcases typeNamespace_cases (of l) r with hr | ⟨name, close, hr⟩
  · rcases typeNamespace_cases (of l) s with hs | ⟨name', close', hs⟩
    · rw [hr, hs]
      exact ⟨rfl, rfl⟩
    · rw [hr, hs] at h
      exact absurd h typeHead_ne_namespaceLine
  · rcases typeNamespace_cases (of l) s with hs | ⟨name', close', hs⟩
    · rw [hr, hs] at h
      exact absurd h.symm typeHead_ne_namespaceLine
    · rw [hr, hs] at h ⊢
      exact ⟨congrArg (fun line => [line]) (List.cons.inj h).1, rfl⟩

/-- **The lines of the type tell the namespace, the generator and the members.** -/
theorem typeBlock_inj {l : Language} {r s : Record} {members members' : NameMap FieldValue}
    (h : (of l).typeBlock r members = (of l).typeBlock s members') :
    ((of l).typeNamespace r).1 = ((of l).typeNamespace s).1 ∧ r.generator = s.generator ∧
      r.generatorRelease = s.generatorRelease ∧ members = members' := by
  obtain ⟨opened, closed⟩ := typeNamespace_of_typeBlock h
  unfold typeBlock at h
  simp only [List.append_assoc, opened] at h
  have heads : ((of l).typeHead r.generator r.generatorRelease).length =
      ((of l).typeHead s.generator s.generatorRelease).length := by
    rw [length_typeHead, length_typeHead]
  obtain ⟨head, h⟩ := List.append_inj (List.append_cancel_left h) heads
  obtain ⟨generator, release⟩ := typeHead_inj head
  have ends : ([(of l).typeClose] ++ ((of l).typeNamespace r).2).length =
      ([(of l).typeClose] ++ ((of l).typeNamespace s).2).length := by
    rw [List.length_append, List.length_append, closed]
  obtain ⟨lines, -⟩ := List.append_inj' h ends
  exact ⟨opened, generator, release, memberLines_injective l lines⟩

theorem typeBlock_ne_nil (d : Dialect) (r : Record) (members : NameMap FieldValue) :
    d.typeBlock r members ≠ [] := by
  unfold typeBlock
  exact List.append_ne_nil_of_left_ne_nil
    (List.append_ne_nil_of_right_ne_nil _ (List.cons_ne_nil _ _)) _

/-- **The lines of a text tell what it is to carry.** -/
theorem sourceLines_inj {l m : Language} {r s : Record} {members members' : NameMap FieldValue}
    (h : (of l).sourceLines r members = (of m).sourceLines s members') :
    l = m ∧ r.assemblyVersion = s.assemblyVersion ∧ r.fileVersion = s.fileVersion ∧
      r.informationalVersion = s.informationalVersion ∧ r.emitType = s.emitType ∧
      (of l).namespaceLines r = (of l).namespaceLines s ∧
      (r.emitType = true → r.generator = s.generator ∧ r.generatorRelease = s.generatorRelease ∧
        members = members') := by
  unfold sourceLines at h
  simp only [preamble_eq, List.append_assoc] at h
  obtain ⟨rfl, h⟩ := of_fileHead h
  obtain ⟨space, h⟩ := List.append_inj h (length_fileNamespace (of l) r s)
  have lengths : ((of l).attributes r).length = ((of l).attributes s).length := by
    rw [length_attributes, length_attributes]
  obtain ⟨attributes, h⟩ := List.append_inj h lengths
  obtain ⟨assembly, file, informational⟩ := attributes_inj attributes
  have types := List.append_cancel_left h
  unfold namespaceLines
  cases hr : r.emitType with
  | false =>
    cases hs : s.emitType with
    | false => exact ⟨rfl, assembly, file, informational, rfl, by rw [space]; rfl, nofun⟩
    | true =>
      rw [hr, hs] at types
      exact absurd types.symm (typeBlock_ne_nil _ _ _)
  | true =>
    cases hs : s.emitType with
    | false =>
      rw [hr, hs] at types
      exact absurd types (typeBlock_ne_nil _ _ _)
    | true =>
      rw [hr, hs] at types
      obtain ⟨opened, generator, release, same⟩ := typeBlock_inj types
      exact ⟨rfl, assembly, file, informational, rfl, by rw [space, opened],
        fun _ => ⟨generator, release, same⟩⟩

end Dialect

/-- **A text tells what it is to carry.** Two records with one text select the same language and
have the same versions and the same namespace line; both or neither of their types are emitted, and
if they are, the generator and the members are the same, in name, type, value and order. The names
may be any that hold no line feed. -/
theorem sourceText_determines {r s : Record} {text : String} (hr : r.sourceText = .ok text)
    (hs : s.sourceText = .ok text) (namesR : r.OneLineNames) (namesS : s.OneLineNames) :
    ∃ l, r.language = .ok l ∧ s.language = .ok l ∧ r.selector = s.selector ∧
      r.assemblyVersion = s.assemblyVersion ∧ r.fileVersion = s.fileVersion ∧
      r.informationalVersion = s.informationalVersion ∧ r.emitType = s.emitType ∧
      (Dialect.of l).namespaceLines r = (Dialect.of l).namespaceLines s ∧
      (r.emitType = true → r.generator = s.generator ∧ r.generatorRelease = s.generatorRelease ∧
        ∃ members, r.members = .ok members ∧ s.members = .ok members) := by
  have acceptedR := (exists_sourceText_iff r).mp ⟨text, hr⟩
  have acceptedS := (exists_sourceText_iff s).mp ⟨text, hs⟩
  obtain ⟨l, members, languageR, membersR, rfl⟩ := Record.sourceText_eq_ok_iff.mp hr
  obtain ⟨m, members', languageS, membersS, same⟩ := Record.sourceText_eq_ok_iff.mp hs
  have lines := lineText_injective (Dialect.oneLine_sourceLines l namesR acceptedR membersR)
    (Dialect.oneLine_sourceLines m namesS acceptedS membersS) same
  obtain ⟨rfl, assembly, file, informational, emit, space, type⟩ := Dialect.sourceLines_inj lines
  have selector : r.selector = s.selector :=
    (Record.language_eq_ok_iff.mp languageR).symm.trans (Record.language_eq_ok_iff.mp languageS)
  refine ⟨l, languageR, languageS, selector, assembly, file, informational, emit, space, ?_⟩
  intro emitted
  obtain ⟨generator, release, rfl⟩ := type emitted
  exact ⟨generator, release, members, membersR, membersS⟩

/-- A record with a field whose name looks like the end of a member line. -/
def strangeRecord : Record where
  selector := "vb"
  rootNamespace := some "Tool"
  fields := [.string "a As String = \"b" "c", .string "Dropped" ""]

/-- The same with the generator's name spelled out, and without the field that is left out. -/
def strangeRecordAgain : Record where
  selector := "vb"
  rootNamespace := some "Tool"
  fields := [.string "a As String = \"b" "c"]
  generatorName := some "thisassembly-core"

/-- One text of two records: the generator is told by the text, a field that is left out is not. -/
theorem sourceText_determines_strange :
    ∃ text, strangeRecord.sourceText = .ok text ∧ strangeRecordAgain.sourceText = .ok text ∧
      strangeRecord.OneLineNames ∧ strangeRecordAgain.OneLineNames ∧
      strangeRecord.generator = strangeRecordAgain.generator ∧
      ∃ members, strangeRecord.members = .ok members ∧
        strangeRecordAgain.members = .ok members := by
  have names : strangeRecord.OneLineNames := ⟨by decide, by decide, by decide⟩
  have namesAgain : strangeRecordAgain.OneLineNames := ⟨by decide, by decide, by decide⟩
  obtain ⟨text, made⟩ : ∃ text, strangeRecord.sourceText = .ok text := ⟨_, rfl⟩
  have again : strangeRecordAgain.sourceText = .ok text := made ▸ rfl
  obtain ⟨l, -, -, -, -, -, -, -, -, type⟩ := sourceText_determines made again names namesAgain
  obtain ⟨generator, -, members, first, second⟩ := type rfl
  exact ⟨text, made, again, names, namesAgain, generator, members, first, second⟩

end VersionInfo
