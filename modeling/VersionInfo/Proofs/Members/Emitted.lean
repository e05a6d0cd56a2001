import VersionInfo.Proofs.Members.Checks
import VersionInfo.Proofs.NameMap
import VersionInfo.Proofs.Source.Parts

/-!
# The members that a text holds

`Record.Emits` says which names and values the text of a record is to declare: six built-in members
always, the other built-in strings unless they are empty, the commit date if there is one, and
each field of the record unless its value is an empty string that it does not ask for. The members
of an accepted record are these and no others, in ascending order of names. Built-in names are
reserved and fields have different names, so nothing is replaced when the members are put into a
map.

* `members_perm`: the members are the emitted fields, each once.
* `mem_members_iff`: the members are those that `Record.Emits` names.
* `sourceText_members`: the text lists them in order, between the head of the type and its close,
  in every language.
-/

namespace VersionInfo

namespace Record

/-- The members that the text of a record is to have. -/
inductive Emits (r : Record) : String → FieldValue → Prop
  | company : r.Emits "AssemblyCompany" (.string r.company)
  | fileVersion : r.Emits "AssemblyFileVersion" (.string r.fileVersion)
  | assemblyVersion : r.Emits "AssemblyVersion" (.string r.assemblyVersion)
  | isPrerelease : r.Emits "IsPrerelease" (.boolean r.isPrerelease)
  | isPublicRelease : r.Emits "IsPublicRelease" (.boolean r.isPublicRelease)
  | rootNamespace : r.Emits "RootNamespace" (.string (r.rootNamespace.getD ""))
  | informationalVersion (given : r.informationalVersion ≠ "") :
      r.Emits "AssemblyInformationalVersion" (.string r.informationalVersion)
  | title (given : r.title ≠ "") : r.Emits "AssemblyTitle" (.string r.title)
  | product (given : r.product ≠ "") : r.Emits "AssemblyProduct" (.string r.product)
  | configuration (given : r.configuration ≠ "") :
      r.Emits "AssemblyConfiguration" (.string r.configuration)
  | commitId (given : r.commitId ≠ "") : r.Emits "GitCommitId" (.string r.commitId)
  | commitDate {date : Ticks} (given : r.commitDate = some date) :
      r.Emits "GitCommitDate" (.ticks date)
  | own {raw : RawField} {f : Field} (mem : raw ∈ r.fields) (resolves : raw.resolve = .ok f)
      (kept : f.value ≠ .string "" ∨ raw.emitIfEmpty = true) : r.Emits raw.name f.value

theorem Emits.name_mem {r : Record} {name : String} {value : FieldValue} (h : r.Emits name value) :
    name ∈ builtinNames ∨ ∃ raw ∈ r.fields, raw.name = name := by
  cases h with
  | own mem _ _ => exact Or.inr ⟨_, mem, rfl⟩
  | _ => exact Or.inl (by decide)

/-- The built-in members of a record, the commit date included. -/
def builtins (r : Record) : List Field :=
  r.plainBuiltins ++ r.commitDate.toList.map fun t => ⟨"GitCommitDate", .ticks t, false⟩

/-! ## The fields that could become members -/

/-- The fields that some raw fields stand for, where they stand for any. -/
def resolvedFields (raws : List RawField) : List Field :=
  raws.filterMap fun raw => raw.resolve.toOption

theorem toOption_eq_some_iff {ε α : Type} {x : Except ε α} {a : α} :
    x.toOption = some a ↔ x = .ok a := by
  cases x <;> simp [Except.toOption]

theorem mem_resolvedFields_iff {raws : List RawField} {f : Field} :
    f ∈ resolvedFields raws ↔ ∃ raw ∈ raws, raw.resolve = .ok f := by
  simp only [resolvedFields, List.mem_filterMap, toOption_eq_some_iff]

theorem resolvedFields_cons {raw : RawField} {f : Field} (h : raw.resolve = .ok f)
    (rest : List RawField) : resolvedFields (raw :: rest) = f :: resolvedFields rest :=
  List.filterMap_cons_some (toOption_eq_some_iff.mpr h)

/-- Where all fields resolve, none of the names is lost. -/
theorem names_resolvedFields {raws : List RawField}
    (h : ∀ raw ∈ raws, ∃ f, raw.resolve = .ok f) :
    (resolvedFields raws).map Field.name = raws.map RawField.name := by
  induction raws with
  | nil => rfl
  | cons raw rest ih =>
    obtain ⟨⟨f, hraw⟩, hrest⟩ := List.forall_mem_cons.mp h
    rw [resolvedFields_cons hraw, List.map_cons, List.map_cons, ih hrest,
      RawField.name_of_resolve hraw]

/-- The loop of `collect_members` gives the fields as they resolve. The names taken decide only
whether it succeeds. -/
theorem eq_resolvedFields {taken : List String} {raws : List RawField} {fields : List Field}
    (h : resolveFields taken raws = .ok fields) : fields = resolvedFields raws := by
  induction raws generalizing taken fields with
  | nil =>
    cases h
    rfl
  | cons raw rest ih =>
    unfold resolveFields at h
    cases hraw : raw.resolve with
    | error e => rw [hraw] at h; cases h
    | ok field =>
      rw [hraw] at h
      change (if _ then _ else _) = _ at h
      split at h
      · cases h
      · cases hrest : resolveFields (field.name :: taken) rest with
        | error e => rw [hrest] at h; cases h
        | ok others =>
          rw [hrest] at h
          cases h
          rw [resolvedFields_cons hraw, ih hrest]

theorem allFields_eq {r : Record} {fields : List Field} (h : r.allFields = .ok fields) :
    fields = r.builtins ++ resolvedFields r.fields := by
  unfold allFields at h
  cases hdate : r.commitDateField with
  | error e => rw [hdate] at h; cases h
  | ok date =>
    cases hown : resolveFields builtinNames r.fields with
    | error e => rw [hdate, hown] at h; cases h
    | ok own =>
      have dates : date = r.commitDate.toList.map fun t => ⟨"GitCommitDate", .ticks t, false⟩ := by
        unfold commitDateField at hdate
        cases hd : r.commitDate with
        | none => rw [hd] at hdate; cases hdate; rfl
        | some t =>
          rw [hd] at hdate
          dsimp only at hdate
          split at hdate
          · cases hdate; rfl
          · cases hdate
      rw [hdate, hown] at h
      cases h
      rw [dates, eq_resolvedFields hown]
      rfl

/-! ## No name stands twice -/

theorem names_builtins (r : Record) :
    (r.builtins.map Field.name).Nodup ∧ ∀ n ∈ r.builtins.map Field.name, n ∈ builtinNames := by
  have names : r.builtins.map Field.name = ["AssemblyCompany", "AssemblyFileVersion",
      "AssemblyVersion", "IsPrerelease", "IsPublicRelease", "RootNamespace",
      "AssemblyInformationalVersion", "AssemblyTitle", "AssemblyProduct", "AssemblyConfiguration",
      "GitCommitId"] ++ r.commitDate.toList.map fun _ => "GitCommitDate" := by
    unfold builtins
    rw [List.map_append, List.map_map]
    rfl
  rw [names]
  cases r.commitDate with
  | none => decide
  | some t =>
    rw [Option.toList_some, List.map_singleton]
    decide

/-- In an accepted record no two fields have one name, built-in ones included. -/
theorem Accepted.names_nodup {r : Record} (ha : r.Accepted) :
    ((r.builtins ++ resolvedFields r.fields).map Field.name).Nodup := by
  rw [List.map_append, names_resolvedFields ha.resolves, List.nodup_append]
  refine ⟨r.names_builtins.1, ha.distinct, fun a builtin b given same => ?_⟩
  obtain ⟨raw, hraw, rfl⟩ := List.mem_map.mp given
  exact ha.unreserved raw hraw (same ▸ r.names_builtins.2 a builtin)

/-! ## The members -/

/-- The name and the value that a field declares. -/
abbrev entry (f : Field) : String × FieldValue := (f.name, f.value)

/-- The names and values that are put into the map of the members. -/
def entries (r : Record) : List (String × FieldValue) :=
  ((r.builtins ++ resolvedFields r.fields).filter Field.shouldEmit).map entry

theorem Accepted.nodup_entries {r : Record} (ha : r.Accepted) :
    (r.entries.map Prod.fst).Nodup := by
  unfold entries
  rw [List.map_map]
  exact ha.names_nodup.sublist (List.filter_sublist.map _)

/-- The members are the entries that are kept, ordered by name. -/
theorem members_eq_ofList {r : Record} {members : NameMap FieldValue}
    (h : r.members = .ok members) : members = NameMap.ofList r.entries := by
  unfold Record.members at h
  cases hall : r.allFields with
  | error e => rw [hall] at h; cases h
  | ok fields =>
    rw [hall, allFields_eq hall] at h
    exact (Except.ok.inj h).symm

theorem ascending_members {r : Record} {members : NameMap FieldValue}
    (h : r.members = .ok members) : members.Ascending := by
  rw [members_eq_ofList h]
  exact NameMap.ascending_ofList _

/-- **The members are the emitted fields**, each once: none replaces another in the map. -/
theorem members_perm {r : Record} (ha : r.Accepted) {members : NameMap FieldValue}
    (h : r.members = .ok members) : members.Perm r.entries := by
  rw [members_eq_ofList h]
  exact NameMap.ofList_perm ha.nodup_entries

theorem shouldEmit_iff {f : Field} :
    f.shouldEmit = true ↔ f.value ≠ .string "" ∨ f.emitIfEmpty = true := by
  rw [← Bool.not_eq_false, Field.shouldEmit_eq_false_iff]
  cases f.emitIfEmpty <;> simp

/-- A built-in field that is kept is a member by one of the rules of `Emits`, case by case. -/
theorem emits_of_mem_builtins {r : Record} {f : Field} (mem : f ∈ r.builtins)
    (kept : f.shouldEmit = true) : r.Emits f.name f.value := by
  -- A string that is not always emitted is emitted for what it holds.
  have given : ∀ {s : String}, f.value = .string s → f.emitIfEmpty = false → s ≠ "" := by
    rintro s hs hf rfl
    rw [Field.shouldEmit_eq_false_iff.mpr ⟨hf, hs⟩] at kept
    cases kept
  rcases List.mem_append.mp mem with mem | mem
  · simp only [plainBuiltins, List.mem_cons, List.not_mem_nil, or_false] at mem
    rcases mem with rfl | rfl | rfl | rfl | rfl | rfl | rfl | rfl | rfl | rfl | rfl
    · exact .company
    · exact .fileVersion
    · exact .assemblyVersion
    · exact .isPrerelease
    · exact .isPublicRelease
    · exact .rootNamespace
    · exact .informationalVersion (given rfl rfl)
    · exact .title (given rfl rfl)
    · exact .product (given rfl rfl)
    · exact .configuration (given rfl rfl)
    · exact .commitId (given rfl rfl)
  · obtain ⟨date, hdate, rfl⟩ := List.mem_map.mp mem
    exact .commitDate (Option.mem_toList.mp hdate)

/-- Every rule of `Emits` names a field that is kept. -/
theorem exists_field_of_emits {r : Record} {name : String} {value : FieldValue}
    (h : r.Emits name value) :
    ∃ f ∈ r.builtins ++ resolvedFields r.fields, f.shouldEmit = true ∧ entry f = (name, value) := by
  have plain : ∀ f ∈ r.plainBuiltins, f.value ≠ .string "" ∨ f.emitIfEmpty = true →
      ∃ f' ∈ r.builtins ++ resolvedFields r.fields,
        f'.shouldEmit = true ∧ entry f' = (f.name, f.value) :=
    fun f mem kept => ⟨f, List.mem_append_left _ (List.mem_append_left _ mem),
      shouldEmit_iff.mpr kept, rfl⟩
  have string : ∀ {s : String}, s ≠ "" → FieldValue.string s ≠ .string "" := fun given same =>
    given (FieldValue.string.inj same)
  cases h with
  | company => exact plain ⟨_, _, true⟩ (by simp [plainBuiltins]) (Or.inr rfl)
  | fileVersion => exact plain ⟨_, _, true⟩ (by simp [plainBuiltins]) (Or.inr rfl)
  | assemblyVersion => exact plain ⟨_, _, true⟩ (by simp [plainBuiltins]) (Or.inr rfl)
  | isPrerelease => exact plain ⟨_, _, true⟩ (by simp [plainBuiltins]) (Or.inr rfl)
  | isPublicRelease => exact plain ⟨_, _, true⟩ (by simp [plainBuiltins]) (Or.inr rfl)
  | rootNamespace => exact plain ⟨_, _, true⟩ (by simp [plainBuiltins]) (Or.inr rfl)
  | informationalVersion given =>
    exact plain ⟨_, _, false⟩ (by simp [plainBuiltins]) (Or.inl (string given))
  | title given => exact plain ⟨_, _, false⟩ (by simp [plainBuiltins]) (Or.inl (string given))
  | product given => exact plain ⟨_, _, false⟩ (by simp [plainBuiltins]) (Or.inl (string given))
  | configuration given =>
    exact plain ⟨_, _, false⟩ (by simp [plainBuiltins]) (Or.inl (string given))
  | commitId given => exact plain ⟨_, _, false⟩ (by simp [plainBuiltins]) (Or.inl (string given))
  | @commitDate date given =>
    refine ⟨⟨"GitCommitDate", .ticks date, false⟩, List.mem_append_left _ ?_, rfl, rfl⟩
    refine List.mem_append_right _ (List.mem_map.mpr ⟨date, ?_, rfl⟩)
    exact Option.mem_toList.mpr given
  | @own raw f mem resolves kept =>
    have made := RawField.eq_of_resolve resolves
    refine ⟨f, List.mem_append_right _ (mem_resolvedFields_iff.mpr ⟨raw, mem, resolves⟩), ?_, ?_⟩
    · rw [made] at kept ⊢
      exact shouldEmit_iff.mpr kept
    · rw [made]

/-- **The members are those that `Emits` names.** -/
theorem mem_members_iff {r : Record} (ha : r.Accepted) {members : NameMap FieldValue}
    (h : r.members = .ok members) (name : String) (value : FieldValue) :
    (name, value) ∈ members ↔ r.Emits name value := by
  rw [(members_perm ha h).mem_iff, entries, List.mem_map]
  constructor
  · rintro ⟨f, hf, made⟩
    obtain ⟨rfl, rfl⟩ := Prod.mk.inj made
    obtain ⟨mem, kept⟩ := List.mem_filter.mp hf
    rcases List.mem_append.mp mem with mem | mem
    · exact emits_of_mem_builtins mem kept
    · obtain ⟨raw, hraw, resolves⟩ := mem_resolvedFields_iff.mp mem
      have made := RawField.eq_of_resolve resolves
      have kept := shouldEmit_iff.mp kept
      rw [RawField.name_of_resolve resolves]
      refine .own hraw resolves (kept.imp_right fun flag => ?_)
      rwa [made] at flag
  · intro h
    obtain ⟨f, mem, kept, made⟩ := exists_field_of_emits h
    exact ⟨f, List.mem_filter.mpr ⟨mem, kept⟩, made⟩

end Record

/-! ## The text -/

/-- A record has the same members in every language. -/
theorem sourceText_withLanguage {r : Record} {members : NameMap FieldValue}
    (h : r.members = .ok members) (l : Language) :
    Record.sourceText { r with selector := l.selector } =
      .ok (lineText ((Dialect.of l).sourceLines r members)) := by
  rw [Record.sourceText_eq_ok_iff]
  exact ⟨l, members, Record.language_eq_ok_iff.mpr rfl, h, rfl⟩

/-- **The members of a text.** Between the head of the type and its close stand the lines of the
members and nothing else, in every language the same members: those that `Record.Emits` names, in
ascending order of names. As the fields have names of their own, which are not built-in ones, no
two of them are one member. -/
theorem sourceText_members {r : Record} (generated : ∃ text, r.sourceText = .ok text)
    (emit : r.emitType = true) :
    (r.fields.map RawField.name).Nodup ∧ (∀ raw ∈ r.fields, raw.name ∉ builtinNames) ∧
      ∃ members : NameMap FieldValue, members.Ascending ∧
        (∀ name value, (name, value) ∈ members ↔ r.Emits name value) ∧
        ∀ l : Language, let d := Dialect.of l
          Record.sourceText { r with selector := l.selector } = .ok
            (lineText (d.preamble r ++ (d.typeNamespace r).1) ++
              lineText (d.typeHead r.generator r.generatorRelease) ++
              String.join (members.map fun m => d.memberLine m.1 m.2 ++ "\n") ++
              lineText (d.typeClose :: (d.typeNamespace r).2)) := by
  have accepted := (exists_sourceText_iff r).mp generated
  obtain ⟨text, made⟩ := generated
  obtain ⟨_, members, -, hmembers, -⟩ := Record.sourceText_eq_ok_iff.mp made
  refine ⟨accepted.distinct, accepted.unreserved, members, Record.ascending_members hmembers,
    Record.mem_members_iff accepted hmembers, fun l => ?_⟩
  rw [sourceText_withLanguage hmembers, sourceLines_of_emitType emit]
  have lines : lineText (members.map fun m => (Dialect.of l).memberLine m.1 m.2) =
      String.join (members.map fun m => (Dialect.of l).memberLine m.1 m.2 ++ "\n") := by
    rw [lineText_eq_join, List.map_map]
    rfl
  simp only [lineText_append, lines]

/-- A record with a field of each type, one that is left out and one that is kept though empty. -/
def mixedRecord : Record where
  selector := "vb"
  title := "Tool"
  commitDate := some 637509805729817056
  fields := [.string "Dropped" "", { RawField.string "Kept" "" with emitIfEmpty := true },
    ⟨"Alpha", "Boolean", " TRUE ", false⟩, .ticks "Assembly" 0]

/-- The text of the record has exactly the members that it is to emit. -/
theorem sourceText_members_mixed :
    (∃ text, mixedRecord.sourceText = .ok text) ∧ mixedRecord.emitType = true ∧
      ∃ members : NameMap FieldValue, members.Ascending ∧
        ∀ name value, (name, value) ∈ members ↔ mixedRecord.Emits name value := by
  have generated : ∃ text, mixedRecord.sourceText = .ok text := ⟨_, rfl⟩
  obtain ⟨-, -, members, ascending, mem, -⟩ := sourceText_members generated rfl
  exact ⟨generated, rfl, members, ascending, mem⟩

end VersionInfo
