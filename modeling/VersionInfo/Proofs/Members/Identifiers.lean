import VersionInfo.Proofs.Members.Emitted

/-!
# The identifiers that members declare

A member line has the name of its member as it was given. To the language the line is written in,
the blanks around a name are no part of it: what the line declares is the name without them. Names
are refused when they are blank, which is judged without these blanks, and when they are reserved
or taken, which is judged with them. So two members never have one name, but they may declare one
identifier, if the name of a field has blanks around it.

* `padded_of_clash`: whose fault it is when two members declare one identifier.
* `nodup_identifiers`: otherwise every member declares its own.
* `identifiers_clash`: a record with members that declare one identifier.
-/

namespace VersionInfo

/-- What a member with this name declares. -/
def identifier (name : String) : String := Text.trim name

theorem identifier_of_mem_builtinNames :
    ∀ name ∈ builtinNames, identifier name = name := by decide

namespace Record

variable {r : Record} {members : NameMap FieldValue}

/-- A name that differs from its identifier is that of a field. -/
theorem exists_padded_field {m : String × FieldValue} (accepted : r.Accepted)
    (h : r.members = .ok members) (mem : m ∈ members) (padded : identifier m.1 ≠ m.1) :
    ∃ raw ∈ r.fields, raw.name = m.1 ∧ identifier raw.name ≠ raw.name := by
  have emitted := (mem_members_iff accepted h m.1 m.2).mp mem
  rcases emitted.name_mem with builtin | ⟨raw, given, name⟩
  · exact absurd (identifier_of_mem_builtinNames m.1 builtin) padded
  · exact ⟨raw, given, name, name ▸ padded⟩

/-- **Two members with one identifier** are due to a field with blanks around its name. -/
theorem padded_of_clash {m n : String × FieldValue} (accepted : r.Accepted)
    (h : r.members = .ok members) (hm : m ∈ members) (hn : n ∈ members) (other : m.1 ≠ n.1)
    (clash : identifier m.1 = identifier n.1) :
    ∃ raw ∈ r.fields, (raw.name = m.1 ∨ raw.name = n.1) ∧ identifier raw.name ≠ raw.name := by
  by_cases plain : identifier m.1 = m.1
  · have padded : identifier n.1 ≠ n.1 := fun same => other (by rw [← plain, clash, same])
    obtain ⟨raw, given, name, differs⟩ := exists_padded_field accepted h hn padded
    exact ⟨raw, given, Or.inr name, differs⟩
  · obtain ⟨raw, given, name, differs⟩ := exists_padded_field accepted h hm plain
    exact ⟨raw, given, Or.inl name, differs⟩

end Record

/-- **Members declare different identifiers**, and no field one that is reserved for a built-in
member, if the names of the fields have no blanks around them. -/
theorem nodup_identifiers {r : Record} {text : String} (made : r.sourceText = .ok text)
    (emit : r.emitType = true) (trimmed : ∀ raw ∈ r.fields, identifier raw.name = raw.name) :
    ∃ l members, r.language = .ok l ∧ r.members = .ok members ∧
      text = lineText ((Dialect.of l).preamble r ++ (Dialect.of l).typeBlock r members) ∧
      (members.map fun m => identifier m.1).Nodup ∧
      ∀ raw ∈ r.fields, identifier raw.name ∉ builtinNames := by
  have accepted := (exists_sourceText_iff r).mp ⟨text, made⟩
  obtain ⟨l, members, language, hmembers, rfl⟩ := Record.sourceText_eq_ok_iff.mp made
  refine ⟨l, members, language, hmembers, ?_, ?_, fun raw given => ?_⟩
  · unfold Dialect.sourceLines
    rw [if_pos emit]
  · have names := List.pairwise_map.mp (Record.ascending_members hmembers).nodup_names
    refine List.pairwise_map.mpr (names.imp_of_mem fun {m n} hm hn other clash => ?_)
    obtain ⟨raw, given, -, padded⟩ :=
      Record.padded_of_clash accepted hmembers hm hn other clash
    exact padded (trimmed raw given)
  · rw [trimmed raw given]
    exact accepted.unreserved raw given

theorem nodup_identifiers_mixed :
    (∃ text, mixedRecord.sourceText = .ok text) ∧ mixedRecord.emitType = true ∧
      (∀ raw ∈ mixedRecord.fields, identifier raw.name = raw.name) ∧
      ∃ members, mixedRecord.members = .ok members ∧
        (members.map fun m => identifier m.1).Nodup := by
  obtain ⟨text, made⟩ : ∃ text, mixedRecord.sourceText = .ok text := ⟨_, rfl⟩
  have trimmed : ∀ raw ∈ mixedRecord.fields, identifier raw.name = raw.name := by decide
  obtain ⟨_, members, -, hmembers, -, distinct, -⟩ := nodup_identifiers made rfl trimmed
  exact ⟨⟨text, made⟩, rfl, trimmed, members, hmembers, distinct⟩

/-- A record with two fields that differ only in a blank, and one like a built-in member. -/
def paddedRecord : Record where
  fields := [.string "A" "1", .string "A " "2", .string "AssemblyVersion\u00a0" "3"]

/-- **One identifier can be declared twice**, even one that is reserved for a built-in member. -/
theorem identifiers_clash :
    (∃ text, paddedRecord.sourceText = .ok text) ∧ paddedRecord.emitType = true ∧
      (∃ members, paddedRecord.members = .ok members ∧
        ¬ (members.map fun m => identifier m.1).Nodup ∧
        ("A", .string "1") ∈ members ∧ ("A ", .string "2") ∈ members ∧
        ("AssemblyVersion", .string "") ∈ members ∧
        ("AssemblyVersion\u00a0", .string "3") ∈ members) ∧
      identifier "A " = identifier "A" ∧
      identifier "AssemblyVersion\u00a0" = "AssemblyVersion" := by
  refine ⟨⟨_, rfl⟩, rfl, ⟨_, rfl, ?_, ?_, ?_, ?_, ?_⟩, ?_, ?_⟩ <;> decide

end VersionInfo
