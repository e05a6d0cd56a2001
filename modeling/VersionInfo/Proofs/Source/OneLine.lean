import VersionInfo.Proofs.Source.Carrying

/-!
# The lines of a text are one line each

The names of fields and namespaces are written as they are. If they hold no line feed, no line of
the text does, whatever the other parts of the record are.

* `oneLine_sourceLines`: a text has the lines that were written.
-/

namespace VersionInfo

/-- The names that are written as they are hold no line feed. -/
structure Record.OneLineNames (r : Record) : Prop where
  fields : ∀ raw ∈ r.fields, OneLine raw.name
  root : ∀ name ∈ r.rootNamespace, OneLine name
  type : ∀ name ∈ r.typeNamespace, OneLine name

namespace Dialect

theorem oneLine_explicitNamespace {r : Record} (names : r.OneLineNames) {name : String}
    (h : r.explicitNamespace? = some name) : OneLine name :=
  names.type name (Option.mem_filter_iff.mp h).1

/-- The namespace in force is one of those that the record gives, so it is one line. -/
theorem oneLine_effectiveNamespace {r : Record} (names : r.OneLineNames) {name : String}
    (h : r.effectiveNamespace? = some name) : OneLine name := by
  rcases Option.or_eq_some_iff.mp h with h | ⟨-, h⟩
  · exact oneLine_explicitNamespace names h
  · exact names.root name (Option.mem_filter_iff.mp h).1

theorem oneLine_fileNames (l : Language) {r : Record} (names : r.OneLineNames) :
    ∀ name ∈ (of l).fileNames r, OneLine name := by
  cases l with
  | cSharp => exact List.forall_mem_nil _
  | visualBasic => exact List.forall_mem_nil _
  | fSharp =>
    refine List.forall_mem_singleton.mpr ?_
    cases effective : r.effectiveNamespace? with
    | none => decide
    | some name => exact oneLine_effectiveNamespace names effective

theorem oneLine_typeNames (l : Language) {r : Record} (names : r.OneLineNames) :
    ∀ name ∈ (of l).typeNames r, OneLine name := by
  unfold typeNames
  split
  · exact List.forall_mem_nil _
  · intro name mem
    exact oneLine_explicitNamespace names (Option.mem_toList.mp mem)

/-- The own members are named after fields of the record, so their names are one line each. -/
theorem oneLine_ownNames {r : Record} (names : r.OneLineNames) (accepted : r.Accepted)
    {members : NameMap FieldValue} (h : r.members = .ok members) :
    ∀ name ∈ ownNames members, OneLine name := by
  intro name mem
  obtain ⟨member, free⟩ := List.mem_filter.mp mem
  obtain ⟨⟨_, value⟩, emitted, rfl⟩ := List.mem_map.mp member
  rcases ((Record.mem_members_iff accepted h _ value).mp emitted).name_mem with
    known | ⟨raw, given, same⟩
  · exact absurd known (of_decide_eq_true free)
  · exact same ▸ names.fields raw given

/-- **A text has the lines that were written.** -/
theorem oneLine_sourceLines (l : Language) {r : Record} (names : r.OneLineNames)
    (accepted : r.Accepted) {members : NameMap FieldValue} (h : r.members = .ok members) :
    ∀ line ∈ (of l).sourceLines r members, OneLine line := by
  refine (carrying_sourceLines l r members).oneLine (List.forall_mem_append.mpr ⟨?_, ?_⟩)
  · exact oneLine_fileNames l names
  · split
    · exact List.forall_mem_append.mpr
        ⟨oneLine_typeNames l names, oneLine_ownNames names accepted h⟩
    · exact List.forall_mem_nil _

end Dialect

end VersionInfo
