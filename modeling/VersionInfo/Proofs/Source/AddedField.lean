import VersionInfo.Proofs.Members.Emitted

/-!
# One more field

A field that is added to an accepted record is checked after all others, and only its own checks
can fail then. If it is emitted, its line is put between the members with smaller names and those
with greater ones; nothing else in the text depends on it.

* `cause?_sourceText_withField`: only the checks of the new field can fail.
* `Record.members_withField`: the new field is put into the map of the members.
* `sourceText_withField`: when a record with one more field has a text, and which text that is.
-/

namespace VersionInfo

/-! ## Whether it is accepted -/

theorem fieldChecks_append (earlier first second : List RawField) :
    fieldChecks earlier (first ++ second) =
      fieldChecks earlier first ++ fieldChecks (earlier ++ first) second := by
  induction first generalizing earlier with
  | nil => rw [List.append_nil]; rfl
  | cons raw rest ih =>
    rw [List.cons_append, fieldChecks, fieldChecks, ih, List.append_assoc, List.append_assoc,
      List.singleton_append]

variable {r : Record} {raw : RawField}

/-- An added field adds its own checks behind all others. -/
theorem checks_withField (r : Record) (raw : RawField) :
    (r.withField raw).checks = r.checks ++ raw.checks r.fields := by
  unfold Record.checks Record.withField
  rw [fieldChecks_append, List.cons_append, List.append_assoc]
  exact congrArg _ (congrArg _ (congrArg _ (List.append_nil _)))

/-- **Only the checks of the new field can fail.** -/
theorem cause?_sourceText_withField (accepted : r.Accepted) (raw : RawField) :
    cause? (r.withField raw).sourceText = firstFault (raw.checks r.fields) := by
  have before : firstFault r.checks = none :=
    firstFault_eq_none_iff.mpr ((forall_checks_iff r).mpr accepted)
  rw [cause?_sourceText, checks_withField, firstFault_append, before, Option.none_or]

/-- An added field is refused as it resolves, or else as a duplicate. -/
theorem firstFault_checks (earlier : List RawField) (raw : RawField) :
    firstFault (raw.checks earlier) = (cause? raw.resolve).or
      (if raw.name ∈ builtinNames ∨ raw.name ∈ earlier.map RawField.name then
        some (.duplicateField raw.name) else none) := by
  have split : raw.checks earlier =
      [.name raw, .type raw, .value raw] ++ [.unique earlier raw] := rfl
  rw [split, firstFault_append, ← raw.cause?_resolve, firstFault_cons]
  rfl

theorem exists_sourceText_withField_iff (accepted : r.Accepted) :
    (∃ text, (r.withField raw).sourceText = .ok text) ↔ (∃ f, raw.resolve = .ok f) ∧
      raw.name ∉ builtinNames ∧ raw.name ∉ r.fields.map RawField.name := by
  rw [← cause?_eq_none_iff, cause?_sourceText_withField accepted, firstFault_checks,
    Option.or_eq_none_iff, cause?_eq_none_iff]
  refine and_congr_right fun _ => ?_
  split
  · rename_i taken
    exact iff_of_false (Option.some_ne_none _) fun free => taken.elim free.1 free.2
  · rename_i free
    exact iff_of_true rfl (not_or.mp free)

/-- The error of an added field is its own or that of a duplicate, and a duplicate is told only if
it resolves. -/
theorem sourceText_withField_eq_error_iff (accepted : r.Accepted) (e : GenerationError) :
    (r.withField raw).sourceText = .error e ↔ raw.resolve = .error e ∨
      (∃ f, raw.resolve = .ok f) ∧
        (raw.name ∈ builtinNames ∨ raw.name ∈ r.fields.map RawField.name) ∧
        e = .duplicateField raw.name := by
  rw [← cause?_eq_some_iff, cause?_sourceText_withField accepted, firstFault_checks,
    Option.or_eq_some_iff, cause?_eq_some_iff, cause?_eq_none_iff]
  refine or_congr_right (and_congr_right fun _ => ?_)
  split
  · rename_i taken
    rw [Option.some_inj, eq_comm]
    exact (and_iff_right taken).symm
  · rename_i free
    exact iff_of_false (Option.some_ne_none _).symm fun taken => free taken.1

/-! ## Where it is put -/

namespace Record

theorem entries_withField {f : Field} (resolves : raw.resolve = .ok f) :
    (r.withField raw).entries =
      r.entries ++ if f.shouldEmit then [(raw.name, f.value)] else [] := by
  have fields : resolvedFields (r.fields ++ [raw]) = resolvedFields r.fields ++ [f] := by
    have last : resolvedFields [raw] = [f] := resolvedFields_cons resolves []
    rw [← last]
    exact List.filterMap_append
  have builtins : (r.withField raw).builtins = r.builtins := rfl
  unfold entries
  rw [builtins, withField, fields, ← List.append_assoc, List.filter_append, List.map_append,
    ← RawField.name_of_resolve resolves]
  cases emitted : f.shouldEmit <;> simp [emitted]

/-- **The new field is put into the map of the members**, if it is emitted. -/
theorem members_withField {members members' : NameMap FieldValue} {f : Field}
    (resolves : raw.resolve = .ok f) (h : r.members = .ok members)
    (h' : (r.withField raw).members = .ok members') :
    members' = if f.shouldEmit then NameMap.insert raw.name f.value members else members := by
  rw [members_eq_ofList h', members_eq_ofList h, entries_withField resolves]
  cases f.shouldEmit with
  | false => rw [if_neg Bool.false_ne_true, if_neg Bool.false_ne_true, List.append_nil]
  | true =>
    rw [if_pos rfl, if_pos rfl]
    exact List.foldl_concat _ _ _ _

theorem name_not_mem_members {members : NameMap FieldValue} (accepted : r.Accepted)
    (h : r.members = .ok members) {name : String} (free : name ∉ builtinNames)
    (new : name ∉ r.fields.map RawField.name) : name ∉ members.map Prod.fst := by
  intro mem
  obtain ⟨⟨_, value⟩, emitted, rfl⟩ := List.mem_map.mp mem
  rcases ((mem_members_iff accepted h _ value).mp emitted).name_mem with known | given
  · exact free known
  · exact new (List.mem_map.mpr given)

end Record

/-! ## What becomes of the text -/

/-- The text is `text`, but for the line of one member that is put in where its name belongs. -/
def Inserted (r : Record) (text : String) (name : String) (value : FieldValue) (text' : String) :
    Prop :=
  ∃ (l : Language) (smaller greater : NameMap FieldValue), r.language = .ok l ∧
    r.members = .ok (smaller ++ greater) ∧ (∀ m ∈ smaller, m.1 < name) ∧
    (∀ m ∈ greater, name < m.1) ∧
    let d := Dialect.of l
    let before := lineText
      (d.front r ++ d.typeHead r.generator r.generatorRelease ++ d.memberLines smaller)
    let after := lineText (d.back r greater)
    text = before ++ after ∧ text' = before ++ (d.memberLine name value ++ "\n") ++ after

theorem suppressed_iff {f : Field} (resolves : raw.resolve = .ok f) :
    f.shouldEmit = false ↔ f.value = .string "" ∧ raw.emitIfEmpty = false := by
  have flag : f.emitIfEmpty = raw.emitIfEmpty := by rw [RawField.eq_of_resolve resolves]
  rw [Field.shouldEmit_eq_false_iff, flag, and_comm]

theorem sourceText_withField_eq {l : Language} {members : NameMap FieldValue} {f : Field}
    {text : String} (language : r.language = .ok l) (h : r.members = .ok members)
    (resolves : raw.resolve = .ok f) (made : (r.withField raw).sourceText = .ok text) :
    text = lineText ((Dialect.of l).sourceLines r
      (if f.shouldEmit then NameMap.insert raw.name f.value members else members)) := by
  obtain ⟨l', members', language', h', rfl⟩ := Record.sourceText_eq_ok_iff.mp made
  obtain rfl : l = l' := Except.ok.inj (language.symm.trans language')
  rw [Record.members_withField resolves h h']
  rfl

/-- **One more field.** A field can be added to an accepted record exactly if it stands for a field
and its name is neither reserved nor that of a field which the record has, emitted or not. What is
told otherwise is the fault of the new field. The text stays as it is if the type is not emitted or
the value is an empty string that the field does not ask for. Otherwise one piece is put into it,
the line of the new member, behind the members with smaller names and in front of those with
greater ones. -/
theorem sourceText_withField {r : Record} {text : String} (made : r.sourceText = .ok text)
    (raw : RawField) :
    ((∃ text', (r.withField raw).sourceText = .ok text') ↔ (∃ f, raw.resolve = .ok f) ∧
        raw.name ∉ builtinNames ∧ raw.name ∉ r.fields.map RawField.name) ∧
      (∀ e, (r.withField raw).sourceText = .error e ↔ raw.resolve = .error e ∨
        (∃ f, raw.resolve = .ok f) ∧
          (raw.name ∈ builtinNames ∨ raw.name ∈ r.fields.map RawField.name) ∧
          e = .duplicateField raw.name) ∧
      ∀ f text', raw.resolve = .ok f → (r.withField raw).sourceText = .ok text' →
        (r.emitType = false ∨ f.value = .string "" ∧ raw.emitIfEmpty = false → text' = text) ∧
          (r.emitType = true → ¬ (f.value = .string "" ∧ raw.emitIfEmpty = false) →
            Inserted r text raw.name f.value text') := by
  have accepted := (exists_sourceText_iff r).mp ⟨text, made⟩
  refine ⟨exists_sourceText_withField_iff accepted, sourceText_withField_eq_error_iff accepted,
    fun f text' resolves made' => ?_⟩
  obtain ⟨l, members, language, hmembers, rfl⟩ := Record.sourceText_eq_ok_iff.mp made
  have grown := sourceText_withField_eq language hmembers resolves made'
  rw [← suppressed_iff resolves]
  constructor
  · rintro (silent | suppressed)
    · rw [grown, sourceLines_of_not_emitType silent, sourceLines_of_not_emitType silent]
    · rw [grown, suppressed, if_neg Bool.false_ne_true]
  · intro emit kept
    obtain ⟨-, free, new⟩ := (exists_sourceText_withField_iff accepted).mp ⟨text', made'⟩
    obtain ⟨smaller, greater, rfl, below, above, inserted⟩ := NameMap.exists_insert_eq
      (Record.ascending_members hmembers) (Record.name_not_mem_members accepted hmembers free new)
    rw [if_pos (eq_true_of_ne_false kept), inserted, lineText_sourceLines_insert emit] at grown
    exact ⟨l, smaller, greater, language, hmembers, below, above,
      lineText_sourceLines_append emit smaller greater, grown⟩

/-- A truth value, an empty string and a name that is taken, each added to a record with fields of
all kinds. -/
theorem sourceText_withField_mixed :
    ∃ text text', mixedRecord.sourceText = .ok text ∧
      (mixedRecord.withField (.boolean "Official" true)).sourceText = .ok text' ∧
      Inserted mixedRecord text "Official" (.boolean true) text' ∧
      (mixedRecord.withField (.string "Silent" "")).sourceText = .ok text ∧
      (mixedRecord.withField (.string "Dropped" "1")).sourceText =
        .error (.duplicateField "Dropped") := by
  obtain ⟨text, made⟩ : ∃ text, mixedRecord.sourceText = .ok text := ⟨_, rfl⟩
  obtain ⟨accepts, -, added⟩ := sourceText_withField made (.boolean "Official" true)
  have official : (RawField.boolean "Official" true).resolve =
      .ok ⟨"Official", .boolean true, false⟩ := rfl
  obtain ⟨text', made'⟩ := accepts.mpr ⟨⟨_, official⟩, by decide, by decide⟩
  obtain ⟨acceptsSilent, -, silent⟩ := sourceText_withField made (.string "Silent" "")
  obtain ⟨same, madeSame⟩ := acceptsSilent.mpr ⟨⟨_, rfl⟩, by decide, by decide⟩
  obtain ⟨-, refuses, -⟩ := sourceText_withField made (.string "Dropped" "1")
  obtain rfl := (silent _ same rfl madeSame).1 (Or.inr ⟨rfl, rfl⟩)
  exact ⟨same, text', made, made', (added _ text' official made').2 rfl (by decide), madeSame,
    (refuses _).mpr (Or.inr ⟨⟨_, rfl⟩, Or.inr (by decide), rfl⟩)⟩

end VersionInfo
