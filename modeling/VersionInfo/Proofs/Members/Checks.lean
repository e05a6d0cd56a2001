import Mathlib.Logic.Basic
import VersionInfo.Source

/-!
# Which records are generated, and which fault is told

Generation checks the selector, then the commit date, then the fields in their order. Of each
field it checks the name, the type, the value, and last that the name is neither reserved nor
that of an earlier field. `Record.checks` lists these checks in that order, and each says by itself
when it fails (`Check.Fails`) and what is told then (`Check.fault`).

* `cause?_sourceText`: what generation tells is the fault of the first check that fails.
* `forall_checks_iff`: no check fails exactly for the records that are `Record.Accepted`.
* `sourceText_decided_by_checks`: which records are generated, that neither the choice of the
  language nor the switch for the type matters, and which fault any other record has.
-/

namespace VersionInfo

open Text (Blank)

/-! ## Causes -/

/-- The cause of a failure. -/
def cause? {ε α : Type} : Except ε α → Option ε
  | .error e => some e
  | .ok _ => none

section Cause

variable {ε α β : Type}

theorem cause?_eq_some_iff {x : Except ε α} {e : ε} : cause? x = some e ↔ x = .error e := by
  cases x <;> simp [cause?]

theorem cause?_eq_none_iff {x : Except ε α} : cause? x = none ↔ ∃ a, x = .ok a := by
  cases x <;> simp [cause?]

theorem cause?_ok_bind (a : α) (f : α → Except ε β) : cause? (Except.ok a >>= f) = cause? (f a) :=
  rfl

/-- What is done with a value does not fail if it only makes another value. -/
theorem cause?_bind_pure (x : Except ε α) (f : α → β) :
    cause? (x >>= fun a => pure (f a)) = cause? x := by
  cases x <;> rfl

end Cause

/-! ## Checks -/

/-- One check of a record. -/
inductive Check where
  /-- The selector names a language. -/
  | language (selector : String)
  /-- The commit date is a valid tick count. -/
  | commitDate (date : Ticks)
  /-- The name of a field is not blank. -/
  | name (field : RawField)
  /-- The tag of a field names a type. -/
  | type (field : RawField)
  /-- The value of a field can be read. -/
  | value (field : RawField)
  /-- The name of a field is neither reserved nor that of an earlier field. -/
  | unique (earlier : List RawField) (field : RawField)

namespace Check

/-- When the check fails. -/
def Fails : Check → Prop
  | language selector => selector ∉ Language.all.map Language.selector
  | commitDate date => ¬ date.Valid
  | name f => Blank f.name
  | type f => f.type ∉ FieldType.all.map FieldType.tag
  | value f =>
    f.type = FieldType.boolean.tag ∧ RawField.readBoolean f.value = none ∨
      f.type = FieldType.ticks.tag ∧ RawField.readTicks f.value = none
  | unique earlier f => f.name ∈ builtinNames ∨ f.name ∈ earlier.map RawField.name

instance : DecidablePred Fails := fun c => by
  cases c <;> unfold Fails <;> infer_instance

/-- What is told when the check fails. -/
def fault : Check → GenerationError
  | language selector => .unsupportedLanguage selector
  | commitDate date => .malformedTicks "GitCommitDate" (RawField.ticksText date)
  | name f => .invalidFieldName f.name
  | type f => .invalidFieldType f.name f.type
  | value f =>
    if f.type = FieldType.boolean.tag then .malformedBoolean f.name f.value
    else .malformedTicks f.name f.value
  | unique _ f => .duplicateField f.name

end Check

/-- The checks of a field, after some others. -/
def RawField.checks (earlier : List RawField) (f : RawField) : List Check :=
  [.name f, .type f, .value f, .unique earlier f]

/-- The checks of some fields, after some others. -/
def fieldChecks (earlier : List RawField) : List RawField → List Check
  | [] => []
  | f :: rest => f.checks earlier ++ fieldChecks (earlier ++ [f]) rest

/-- All checks of a record, in their order. -/
def Record.checks (r : Record) : List Check :=
  .language r.selector :: (r.commitDate.toList.map .commitDate ++ fieldChecks [] r.fields)

/-- What is told of the first check that fails. -/
def firstFault (checks : List Check) : Option GenerationError :=
  (checks.find? fun c => c.Fails).map Check.fault

/-- The first check that fails tells its fault; those behind it are not made. -/
theorem firstFault_cons (c : Check) (checks : List Check) :
    firstFault (c :: checks) = if c.Fails then some c.fault else firstFault checks := by
  unfold firstFault
  rw [List.find?_cons]
  by_cases h : c.Fails <;> simp [h]

/-- Checks of a second list matter only when the first list passes. -/
theorem firstFault_append (first second : List Check) :
    firstFault (first ++ second) = (firstFault first).or (firstFault second) := by
  unfold firstFault
  rw [List.find?_append]
  cases first.find? fun c => c.Fails <;> rfl

theorem firstFault_eq_none_iff {checks : List Check} :
    firstFault checks = none ↔ ∀ c ∈ checks, ¬ c.Fails := by
  unfold firstFault
  rw [Option.map_eq_none_iff, List.find?_eq_none]
  simp only [decide_eq_true_eq]

/-! ## The fields -/

namespace FieldType

theorem tag_inj {s t : FieldType} : s.tag = t.tag ↔ s = t := by
  cases s <;> cases t <;> decide

theorem ofTag?_eq_none_iff {s : String} : ofTag? s = none ↔ s ∉ all.map tag := by
  unfold ofTag?
  rw [List.find?_eq_none, List.mem_map]
  simp only [beq_iff_eq, not_exists, not_and]

end FieldType

namespace RawField

/-- A field that resolves keeps its name and its flag; only the value is read from its text. -/
theorem eq_of_resolve {raw : RawField} {f : Field} (h : raw.resolve = .ok f) :
    f = ⟨raw.name, f.value, raw.emitIfEmpty⟩ := by
  unfold resolve at h
  split at h
  · cases h
  · split at h
    · cases h
    · rename_i type _
      cases hv : readValue raw.name type raw.value with
      | error => rw [hv] at h; cases h
      | ok value => rw [hv] at h; cases h; rfl

theorem name_of_resolve {raw : RawField} {f : Field} (h : raw.resolve = .ok f) :
    f.name = raw.name := by
  rw [eq_of_resolve h]

/-- Reading a value of a known type fails exactly by the check of the value. -/
theorem cause?_readValue {raw : RawField} {type : FieldType} (h : raw.type = type.tag) :
    cause? (readValue raw.name type raw.value) = firstFault [.value raw] := by
  -- The tag decides which of the two ways to fail is left.
  have fails : (Check.value raw).Fails ↔ type = .boolean ∧ readBoolean raw.value = none ∨
      type = .ticks ∧ readTicks raw.value = none := by
    simp only [Check.Fails, h, FieldType.tag_inj]
  rw [firstFault_cons]
  unfold readValue
  cases type with
  | string => rw [if_neg (by simp [fails])]; rfl
  | boolean =>
    cases hb : readBoolean raw.value with
    | some b => rw [if_neg (by simp [fails, hb])]; rfl
    | none =>
      rw [if_pos (by simp [fails, hb])]
      simp only [Check.fault, if_pos h, cause?]
  | ticks =>
    cases ht : readTicks raw.value with
    | some t => rw [if_neg (by simp [fails, ht])]; rfl
    | none =>
      have other : raw.type ≠ FieldType.boolean.tag := by
        rw [h]
        decide
      rw [if_pos (by simp [fails, ht])]
      simp only [Check.fault, if_neg other, cause?]

/-- A field of `resolve` is judged by its name, then its type and then its value. -/
theorem cause?_resolve (raw : RawField) :
    cause? raw.resolve = firstFault [.name raw, .type raw, .value raw] := by
  rw [firstFault_cons, firstFault_cons]
  unfold resolve
  by_cases blank : Blank raw.name
  · rw [if_pos blank, if_pos (show (Check.name raw).Fails from blank)]
    rfl
  · rw [if_neg blank, if_neg (show ¬ (Check.name raw).Fails from blank)]
    cases htag : FieldType.ofTag? raw.type with
    | none =>
      rw [if_pos (show (Check.type raw).Fails from FieldType.ofTag?_eq_none_iff.mp htag)]
      rfl
    | some type =>
      have known : ¬ (Check.type raw).Fails := fun fails => by
        rw [FieldType.ofTag?_eq_none_iff.mpr fails] at htag
        cases htag
      rw [if_neg known, ← cause?_readValue (FieldType.ofTag?_eq_some_iff.mp htag).symm]
      exact cause?_bind_pure _ _

end RawField

/-- The loop of `collect_members` makes the checks of each field in turn. The names taken so far are
the built-in ones and those of the earlier fields. -/
theorem cause?_resolveFields (raws : List RawField) {taken : List String}
    {earlier : List RawField}
    (h : ∀ n, n ∈ taken ↔ n ∈ builtinNames ∨ n ∈ earlier.map RawField.name) :
    cause? (Record.resolveFields taken raws) = firstFault (fieldChecks earlier raws) := by
  induction raws generalizing taken earlier with
  | nil => rfl
  | cons raw rest ih =>
    have split : fieldChecks earlier (raw :: rest) = [.name raw, .type raw, .value raw] ++
        .unique earlier raw :: fieldChecks (earlier ++ [raw]) rest := rfl
    rw [split, firstFault_append, ← raw.cause?_resolve]
    unfold Record.resolveFields
    cases hraw : raw.resolve with
    | error e => rfl
    | ok field =>
      rw [cause?_ok_bind, RawField.name_of_resolve hraw, firstFault_cons]
      by_cases taken : raw.name ∈ taken
      · rw [if_pos taken, if_pos (show (Check.unique earlier raw).Fails from (h _).mp taken)]
        rfl
      · have free : ¬ (Check.unique earlier raw).Fails := fun fails => taken ((h _).mpr fails)
        rw [if_neg taken, if_neg free]
        refine (cause?_bind_pure _ _).trans (ih fun n => ?_)
        rw [List.mem_cons, h, List.map_append, List.mem_append, List.map_singleton,
          List.mem_singleton, or_comm, or_assoc]

/-! ## The record -/

theorem cause?_language (r : Record) : cause? r.language = firstFault [.language r.selector] := by
  have unknown : Language.ofSelector? r.selector = none ↔
      r.selector ∉ Language.all.map Language.selector := by
    unfold Language.ofSelector?
    rw [List.find?_eq_none, List.mem_map]
    simp only [beq_iff_eq, not_exists, not_and]
  rw [firstFault_cons]
  unfold Record.language
  cases h : Language.ofSelector? r.selector with
  | none => rw [if_pos (show (Check.language r.selector).Fails from unknown.mp h)]; rfl
  | some l =>
    have known : ¬ (Check.language r.selector).Fails := fun fails => by
      rw [unknown.mpr fails] at h
      cases h
    rw [if_neg known]
    rfl

theorem cause?_commitDateField (r : Record) :
    cause? r.commitDateField = firstFault (r.commitDate.toList.map .commitDate) := by
  unfold Record.commitDateField
  cases r.commitDate with
  | none => rfl
  | some t =>
    rw [Option.toList_some, List.map_singleton, firstFault_cons]
    by_cases valid : t.Valid
    · rw [if_neg (show ¬ (Check.commitDate t).Fails from fun fails => fails valid)]
      simp only [if_pos valid]
      rfl
    · rw [if_pos (show (Check.commitDate t).Fails from valid)]
      simp only [if_neg valid]
      rfl

/-- All fields are judged in one list of checks: the commit date, and then the own fields in their
order. -/
theorem cause?_allFields (r : Record) : cause? r.allFields =
    firstFault (r.commitDate.toList.map .commitDate ++ fieldChecks [] r.fields) := by
  rw [firstFault_append, ← cause?_commitDateField]
  unfold Record.allFields
  cases r.commitDateField with
  | error e => rfl
  | ok date =>
    refine (cause?_bind_pure _ _).trans (cause?_resolveFields r.fields fun n => ?_)
    simp only [List.map_nil, List.not_mem_nil, or_false]

/-- Leaving fields out and sorting them cannot fail. -/
theorem cause?_members (r : Record) : cause? r.members = cause? r.allFields :=
  cause?_bind_pure _ _

/-- **The first check that fails is told**, and nothing is told only if no check fails. -/
theorem cause?_sourceText (r : Record) : cause? r.sourceText = firstFault r.checks := by
  have split : r.checks = [.language r.selector] ++
      (r.commitDate.toList.map .commitDate ++ fieldChecks [] r.fields) := rfl
  rw [split, firstFault_append, ← cause?_language, ← cause?_allFields, ← cause?_members]
  unfold Record.sourceText
  cases r.language with
  | error e => rfl
  | ok l => exact cause?_bind_pure _ _

/-! ## The records that pass -/

/-- A record that no check fails on. Suppressed fields count as the others do. -/
structure Record.Accepted (r : Record) : Prop where
  language : r.selector ∈ Language.all.map Language.selector
  commitDate : ∀ date ∈ r.commitDate, date.Valid
  resolves : ∀ raw ∈ r.fields, ∃ f, raw.resolve = .ok f
  distinct : (r.fields.map RawField.name).Nodup
  unreserved : ∀ raw ∈ r.fields, raw.name ∉ builtinNames

theorem RawField.exists_resolve_iff (raw : RawField) :
    (∃ f, raw.resolve = .ok f) ↔
      ∀ c ∈ [Check.name raw, Check.type raw, Check.value raw], ¬ c.Fails := by
  rw [← cause?_eq_none_iff, cause?_resolve, firstFault_eq_none_iff]

/-- Fields pass their checks if each resolves, none is reserved and no two have one name, also
counting the earlier ones. -/
theorem forall_fieldChecks_iff (earlier raws : List RawField) :
    (∀ c ∈ fieldChecks earlier raws, ¬ c.Fails) ↔
      (∀ raw ∈ raws, ∃ f, raw.resolve = .ok f) ∧ (∀ raw ∈ raws, raw.name ∉ builtinNames) ∧
        (raws.map RawField.name).Nodup ∧ ∀ raw ∈ raws, raw.name ∉ earlier.map RawField.name := by
  induction raws generalizing earlier with
  | nil => simp [fieldChecks]
  | cons raw rest ih =>
    have split : fieldChecks earlier (raw :: rest) = [.name raw, .type raw, .value raw] ++
        .unique earlier raw :: fieldChecks (earlier ++ [raw]) rest := rfl
    have free : ¬ (Check.unique earlier raw).Fails ↔
        raw.name ∉ builtinNames ∧ raw.name ∉ earlier.map RawField.name := not_or
    have later : (∀ x ∈ rest, x.name ∉ (earlier ++ [raw]).map RawField.name) ↔
        (∀ x ∈ rest, x.name ∉ earlier.map RawField.name) ∧
          raw.name ∉ rest.map RawField.name := by
      simp only [List.map_append, List.map_singleton, List.mem_append, List.mem_singleton, not_or,
        List.mem_map, not_exists, not_and]
      exact forall₂_and
    rw [split, List.forall_mem_append, ← raw.exists_resolve_iff, List.forall_mem_cons, free, ih,
      later, List.map_cons, List.nodup_cons]
    simp only [List.forall_mem_cons]
    constructor
    · rintro ⟨resolves, ⟨free, new⟩, allResolve, allFree, distinct, allNew, once⟩
      exact ⟨⟨resolves, allResolve⟩, ⟨free, allFree⟩, ⟨once, distinct⟩, new, allNew⟩
    · rintro ⟨⟨resolves, allResolve⟩, ⟨free, allFree⟩, ⟨once, distinct⟩, new, allNew⟩
      exact ⟨resolves, ⟨free, new⟩, allResolve, allFree, distinct, allNew, once⟩

/-- **The accepted records are those that no check fails on.** -/
theorem forall_checks_iff (r : Record) : (∀ c ∈ r.checks, ¬ c.Fails) ↔ r.Accepted := by
  have split : r.checks = [.language r.selector] ++
      (r.commitDate.toList.map .commitDate ++ fieldChecks [] r.fields) := rfl
  have language : (∀ c ∈ [Check.language r.selector], ¬ c.Fails) ↔
      r.selector ∈ Language.all.map Language.selector := by
    simp only [List.forall_mem_singleton, Check.Fails, Classical.not_not]
  have date : (∀ c ∈ r.commitDate.toList.map Check.commitDate, ¬ c.Fails) ↔
      ∀ t ∈ r.commitDate, t.Valid := by
    simp only [List.forall_mem_map, Option.mem_toList, Option.mem_def, Check.Fails,
      Classical.not_not]
  rw [split, List.forall_mem_append, List.forall_mem_append, forall_fieldChecks_iff, language, date]
  constructor
  · rintro ⟨hl, hd, hr, hb, hn, -⟩
    exact ⟨hl, hd, hr, hn, hb⟩
  · rintro ⟨hl, hd, hr, hn, hb⟩
    exact ⟨hl, hd, hr, hb, hn, fun _ _ => List.not_mem_nil⟩

/-- A text is generated exactly for the records that are accepted. -/
theorem exists_sourceText_iff (r : Record) : (∃ text, r.sourceText = .ok text) ↔ r.Accepted := by
  rw [← cause?_eq_none_iff, cause?_sourceText, firstFault_eq_none_iff, forall_checks_iff]

/-- Neither another known language nor the choice to emit the type changes whether a record is
accepted. -/
theorem Record.Accepted.withLanguage {r : Record} (h : r.Accepted) (l : Language) (emit : Bool) :
    Record.Accepted { r with selector := l.selector, emitType := emit } where
  language := List.mem_map_of_mem l.mem_all
  commitDate := h.commitDate
  resolves := h.resolves
  distinct := h.distinct
  unreserved := h.unreserved

/-- **Which records are generated, and which fault the others have.** Generation gives a text
exactly for the accepted records. Between the three languages, and with or without the type, that
makes no difference. What is told of any other record is the fault of its first failing check. -/
theorem sourceText_decided_by_checks (r : Record) :
    ((∃ text, r.sourceText = .ok text) ↔ r.Accepted) ∧
      (∀ (l m : Language) (emit emit' : Bool),
        (∃ text, Record.sourceText { r with selector := l.selector, emitType := emit } = .ok text) ↔
          ∃ text,
            Record.sourceText { r with selector := m.selector, emitType := emit' } = .ok text) ∧
      ∀ e, r.sourceText = .error e ↔ ∃ before c after, r.checks = before ++ c :: after ∧
        (∀ b ∈ before, ¬ b.Fails) ∧ c.Fails ∧ c.fault = e := by
  refine ⟨exists_sourceText_iff r, fun l m emit emit' => ?_, fun e => ?_⟩
  · rw [exists_sourceText_iff, exists_sourceText_iff]
    exact ⟨fun h => h.withLanguage m emit', fun h => h.withLanguage l emit⟩
  · rw [← cause?_eq_some_iff, cause?_sourceText, firstFault, Option.map_eq_some_iff]
    constructor
    · rintro ⟨c, hc, rfl⟩
      obtain ⟨fails, before, after, split, pass⟩ := List.find?_eq_some_iff_append.mp hc
      exact ⟨before, c, after, split, fun b hb => by simpa using pass b hb, by simpa using fails,
        rfl⟩
    · rintro ⟨before, c, after, split, pass, fails, rfl⟩
      exact ⟨c, List.find?_eq_some_iff_append.mpr ⟨by simpa using fails, before, after, split,
        fun b hb => by simpa using pass b hb⟩, rfl⟩

end VersionInfo
