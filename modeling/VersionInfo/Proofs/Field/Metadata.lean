import VersionInfo.Proofs.Field.Values
import VersionInfo.Proofs.NameMap

/-!
# Raw fields of metadata

Metadata says with four names what a field is: three of them are types, the fourth says whether an
empty value is emitted. A name may stand there several times, in different case. The entry that
counts is the one whose key comes first in the order of code points, and all other entries are
without effect.

* `RawField.find?_eq_some_iff`, `RawField.lookUp_eq_some_iff`: what is looked up is what counts.
* `RawField.ofMetadata_eq_ok_iff`: which raw field metadata gives.
* `RawField.chosen_congr`: entries that do not count, put in or taken out, change no choice.
* `RawField.ofMetadata_by_choices`: which raw field metadata gives, what is told of other metadata,
  and what has no effect.
-/

namespace VersionInfo.RawField

open NameMap (Ascending)
open Text (SameIgnoringCase)

/-- Some key is the name, in any case. -/
def Has (m : NameMap String) (name : String) : Prop := ∃ e ∈ m, SameIgnoringCase e.1 name

/-- The entry that counts for a name: of all whose key is the name in any case, the one with the
smallest key. -/
structure Chosen (m : NameMap String) (name : String) (e : String × String) : Prop where
  mem : e ∈ m
  same : SameIgnoringCase e.1 name
  least : ∀ x ∈ m, SameIgnoringCase x.1 name → e.1 ≤ x.1

/-- The metadata gives a type and a value: no earlier type has an entry, and the value is that of
the entry that counts. -/
def Typed (m : NameMap String) (type : FieldType) (value : String) : Prop :=
  ∃ earlier later key, FieldType.all = earlier ++ type :: later ∧
    Chosen m type.tag (key, value) ∧ ∀ t ∈ earlier, ¬ Has m t.tag

/-- The metadata says whether an empty value is emitted. -/
inductive Flagged (m : NameMap String) : Bool → Prop
  | absent : ¬ Has m emitIfEmptyKey → Flagged m false
  | given {key text : String} {b : Bool} :
    Chosen m emitIfEmptyKey (key, text) → DenotesBoolean text b → Flagged m b

/-- The names that metadata is asked for. -/
def metadataNames : List String := ["String", "Boolean", "Ticks", "EmitIfEmpty"]

variable {m n : NameMap String} {name : String}

/-! ## Look-ups -/

/-- **What is found first is what counts**, as the keys ascend. -/
theorem find?_eq_some_iff (hm : Ascending m) {e : String × String} :
    m.find? (fun e => SameIgnoringCase e.1 name) = some e ↔ Chosen m name e := by
  have order := List.pairwise_map.mp hm
  rw [List.find?_eq_some_iff_append]
  simp only [decide_eq_true_eq, Bool.not_eq_true', decide_eq_false_iff_not]
  constructor
  · rintro ⟨same, front, back, rfl, none⟩
    obtain ⟨-, behind, -⟩ := List.pairwise_append.mp order
    refine ⟨List.mem_append_right _ List.mem_cons_self, same, fun x mem match_ => ?_⟩
    rcases List.mem_append.mp mem with inFront | inBack
    · exact absurd match_ (none x inFront)
    · rcases List.mem_cons.mp inBack with rfl | later
      · exact le_rfl
      · exact le_of_lt ((List.pairwise_cons.mp behind).1 x later)
  · rintro ⟨mem, same, least⟩
    obtain ⟨front, back, rfl⟩ := List.append_of_mem mem
    obtain ⟨-, -, before⟩ := List.pairwise_append.mp order
    refine ⟨same, front, back, rfl, fun x inFront match_ => ?_⟩
    exact absurd (least x (List.mem_append_left _ inFront) match_)
      (not_le_of_gt (before x inFront e List.mem_cons_self))

/-- The value that is found is that of the chosen entry, the one with the smallest key that spells
the name. -/
theorem lookUp_eq_some_iff (hm : Ascending m) {value : String} :
    lookUp m name = some value ↔ ∃ key, Chosen m name (key, value) := by
  unfold lookUp
  rw [Option.map_eq_some_iff]
  simp only [find?_eq_some_iff hm, Prod.exists, exists_eq_right]

theorem lookUp_eq_none_iff : lookUp m name = none ↔ ¬ Has m name := by
  unfold lookUp Has
  rw [Option.map_eq_none_iff, List.find?_eq_none]
  simp

/-- A name that has an entry has one that counts. -/
theorem exists_chosen (hm : Ascending m) (has : Has m name) : ∃ e, Chosen m name e := by
  have present : lookUp m name ≠ none := mt lookUp_eq_none_iff.mp (not_not.mpr has)
  obtain ⟨value, found⟩ := Option.ne_none_iff_exists'.mp present
  obtain ⟨key, chosen⟩ := (lookUp_eq_some_iff hm).mp found
  exact ⟨_, chosen⟩

/-- An entry that counts goes on to count while every other one that does stays where it is. -/
theorem Chosen.mono {e : String × String} (chosen : Chosen m name e) (hn : Ascending n)
    (kept : ∀ x, Chosen m name x → x ∈ n) (old : ∀ x, Chosen n name x → x ∈ m) :
    Chosen n name e := by
  have mem := kept e chosen
  obtain ⟨first, counts⟩ := exists_chosen hn ⟨e, mem, chosen.same⟩
  refine ⟨mem, chosen.same, fun x inN same => ?_⟩
  exact (chosen.least first (old first counts) counts.same).trans (counts.least x inN same)

/-- **Entries that do not count change no choice**, put in or taken out. -/
theorem chosen_congr (hm : Ascending m) (hn : Ascending n)
    (idle : ∀ e, ¬ (e ∈ m ↔ e ∈ n) → ¬ Chosen m name e ∧ ¬ Chosen n name e) (e : String × String) :
    Chosen m name e ↔ Chosen n name e := by
  have kept : ∀ x, Chosen m name x → x ∈ n := fun x chosen => by
    by_contra out
    exact (idle x fun both => out (both.mp chosen.mem)).1 chosen
  have old : ∀ x, Chosen n name x → x ∈ m := fun x chosen => by
    by_contra out
    exact (idle x fun both => out (both.mpr chosen.mem)).2 chosen
  exact ⟨fun chosen => chosen.mono hn kept old, fun chosen => chosen.mono hm old kept⟩

/-! ## The parts of a raw field -/

/-- The type that is found, with its value. -/
def typeIn? (m : NameMap String) : Option (FieldType × String) :=
  FieldType.all.findSome? fun t => (lookUp m t.tag).map fun v => (t, v)

theorem typeIn?_eq_some_iff (hm : Ascending m) {type : FieldType} {value : String} :
    typeIn? m = some (type, value) ↔ Typed m type value := by
  unfold typeIn? Typed
  rw [List.findSome?_eq_some_iff]
  simp only [Option.map_eq_none_iff, lookUp_eq_none_iff, Option.map_eq_some_iff, Prod.mk.injEq]
  constructor
  · rintro ⟨earlier, t, later, all, ⟨v, found, rfl, rfl⟩, none⟩
    obtain ⟨key, chosen⟩ := (lookUp_eq_some_iff hm).mp found
    exact ⟨earlier, later, key, all, chosen, none⟩
  · rintro ⟨earlier, later, key, all, chosen, none⟩
    exact ⟨earlier, type, later, all, ⟨value, (lookUp_eq_some_iff hm).mpr ⟨key, chosen⟩, rfl, rfl⟩,
      none⟩

theorem typeIn?_eq_none_iff : typeIn? m = none ↔ ∀ t : FieldType, ¬ Has m t.tag := by
  unfold typeIn?
  rw [List.findSome?_eq_none_iff]
  simp only [Option.map_eq_none_iff, lookUp_eq_none_iff, FieldType.mem_all, true_imp_iff]

theorem exists_typed_iff (hm : Ascending m) :
    (∃ type value, Typed m type value) ↔ ∃ t : FieldType, Has m t.tag := by
  constructor
  · rintro ⟨type, value, -, -, key, -, chosen, -⟩
    exact ⟨type, _, chosen.mem, chosen.same⟩
  · rintro ⟨t, has⟩
    cases found : typeIn? m with
    | none => exact absurd has (typeIn?_eq_none_iff.mp found t)
    | some p => exact ⟨p.1, p.2, (typeIn?_eq_some_iff hm).mp found⟩

theorem flagged_iff (hm : Ascending m) {b : Bool} :
    Flagged m b ↔ (lookUp m emitIfEmptyKey).elim (some false) readBoolean = some b := by
  constructor
  · rintro (none | ⟨chosen, denotes⟩)
    · rw [lookUp_eq_none_iff.mpr none, Option.elim_none]
    · rw [(lookUp_eq_some_iff hm).mpr ⟨_, chosen⟩, Option.elim_some]
      exact readBoolean_eq_some_iff.mpr denotes
  · cases found : lookUp m emitIfEmptyKey with
    | none =>
      rintro ⟨⟩
      exact .absent (lookUp_eq_none_iff.mp found)
    | some text =>
      intro read
      rw [Option.elim_some] at read
      obtain ⟨key, chosen⟩ := (lookUp_eq_some_iff hm).mp found
      exact .given chosen (readBoolean_eq_some_iff.mp read)

/-! ## Raw fields -/

/-- A raw field is made of the type that is found and then of the flag, in this order: a missing
type is told before a malformed flag. -/
theorem ofMetadata_eq (field : String) (m : NameMap String) :
    ofMetadata field m =
      (typeIn? m).elim (.error (.invalidFieldType field (",".intercalate (m.map Prod.fst))))
        fun typed => (lookUp m emitIfEmptyKey).elim (.ok ⟨field, typed.1.tag, typed.2, false⟩)
          fun text => (readBoolean text).elim (.error (.malformedBoolean field text))
            fun b => .ok ⟨field, typed.1.tag, typed.2, b⟩ := by
  unfold ofMetadata
  rw [← typeIn?]
  cases typeIn? m with
  | none => rfl
  | some typed =>
    cases lookUp m emitIfEmptyKey with
    | none => rfl
    | some text => cases h : readBoolean text <;> simp [h]

/-- **Which raw field metadata gives.** -/
theorem ofMetadata_eq_ok_iff (field : String) (hm : Ascending m) {raw : RawField} :
    ofMetadata field m = .ok raw ↔
      ∃ type value flag, Typed m type value ∧ Flagged m flag ∧
        raw = ⟨field, type.tag, value, flag⟩ := by
  simp only [← typeIn?_eq_some_iff hm, flagged_iff hm, ofMetadata_eq]
  cases typeIn? m with
  | none => simp
  | some found =>
    obtain ⟨type, value⟩ := found
    cases lookUp m emitIfEmptyKey with
    | none => simp [eq_comm]
    | some text =>
      dsimp only [Option.elim_some]
      cases readBoolean text <;> simp [eq_comm]

theorem exists_ofMetadata_iff (field : String) (hm : Ascending m) :
    (∃ raw, ofMetadata field m = .ok raw) ↔
      (∃ t : FieldType, Has m t.tag) ∧ ∃ flag, Flagged m flag := by
  simp only [ofMetadata_eq_ok_iff field hm, ← exists_typed_iff hm]
  constructor
  · rintro ⟨-, type, value, flag, typed, flagged, -⟩
    exact ⟨⟨type, value, typed⟩, flag, flagged⟩
  · rintro ⟨⟨type, value, typed⟩, flag, flagged⟩
    exact ⟨_, type, value, flag, typed, flagged, rfl⟩

/-- What is told when no type has an entry, whatever else the metadata holds. -/
theorem ofMetadata_of_untyped (field : String) (untyped : ∀ t : FieldType, ¬ Has m t.tag) :
    ofMetadata field m =
      .error (.invalidFieldType field (",".intercalate (m.map Prod.fst))) := by
  rw [ofMetadata_eq, typeIn?_eq_none_iff.mpr untyped, Option.elim_none]

/-- What is told when some type has an entry, but the entry for empty values denotes nothing. -/
theorem ofMetadata_of_unflagged (field : String) (hm : Ascending m) {key text : String}
    (has : ∃ t : FieldType, Has m t.tag) (chosen : Chosen m emitIfEmptyKey (key, text))
    (nothing : ∀ b, ¬ DenotesBoolean text b) :
    ofMetadata field m = .error (.malformedBoolean field text) := by
  obtain ⟨type, value, typed⟩ := (exists_typed_iff hm).mpr has
  have unread : readBoolean text = none :=
    Option.eq_none_iff_forall_ne_some.mpr fun b read => nothing b (readBoolean_eq_some_iff.mp read)
  rw [ofMetadata_eq, (typeIn?_eq_some_iff hm).mpr typed, Option.elim_some,
    (lookUp_eq_some_iff hm).mpr ⟨key, chosen⟩, Option.elim_some, unread, Option.elim_none]

theorem lookUp_congr (hm : Ascending m) (hn : Ascending n)
    (same : ∀ e, Chosen m name e ↔ Chosen n name e) : lookUp m name = lookUp n name := by
  ext value
  rw [lookUp_eq_some_iff hm, lookUp_eq_some_iff hn]
  simp only [same]

/-- **Raw fields of metadata.** Metadata gives a raw field when some type has an entry, and the
entry that counts for empty values, if there is one, denotes a truth value. The raw field has the
first type that has an entry, with the value of the entry that counts as it is, and that truth
value, or false if there is none. Without an entry for a type all keys are told in their order;
else, if the entry for empty values denotes nothing, its text is told. Entries that count neither
before nor after, put in or taken out, leave a raw field as it is. -/
theorem ofMetadata_by_choices (field : String) (hm : Ascending m) :
    ((∃ raw, ofMetadata field m = .ok raw) ↔
        (∃ t : FieldType, Has m t.tag) ∧ ∃ flag, Flagged m flag) ∧
      (∀ raw, ofMetadata field m = .ok raw ↔
        ∃ type value flag, Typed m type value ∧ Flagged m flag ∧
          raw = ⟨field, type.tag, value, flag⟩) ∧
      ((∀ t : FieldType, ¬ Has m t.tag) → ofMetadata field m =
        .error (.invalidFieldType field (",".intercalate (m.map Prod.fst)))) ∧
      (∀ key text, (∃ t : FieldType, Has m t.tag) → Chosen m emitIfEmptyKey (key, text) →
        (∀ b, ¬ DenotesBoolean text b) →
          ofMetadata field m = .error (.malformedBoolean field text)) ∧
      ∀ n : NameMap String, Ascending n →
        (∀ e, ¬ (e ∈ m ↔ e ∈ n) →
          ∀ name ∈ metadataNames, ¬ Chosen m name e ∧ ¬ Chosen n name e) →
        ∀ raw, ofMetadata field m = .ok raw → ofMetadata field n = .ok raw := by
  refine ⟨exists_ofMetadata_iff field hm, fun raw => ofMetadata_eq_ok_iff field hm,
    ofMetadata_of_untyped field, fun key text => ofMetadata_of_unflagged field hm,
    fun n hn idle raw => ?_⟩
  have look : ∀ name ∈ metadataNames, lookUp m name = lookUp n name := fun name listed =>
    lookUp_congr hm hn (chosen_congr hm hn fun e changed => idle e changed name listed)
  have types : typeIn? m = typeIn? n := by
    unfold typeIn?
    congr 1
    funext t
    rw [look t.tag (by cases t <;> simp [metadataNames, FieldType.tag])]
  have flags : lookUp m emitIfEmptyKey = lookUp n emitIfEmptyKey :=
    look _ (by simp [metadataNames, emitIfEmptyKey])
  simp only [ofMetadata_eq_ok_iff field hm, ofMetadata_eq_ok_iff field hn,
    ← typeIn?_eq_some_iff hm, ← typeIn?_eq_some_iff hn, types, flagged_iff hm, flagged_iff hn,
    flags]
  exact id

/-- Metadata with two types, and with a flag whose text has blanks around it. -/
def twoTypes : NameMap String := [("BOOLEAN", "yes"), ("Emitifempty", " True "), ("STRING", "a")]

/-- Of two types the first in the order of types is taken, and a missing type is told before a
malformed flag. -/
theorem ofMetadata_by_choices_mixed :
    Ascending twoTypes ∧ Ascending (twoTypes ++ [("string", "b")]) ∧
      ofMetadata "Note" twoTypes = .ok ⟨"Note", "String", "a", true⟩ ∧
      ofMetadata "Note" (twoTypes ++ [("string", "b")]) = .ok ⟨"Note", "String", "a", true⟩ ∧
      Ascending [("EmitIfEmpty", "?"), ("Int32", "5")] ∧
      ofMetadata "Note" [("EmitIfEmpty", "?"), ("Int32", "5")] =
        .error (.invalidFieldType "Note" "EmitIfEmpty,Int32") := by
  have ascending : Ascending twoTypes := by unfold Ascending; decide +kernel
  have longer : Ascending (twoTypes ++ [("string", "b")]) := by unfold Ascending; decide +kernel
  have untyped : Ascending [("EmitIfEmpty", "?"), ("Int32", "5")] := by
    unfold Ascending
    decide +kernel
  obtain ⟨-, gives, -, -, idle⟩ := ofMetadata_by_choices "Note" ascending
  obtain ⟨-, -, refused, -⟩ := ofMetadata_by_choices "Note" untyped
  have first : Chosen twoTypes "String" ("STRING", "a") :=
    (find?_eq_some_iff ascending).mp (by decide)
  have flag : Chosen twoTypes emitIfEmptyKey ("Emitifempty", " True ") :=
    (find?_eq_some_iff ascending).mp (by decide)
  have yes : DenotesBoolean " True " true := readBoolean_eq_some_iff.mp (by decide)
  have typed : Typed twoTypes .string "a" := ⟨[], _, "STRING", rfl, first, List.forall_mem_nil _⟩
  have small := (gives _).mpr ⟨.string, "a", true, typed, .given flag yes, rfl⟩
  have behind : ∀ name ∈ metadataNames,
      (twoTypes ++ [("string", "b")]).find? (fun e => SameIgnoringCase e.1 name) ≠
        some ("string", "b") := by decide
  have keys : ",".intercalate ["EmitIfEmpty", "Int32"] = "EmitIfEmpty,Int32" := by decide +kernel
  refine ⟨ascending, longer, small, idle _ longer (fun e changed name listed => ?_) _ small,
    untyped, keys ▸ refused fun t => ?_⟩
  · obtain rfl : e = ("string", "b") := by
      by_contra other
      exact changed (by simp [other])
    have absent : ("string", "b") ∉ twoTypes := by decide
    exact ⟨fun chosen => absent chosen.mem,
      fun chosen => behind name listed ((find?_eq_some_iff longer).mpr chosen)⟩
  · rw [← lookUp_eq_none_iff]
    cases t <;> decide

end VersionInfo.RawField
