import VersionInfo.Proofs.Digest.Sha256
import VersionInfo.Proofs.Members.Emitted
import VersionInfo.Proofs.Record.RoundTrip

/-!
# The order of fields

The fields of a record are taken one after another: a name is compared with those before it, and
the first fault is told. Yet whether a record is accepted, and which members it has, depends only
on which fields there are. The canonical text keeps their order.

* `Record.Accepted.reordered`: fields are accepted in any order if they are in one.
* `Record.members_congr`: accepted records that are to have the same members have them.
* `sourceText_reordered`: the text does not depend on the order of the fields, the canonical text
  does.
-/

namespace VersionInfo

open Digest.Standard (IsHexDigest)

namespace Record

variable {r s : Record} {fields : List RawField} {members : NameMap FieldValue}

/-- The record with other fields. -/
def withFields (r : Record) (fields : List RawField) : Record := { r with fields := fields }

/-! ## Members -/

theorem Accepted.exists_members (accepted : r.Accepted) : ∃ members, r.members = .ok members := by
  obtain ⟨text, made⟩ := (exists_sourceText_iff r).mpr accepted
  obtain ⟨_, members, -, hmembers, -⟩ := sourceText_eq_ok_iff.mp made
  exact ⟨members, hmembers⟩

/-- **The members are given by which ones a record is to have.** -/
theorem members_congr (hr : r.Accepted) (hs : s.Accepted)
    (same : ∀ name value, r.Emits name value ↔ s.Emits name value)
    (h : r.members = .ok members) : s.members = .ok members := by
  obtain ⟨members', h'⟩ := hs.exists_members
  have ascending := ascending_members h
  have ascending' := ascending_members h'
  have perm : members.Perm members' := by
    refine (List.perm_ext_iff_of_nodup ascending.nodup ascending'.nodup).mpr fun m => ?_
    obtain ⟨name, value⟩ := m
    rw [mem_members_iff hr h, mem_members_iff hs h', same]
  rw [h', NameMap.eq_of_ascending_of_perm ascending ascending' perm]

/-! ## Other orders -/

/-- No field is judged by its place: names that differ from those before them differ from all. -/
theorem Accepted.reordered (accepted : r.Accepted) (perm : r.fields.Perm fields) :
    (r.withFields fields).Accepted where
  language := accepted.language
  commitDate := accepted.commitDate
  resolves raw mem := accepted.resolves raw (perm.mem_iff.mpr mem)
  distinct := (perm.map RawField.name).nodup_iff.mp accepted.distinct
  unreserved raw mem := accepted.unreserved raw (perm.mem_iff.mpr mem)

theorem Emits.reordered (perm : r.fields.Perm fields) {name : String} {value : FieldValue}
    (h : r.Emits name value) : (r.withFields fields).Emits name value := by
  cases h with
  | company => exact .company
  | fileVersion => exact .fileVersion
  | assemblyVersion => exact .assemblyVersion
  | isPrerelease => exact .isPrerelease
  | isPublicRelease => exact .isPublicRelease
  | rootNamespace => exact .rootNamespace
  | informationalVersion given => exact .informationalVersion given
  | title given => exact .title given
  | product given => exact .product given
  | configuration given => exact .configuration given
  | commitId given => exact .commitId given
  | commitDate given => exact .commitDate given
  | own mem resolves kept => exact .own (perm.mem_iff.mp mem) resolves kept

theorem emits_withFields_iff (perm : r.fields.Perm fields) (name : String) (value : FieldValue) :
    r.Emits name value ↔ (r.withFields fields).Emits name value :=
  ⟨Emits.reordered perm, Emits.reordered (r := r.withFields fields) perm.symm⟩

theorem sourceText_of_reordered (perm : r.fields.Perm fields) {text : String}
    (made : r.sourceText = .ok text) : (r.withFields fields).sourceText = .ok text := by
  have accepted := (exists_sourceText_iff r).mp ⟨text, made⟩
  obtain ⟨l, members, language, hmembers, rfl⟩ := sourceText_eq_ok_iff.mp made
  refine sourceText_eq_ok_iff.mpr ⟨l, members, language, ?_, rfl⟩
  exact members_congr accepted (accepted.reordered perm) (emits_withFields_iff perm) hmembers

end Record

/-- **The order of the fields does not show in the text.** With its fields in another order, a
record is accepted if it was before, and has the same text. In the canonical text, of which the
record's SHA-256 digest is made, the order shows: it is the same only for the same order. -/
theorem sourceText_reordered {r : Record} {fields : List RawField} (perm : r.fields.Perm fields) :
    ((∃ text, r.sourceText = .ok text) ↔ ∃ text, (r.withFields fields).sourceText = .ok text) ∧
      (∀ text, r.sourceText = .ok text ↔ (r.withFields fields).sourceText = .ok text) ∧
      IsHexDigest r.digest r.canonicalText.toUTF8.toList ∧
      IsHexDigest (r.withFields fields).digest
        (r.withFields fields).canonicalText.toUTF8.toList ∧
      (r.canonicalText = (r.withFields fields).canonicalText ↔ r.fields = fields) := by
  have texts : ∀ text, r.sourceText = .ok text ↔ (r.withFields fields).sourceText = .ok text :=
    fun _ => ⟨Record.sourceText_of_reordered perm,
      Record.sourceText_of_reordered (r := r.withFields fields) perm.symm⟩
  refine ⟨exists_congr texts, texts, Digest.isHexDigest_ofText _, Digest.isHexDigest_ofText _,
    fun same => ?_, fun same => ?_⟩
  · have read := Record.read_canonical r
    rw [same, Record.read_canonical] at read
    exact (congrArg Record.fields (Except.ok.inj read)).symm
  · subst same
    rfl

/-- The fields of a record from the last to the first, one that is left out among them. -/
theorem sourceText_reordered_mixed :
    mixedRecord.fields.Perm mixedRecord.fields.reverse ∧
      (∃ text, mixedRecord.sourceText = .ok text ∧
        (mixedRecord.withFields mixedRecord.fields.reverse).sourceText = .ok text) ∧
      mixedRecord.canonicalText ≠
        (mixedRecord.withFields mixedRecord.fields.reverse).canonicalText := by
  have perm := (List.reverse_perm mixedRecord.fields).symm
  obtain ⟨-, texts, -, -, canonical⟩ := sourceText_reordered perm
  obtain ⟨text, made⟩ : ∃ text, mixedRecord.sourceText = .ok text := ⟨_, rfl⟩
  have other : mixedRecord.fields ≠ mixedRecord.fields.reverse := by decide
  exact ⟨perm, ⟨text, made, (texts text).mp made⟩, fun same => other (canonical.mp same)⟩

end VersionInfo
