import VersionInfo.Proofs.Json.Fields
import VersionInfo.Proofs.Record.RoundTrip

/-!
# What records are read from

A record is read from an object if no key of a part stands twice and every part that is given has
its type. Unknown keys and the order of the members make no difference, and a part whose key is
missing is that of the empty record. The raw fields stand in an array, each as an object or as an
array of its parts.

* `RawField.Fits`, `RawField.Holds`: the values that raw fields are read from.
* `Record.Part.Fits`, `Record.Part.Holds`: the values of the parts of a record.
* `read_object`: the objects that are read, and the record that each of them gives.
-/

namespace VersionInfo

open Json (Shape Takes Value)

/-! ## Raw fields -/

namespace RawField

/-- The values that fit a part. -/
def Part.Fits : Part → Value → Prop
  | .emitIfEmpty, v => ∃ b, v = .boolean b
  | _, v => ∃ s, v = .string s

/-- The raw field holds the value in this part. -/
def Part.Holds (p : Part) (v : Value) (f : RawField) : Prop := v = f.part p

/-- The values that a raw field is read from: objects in which no known key stands twice, the name
and the type are given and all parts have their types, and arrays of the first two, three or four
parts. -/
def Fits : Value → Prop := shape.Fits Part.Fits

/-- What a raw field holds of the value that it is read from. What is not given is as in a raw field
with an empty value that is not emitted. -/
def Holds : Value → RawField → Prop := shape.Holds Part.Holds part

/-- The reader of raw fields decides by its shape: each part is read from the values that fit it,
and is then held. -/
theorem decides : shape.Decides part put Part.Fits Part.Holds where
  toLawful := lawful
  takes k s := by
    cases k with
    | name => exact Json.takes_string.map _ fun v a held => ⟨{ s with name := a }, rfl, held⟩
    | type => exact Json.takes_string.map _ fun v a held => ⟨{ s with type := a }, rfl, held⟩
    | value => exact Json.takes_string.map _ fun v a held => ⟨{ s with value := a }, rfl, held⟩
    | emitIfEmpty =>
      exact Json.takes_boolean.map _ fun v a held => ⟨{ s with emitIfEmpty := a }, rfl, held⟩
  keeps same held := held.trans same

/-- A raw field is read from the values that fit it, and from no others. -/
theorem takes_reader : Takes shape.reader Fits Holds := decides.takes_reader

theorem eq_of_holds {v : Value} {f g : RawField} (hf : Holds v f) (hg : Holds v g) : f = g :=
  lawful.eq_of_holds (fun inF inG => inF.symm.trans inG) hf hg

end RawField

/-! ## Records -/

namespace Record

/-- The values that fit a part. -/
def Part.Fits : Part → Value → Prop
  | .isPrerelease, v | .isPublicRelease, v | .emitType, v => ∃ b, v = .boolean b
  | .rootNamespace, v | .typeNamespace, v | .generatorName, v | .generatorVersion, v =>
    v = .null ∨ ∃ s, v = .string s
  | .commitDate, v => v = .null ∨ ∃ t : Int64, v = .integer t.toInt
  | .fields, v => ∃ vs, v = .array vs ∧ ∀ u ∈ vs, RawField.Fits u
  | _, v => ∃ s, v = .string s

/-- The record holds the value in this part. -/
def Part.Holds : Part → Value → Record → Prop
  | .fields, v, r => ∃ vs, v = .array vs ∧ List.Forall₂ RawField.Holds vs r.fields
  | p, v, r => v = r.part p

theorem eq_optional {α : Type} {write : α → Value} {v : Value} {o : Option α}
    (held : o.elim (v = .null) fun a => v = write a) : v = optional write o := by
  cases o <;> exact held

/-- The reader of records decides by its shape, part by part. The fields are a list, so this uses
what was shown of raw fields. -/
theorem decides : shape.Decides part put Part.Fits Part.Holds where
  toLawful := lawful
  takes k s := by
    cases k with
    | assemblyVersion =>
      exact Json.takes_string.map _ fun v a held => ⟨{ s with assemblyVersion := a }, rfl, held⟩
    | fileVersion =>
      exact Json.takes_string.map _ fun v a held => ⟨{ s with fileVersion := a }, rfl, held⟩
    | informationalVersion =>
      exact Json.takes_string.map _ fun v a held =>
        ⟨{ s with informationalVersion := a }, rfl, held⟩
    | company => exact Json.takes_string.map _ fun v a held => ⟨{ s with company := a }, rfl, held⟩
    | title => exact Json.takes_string.map _ fun v a held => ⟨{ s with title := a }, rfl, held⟩
    | product => exact Json.takes_string.map _ fun v a held => ⟨{ s with product := a }, rfl, held⟩
    | configuration =>
      exact Json.takes_string.map _ fun v a held => ⟨{ s with configuration := a }, rfl, held⟩
    | commitId =>
      exact Json.takes_string.map _ fun v a held => ⟨{ s with commitId := a }, rfl, held⟩
    | commitDate =>
      exact (Json.takes_option Json.takes_int64).map _ fun v a held =>
        ⟨{ s with commitDate := a }, rfl, eq_optional held⟩
    | isPrerelease =>
      exact Json.takes_boolean.map _ fun v a held => ⟨{ s with isPrerelease := a }, rfl, held⟩
    | isPublicRelease =>
      exact Json.takes_boolean.map _ fun v a held => ⟨{ s with isPublicRelease := a }, rfl, held⟩
    | rootNamespace =>
      exact (Json.takes_option Json.takes_string).map _ fun v a held =>
        ⟨{ s with rootNamespace := a }, rfl, eq_optional held⟩
    | typeNamespace =>
      exact (Json.takes_option Json.takes_string).map _ fun v a held =>
        ⟨{ s with typeNamespace := a }, rfl, eq_optional held⟩
    | emitType =>
      exact Json.takes_boolean.map _ fun v a held => ⟨{ s with emitType := a }, rfl, held⟩
    | selector =>
      exact Json.takes_string.map _ fun v a held => ⟨{ s with selector := a }, rfl, held⟩
    | fields =>
      exact (Json.takes_list RawField.takes_reader).map _ fun v a held =>
        ⟨{ s with fields := a }, rfl, held⟩
    | generatorName =>
      exact (Json.takes_option Json.takes_string).map _ fun v a held =>
        ⟨{ s with generatorName := a }, rfl, eq_optional held⟩
    | generatorVersion =>
      exact (Json.takes_option Json.takes_string).map _ fun v a held =>
        ⟨{ s with generatorVersion := a }, rfl, eq_optional held⟩
  keeps {k v x y} same held := by
    cases k with
    | fields =>
      obtain ⟨vs, rfl, each⟩ := held
      have fields : x.fields = y.fields :=
        List.map_injective_iff.mpr RawField.toJson_injective (Value.array.inj same)
      exact ⟨vs, rfl, fields ▸ each⟩
    | _ => exact Eq.trans held same

theorem takes_reader :
    Takes shape.reader (shape.Fits Part.Fits) (shape.Holds Part.Holds part) := decides.takes_reader

/-- A part is determined by the value that it holds. For the fields this goes through the raw
fields, each of which is given in one of two shapes. -/
theorem part_eq_of_holds {p : Part} {v : Value} {r s : Record} (hr : p.Holds v r)
    (hs : p.Holds v s) : r.part p = s.part p := by
  cases p with
  | fields =>
    obtain ⟨vs, rfl, inR⟩ := hr
    obtain ⟨_, same, inS⟩ := hs
    cases same
    have unique : Relator.RightUnique RawField.Holds :=
      fun _ _ _ hf hg => RawField.eq_of_holds hf hg
    have fields : r.fields = s.fields := List.right_unique_forall₂' unique inR inS
    exact congrArg (fun fs => Value.array (fs.map RawField.toJson)) fields
  | _ => exact Eq.trans (Eq.symm hr) hs

end Record

/-- **The objects that records are read from.** The text of an object with any members is read
exactly when no key of a part stands twice and each part that is given has its type. The record then
holds the given parts, and in all others it is the empty record. It depends on nothing but the
members with the keys of parts, in whatever order and between whatever other members they stand. -/
theorem read_object (ms : List (String × Value)) (plain : ∀ m ∈ ms, m.2.Plain) :
    ((∃ r, Record.read (String.ofList (Value.object ms).text) = .ok r) ↔
      (∀ p : Record.Part, (ms.map Prod.fst).count p.key ≤ 1) ∧
        ∀ (p : Record.Part) (v : Value), (p.key, v) ∈ ms → p.Fits v) ∧
      (∀ r, Record.read (String.ofList (Value.object ms).text) = .ok r →
        (∀ (p : Record.Part) (v : Value), (p.key, v) ∈ ms → p.Holds v r) ∧
          ∀ p : Record.Part, (∀ v, (p.key, v) ∉ ms) → r.part p = ({} : Record).part p) ∧
      ∀ ms' : List (String × Value), (∀ m ∈ ms', m.2.Plain) →
        (∀ p : Record.Part, (ms.filter fun m => m.1 == p.key) = ms'.filter fun m => m.1 == p.key) →
        ∀ r, Record.read (String.ofList (Value.object ms).text) = .ok r →
          Record.read (String.ofList (Value.object ms').text) = .ok r := by
  have takes := Record.takes_reader
  have plain := Value.plain_object.mpr plain
  refine ⟨?_, fun r read => ?_, fun ms' plain' agree r read => ?_⟩
  · refine (takes.exists_text_iff plain).trans ⟨fun fit => ⟨fit.once, fit.typed⟩, ?_⟩
    exact fun ⟨once, typed⟩ => ⟨once, typed, nofun⟩
  · have held := takes.holds_of_text plain read
    have absent := held.absent
    rw [Record.shape_start] at absent
    exact ⟨held.given, absent⟩
  · have agree : Record.shape.Agree ms ms' := agree
    have fit := (takes.exists_text_iff plain).mp ⟨r, read⟩
    have held := takes.holds_of_text plain read
    obtain ⟨s, gives, held'⟩ :=
      takes.accepts (Value.plain_object.mpr plain') (agree.objectFits fit)
    have held : Record.shape.Holds Record.Part.Holds Record.part (.object ms') r :=
      agree.objectHolds held
    obtain rfl : r = s := Record.lawful.eq_of_holds Record.part_eq_of_holds held held'
    exact gives.text

/-- Members in some order, with unknown keys among them and a raw field of either shape. -/
def scatteredMembers : List (String × Value) :=
  [("unknown", .array [.object [("title", .null)], .array []]),
    ("additionalFields", .array
      [.object [("type", .string "Boolean"), ("other", .integer 5), ("name", .string "Flag")],
        .array [.string "Label", .string "String", .string "x"]]),
    ("gitCommitDate", .integer 5), ("rootNamespace", .null), ("assemblyCompany", .string "Company")]

/-- The members that are known, in another order. -/
def knownMembers : List (String × Value) :=
  [("assemblyCompany", .string "Company"), ("gitCommitDate", .integer 5), ("rootNamespace", .null),
    ("additionalFields", .array
      [.object [("type", .string "Boolean"), ("other", .integer 5), ("name", .string "Flag")],
        .array [.string "Label", .string "String", .string "x"]])]

/-- The record that they give. -/
def scatteredRecord : Record where
  company := "Company"
  commitDate := some 5
  fields := [⟨"Flag", "Boolean", "", false⟩, .string "Label" "x"]

/-- Both objects give the record, and the class flag that neither gives is on. -/
theorem read_object_scattered :
    (∀ m ∈ scatteredMembers, m.2.Plain) ∧
      Record.read (String.ofList (Value.object scatteredMembers).text) = .ok scatteredRecord ∧
      Record.read (String.ofList (Value.object knownMembers).text) = .ok scatteredRecord ∧
      scatteredRecord.part .emitType = ({} : Record).part .emitType := by
  have range : Json.IntegerRange 5 := ⟨by decide, by decide⟩
  have scattered : ∀ m ∈ scatteredMembers, m.2.Plain := by simp [scatteredMembers, range]
  have known : ∀ m ∈ knownMembers, m.2.Plain := by simp [knownMembers, range]
  have read : Record.read (String.ofList (Value.object scatteredMembers).text) =
      .ok scatteredRecord := by
    refine Json.Reader.text_eq_ok_iff.mpr ⟨[], ?_, rfl⟩
    rw [String.toList_ofList]
    decide +kernel
  obtain ⟨-, holds, same⟩ := read_object scatteredMembers scattered
  have agree : ∀ p : Record.Part, (scatteredMembers.filter fun m => m.1 == p.key) =
      knownMembers.filter fun m => m.1 == p.key := by
    intro p
    cases p <;> rfl
  exact ⟨scattered, read, same knownMembers known agree _ read,
    (holds _ read).2 .emitType (by simp [scatteredMembers, Record.Part.key])⟩

end VersionInfo
