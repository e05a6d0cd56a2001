import VersionInfo.Proofs.Json.Canonical
import VersionInfo.Record.Json
import VersionInfo.Source

/-!
# Records are read back from their canonical text

Every part of a record is written into its canonical text and read back from it, absent values
apart from empty ones, so the canonical text tells records apart. Whatever is made from a record
can therefore be made from its canonical text.

* `RawField.lawful`, `Record.lawful`: each part is written, read back and kept.
* `canonicalText_roundTrip`: records are read back, so their canonical texts decide what is
  generated.
-/

namespace VersionInfo

open Json (Gives NotNull Reader Value)

/-! ## Raw fields -/

namespace RawField

/-- The raw field `s` with one part of `f`. -/
def put (f : RawField) (p : Part) (s : RawField) : RawField :=
  match p with
  | .name => { s with name := f.name }
  | .type => { s with type := f.type }
  | .value => { s with value := f.value }
  | .emitIfEmpty => { s with emitIfEmpty := f.emitIfEmpty }

theorem lawful : shape.Lawful part put where
  labels k := by cases k <;> decide
  nodup := by decide
  all k := by cases k <;> decide
  gives f k s := by
    cases k with
    | name => exact (Json.gives_string f.name).map _
    | type => exact (Json.gives_string f.type).map _
    | value => exact (Json.gives_string f.value).map _
    | emitIfEmpty => exact (Json.gives_boolean f.emitIfEmpty).map _
  part_put f k s q := by cases k <;> cases q <;> rfl
  ext f g same := by
    obtain ⟨name, type, value, emitIfEmpty⟩ := f
    obtain ⟨name', type', value', emitIfEmpty'⟩ := g
    cases same .name
    cases same .type
    cases same .value
    cases same .emitIfEmpty
    rfl

/-- A raw field is read back from its canonical value. -/
theorem gives_canonical (f : RawField) : Gives shape.reader f.toJson.canonical (some f) :=
  lawful.gives_canonical f

theorem toJson_injective : Function.Injective toJson := by
  intro f g same
  have read := gives_canonical f
  rw [same] at read
  exact Option.some.inj (read.eq_run.symm.trans (gives_canonical g).eq_run)

end RawField

/-! ## Records -/

namespace Record

/-- The record `s` with one part of `r`. -/
def put (r : Record) (p : Part) (s : Record) : Record :=
  match p with
  | .assemblyVersion => { s with assemblyVersion := r.assemblyVersion }
  | .fileVersion => { s with fileVersion := r.fileVersion }
  | .informationalVersion => { s with informationalVersion := r.informationalVersion }
  | .company => { s with company := r.company }
  | .title => { s with title := r.title }
  | .product => { s with product := r.product }
  | .configuration => { s with configuration := r.configuration }
  | .commitId => { s with commitId := r.commitId }
  | .commitDate => { s with commitDate := r.commitDate }
  | .isPrerelease => { s with isPrerelease := r.isPrerelease }
  | .isPublicRelease => { s with isPublicRelease := r.isPublicRelease }
  | .rootNamespace => { s with rootNamespace := r.rootNamespace }
  | .typeNamespace => { s with typeNamespace := r.typeNamespace }
  | .emitType => { s with emitType := r.emitType }
  | .selector => { s with selector := r.selector }
  | .fields => { s with fields := r.fields }
  | .generatorName => { s with generatorName := r.generatorName }
  | .generatorVersion => { s with generatorVersion := r.generatorVersion }

/-- An optional value is determined by what is written for it, if no value is written as `null`. -/
theorem optional_injective {α : Type} {write : α → Value} (injective : Function.Injective write)
    (given : ∀ a, NotNull (write a)) : Function.Injective (optional write) := by
  have null : ¬ NotNull .null := by
    rintro ⟨c, more, same, -, other⟩
    cases same
    exact other rfl
  intro a b same
  cases a with
  | none =>
    cases b with
    | none => rfl
    | some b => exact absurd (given b) ((show Value.null = write b from same) ▸ null)
  | some a =>
    cases b with
    | none => exact absurd (given a) ((show write a = Value.null from same) ▸ null)
    | some b => exact congrArg some (injective same)

theorem optionalString_injective : Function.Injective (optional Value.string) :=
  optional_injective (fun _ _ same => Value.string.inj same) Json.notNull_string

theorem optionalTicks_injective :
    Function.Injective (optional fun t : Ticks => Value.integer t.toInt) :=
  optional_injective (fun _ _ same => Int64.toInt_inj.mp (Value.integer.inj same))
    fun t => Json.notNull_integer t.toInt

/-- An optional value is read back if the values are. -/
theorem gives_optional {α : Type} {write : α → Value} {p : Reader α}
    (given : ∀ a, NotNull (write a)) (plain : ∀ a, (write a).canonical = write a)
    (gives : ∀ a, Gives p (write a) (some a)) (o : Option α) :
    Gives (Json.option p) (optional write o).canonical (some o) := by
  cases o with
  | none => exact Json.gives_option_null p
  | some a =>
    change Gives _ (write a).canonical _
    rw [plain]
    exact Json.gives_option_some (given a) (gives a)

theorem gives_optionalString (o : Option String) :
    Gives (Json.option Json.string) (optional Value.string o).canonical (some o) :=
  gives_optional Json.notNull_string (fun _ => rfl) Json.gives_string o

theorem gives_optionalTicks (o : Option Ticks) :
    Gives (Json.option Json.int64) (optional (fun t => Value.integer t.toInt) o).canonical
      (some o) :=
  gives_optional (fun t => Json.notNull_integer t.toInt) (fun _ => rfl) Json.gives_int64 o

/-- Raw fields are read back in their order. -/
theorem gives_fields (fs : List RawField) :
    Gives (Json.list RawField.shape.reader) (Value.array (fs.map RawField.toJson)).canonical
      (some fs) := by
  rw [Json.canonical_array, List.map_map]
  refine Json.gives_list_map fun f _ => ⟨?_, RawField.gives_canonical f⟩
  change Json.Starts (Value.object _).canonical.text
  rw [Json.canonical_object]
  exact Json.starts_object _

theorem lawful : shape.Lawful part put where
  labels k := by cases k <;> decide
  nodup := by decide
  all k := by cases k <;> decide
  gives r k s := by
    cases k with
    | assemblyVersion => exact (Json.gives_string r.assemblyVersion).map _
    | fileVersion => exact (Json.gives_string r.fileVersion).map _
    | informationalVersion => exact (Json.gives_string r.informationalVersion).map _
    | company => exact (Json.gives_string r.company).map _
    | title => exact (Json.gives_string r.title).map _
    | product => exact (Json.gives_string r.product).map _
    | configuration => exact (Json.gives_string r.configuration).map _
    | commitId => exact (Json.gives_string r.commitId).map _
    | commitDate => exact (gives_optionalTicks r.commitDate).map _
    | isPrerelease => exact (Json.gives_boolean r.isPrerelease).map _
    | isPublicRelease => exact (Json.gives_boolean r.isPublicRelease).map _
    | rootNamespace => exact (gives_optionalString r.rootNamespace).map _
    | typeNamespace => exact (gives_optionalString r.typeNamespace).map _
    | emitType => exact (Json.gives_boolean r.emitType).map _
    | selector => exact (Json.gives_string r.selector).map _
    | fields => exact (gives_fields r.fields).map _
    | generatorName => exact (gives_optionalString r.generatorName).map _
    | generatorVersion => exact (gives_optionalString r.generatorVersion).map _
  part_put r k s q := by cases k <;> cases q <;> rfl
  ext r s same := by
    obtain ⟨_, _, _, _, _, _, _, _, date, _, _, root, space, _, _, fields, name, version⟩ := r
    obtain ⟨_, _, _, _, _, _, _, _, date', _, _, root', space', _, _, fields', name', version'⟩ := s
    cases same .assemblyVersion
    cases same .fileVersion
    cases same .informationalVersion
    cases same .company
    cases same .title
    cases same .product
    cases same .configuration
    cases same .commitId
    cases same .isPrerelease
    cases same .isPublicRelease
    cases same .emitType
    cases same .selector
    obtain rfl : date = date' := optionalTicks_injective (same .commitDate)
    obtain rfl : root = root' := optionalString_injective (same .rootNamespace)
    obtain rfl : space = space' := optionalString_injective (same .typeNamespace)
    obtain rfl : name = name' := optionalString_injective (same .generatorName)
    obtain rfl : version = version' := optionalString_injective (same .generatorVersion)
    obtain rfl : fields = fields' :=
      List.map_injective_iff.mpr RawField.toJson_injective (Value.array.inj (same .fields))
    rfl

/-- A record is read back from its canonical text, although the keys stand there in another order.
-/
theorem read_canonical (r : Record) : read r.canonicalText = .ok r :=
  (lawful.gives_canonical r).text

end Record

/-- **Records are read back from their canonical text.** So the text tells every part of a record
and the order of its fields, and records with one canonical text, of which their digest is made,
have one generated text or one error. -/
theorem canonicalText_roundTrip :
    (∀ r : Record, Record.read r.canonicalText = .ok r) ∧
      Function.Injective Record.canonicalText ∧
        Function.FactorsThrough Record.sourceText Record.canonicalText := by
  have injective : Function.Injective Record.canonicalText := by
    intro r s same
    have read := Record.read_canonical r
    rw [same, Record.read_canonical s] at read
    exact (Except.ok.inj read).symm
  exact ⟨Record.read_canonical, injective, injective.factorsThrough Record.sourceText⟩

end VersionInfo
