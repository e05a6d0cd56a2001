import Mathlib.Data.List.Nodup
import VersionInfo.Proofs.Json.Typed
import VersionInfo.Proofs.NameMap

/-!
# Structures are read back from their canonical value

The canonical value of an object has the same members in another order. A structure that is written
field by field is therefore read back, if each field is, whatever the order of their keys.

* `canonical_array`, `canonical_object`: the canonical value, part by part.
* `Shape.Lawful`: each field of a structure is written, read back and kept.
* `Shape.Lawful.gives_canonical`: then so is the structure.
-/

namespace VersionInfo.Json

/-! ## Canonical values -/

/-- The elements of an array stay in their order in `sort_value`, each in canonical form. -/
theorem canonicalElements_eq_map (vs : List Value) :
    Value.canonicalElements vs = vs.map Value.canonical := by
  induction vs with
  | nil => rfl
  | cons v vs ih => rw [Value.canonicalElements, ih, List.map_cons]

theorem canonicalMembers_eq_map (ms : List (String × Value)) :
    Value.canonicalMembers ms = ms.map fun m => (m.1, m.2.canonical) := by
  induction ms with
  | nil => rfl
  | cons m ms ih => rw [Value.canonicalMembers, ih, List.map_cons]

theorem canonical_array (vs : List Value) :
    (Value.array vs).canonical = .array (vs.map Value.canonical) := by
  rw [Value.canonical, canonicalElements_eq_map]

/-- The canonical form of an object has its members in the order of keys, the last one of each key.
-/
theorem canonical_object (ms : List (String × Value)) :
    (Value.object ms).canonical =
      .object (NameMap.ofList (ms.map fun m => (m.1, m.2.canonical))) := by
  rw [Value.canonical, canonicalMembers_eq_map]

/-! ## Structures -/

namespace Shape

variable {κ σ : Type} [DecidableEq κ]

/-- How a shape reads what is written field by field: `part` is the value of a field, and `put`
gives a structure the field of another. -/
structure Lawful (shape : Shape κ σ) (part : σ → κ → Value) (put : σ → κ → σ → σ) : Prop where
  /-- The fields are told apart by their keys. -/
  labels : ∀ k, shape.key? (shape.label k) = some k
  nodup : shape.keys.Nodup
  all : ∀ k, k ∈ shape.keys
  /-- A field is read back. -/
  gives : ∀ x k s, Gives (shape.field k s) (part x k).canonical (some (put x k s))
  /-- Putting a field leaves the others as they are. -/
  part_put : ∀ x k s q, part (put x k s) q = if q = k then part x q else part s q
  /-- The fields make up the structure. -/
  ext : ∀ x y, (∀ k, part x k = part y k) → x = y

variable {shape : Shape κ σ} {part : σ → κ → Value} {put : σ → κ → σ → σ}

theorem Lawful.part_putAll (lawful : shape.Lawful part put) (x s : σ) (ks : List κ) (q : κ) :
    part (putAll (put x) ks s) q = if q ∈ ks then part x q else part s q := by
  induction ks generalizing s with
  | nil => rfl
  | cons k ks ih =>
    refine (ih (put x k s)).trans ?_
    rw [lawful.part_put]
    by_cases here : q = k
    · rw [if_pos here, if_pos (List.mem_cons.mpr (Or.inl here))]
      split <;> rfl
    · rw [if_neg here]
      by_cases later : q ∈ ks
      · rw [if_pos later, if_pos (List.mem_cons_of_mem k later)]
      · rw [if_neg later, if_neg (List.not_mem_cons_of_ne_of_not_mem here later)]

/-- **A structure is read back from its canonical value.** -/
theorem Lawful.gives_canonical (lawful : shape.Lawful part put) (x : σ) :
    Gives shape.reader
      (Value.object (shape.keys.map fun k => (shape.label k, part x k))).canonical (some x) := by
  have injective : Function.Injective shape.label := by
    intro k k' same
    have found := lawful.labels k
    rw [same, lawful.labels] at found
    exact (Option.some.inj found).symm
  have distinct : ((shape.keys.map fun k => (shape.label k, (part x k).canonical)).map
      Prod.fst).Nodup := by
    rw [List.map_map]
    exact List.Nodup.map injective lawful.nodup
  -- The members come in some other order of the fields.
  obtain ⟨ks, perm, order⟩ := NameMap.exists_perm_ofList_map distinct
  have every : ∀ k, k ∈ ks := fun k => perm.mem_iff.mpr (lawful.all k)
  have same : putAll (put x) ks shape.start = x := by
    refine lawful.ext _ _ fun q => ?_
    rw [lawful.part_putAll, if_pos (every q)]
  have read := gives_object lawful.labels (lawful.gives x) (perm.nodup_iff.mpr lawful.nodup)
    fun k _ _ => every k
  rw [canonical_object, List.map_map]
  rw [same, ← order] at read
  exact read

end Shape

end VersionInfo.Json
