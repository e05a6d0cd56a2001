import VersionInfo.Proofs.Json.Inside

/-!
# Values with objects as maps

Two values are **the same** when their objects, at every depth, are the same maps from keys to
values: the order of members does not count, and of a repeated key the last value does. The order of
elements counts. Canonical values are one choice among the same values.

* `Value.Same`: values that are the same.
* `Value.canonical_eq_iff`: the canonical values are equal exactly when the values are the same.
* `Value.ordered_canonical`: in a canonical value the keys of every object ascend.
-/

namespace VersionInfo.Json.Value

/-- The value that members give a key; of a repeated one the last counts. -/
def lookup (ms : List (String × Value)) (key : String) : Option Value :=
  NameMap.get? ms.reverse key

/-- The values are equal, if every object is taken as a map. -/
inductive Same : Value → Value → Prop
  | null : Same null null
  | boolean (b : Bool) : Same (boolean b) (boolean b)
  | integer (n : Int) : Same (integer n) (integer n)
  | float (x : Decimal.Binary64) : Same (float x) (float x)
  | string (s : String) : Same (string s) (string s)
  | array {vs ws : List Value} (elements : List.Forall₂ Same vs ws) : Same (array vs) (array ws)
  | object {ms ns : List (String × Value)}
      (values : ∀ key, Option.Rel Same (lookup ms key) (lookup ns key)) :
      Same (object ms) (object ns)

/-- The keys of every object ascend. -/
def Ordered (v : Value) : Prop :=
  v.Everywhere fun u => ∀ ms, u = object ms → NameMap.Ascending ms

/-! ## Members of a key -/

theorem mem_of_lookup {ms : List (String × Value)} {key : String} {v : Value}
    (h : lookup ms key = some v) : (key, v) ∈ ms :=
  List.mem_reverse.mp (NameMap.mem_of_get? h)

/-- What the canonical object holds under a key. -/
theorem get?_canonical (ms : List (String × Value)) (key : String) :
    NameMap.get? (NameMap.ofList (ms.map fun m => (m.1, m.2.canonical))) key =
      (lookup ms key).map canonical := by
  rw [NameMap.get?_ofList, ← List.map_reverse]
  exact NameMap.get?_map canonical ms.reverse key

/-! ## Equal canonical values -/

theorem canonical_of_isScalar {v : Value} (h : v.IsScalar) : v.canonical = v := by
  cases v with
  | array vs => exact h.elim
  | object ms => exact h.elim
  | _ => rfl

/-- Only an array has the canonical form of an array, and then element by element. -/
theorem canonical_eq_array_iff {vs : List Value} {w : Value} :
    (array vs).canonical = w.canonical ↔
      ∃ ws, w = array ws ∧ List.Forall₂ (fun v w => v.canonical = w.canonical) vs ws := by
  rcases w.kind_cases with scalar | ⟨ws, rfl⟩ | ⟨ns, rfl⟩
  · rw [canonical_of_isScalar scalar, canonical_array]
    constructor
    · rintro rfl
      exact scalar.elim
    · rintro ⟨ws, rfl, -⟩
      exact scalar.elim
  · simp only [canonical_array, array.injEq, exists_eq_left']
    rw [← List.forall₂_eq_eq_eq, List.forall₂_map_left_iff, List.forall₂_map_right_iff]
  · rw [canonical_array, canonical_object]
    exact ⟨nofun, nofun⟩

/-- Only an object has the canonical form of an object, and then they agree under every key. Order
and replaced members do not count. -/
theorem canonical_eq_object_iff {ms : List (String × Value)} {w : Value} :
    (object ms).canonical = w.canonical ↔
      ∃ ns, w = object ns ∧
        ∀ key, (lookup ms key).map canonical = (lookup ns key).map canonical := by
  rcases w.kind_cases with scalar | ⟨ws, rfl⟩ | ⟨ns, rfl⟩
  · rw [canonical_of_isScalar scalar, canonical_object]
    constructor
    · rintro rfl
      exact scalar.elim
    · rintro ⟨ns, rfl, -⟩
      exact scalar.elim
  · rw [canonical_array, canonical_object]
    exact ⟨nofun, nofun⟩
  · simp only [canonical_object, object.injEq, exists_eq_left', ← get?_canonical]
    constructor
    · intro same key
      rw [same]
    · exact NameMap.eq_of_get? (NameMap.ascending_ofList _) (NameMap.ascending_ofList _)

theorem canonical_eq_iff_of_isScalar {v w : Value} (h : v.IsScalar) :
    v.canonical = w.canonical ↔ v = w := by
  rw [canonical_of_isScalar h]
  rcases w.kind_cases with scalar | ⟨ws, rfl⟩ | ⟨ns, rfl⟩
  · rw [canonical_of_isScalar scalar]
  · rw [canonical_array]
    constructor <;> rintro rfl <;> exact h.elim
  · rw [canonical_object]
    constructor <;> rintro rfl <;> exact h.elim

theorem same_iff_of_isScalar {v w : Value} (h : v.IsScalar) : Same v w ↔ v = w := by
  constructor
  · intro same
    cases same with
    | array => exact h.elim
    | object => exact h.elim
    | _ => rfl
  · rintro rfl
    cases v with
    | array vs => exact h.elim
    | object ms => exact h.elim
    | _ => constructor

theorem same_array_iff {vs : List Value} {w : Value} :
    Same (array vs) w ↔ ∃ ws, w = array ws ∧ List.Forall₂ Same vs ws := by
  constructor
  · intro same
    cases same with
    | array elements => exact ⟨_, rfl, elements⟩
  · rintro ⟨ws, rfl, elements⟩
    exact .array elements

/-- An object is the same as objects with the same value under every key, and as nothing else. -/
theorem same_object_iff {ms : List (String × Value)} {w : Value} :
    Same (object ms) w ↔
      ∃ ns, w = object ns ∧ ∀ key, Option.Rel Same (lookup ms key) (lookup ns key) := by
  constructor
  · intro same
    cases same with
    | object values => exact ⟨_, rfl, values⟩
  · rintro ⟨ns, rfl, values⟩
    exact .object values

theorem forall₂_congr_left {α β : Type} {R S : α → β → Prop} {as : List α} {bs : List β}
    (h : ∀ a ∈ as, ∀ b, R a b ↔ S a b) : List.Forall₂ R as bs ↔ List.Forall₂ S as bs := by
  induction as generalizing bs with
  | nil => rw [List.forall₂_nil_left_iff, List.forall₂_nil_left_iff]
  | cons a as ih =>
    obtain ⟨first, others⟩ := List.forall_mem_cons.mp h
    simp only [List.forall₂_cons_left_iff, first, ih others]

/-- Two optional values have one image under `f` if they are related by what `f` identifies. -/
theorem map_eq_map_iff_rel {α β : Type} {f : α → β} {R : α → α → Prop} {a b : Option α}
    (h : ∀ x ∈ a, ∀ y, f x = f y ↔ R x y) : a.map f = b.map f ↔ Option.Rel R a b := by
  cases a with
  | none =>
    cases b with
    | none => exact ⟨fun _ => .none, fun _ => rfl⟩
    | some y => exact ⟨nofun, nofun⟩
  | some x =>
    cases b with
    | none => exact ⟨nofun, nofun⟩
    | some y =>
      rw [Option.map_some, Option.map_some, Option.some.injEq, h x rfl]
      exact ⟨.some, fun | .some rel => rel⟩

/-- **Canonical values are equal exactly when the values are the same.** -/
theorem canonical_eq_iff (v w : Value) : v.canonical = w.canonical ↔ Same v w := by
  induction v using inductionOn generalizing w with
  | step v ih =>
    rcases v.kind_cases with scalar | ⟨vs, rfl⟩ | ⟨ms, rfl⟩
    · rw [canonical_eq_iff_of_isScalar scalar, same_iff_of_isScalar scalar]
    · rw [canonical_eq_array_iff, same_array_iff]
      exact exists_congr fun ws => and_congr_right fun _ => forall₂_congr_left ih
    · rw [canonical_eq_object_iff, same_object_iff]
      refine exists_congr fun ns => and_congr_right fun _ => forall_congr' fun key => ?_
      refine map_eq_map_iff_rel fun v found => ih v ?_
      exact List.mem_map_of_mem (mem_of_lookup found)

/-! ## The canonical value -/

/-- In a canonical value the keys of every object ascend. -/
theorem ordered_canonical (v : Value) : v.canonical.Ordered := by
  have every : v.Everywhere fun _ => True := by
    induction v using inductionOn with
    | step v ih => exact .intro trivial ih
  refine everywhere_canonical (fun u _ ms same => ?_) every
  cases u with
  | object ns =>
    rw [canonical_object] at same
    exact object.inj same ▸ NameMap.ascending_ofList _
  | array vs => rw [canonical_array] at same; cases same
  | _ => cases same

/-- A value whose keys ascend is canonical. -/
theorem canonical_of_ordered {v : Value} (h : v.Ordered) : v.canonical = v := by
  induction h with
  | @intro v here _ ih =>
    cases v with
    | array vs =>
      rw [canonical_array]
      exact congrArg array ((List.map_congr_left ih).trans (List.map_id vs))
    | object ms =>
      have members : (ms.map fun m => (m.1, m.2.canonical)) = ms := by
        refine (List.map_congr_left fun m mem => ?_).trans (List.map_id ms)
        rw [ih m.2 (List.mem_map_of_mem mem)]
        rfl
      rw [canonical_object, members, NameMap.ofList_of_ascending (here ms rfl)]
    | _ => rfl

theorem canonical_canonical (v : Value) : v.canonical.canonical = v.canonical :=
  canonical_of_ordered v.ordered_canonical

/-- The canonical value is the same as the value. -/
theorem same_canonical (v : Value) : Same v.canonical v :=
  (canonical_eq_iff _ _).mp v.canonical_canonical

end VersionInfo.Json.Value
