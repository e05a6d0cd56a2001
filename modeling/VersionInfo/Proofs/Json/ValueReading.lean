import VersionInfo.Proofs.Json.Inside

/-!
# Values are read back

Every value that is read has its integers in range and is nested no deeper than the reader goes.
The other way round, a value that has all that, and no floating point numbers, is read back from
its text.

* `elementsFrom_invariant`, `membersFrom_invariant`: what each part keeps, all parts keep.
* `run_within`: the values that are read.
* `gives_within`: values are read back.
-/

namespace VersionInfo.Json

variable {σ : Type}

/-! ## What is read -/

/-- What every element keeps, all elements of an array keep. -/
theorem elementsFrom_invariant {step : σ → Reader σ} {P : σ → Prop}
    (keeps : ∀ state s state' t, P state → (step state).run s = some (state', t) → P state')
    {n : Nat} {first : Bool} {state state' : σ} {s t : List Char} {h : s.length ≤ n}
    (init : P state) (read : outcome (elementsFrom step n first state s h) = some (state', t)) :
    P state' := by
  fun_induction elementsFrom step n first state s h with
  | case1 => cases read
  | case2 =>
    obtain ⟨rfl, rfl⟩ := Prod.mk.inj (Option.some.inj read)
    exact init
  | case3 => cases read
  | case4 _ _ _ _ _ _ _ _ found ih =>
    exact ih (keeps _ _ _ _ init (outcome_eq_some_iff.mpr ⟨_, found, rfl, rfl⟩)) read

/-- What every member keeps, all members of an object keep. -/
theorem membersFrom_invariant {step : σ → String → Reader σ} {P : σ → Prop}
    (keeps : ∀ state k s state' t, P state → (step state k).run s = some (state', t) → P state')
    {n : Nat} {first : Bool} {state state' : σ} {s t : List Char} {h : s.length ≤ n}
    (init : P state) (read : outcome (membersFrom step n first state s h) = some (state', t)) :
    P state' := by
  fun_induction membersFrom step n first state s h with
  | case1 => cases read
  | case2 =>
    obtain ⟨rfl, rfl⟩ := Prod.mk.inj (Option.some.inj read)
    exact init
  | case3 => cases read
  | case4 _ _ _ _ _ _ _ found ih =>
    exact ih (keeps _ _ _ _ _ init (outcome_eq_some_iff.mpr ⟨_, found, rfl, rfl⟩)) read

theorem run_atValue_eq_some {α : Type} {p : Char → Reader α} {s : List Char} {r : α × List Char}
    (h : (atValue p).run s = some r) : ∃ c rest, (p c).run (c :: rest) = some r := by
  rw [run_atValue_eq] at h
  split at h
  · cases h
  · exact ⟨_, _, h⟩

theorem run_literal_eq_some {α : Type} {w s : List Char} {a : α} {r : α × List Char}
    (h : (literal w a).run s = some r) : r.1 = a := by
  unfold Reader.run literal at h
  split at h
  · cases h
  · split at h
    · cases h
    · cases h
      rfl

/-- An integer that was made of a numeral is in range: longer ones become floating point numbers. -/
theorem range_of_number? {n : Numeral} {i : Int} (h : n.number? = some (.integer i)) :
    IntegerRange i := by
  unfold Numeral.number? at h
  unfold IntegerRange
  split at h
  · rename_i fits
    cases h
    omega
  · split at h
    · rename_i fits
      cases h
      omega
    · obtain ⟨x, -, same⟩ := Option.map_eq_some_iff.mp h
      cases same

theorem range_of_run_number {s t : List Char} {i : Int}
    (h : number.run s = some (.integer i, t)) : IntegerRange i := by
  obtain ⟨r, read, value, -⟩ := outcome_eq_some_iff.mp h
  unfold number at read
  split at read
  · cases read
  · cases read
  · split at read
    · rename_i denotes
      cases read
      exact range_of_number? (denotes.trans (congrArg some value))
    · cases read

namespace Value

/-- A value is read as one without brackets, or as an array or object. -/
theorem run_byFirst {arrays objects : Reader Value} {s t : List Char} {v : Value}
    (read : (byFirst arrays objects).run s = some (v, t)) :
    (v.IsScalar ∧ v.InRange) ∨ (∃ s, arrays.run s = some (v, t)) ∨
      ∃ s, objects.run s = some (v, t) := by
  obtain ⟨c, rest, read⟩ := run_atValue_eq_some read
  split at read
  · obtain rfl := run_literal_eq_some read
    exact Or.inl ⟨trivial, everywhere_of_isScalar trivial nofun⟩
  split at read
  · obtain rfl := run_literal_eq_some read
    exact Or.inl ⟨trivial, everywhere_of_isScalar trivial nofun⟩
  split at read
  · obtain rfl := run_literal_eq_some read
    exact Or.inl ⟨trivial, everywhere_of_isScalar trivial nofun⟩
  split at read
  · rw [Reader.run_map] at read
    obtain ⟨⟨n, t⟩, found, same⟩ := Option.map_eq_some_iff.mp read
    obtain ⟨rfl, rfl⟩ := Prod.mk.inj same
    cases n with
    | integer i =>
      refine Or.inl ⟨trivial, everywhere_of_isScalar trivial ?_⟩
      rintro _ ⟨⟩
      exact range_of_run_number found
    | float x => exact Or.inl ⟨trivial, everywhere_of_isScalar trivial nofun⟩
  split at read
  · rw [Reader.run_map] at read
    obtain ⟨⟨s, t⟩, -, same⟩ := Option.map_eq_some_iff.mp read
    obtain ⟨rfl, rfl⟩ := Prod.mk.inj same
    exact Or.inl ⟨trivial, everywhere_of_isScalar trivial nofun⟩
  split at read
  · exact Or.inr (Or.inl ⟨_, read⟩)
  split at read
  · exact Or.inr (Or.inr ⟨_, read⟩)
  · cases read

/-- What an array is read from holds of its elements. -/
theorem run_arrayOf {element : Reader Value} {P : Value → Prop}
    (each : ∀ s v t, element.run s = some (v, t) → P v) {s t : List Char} {v : Value}
    (read : (arrayOf element).run s = some (v, t)) : ∃ vs, v = array vs ∧ ∀ u ∈ vs, P u := by
  unfold arrayOf at read
  rw [Reader.run_map] at read
  obtain ⟨⟨done, t⟩, found, same⟩ := Option.map_eq_some_iff.mp read
  obtain ⟨rfl, rfl⟩ := Prod.mk.inj same
  cases s with
  | nil => cases found
  | cons c s =>
    refine ⟨done.reverse, rfl, fun u mem => ?_⟩
    refine elementsFrom_invariant (P := fun done => ∀ u ∈ done, P u) ?_ (List.forall_mem_nil _)
      found u (List.mem_reverse.mp mem)
    intro done s done' t every read
    rw [Reader.run_map] at read
    obtain ⟨⟨v, t⟩, found, same⟩ := Option.map_eq_some_iff.mp read
    obtain ⟨rfl, rfl⟩ := Prod.mk.inj same
    exact List.forall_mem_cons.mpr ⟨each _ _ _ found, every⟩

/-- What an object is read from holds of the values of its members. -/
theorem run_objectOf {value : Reader Value} {P : Value → Prop}
    (each : ∀ s v t, value.run s = some (v, t) → P v) {s t : List Char} {v : Value}
    (read : (objectOf value).run s = some (v, t)) : ∃ ms, v = object ms ∧ ∀ m ∈ ms, P m.2 := by
  unfold objectOf at read
  rw [Reader.run_map] at read
  obtain ⟨⟨done, t⟩, found, same⟩ := Option.map_eq_some_iff.mp read
  obtain ⟨rfl, rfl⟩ := Prod.mk.inj same
  cases s with
  | nil => cases found
  | cons c s =>
    refine ⟨done.reverse, rfl, fun m mem => ?_⟩
    refine membersFrom_invariant (P := fun done => ∀ m ∈ done, P m.2) ?_ (List.forall_mem_nil _)
      found m (List.mem_reverse.mp mem)
    intro done k s done' t every read
    rw [Reader.run_andThen] at read
    obtain ⟨⟨_, s⟩, -, read⟩ := Option.bind_eq_some_iff.mp read
    rw [Reader.run_map] at read
    obtain ⟨⟨v, t⟩, found, same⟩ := Option.map_eq_some_iff.mp read
    obtain ⟨rfl, rfl⟩ := Prod.mk.inj same
    exact List.forall_mem_cons.mpr ⟨each _ _ _ found, every⟩

/-- **The values that are read** have their integers in range and are nested no deeper than the
reader goes. -/
theorem run_within {depth : Nat} {s t : List Char} {v : Value}
    (read : (within depth).run s = some (v, t)) : v.Nested depth ∧ v.InRange := by
  induction depth generalizing s v t with
  | zero =>
    rcases run_byFirst read with ⟨scalar, range⟩ | ⟨s, failed⟩ | ⟨s, failed⟩
    · exact ⟨.scalar scalar, range⟩
    · cases failed
    · cases failed
  | succ depth ih =>
    rcases run_byFirst read with ⟨scalar, range⟩ | ⟨s, read⟩ | ⟨s, read⟩
    · exact ⟨.scalar scalar, range⟩
    · obtain ⟨vs, rfl, every⟩ := run_arrayOf (fun _ _ _ => ih) read
      exact ⟨.inside fun u mem => (every u mem).1, .intro nofun fun u mem => (every u mem).2⟩
    · obtain ⟨ms, rfl, every⟩ := run_objectOf (fun _ _ _ => ih) read
      have values : ∀ u ∈ (object ms).parts, u.Nested depth ∧ u.InRange :=
        List.forall_mem_map.mpr every
      exact ⟨.inside fun u mem => (values u mem).1, .intro nofun fun u mem => (values u mem).2⟩

/-! ## Values are read back -/

/-- The first character of a value's text. -/
def Opens (c : Char) : Value → Prop
  | null => c = 'n'
  | boolean b => c = if b then 't' else 'f'
  | integer _ => startsNumber c = true
  | float _ => startsNumber c = true
  | string _ => c = '"'
  | array _ => c = '['
  | object _ => c = '\x7b'

/-- The text of a value starts with the character that tells its kind. -/
theorem exists_opens {v : Value} (noFloat : v.NoFloat) :
    ∃ c more, v.text = c :: more ∧ v.Opens c := by
  cases v with
  | null => exact ⟨_, _, rfl, rfl⟩
  | boolean b => cases b <;> exact ⟨_, _, rfl, rfl⟩
  | integer n => exact writeInt_startsNumber n
  | float x => exact absurd rfl (noFloat.here x)
  | string s => exact ⟨_, _, rfl, rfl⟩
  | array vs => cases vs <;> exact ⟨_, _, rfl, rfl⟩
  | object ms => cases ms <;> exact ⟨_, _, rfl, rfl⟩

theorem ne_of_startsNumber {c d : Char} (h : startsNumber c = true)
    (other : startsNumber d = false) : c ≠ d := by
  rintro rfl
  rw [h] at other
  cases other

theorem Opens.solid {v : Value} {c : Char} (h : v.Opens c) : isSpace c = false ∧ c ≠ ']' := by
  have number : startsNumber c = true → isSpace c = false ∧ c ≠ ']' := fun starts =>
    ⟨isSpace_of_startsNumber starts, ne_of_startsNumber starts (by decide)⟩
  cases v with
  | boolean b => cases b <;> cases h <;> decide
  | integer n => exact number h
  | float x => exact number h
  | _ => cases h; decide

theorem starts_text {v : Value} (noFloat : v.NoFloat) : Starts v.text := by
  obtain ⟨c, more, written, opens⟩ := exists_opens noFloat
  exact ⟨c, more, written, opens.solid⟩

section ByFirst

variable {arrays objects : Reader Value}

theorem gives_byFirst_of_isScalar {v : Value} (plain : v.Plain) (scalar : v.IsScalar) :
    Gives (byFirst arrays objects) v (some v) := by
  intro rest ends
  cases v with
  | null => exact run_literal 'n' "ull".toList null rest
  | boolean b =>
    cases b with
    | false => exact run_literal 'f' "alse".toList (boolean false) rest
    | true => exact run_literal 't' "rue".toList (boolean true) rest
  | integer n =>
    obtain ⟨c, more, written, starts⟩ := writeInt_startsNumber n
    have read := run_number (plain.inRange.here n rfl) ends
    rw [written, List.cons_append] at read
    rw [text, written, List.cons_append, byFirst, run_atValue (isSpace_of_startsNumber starts),
      if_neg (ne_of_startsNumber starts (by decide)),
      if_neg (ne_of_startsNumber starts (by decide)),
      if_neg (ne_of_startsNumber starts (by decide)), if_pos starts, Reader.run_map, read]
    rfl
  | float x => exact absurd rfl (plain.noFloat.here x)
  | string s =>
    obtain ⟨more, opened⟩ : ∃ more, stringText s ++ rest = '"' :: more := ⟨_, rfl⟩
    have read := run_stringBody s rest
    rw [text, opened, byFirst, run_atValue (by decide)]
    change (stringBody.map string).run ('"' :: more) = _
    rw [Reader.run_map, ← opened, read]
    rfl
  | array vs => exact scalar.elim
  | object ms => exact scalar.elim

/-- An array is read back if its elements are. -/
theorem gives_byFirst_array {element : Reader Value} {vs : List Value}
    (each : ∀ v ∈ vs, Starts v.text ∧ Gives element v (some v)) :
    Gives (byFirst (arrayOf element) objects) (array vs) (some (array vs)) := by
  intro rest _
  obtain ⟨more, opened⟩ := exists_array_text vs rest
  have read := run_elements_reverse (f := some) each rest
  have all : vs.mapM some = some vs := List.mapM_pure.trans (congrArg some (List.map_id vs))
  rw [Reader.run_map, all] at read
  rw [opened] at read ⊢
  rw [byFirst, run_atValue (by decide)]
  change (arrayOf element).run ('[' :: more) = _
  rw [arrayOf, Reader.run_map]
  obtain ⟨⟨done, t⟩, found, same⟩ := Option.map_eq_some_iff.mp read
  obtain ⟨rfl, rfl⟩ := Prod.mk.inj same
  rw [found]
  rfl

theorem gives_byFirst_object {value : Reader Value} {ms : List (String × Value)}
    (each : ∀ m ∈ ms, Gives value m.2 (some m.2)) :
    Gives (byFirst arrays (objectOf value)) (object ms) (some (object ms)) := by
  intro rest _
  have reads : ReadsMembers
      (fun done k => colon.andThen fun _ => value.map fun v => (k, v) :: done)
      (fun done m => some (m :: done)) ms := by
    intro m mem done rest ends
    rw [Reader.run_andThen, run_colon, Option.bind_some, Reader.run_map, each m mem rest ends]
    rfl
  obtain ⟨more, opened⟩ := exists_object_text ms rest
  have read := run_members reads [] rest
  have all : ms.foldlM (fun done m => some (m :: done)) [] = some ms.reverse := by
    refine List.foldlM_pure.trans (congrArg some ?_)
    simp
  rw [all, opened] at read
  rw [opened, byFirst, run_atValue (by decide)]
  change (objectOf value).run ('\x7b' :: more) = _
  rw [objectOf, Reader.run_map, read]
  simp

end ByFirst

/-- **Values are read back**, if they are nested no deeper than the reader goes. -/
theorem gives_within {depth : Nat} {v : Value} (nested : v.Nested depth) (plain : v.Plain) :
    Gives (within depth) v (some v) := by
  induction nested with
  | @scalar depth v scalar => cases depth <;> exact gives_byFirst_of_isScalar plain scalar
  | @inside depth v _ ih =>
    rcases v.kind_cases with scalar | ⟨vs, rfl⟩ | ⟨ms, rfl⟩
    · exact gives_byFirst_of_isScalar plain scalar
    · refine gives_byFirst_array fun v mem => ?_
      have plain := plain_array.mp plain v mem
      exact ⟨starts_text plain.noFloat, ih v mem plain⟩
    · refine gives_byFirst_object fun m mem => ?_
      exact ih m.2 (List.mem_map_of_mem mem) (plain_object.mp plain m mem)

end Value

end VersionInfo.Json
