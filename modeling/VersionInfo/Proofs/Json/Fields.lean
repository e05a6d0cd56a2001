import VersionInfo.Proofs.Json.Acceptance
import VersionInfo.Proofs.Json.Skip

/-!
# What structures are read from

A structure is read from an object or from an array. An object fits if no known key stands twice,
the value of each known key fits its field, and no required field is missing; unknown keys and the
order of members make no difference. An array fits if its elements fit the first fields in their
order, and all further fields may be missing. Fields that are not given stay as they are at the
start.

* `Shape.Decides`: a shape that decides on each of its fields.
* `Shape.foldlM_takeMember`, `Shape.exists_foldlM`: what the members of an object do one by one.
* `Shape.takeParts_eq_some`, `Shape.exists_takeParts`: what the elements of an array do.
* `Shape.Decides.takes_reader`: what structures are read from.
-/

namespace VersionInfo.Json

namespace Shape

variable {κ σ : Type} [DecidableEq κ]

/-! ## Descriptions -/

section

variable (shape : Shape κ σ) (fits : κ → Value → Prop) (holds : κ → Value → σ → Prop)
  (part : σ → κ → Value)

/-- The members of an object fit the fields that their keys name. -/
structure ObjectFits (ms : List (String × Value)) : Prop where
  /-- No known key stands twice. -/
  once : ∀ k, (ms.map Prod.fst).count (shape.label k) ≤ 1
  typed : ∀ k v, (shape.label k, v) ∈ ms → fits k v
  given : ∀ k, shape.required k = true → ∃ v, (shape.label k, v) ∈ ms

/-- A structure holds the members of an object, and is as at the start where no key is given. -/
structure ObjectHolds (ms : List (String × Value)) (x : σ) : Prop where
  given : ∀ k v, (shape.label k, v) ∈ ms → holds k v x
  absent : ∀ k, (∀ v, (shape.label k, v) ∉ ms) → part x k = part shape.start k

/-- The elements of an array fit the first fields, of which there are as many. -/
structure ArrayFits (vs : List Value) : Prop where
  typed : List.Forall₂ fits (shape.keys.take vs.length) vs
  given : ∀ k ∈ shape.keys.drop vs.length, shape.required k = false

/-- A structure holds the elements of an array, and is as at the start in the further fields. -/
structure ArrayHolds (vs : List Value) (x : σ) : Prop where
  given : List.Forall₂ (fun k v => holds k v x) (shape.keys.take vs.length) vs
  absent : ∀ k ∈ shape.keys.drop vs.length, part x k = part shape.start k

/-- The values that the structure is read from. -/
def Fits : Value → Prop
  | .object ms => shape.ObjectFits fits ms
  | .array vs => shape.ArrayFits fits vs
  | _ => False

/-- What the structure holds of the value that it is read from. -/
def Holds (v : Value) (x : σ) : Prop :=
  match v with
  | .object ms => shape.ObjectHolds holds part ms x
  | .array vs => shape.ArrayHolds holds part vs x
  | _ => False

end

/-- **A shape that decides on each of its fields.** -/
structure Decides (shape : Shape κ σ) (part : σ → κ → Value) (put : σ → κ → σ → σ)
    (fits : κ → Value → Prop) (holds : κ → Value → σ → Prop) : Prop extends
    shape.Lawful part put where
  /-- A value that fits a field is put there. -/
  takes : ∀ k s, Takes (shape.field k s) (fits k) fun v s' => ∃ x, s' = put x k s ∧ holds k v x
  /-- What a field holds depends on nothing else. -/
  keeps : ∀ {k v x y}, part x k = part y k → holds k v x → holds k v y

variable {shape : Shape κ σ} {part : σ → κ → Value} {put : σ → κ → σ → σ}
  {fits : κ → Value → Prop} {holds : κ → Value → σ → Prop}

/-- What is read from a value into a field holds it there and is unchanged elsewhere. -/
theorem Decides.run_field (decides : shape.Decides part put fits holds) {k : κ} {s : σ} {v : Value}
    (plain : v.Plain) {r : σ × List Char} (read : (shape.field k s).run v.text = some r) :
    fits k v ∧ holds k v r.1 ∧ ∀ q, q ≠ k → part r.1 q = part s q := by
  by_cases fit : fits k v
  · obtain ⟨_, gives, x, rfl, described⟩ := (decides.takes k s).accepts plain fit
    have same := gives.eq_run
    rw [read] at same
    have value : r.1 = put x k s := Option.some.inj same
    have here : part (put x k s) k = part x k := by rw [decides.part_put, if_pos rfl]
    rw [value]
    refine ⟨fit, decides.keeps here.symm described, fun q other => ?_⟩
    rw [decides.part_put, if_neg other]
  · have same := ((decides.takes k s).refuses plain fit).eq_run
    rw [read] at same
    cases same

theorem Decides.exists_run_field (decides : shape.Decides part put fits holds) {k : κ} (s : σ)
    {v : Value} (plain : v.Plain) (fit : fits k v) :
    ∃ r, (shape.field k s).run v.text = some r := by
  obtain ⟨s', gives, -⟩ := (decides.takes k s).accepts plain fit
  obtain ⟨r, read, -⟩ := Option.map_eq_some_iff.mp gives.eq_run
  exact ⟨r, read⟩

/-! ## Objects -/

/-- What a member of an object does to the fields seen so far and to the structure. -/
def takeMember (shape : Shape κ σ) (state : List κ × σ) (m : String × Value) :
    Option (List κ × σ) :=
  match shape.key? m.1 with
  | none => some state
  | some k =>
    if k ∈ state.1 then none
    else ((shape.field k state.2).run m.2.text).map fun r => (k :: state.1, r.1)

/-- The fields that the keys of the members name, one after another. -/
def known (shape : Shape κ σ) (ms : List (String × Value)) : List κ :=
  ms.filterMap fun m => shape.key? m.1

/-- A member with an unknown key is skipped, and the state stays as it is. -/
theorem run_member_unknown {state : List κ × σ} {name : String} {v : Value} {rest : List Char}
    (unknown : shape.key? name = none) (noFloat : v.NoFloat) (ends : Ends rest) :
    (shape.member state name).run (':' :: (v.text ++ rest)) = some (state, rest) := by
  unfold member
  rw [unknown]
  dsimp only
  rw [Reader.run_andThen, run_colon, Option.bind_some, Reader.run_map, gives_skip noFloat rest ends]
  rfl

theorem Decides.reads_takeMember (decides : shape.Decides part put fits holds)
    {ms : List (String × Value)} (plain : ∀ m ∈ ms, m.2.Plain) :
    ReadsMembers shape.member shape.takeMember ms := by
  intro m mem state rest ends
  unfold takeMember
  cases named : shape.key? m.1 with
  | none => exact run_member_unknown named (plain m mem).noFloat ends
  | some k =>
    have read := (decides.takes k state.2).gives (plain m mem) rest ends
    rw [run_member_known named read, Option.map_map]
    rfl

section

variable (decides : shape.Decides part put fits holds) {ms : List (String × Value)}
  {seen seen' : List κ} {s : σ}
include decides

/-- One member is passed over, or else its value fits a new field and is held there. -/
theorem Decides.takeMember_eq_some {m : String × Value} (plain : m.2.Plain) {x : σ}
    (step : shape.takeMember (seen, s) m = some (seen', x)) :
    (shape.key? m.1 = none ∧ seen' = seen ∧ x = s) ∨
      ∃ k, shape.key? m.1 = some k ∧ k ∉ seen ∧ seen' = k :: seen ∧ fits k m.2 ∧ holds k m.2 x ∧
        ∀ q, q ≠ k → part x q = part s q := by
  unfold takeMember at step
  cases named : shape.key? m.1 with
  | none =>
    rw [named] at step
    cases step
    exact Or.inl ⟨rfl, rfl, rfl⟩
  | some k =>
    rw [named] at step
    dsimp only at step
    split at step
    · cases step
    · rename_i fresh
      obtain ⟨r, read, same⟩ := Option.map_eq_some_iff.mp step
      cases same
      exact Or.inr ⟨k, rfl, fresh, rfl, decides.run_field plain read⟩

/-- **What the members of an object have done** when all of them are read: every known key stood
once, its value fits and is held, and no other field has changed. -/
theorem Decides.foldlM_takeMember (plain : ∀ m ∈ ms, m.2.Plain) {x : σ} (nodup : seen.Nodup)
    (done : ms.foldlM shape.takeMember (seen, s) = some (seen', x)) :
    seen' = (shape.known ms).reverse ++ seen ∧ seen'.Nodup ∧
      (∀ m ∈ ms, ∀ k, shape.key? m.1 = some k → fits k m.2 ∧ holds k m.2 x) ∧
      ∀ q, q ∉ shape.known ms → part x q = part s q := by
  induction ms generalizing seen s with
  | nil =>
    cases done
    exact ⟨rfl, nodup, nofun, fun _ _ => rfl⟩
  | cons m ms ih =>
    obtain ⟨first, others⟩ := List.forall_mem_cons.mp plain
    rw [List.foldlM_cons] at done
    obtain ⟨⟨_, _⟩, step, rest⟩ := Option.bind_eq_some_iff.mp done
    rcases decides.takeMember_eq_some first step with
      ⟨named, rfl, rfl⟩ | ⟨k, named, fresh, rfl, fit, held, frame⟩
    · have known : shape.known (m :: ms) = shape.known ms := List.filterMap_cons_none named
      obtain ⟨order, distinct, every, same⟩ := ih others nodup rest
      rw [known]
      refine ⟨order, distinct, List.forall_mem_cons.mpr ⟨fun k found => ?_, every⟩, same⟩
      cases named.symm.trans found
    · have known : shape.known (m :: ms) = k :: shape.known ms := List.filterMap_cons_some named
      obtain ⟨order, distinct, every, same⟩ := ih others (List.nodup_cons.mpr ⟨fresh, nodup⟩) rest
      -- The field is not put again, so it holds what it held.
      have once : k ∉ shape.known ms := by
        intro again
        rw [order] at distinct
        exact (List.disjoint_of_nodup_append distinct) (List.mem_reverse.mpr again)
          List.mem_cons_self
      rw [known, List.reverse_cons, List.append_assoc]
      refine ⟨order, distinct, List.forall_mem_cons.mpr ⟨fun q found => ?_, every⟩,
        fun q absent => ?_⟩
      · obtain rfl := Option.some.inj (named.symm.trans found)
        exact ⟨fit, decides.keeps (same k once).symm held⟩
      · obtain ⟨other, later⟩ := not_or.mp (mt List.mem_cons.mpr absent)
        rw [same q later, frame q other]

/-- Members are taken if no known key comes twice and the given parts fit. -/
theorem Decides.exists_foldlM (plain : ∀ m ∈ ms, m.2.Plain)
    (once : ((shape.known ms).reverse ++ seen).Nodup)
    (typed : ∀ m ∈ ms, ∀ k, shape.key? m.1 = some k → fits k m.2) :
    ∃ state, ms.foldlM shape.takeMember (seen, s) = some state := by
  induction ms generalizing seen s with
  | nil => exact ⟨(seen, s), rfl⟩
  | cons m ms ih =>
    obtain ⟨first, others⟩ := List.forall_mem_cons.mp plain
    obtain ⟨fit, typed⟩ := List.forall_mem_cons.mp typed
    rw [List.foldlM_cons]
    cases named : shape.key? m.1 with
    | none =>
      have known : shape.known (m :: ms) = shape.known ms := List.filterMap_cons_none named
      have step : shape.takeMember (seen, s) m = some (seen, s) := by rw [takeMember, named]
      rw [known] at once
      rw [step]
      exact ih others once typed
    | some k =>
      have known : shape.known (m :: ms) = k :: shape.known ms := List.filterMap_cons_some named
      rw [known, List.reverse_cons, List.append_assoc] at once
      have fresh : k ∉ seen := (List.nodup_cons.mp (List.Nodup.of_append_right once)).1
      obtain ⟨r, read⟩ := decides.exists_run_field s first (fit k named)
      have step : shape.takeMember (seen, s) m = some (k :: seen, r.1) := by
        rw [takeMember, named]
        dsimp only
        rw [if_neg fresh, read]
        rfl
      rw [step]
      exact ih others once typed

end

omit [DecidableEq κ] in
theorem key?_eq_some_iff (labels : ∀ k, shape.key? (shape.label k) = some k) {name : String}
    {k : κ} : shape.key? name = some k ↔ shape.label k = name := by
  constructor
  · intro found
    have same := List.find?_some found
    exact eq_of_beq same
  · rintro rfl
    exact labels k

/-- A part was given as often as its key stands among the keys. -/
theorem count_known (labels : ∀ k, shape.key? (shape.label k) = some k)
    (ms : List (String × Value)) (k : κ) :
    (shape.known ms).count k = (ms.map Prod.fst).count (shape.label k) := by
  induction ms with
  | nil => rfl
  | cons m ms ih =>
    have here : (m.1 == shape.label k) = decide (shape.key? m.1 = some k) := by
      rw [Bool.eq_iff_iff, beq_iff_eq, decide_eq_true_iff, key?_eq_some_iff labels]
      exact eq_comm
    rw [List.map_cons, List.count_cons, here, ← ih]
    cases named : shape.key? m.1 with
    | none => simp [known, named]
    | some q => simp [known, named, List.count_cons]

omit [DecidableEq κ] in
theorem mem_known_iff (labels : ∀ k, shape.key? (shape.label k) = some k)
    {ms : List (String × Value)} {k : κ} :
    k ∈ shape.known ms ↔ ∃ v, (shape.label k, v) ∈ ms := by
  unfold known
  rw [List.mem_filterMap]
  constructor
  · rintro ⟨⟨name, v⟩, mem, named⟩
    obtain rfl := (key?_eq_some_iff labels).mp named
    exact ⟨v, mem⟩
  · rintro ⟨v, mem⟩
    exact ⟨_, mem, labels k⟩

theorem complete_of_missing {seen : List κ} {k : κ} (mem : k ∈ shape.keys)
    (required : shape.required k = true) (missing : k ∉ seen) (x : σ) :
    (shape.complete (seen, x)).toOption = none := by
  unfold complete
  cases found : shape.keys.find? fun k => shape.required k && decide (k ∉ seen) with
  | none => exact absurd (by simp [required, missing]) (List.find?_eq_none.mp found k mem)
  | some q => rfl

/-- The result of reading an object, member by member. -/
theorem Decides.gives_object (decides : shape.Decides part put fits holds)
    {ms : List (String × Value)} (plain : ∀ m ∈ ms, m.2.Plain) :
    Gives shape.reader (.object ms) ((ms.foldlM shape.takeMember ([], shape.start)).bind
      fun state => (shape.complete state).toOption) := by
  intro rest _
  have read := run_members (decides.reads_takeMember plain) ([], shape.start) rest
  obtain ⟨more, opened⟩ := exists_object_text ms rest
  rw [opened] at read ⊢
  rw [run_reader_object, read]
  cases ms.foldlM shape.takeMember ([], shape.start) <;> rfl

/-- An object that fits is read, and the state then holds what was given. -/
theorem Decides.accepts_object (decides : shape.Decides part put fits holds)
    {ms : List (String × Value)} (plain : ∀ m ∈ ms, m.2.Plain) (fit : shape.ObjectFits fits ms) :
    ∃ x, Gives shape.reader (.object ms) (some x) ∧ shape.ObjectHolds holds part ms x := by
  have typed : ∀ m ∈ ms, ∀ k, shape.key? m.1 = some k → fits k m.2 := by
    intro m mem k named
    refine fit.typed k m.2 ?_
    rw [(key?_eq_some_iff decides.labels).mp named]
    exact mem
  have once : ((shape.known ms).reverse ++ []).Nodup := by
    rw [List.append_nil, List.nodup_reverse, List.nodup_iff_count_le_one]
    intro k
    rw [count_known decides.labels]
    exact fit.once k
  obtain ⟨⟨seen, x⟩, done⟩ := decides.exists_foldlM plain once typed
  obtain ⟨rfl, -, every, same⟩ := decides.foldlM_takeMember plain List.nodup_nil done
  have given : ∀ k ∈ shape.keys, shape.required k = true → k ∈ (shape.known ms).reverse ++ [] := by
    intro k _ required
    rw [List.append_nil, List.mem_reverse, mem_known_iff decides.labels]
    exact fit.given k required
  have gives := decides.gives_object plain
  rw [done, Option.bind_some, complete_of_seen given] at gives
  refine ⟨x, gives, fun k v mem => (every _ mem k (decides.labels k)).2, fun k absent => same k ?_⟩
  rw [mem_known_iff decides.labels]
  exact fun ⟨v, mem⟩ => absent v mem

/-- An object that does not fit is refused, whichever condition fails. -/
theorem Decides.refuses_object (decides : shape.Decides part put fits holds)
    {ms : List (String × Value)} (plain : ∀ m ∈ ms, m.2.Plain)
    (unfit : ¬ shape.ObjectFits fits ms) : Gives shape.reader (.object ms) none := by
  have gives := decides.gives_object plain
  cases done : ms.foldlM shape.takeMember ([], shape.start) with
  | none =>
    rw [done] at gives
    exact gives
  | some state =>
    obtain ⟨seen, x⟩ := state
    obtain ⟨rfl, distinct, every, -⟩ := decides.foldlM_takeMember plain List.nodup_nil done
    rw [List.append_nil, List.nodup_reverse] at distinct
    -- Only a required field can be missing.
    obtain ⟨k, required, missing⟩ :
        ∃ k, shape.required k = true ∧ ∀ v, (shape.label k, v) ∉ ms := by
      by_contra! given
      refine unfit ⟨fun k => ?_, fun k v mem => (every _ mem k (decides.labels k)).1, given⟩
      rw [← count_known decides.labels]
      exact List.nodup_iff_count_le_one.mp distinct k
    have absent : k ∉ (shape.known ms).reverse ++ [] := by
      rw [List.append_nil, List.mem_reverse, mem_known_iff decides.labels]
      exact fun ⟨v, mem⟩ => missing v mem
    rw [done, Option.bind_some, complete_of_missing (decides.all k) required absent] at gives
    exact gives

/-! ## Arrays -/

/-- What the elements of an array do to the structure, one for each of the fields `keys` as long as
there are elements. -/
def takeParts (shape : Shape κ σ) : List κ → List Value → σ → Option σ
  | [], [], s => some s
  | [], _ :: _, _ => none
  | k :: keys, [], s => if (k :: keys).any shape.required then none else some s
  | k :: keys, v :: vs, s =>
    ((shape.field k s).run v.text).bind fun r => takeParts shape keys vs r.1

omit [DecidableEq κ]

section

variable {keys : List κ} {k : κ} {count n : Nat} {s : σ} {t t' rest : List Char}

theorem fieldsFrom_nil (h : t.length ≤ n) :
    outcome (shape.fieldsFrom [] count s n t h) = (endOfArray.run t).map fun r => (s, r.2) := by
  change outcome ((endOfArray t).bind fun r => .ok ((r.map fun _ => s).widen h)) = _
  unfold Reader.run
  cases endOfArray t <;> rfl

theorem run_endOfArray_of_starts (starts : Starts t) : endOfArray.run t = none := by
  obtain ⟨c, more, rfl, space, bracket⟩ := starts
  unfold Reader.run endOfArray
  refine (congrArg outcome (match_skipSpaces (skipSpaces_cons space more) _ _)).trans ?_
  rw [if_neg bracket]
  split <;> rfl

theorem toOption_short (keys : List κ) (count : Nat) (s : σ) :
    (shape.short keys count s).toOption = if keys.any shape.required then none else some s := by
  rw [← List.findIdx?_isSome, short]
  cases keys.findIdx? shape.required <;> rfl

theorem fieldsFrom_close (h : (']' :: rest).length ≤ n) :
    outcome (shape.fieldsFrom (k :: keys) count s n (']' :: rest) h) =
      (if (k :: keys).any shape.required then none else some s).map fun s => (s, rest) := by
  change outcome ((shape.short (k :: keys) count s).bind fun s =>
    .ok ⟨s, rest, Nat.lt_of_lt_of_le (Nat.lt_succ_self _) h⟩) = _
  rw [← toOption_short (k :: keys) count s]
  cases shape.short (k :: keys) count s <;> rfl

theorem fieldsFrom_step {result : Option σ}
    (next : ∃ le, nextElement (count == 0) t = .ok (.element t' le))
    (read : (shape.field k s).run t' = result.map fun s => (s, rest)) (h : t.length ≤ n)
    (h' : rest.length ≤ n) :
    outcome (shape.fieldsFrom (k :: keys) count s n t h) =
      result.bind fun s => outcome (shape.fieldsFrom keys (count + 1) s n rest h') := by
  obtain ⟨le, next⟩ := next
  -- One round of the loop, up to what stands next.
  conv_lhs => arg 1; whnf; rw [next]
  dsimp only
  cases result with
  | none =>
    obtain ⟨e, failed⟩ := outcome_eq_none_iff.mp read
    rw [failed]
    rfl
  | some after =>
    obtain ⟨r, found, rfl, rfl⟩ := outcome_eq_some_iff.mp read
    rw [found]
    rfl

end

/-- What the elements of an array do is read from their text, behind the first element. -/
theorem fieldsFrom_written [DecidableEq κ] (decides : shape.Decides part put fits holds)
    {vs : List Value} (plain : ∀ v ∈ vs, v.Plain) {keys : List κ} {count n : Nat} {s : σ}
    {t rest : List Char} (later : count ≠ 0) (h : t.length ≤ n)
    (written : t = Value.moreElements vs ++ rest) :
    outcome (shape.fieldsFrom keys count s n t h) =
      (shape.takeParts keys vs s).map fun s => (s, rest) := by
  induction keys generalizing vs count s t with
  | nil =>
    rw [fieldsFrom_nil]
    cases vs with
    | nil =>
      subst written
      rfl
    | cons v vs =>
      have starts : Starts t := ⟨',', _, written, by decide, by decide⟩
      rw [run_endOfArray_of_starts starts]
      rfl
  | cons k keys ih =>
    cases vs with
    | nil =>
      subst written
      exact fieldsFrom_close h
    | cons v vs =>
      obtain ⟨first, others⟩ := List.forall_mem_cons.mp plain
      have split : t = ',' :: (v.text ++ (Value.moreElements vs ++ rest)) := by
        rw [written, Value.moreElements, List.cons_append, List.cons_append, List.append_assoc]
      subst split
      have h' : (Value.moreElements vs ++ rest).length ≤ n := by
        rw [List.length_cons, List.length_append] at h
        omega
      have zero : (count == 0) = false := beq_eq_false_iff_ne.mpr later
      have next := nextElement_comma
        ((Value.starts_text first.noFloat).append (Value.moreElements vs ++ rest))
      rw [← zero] at next
      have read := (decides.takes k s).gives first _ (ends_moreElements vs rest)
      rw [fieldsFrom_step next read h h', takeParts]
      cases (shape.field k s).run v.text with
      | none => rfl
      | some r => exact ih others (Nat.succ_ne_zero count) h' rfl

/-- The result of reading an array, element by element. -/
theorem Decides.gives_array [DecidableEq κ] (decides : shape.Decides part put fits holds)
    {vs : List Value} (plain : ∀ v ∈ vs, v.Plain) :
    Gives shape.reader (.array vs) (shape.takeParts shape.keys vs shape.start) := by
  intro rest _
  have array : ∀ s, shape.reader.run ('[' :: s) =
      outcome (shape.fieldsFrom shape.keys 0 shape.start (s.length + 1) s (length_le_succ s)) := by
    intro s
    rw [reader, run_atValue (by decide), if_pos rfl]
    rfl
  cases vs with
  | nil =>
    refine (array (']' :: rest)).trans ?_
    cases shape.keys with
    | nil => rw [fieldsFrom_nil]; rfl
    | cons k keys => exact fieldsFrom_close _
  | cons v vs =>
    obtain ⟨first, others⟩ := List.forall_mem_cons.mp plain
    have starts := (Value.starts_text first.noFloat).append (Value.moreElements vs ++ rest)
    have opened : (Value.array (v :: vs)).text ++ rest =
        '[' :: (v.text ++ (Value.moreElements vs ++ rest)) := by
      rw [Value.text, List.cons_append, List.cons_append, List.append_assoc]
    have h' : (Value.moreElements vs ++ rest).length ≤
        (v.text ++ (Value.moreElements vs ++ rest)).length + 1 := by
      simp only [List.length_append]
      omega
    rw [opened, array]
    cases shape.keys with
    | nil =>
      rw [fieldsFrom_nil, run_endOfArray_of_starts starts]
      rfl
    | cons k keys =>
      have read := (decides.takes k shape.start).gives first _ (ends_moreElements vs rest)
      rw [fieldsFrom_step (nextElement_first starts) read _ h', takeParts]
      cases (shape.field k shape.start).run v.text with
      | none => rfl
      | some r => exact fieldsFrom_written decides others Nat.one_ne_zero h' rfl

section

variable [DecidableEq κ] (decides : shape.Decides part put fits holds) {vs : List Value}
  (plain : ∀ v ∈ vs, v.Plain) {keys : List κ} {s : σ}
include decides plain

/-- **What the elements of an array have done** when all of them are read: each of them fits and is
held in its field, no required field is left, and no other field has changed. -/
theorem Decides.takeParts_eq_some {x : σ} (nodup : keys.Nodup)
    (done : shape.takeParts keys vs s = some x) :
    List.Forall₂ (fun k v => fits k v ∧ holds k v x) (keys.take vs.length) vs ∧
      (∀ k ∈ keys.drop vs.length, shape.required k = false) ∧
      ∀ q, q ∉ keys.take vs.length → part x q = part s q := by
  induction keys generalizing vs s with
  | nil =>
    cases vs with
    | nil =>
      cases done
      exact ⟨.nil, nofun, fun _ _ => rfl⟩
    | cons v vs => cases done
  | cons k keys ih =>
    cases vs with
    | nil =>
      rw [takeParts] at done
      split at done
      · cases done
      · rename_i optional
        cases done
        rw [Bool.not_eq_true, List.any_eq_false] at optional
        exact ⟨.nil, fun k mem => Bool.eq_false_iff.mpr (optional k mem), fun _ _ => rfl⟩
    | cons v vs =>
      obtain ⟨first, others⟩ := List.forall_mem_cons.mp plain
      obtain ⟨fresh, nodup⟩ := List.nodup_cons.mp nodup
      obtain ⟨r, read, rest⟩ := Option.bind_eq_some_iff.mp done
      obtain ⟨fit, held, frame⟩ := decides.run_field first read
      obtain ⟨every, optional, same⟩ := ih others nodup rest
      -- The field is not among the later ones, so it holds what it held.
      have once : k ∉ keys.take vs.length := fun again => fresh (List.mem_of_mem_take again)
      refine ⟨.cons ⟨fit, decides.keeps (same k once).symm held⟩ every, optional,
        fun q absent => ?_⟩
      obtain ⟨other, later⟩ := not_or.mp (mt List.mem_cons.mpr absent)
      rw [same q later, frame q other]

/-- The elements of an array are taken if they fit the first parts and the others are optional. -/
theorem Decides.exists_takeParts (typed : List.Forall₂ fits (keys.take vs.length) vs)
    (given : ∀ k ∈ keys.drop vs.length, shape.required k = false) :
    ∃ x, shape.takeParts keys vs s = some x := by
  induction keys generalizing vs s with
  | nil =>
    rw [List.take_nil] at typed
    cases typed
    exact ⟨s, rfl⟩
  | cons k keys ih =>
    cases vs with
    | nil =>
      have optional : (k :: keys).any shape.required = false :=
        List.any_eq_false.mpr fun q mem => Bool.eq_false_iff.mp (given q mem)
      exact ⟨s, by rw [takeParts, optional]; rfl⟩
    | cons v vs =>
      obtain ⟨first, others⟩ := List.forall_mem_cons.mp plain
      cases typed with
      | cons fit typed =>
        obtain ⟨r, read⟩ := decides.exists_run_field s first fit
        obtain ⟨x, rest⟩ := ih others (s := r.1) typed given
        exact ⟨x, by rw [takeParts, read]; exact rest⟩

theorem Decides.accepts_array (fit : shape.ArrayFits fits vs) :
    ∃ x, Gives shape.reader (.array vs) (some x) ∧ shape.ArrayHolds holds part vs x := by
  obtain ⟨x, done⟩ := decides.exists_takeParts plain (s := shape.start) fit.typed fit.given
  obtain ⟨every, -, same⟩ := decides.takeParts_eq_some plain decides.nodup done
  refine ⟨x, done ▸ decides.gives_array plain, every.imp fun _ _ h => h.2, fun k later => same k ?_⟩
  exact fun earlier => List.disjoint_take_drop decides.nodup (Nat.le_refl _) earlier later

/-- An array that does not fit is refused: an element of another type, too few or too many. -/
theorem Decides.refuses_array (unfit : ¬ shape.ArrayFits fits vs) :
    Gives shape.reader (.array vs) none := by
  have gives := decides.gives_array plain
  cases done : shape.takeParts shape.keys vs shape.start with
  | none =>
    rw [done] at gives
    exact gives
  | some x =>
    obtain ⟨every, optional, -⟩ := decides.takeParts_eq_some plain decides.nodup done
    exact absurd ⟨every.imp fun _ _ h => h.1, optional⟩ unfit

end

/-- **What structures are read from.** The values that fit are read, and no others. -/
theorem Decides.takes_reader [DecidableEq κ] (decides : shape.Decides part put fits holds) :
    Takes shape.reader (shape.Fits fits) (shape.Holds holds part) where
  accepts {v} plain fit := by
    cases v with
    | object ms => exact decides.accepts_object (Value.plain_object.mp plain) fit
    | array vs => exact decides.accepts_array (Value.plain_array.mp plain) fit
    | _ => exact fit.elim
  refuses {v} plain unfit := by
    cases v with
    | object ms => exact decides.refuses_object (Value.plain_object.mp plain) unfit
    | array vs => exact decides.refuses_array (Value.plain_array.mp plain) unfit
    | _ =>
      refine gives_none plain.noFloat fun c opens s => ?_
      have bracket : c ≠ '[' := by
        rintro rfl
        exact nomatch opens.openedBy
      have brace : c ≠ '\x7b' := by
        rintro rfl
        exact nomatch opens.openedBy
      rw [if_neg bracket, if_neg brace, run_unexpected]

/-! ## One structure for one value -/

theorem exists_of_forall₂_of_mem {α β : Type} {R S : α → β → Prop} {as : List α} {bs : List β}
    (hR : List.Forall₂ R as bs) (hS : List.Forall₂ S as bs) {a : α} (mem : a ∈ as) :
    ∃ b, R a b ∧ S a b := by
  induction hR with
  | nil => exact absurd mem List.not_mem_nil
  | cons hr _ ih =>
    cases hS with
    | cons hs rest =>
      rcases List.mem_cons.mp mem with rfl | later
      · exact ⟨_, hr, hs⟩
      · exact ih rest later

/-- **A value makes up one structure**, if each field holds one value. -/
theorem Lawful.eq_of_holds [DecidableEq κ] (lawful : shape.Lawful part put)
    (tells : ∀ {k v x y}, holds k v x → holds k v y → part x k = part y k) {v : Value} {x y : σ}
    (hx : shape.Holds holds part v x) (hy : shape.Holds holds part v y) : x = y := by
  refine lawful.ext x y fun k => ?_
  cases v with
  | object ms =>
    by_cases given : ∃ v, (shape.label k, v) ∈ ms
    · obtain ⟨v, mem⟩ := given
      exact tells (hx.given k v mem) (hy.given k v mem)
    · have absent : ∀ v, (shape.label k, v) ∉ ms := fun v mem => given ⟨v, mem⟩
      rw [hx.absent k absent, hy.absent k absent]
  | array vs =>
    have mem := lawful.all k
    rw [← List.take_append_drop vs.length shape.keys, List.mem_append] at mem
    rcases mem with earlier | later
    · obtain ⟨v, inX, inY⟩ := exists_of_forall₂_of_mem hx.given hy.given earlier
      exact tells inX inY
    · rw [hx.absent k later, hy.absent k later]
  | _ => exact hx.elim

variable (shape) in
/-- The same members stand under the keys of the fields, in any order. -/
def Agree (ms ms' : List (String × Value)) : Prop :=
  ∀ k, (ms.filter fun m => m.1 == shape.label k) = ms'.filter fun m => m.1 == shape.label k

theorem Agree.mem_iff {ms ms' : List (String × Value)} (agree : shape.Agree ms ms') (k : κ)
    (v : Value) : (shape.label k, v) ∈ ms ↔ (shape.label k, v) ∈ ms' := by
  have here : ∀ ms : List (String × Value),
      (shape.label k, v) ∈ ms ↔ (shape.label k, v) ∈ ms.filter fun m => m.1 == shape.label k := by
    intro ms
    simp
  rw [here ms, here ms', agree k]

/-- Whether an object fits depends only on its members with known keys. -/
theorem Agree.objectFits {ms ms' : List (String × Value)} (agree : shape.Agree ms ms')
    (fit : shape.ObjectFits fits ms) : shape.ObjectFits fits ms' where
  once k := by
    have once := fit.once k
    rw [List.count, List.countP_map, List.countP_eq_length_filter] at once ⊢
    exact (agree k) ▸ once
  typed k v mem := fit.typed k v ((agree.mem_iff k v).mpr mem)
  given k required := by
    obtain ⟨v, mem⟩ := fit.given k required
    exact ⟨v, (agree.mem_iff k v).mp mem⟩

theorem Agree.objectHolds {ms ms' : List (String × Value)} (agree : shape.Agree ms ms') {x : σ}
    (held : shape.ObjectHolds holds part ms x) : shape.ObjectHolds holds part ms' x where
  given k v mem := held.given k v ((agree.mem_iff k v).mpr mem)
  absent k none := held.absent k fun v mem => none v ((agree.mem_iff k v).mp mem)

end Shape

end VersionInfo.Json
