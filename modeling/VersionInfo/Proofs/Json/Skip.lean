import VersionInfo.Json.Skip
import VersionInfo.Proofs.Json.ValueReading

/-!
# Written values are passed over

A value that nobody asks for is passed over bracket by bracket, with the brackets still open on a
stack. After a written value the scan goes on as it does after any part of the innermost bracket,
whatever stands in the value and however deep; so with no bracket open it ends right behind it.

* `follow`: where a scan ends that goes on from some place.
* `resume_close`, `resume_comma`, `resume_first`: how it goes on inside a bracket.
* `gives_skip`: a value is passed over.
-/

namespace VersionInfo.Json

open Text (fourHex)

/-! ## Strings and numbers -/

/-- An escape inside a skipped string is passed over as a whole, by the reader of escapes. -/
theorem skipStringFrom_escape {n : Nat} {rest sequence : List Char}
    (read : (escape (fun _ => ()) (hexUnit.map fun _ => ())).run sequence = some ((), rest))
    (h : ('\\' :: sequence).length ≤ n) :
    ∃ h', skipStringFrom n ('\\' :: sequence) h = skipStringFrom n rest h' := by
  obtain ⟨r, found, -, rfl⟩ := outcome_eq_some_iff.mp read
  have lt := r.lt
  have le := Nat.le_of_succ_le h
  refine ⟨by omega, ?_⟩
  rw [skipStringFrom, if_neg (by decide), if_pos rfl]
  split
  · rename_i failed
    cases found.symm.trans failed
  · rename_i again
    cases found.symm.trans again
    rfl

theorem skipStringFrom_written (cs rest : List Char) {n : Nat} {s : List Char} (h : s.length ≤ n)
    (written : s = cs.flatMap escaped ++ '"' :: rest) :
    outcome (skipStringFrom n s h) = some ((), rest) := by
  induction cs generalizing n s with
  | nil =>
    subst written
    change outcome (skipStringFrom n ('"' :: rest) h) = _
    rw [skipStringFrom, if_pos rfl]
    rfl
  | cons c cs ih =>
    rw [List.flatMap_cons, List.append_assoc] at written
    have reads : ∀ n < 0x20, ∀ rest,
        (hexUnit.map fun _ => ()).run (fourHex n ++ rest) =
          some (Function.const Char () (Char.ofNat n), rest) := by
      intro n small rest
      rw [Reader.run_map, run_hexUnit (Nat.lt_trans small (by decide))]
      rfl
    rcases escaped_cases reads c with ⟨same, quote, backslash, plain⟩ | ⟨sequence, same, read⟩
    · rw [same, List.singleton_append] at written
      subst written
      rw [skipStringFrom, if_neg quote, if_neg backslash, if_neg plain]
      exact ih _ rfl
    · rw [same, List.cons_append] at written
      subst written
      obtain ⟨h', again⟩ := skipStringFrom_escape (read _) h
      rw [again]
      exact ih h' rfl

theorem run_skipString (s : String) (rest : List Char) :
    skipString.run (stringText s ++ rest) = some ((), rest) := by
  have written : stringText s ++ rest = '"' :: (s.toList.flatMap escaped ++ '"' :: rest) := by
    rw [stringText, List.cons_append, List.cons_append, List.append_assoc, List.singleton_append]
  rw [written]
  exact skipStringFrom_written s.toList rest _ rfl

/-- A written integer is passed over, whatever its range. -/
theorem run_skipNumber (n : Int) {rest : List Char} (ends : Ends rest) :
    skipNumber.run (Text.writeInt n ++ rest) = some ((), rest) := by
  obtain ⟨r, read, -, left⟩ := numeral_written n ends
  refine outcome_eq_some_iff.mpr ⟨r.map fun _ => (), ?_, rfl, left⟩
  rw [skipNumber, read]

/-- A value without brackets is passed over by its first character. -/
theorem run_skipScalar {v : Value} (noFloat : v.NoFloat) (scalar : v.IsScalar) {rest : List Char}
    (ends : Ends rest) :
    ∃ c more, v.text = c :: more ∧ isSpace c = false ∧ c ≠ '[' ∧ c ≠ '\x7b' ∧
      (skipScalar c).run (v.text ++ rest) = some ((), rest) := by
  cases v with
  | null => exact ⟨'n', _, rfl, rfl, by decide, by decide, run_literal 'n' "ull".toList () rest⟩
  | boolean b =>
    cases b with
    | false => exact ⟨'f', _, rfl, rfl, by decide, by decide, run_literal 'f' "alse".toList () rest⟩
    | true => exact ⟨'t', _, rfl, rfl, by decide, by decide, run_literal 't' "rue".toList () rest⟩
  | integer n =>
    obtain ⟨c, more, written, starts⟩ := writeInt_startsNumber n
    refine ⟨c, more, written, isSpace_of_startsNumber starts,
      Value.ne_of_startsNumber starts (by decide), Value.ne_of_startsNumber starts (by decide), ?_⟩
    rw [skipScalar, if_neg (Value.ne_of_startsNumber starts (by decide)),
      if_neg (Value.ne_of_startsNumber starts (by decide)),
      if_neg (Value.ne_of_startsNumber starts (by decide)), if_pos starts]
    exact run_skipNumber n ends
  | float x => exact absurd rfl (noFloat.here x)
  | string s => exact ⟨'"', _, rfl, rfl, by decide, by decide, run_skipString s rest⟩
  | array vs => exact scalar.elim
  | object ms => exact scalar.elim

/-! ## Going on -/

section

variable {n : Nat} {stack outer : List Frame} {f : Frame} {s t rest : List Char}

/-- Where the scan ends that goes on from a place. -/
def follow (n : Nat) {k : Nat} (le : k ≤ n) : Except Error (Resumed k) → Option (Unit × List Char)
  | .error _ => none
  | .ok (.done rest _) => some ((), rest)
  | .ok (.value stack rest shorter) => outcome (skipFrom n stack rest (Nat.le_trans shorter le))

/-- The bound that a text is shorter than does not matter for where skipping stops. -/
theorem follow_widen {k m : Nat} (h : k ≤ m) (le : m ≤ n) (result : Except Error (Resumed k)) :
    follow n le (result >>= fun r => pure (r.widen h)) = follow n (Nat.le_trans h le) result := by
  cases result with
  | error e => rfl
  | ok r => cases r <;> rfl

theorem skipFrom_solid {c : Char} (space : isSpace c = false) (h : (c :: rest).length ≤ n) :
    outcome (skipFrom n stack (c :: rest) h) =
      follow n (Nat.le_of_succ_le h) (skipPart stack c rest) := by
  rw [skipFrom]
  refine (congrArg outcome (match_skipSpaces (skipSpaces_cons space rest) _ _)).trans ?_
  dsimp only
  cases skipPart stack c rest with
  | error e => rfl
  | ok r => cases r <;> rfl

/-- The end of the innermost array or object is passed, and the one around it has a part then. -/
theorem resume_close (part : Bool) (le : (f.closer :: rest).length ≤ n) :
    follow n le (resume part (f :: outer) (f.closer :: rest)) =
      follow n (Nat.le_of_succ_le le) (resume true outer rest) := by
  have solid : skipSpaces (f.closer :: rest) = f.closer :: rest :=
    skipSpaces_cons (by cases f <;> rfl) rest
  have other : f.closer ≠ ',' := by cases f <;> decide
  rw [resume]
  refine (congrArg (follow n le) (match_skipSpaces solid _ _)).trans ?_
  rw [if_neg fun comma => other comma.1, if_pos rfl]
  exact follow_widen _ le _

/-- Between two parts a comma is passed, and in an object the next key. -/
theorem resume_comma (key : ∃ le, skipKey f s = .ok ⟨t, le⟩) (le : (',' :: s).length ≤ n)
    (h : t.length ≤ n) :
    follow n le (resume true (f :: outer) (',' :: s)) = outcome (skipFrom n (f :: outer) t h) := by
  obtain ⟨_, key⟩ := key
  have solid : skipSpaces (',' :: s) = ',' :: s := skipSpaces_cons rfl s
  rw [resume]
  split
  · rename_i none
    cases none.symm.trans solid
  · rename_i found
    obtain ⟨rfl, rfl⟩ := List.cons.inj (found.symm.trans solid)
    rw [if_pos ⟨rfl, rfl⟩, key]
    rfl

theorem resume_first {c : Char} (key : ∃ le, skipKey f (c :: s) = .ok ⟨t, le⟩)
    (space : isSpace c = false) (inside : c ≠ f.closer) (le : (c :: s).length ≤ n)
    (h : t.length ≤ n) :
    follow n le (resume false (f :: outer) (c :: s)) = outcome (skipFrom n (f :: outer) t h) := by
  obtain ⟨_, key⟩ := key
  rw [resume]
  refine (congrArg (follow n le) (match_skipSpaces (skipSpaces_cons space s) _ _)).trans ?_
  rw [if_neg fun comma => Bool.false_ne_true comma.2, if_neg inside, if_neg Bool.false_ne_true, key]
  rfl

/-- A key and its colon are passed over. -/
theorem skipKey_object (k : String) (s : List Char) :
    ∃ le, skipKey .object (stringText k ++ ':' :: s) = .ok ⟨s, le⟩ := by
  obtain ⟨more, opened⟩ : ∃ more, stringText k ++ ':' :: s = '"' :: more := ⟨_, rfl⟩
  have read : (skipString.andThen fun _ => colon).run (stringText k ++ ':' :: s) =
      some ((), s) := by
    rw [Reader.run_andThen, run_skipString]
    rfl
  rw [opened] at read ⊢
  obtain ⟨r, found, -, rfl⟩ := outcome_eq_some_iff.mp read
  have solid : skipSpaces ('"' :: more) = '"' :: more := skipSpaces_cons rfl more
  refine ⟨r.le, ?_⟩
  rw [skipKey]
  split
  · rename_i none
    cases none.symm.trans solid
  · rename_i here
    obtain ⟨rfl, rfl⟩ := List.cons.inj (here.symm.trans solid)
    rw [if_pos rfl, found]
    rfl

end

/-! ## Values -/

/-- The scan goes on behind the value as behind any part of the innermost bracket. -/
def PassedOver (v : Value) : Prop :=
  ∀ {n stack s rest} (h : s.length ≤ n), s = v.text ++ rest → ∀ le : rest.length ≤ n, Ends rest →
    outcome (skipFrom n stack s h) = follow n le (resume true stack rest)

section

variable {n : Nat} {outer : List Frame} {rest : List Char}

/-- The elements behind the first are passed over one after another, by induction on them. -/
theorem resume_moreElements {vs : List Value} (each : ∀ v ∈ vs, PassedOver v) {s : List Char}
    (le : s.length ≤ n) (written : s = Value.moreElements vs ++ rest) (le' : rest.length ≤ n) :
    follow n le (resume true (.list :: outer) s) = follow n le' (resume true outer rest) := by
  induction vs generalizing s with
  | nil =>
    subst written
    exact resume_close true le
  | cons v vs ih =>
    obtain ⟨first, others⟩ := List.forall_mem_cons.mp each
    have split : s = ',' :: (v.text ++ (Value.moreElements vs ++ rest)) := by
      rw [written, Value.moreElements, List.cons_append, List.cons_append, List.append_assoc]
    subst split
    have less : (Value.moreElements vs ++ rest).length ≤ n := by
      rw [List.length_cons, List.length_append] at le
      omega
    rw [resume_comma ⟨_, rfl⟩ le (Nat.le_of_succ_le le),
      first _ rfl less (ends_moreElements vs rest), ih others less rfl]

theorem resume_moreMembers {ms : List (String × Value)} (each : ∀ m ∈ ms, PassedOver m.2)
    {s : List Char} (le : s.length ≤ n) (written : s = Value.moreMembers ms ++ rest)
    (le' : rest.length ≤ n) :
    follow n le (resume true (.object :: outer) s) = follow n le' (resume true outer rest) := by
  induction ms generalizing s with
  | nil =>
    subst written
    exact resume_close true le
  | cons m ms ih =>
    obtain ⟨first, others⟩ := List.forall_mem_cons.mp each
    have split : s = ',' ::
        (stringText m.1 ++ ':' :: (m.2.text ++ (Value.moreMembers ms ++ rest))) := by
      rw [written, Value.moreMembers]
      simp only [List.cons_append, List.append_assoc]
    subst split
    have less : (m.2.text ++ (Value.moreMembers ms ++ rest)).length ≤ n := by
      simp only [List.length_cons, List.length_append] at le ⊢
      omega
    have less' : (Value.moreMembers ms ++ rest).length ≤ n := by
      simp only [List.length_append] at less ⊢
      omega
    rw [resume_comma (skipKey_object m.1 _) le less,
      first _ rfl less' (ends_valueMembers ms rest), ih others less' rfl]

end

/-- A scalar is passed over without a new frame on the stack. -/
theorem skipFrom_scalar {n : Nat} {stack : List Frame} {c : Char} {s rest : List Char}
    (space : isSpace c = false) (list : c ≠ '[') (object : c ≠ '\x7b')
    (read : (skipScalar c).run (c :: s) = some ((), rest)) (h : (c :: s).length ≤ n)
    (le : rest.length ≤ n) :
    outcome (skipFrom n stack (c :: s) h) = follow n le (resume true stack rest) := by
  obtain ⟨r, found, -, rfl⟩ := outcome_eq_some_iff.mp read
  rw [skipFrom_solid space, skipPart, if_neg list, if_neg object, found]
  exact follow_widen _ _ _

theorem passedOver_of_isScalar {v : Value} (noFloat : v.NoFloat) (scalar : v.IsScalar) :
    PassedOver v := by
  intro n stack s rest h written le ends
  obtain ⟨c, more, opened, space, list, object, read⟩ := run_skipScalar noFloat scalar ends
  rw [opened, List.cons_append] at written read
  subst written
  exact skipFrom_scalar space list object read h le

/-- An array is passed over if its elements are: its frame is pushed, and is popped by its end. -/
theorem passedOver_array {vs : List Value} (each : ∀ v ∈ vs, Starts v.text ∧ PassedOver v) :
    PassedOver (.array vs) := by
  intro n stack s rest h written le ends
  cases vs with
  | nil =>
    have split : s = '[' :: ']' :: rest := written
    subst split
    rw [skipFrom_solid (by decide), skipPart, if_pos rfl]
    exact resume_close false _
  | cons v vs =>
    obtain ⟨⟨starts, first⟩, others⟩ := List.forall_mem_cons.mp each
    obtain ⟨c, more, opened, space, bracket⟩ := starts.append (Value.moreElements vs ++ rest)
    have split : s = '[' :: c :: more := by
      rw [written, Value.text, ← opened, List.cons_append, List.cons_append, List.append_assoc]
    subst split
    have less : (Value.moreElements vs ++ rest).length ≤ n := by
      have lengths := congrArg List.length opened
      simp only [List.length_cons, List.length_append] at h lengths ⊢
      omega
    rw [skipFrom_solid (by decide), skipPart, if_pos rfl,
      resume_first (f := .list) ⟨_, rfl⟩ space bracket _ (Nat.le_of_succ_le h),
      first _ opened.symm less (ends_moreElements vs rest)]
    exact resume_moreElements (fun v mem => (others v mem).2) less rfl le

theorem passedOver_object {ms : List (String × Value)} (each : ∀ m ∈ ms, PassedOver m.2) :
    PassedOver (.object ms) := by
  intro n stack s rest h written le ends
  cases ms with
  | nil =>
    have split : s = '\x7b' :: '\x7d' :: rest := written
    subst split
    rw [skipFrom_solid (by decide), skipPart, if_neg (by decide), if_pos rfl]
    exact resume_close false _
  | cons m ms =>
    obtain ⟨first, others⟩ := List.forall_mem_cons.mp each
    obtain ⟨more, opened⟩ : ∃ more, stringText m.1 ++
        ':' :: (m.2.text ++ (Value.moreMembers ms ++ rest)) = '"' :: more := ⟨_, rfl⟩
    have key := skipKey_object m.1 (m.2.text ++ (Value.moreMembers ms ++ rest))
    rw [opened] at key
    have split : s = '\x7b' :: '"' :: more := by
      rw [written, Value.text, ← opened]
      simp only [List.cons_append, List.append_assoc]
    subst split
    have less : (m.2.text ++ (Value.moreMembers ms ++ rest)).length ≤ n := by
      have lengths := congrArg List.length opened
      simp only [List.length_cons, List.length_append] at h lengths ⊢
      omega
    have less' : (Value.moreMembers ms ++ rest).length ≤ n := by
      simp only [List.length_append] at less ⊢
      omega
    rw [skipFrom_solid (by decide), skipPart, if_neg (by decide), if_pos rfl,
      resume_first key (by decide) (by decide) _ less,
      first _ rfl less' (ends_valueMembers ms rest)]
    exact resume_moreMembers others less' rfl le

/-- **Values are passed over**, however deep they are nested. -/
theorem gives_skip {v : Value} (noFloat : v.NoFloat) : Gives skip v (some ()) := by
  have passed : PassedOver v := by
    induction noFloat with
    | @intro v here inside ih =>
      rcases v.kind_cases with scalar | ⟨vs, rfl⟩ | ⟨ms, rfl⟩
      · exact passedOver_of_isScalar (.intro here inside) scalar
      · exact passedOver_array fun v mem => ⟨Value.starts_text (inside v mem), ih v mem⟩
      · exact passedOver_object fun m mem => ih m.2 (List.mem_map_of_mem mem)
  intro rest ends
  have le : rest.length ≤ (v.text ++ rest).length := by
    rw [List.length_append]
    exact Nat.le_add_left _ _
  exact passed (length_le_self _) rfl le ends

end VersionInfo.Json
