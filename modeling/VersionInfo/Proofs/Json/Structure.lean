import VersionInfo.Json.Value
import VersionInfo.Proofs.Json.Number
import VersionInfo.Proofs.Json.StringText

/-!
# Written arrays and objects are read part by part

A step of `elements` or of `members` passes over one bracket or comma and reads one part. On the
text of an array or object, the steps find the parts as they were written, so what is read is a fold
over the parts. Spaces between the parts of an object make no difference.

* `elementsFrom_step`, `membersFrom_step`: one part is read.
* `Layout`: where spaces stand in the text of an object.
* `run_elements`, `run_layout`, `run_members`: all parts are read, in their order.
-/

namespace VersionInfo.Json

variable {σ : Type} {rest s t : List Char} {n : Nat}

/-- A text that an array may go on with: neither a space nor the closing bracket comes first. -/
def Starts (s : List Char) : Prop := ∃ c more, s = c :: more ∧ isSpace c = false ∧ c ≠ ']'

/-- What a value starts with does not depend on what follows it. -/
theorem Starts.append (h : Starts s) (t : List Char) : Starts (s ++ t) := by
  obtain ⟨c, more, rfl, space, bracket⟩ := h
  exact ⟨c, more ++ t, rfl, space, bracket⟩

/-! ## What stands next -/

theorem nextElement_first (h : Starts s) : ∃ le, nextElement true s = .ok (.element s le) := by
  obtain ⟨c, more, rfl, space, bracket⟩ := h
  refine ⟨Nat.le_refl _, ?_⟩
  unfold nextElement
  refine (match_skipSpaces (skipSpaces_cons space more) _ _).trans ?_
  rw [if_neg bracket, if_pos rfl]

/-- A later element stands behind a comma. -/
theorem nextElement_comma (h : Starts s) :
    ∃ le, nextElement false (',' :: s) = .ok (.element s le) := by
  obtain ⟨c, more, rfl, space, bracket⟩ := h
  refine ⟨Nat.le_succ _, ?_⟩
  refine (match_skipSpaces (skipSpaces_cons space more) _ _).trans ?_
  rw [if_neg bracket]

theorem nextKey_first {w : List Char} (spaces : ∀ c ∈ w, isSpace c = true) (k : String)
    (rest : List Char) :
    ∃ r, nextKey true (w ++ (stringText k ++ rest)) = .ok (.key r) ∧ r.value = k ∧
      r.rest = rest := by
  obtain ⟨r, read, value, left⟩ := outcome_eq_some_iff.mp (run_stringBody k rest)
  have here := (skipSpaces_append spaces (stringText k ++ rest)).trans (skipSpaces_cons rfl _)
  refine ⟨r.widen (by simp), (match_skipSpaces here _ _).trans ?_, value, left⟩
  exact congrArg (Except.map fun r : Reading String _ => NextKey.key (r.widen _)) read

theorem nextKey_comma {w : List Char} (spaces : ∀ c ∈ w, isSpace c = true) (k : String)
    (rest : List Char) :
    ∃ r, nextKey false (',' :: (w ++ (stringText k ++ rest))) = .ok (.key r) ∧ r.value = k ∧
      r.rest = rest := by
  obtain ⟨r, read, value, left⟩ := outcome_eq_some_iff.mp (run_stringBody k rest)
  have here := (skipSpaces_append spaces (stringText k ++ rest)).trans (skipSpaces_cons rfl _)
  have comma := skipSpaces_cons (c := ',') rfl (w ++ (stringText k ++ rest))
  refine ⟨r.widen ?_, ?_, value, left⟩
  · simp only [List.length_cons, List.length_append]
    omega
  unfold nextKey
  split
  · rename_i none
    cases comma.symm.trans none
  · rename_i found
    obtain ⟨rfl, rfl⟩ := List.cons.inj (found.symm.trans comma)
    rw [if_neg (by decide), if_neg (by decide), if_pos rfl]
    refine (match_skipSpaces here _ _).trans ?_
    exact congrArg (Except.map fun r : Reading String _ => NextKey.key (r.widen _)) read

theorem run_colon (rest : List Char) : colon.run (':' :: rest) = some ((), rest) := rfl

/-! ## One part -/

/-- The loop over elements stops at the closing bracket, with the state it has. -/
theorem elementsFrom_close {step : σ → Reader σ} (first : Bool) (state : σ)
    (h : (']' :: rest).length ≤ n) :
    outcome (elementsFrom step n first state (']' :: rest) h) = some (state, rest) := by
  rw [elementsFrom]
  rfl

/-- An element is read, and then those after it. -/
theorem elementsFrom_step {step : σ → Reader σ} {first : Bool} {state : σ} {result : Option σ}
    (next : ∃ le, nextElement first s = .ok (.element t le))
    (read : (step state).run t = result.map fun state => (state, rest)) (h : s.length ≤ n)
    (h' : rest.length ≤ n) :
    outcome (elementsFrom step n first state s h) =
      result.bind fun state => outcome (elementsFrom step n false state rest h') := by
  obtain ⟨le, next⟩ := next
  rw [elementsFrom, next]
  dsimp only
  cases result with
  | none =>
    obtain ⟨e, failed⟩ := outcome_eq_none_iff.mp read
    rw [failed]
    rfl
  | some after =>
    obtain ⟨r, found, rfl, rfl⟩ := outcome_eq_some_iff.mp read
    rw [found]
    rfl

theorem membersFrom_close {step : σ → String → Reader σ} {w : List Char}
    (spaces : ∀ c ∈ w, isSpace c = true) (first : Bool) (state : σ)
    (h : (w ++ '\x7d' :: rest).length ≤ n) :
    outcome (membersFrom step n first state (w ++ '\x7d' :: rest) h) = some (state, rest) := by
  have here := (skipSpaces_append spaces ('\x7d' :: rest)).trans (skipSpaces_cons rfl _)
  have next : nextKey first (w ++ '\x7d' :: rest) = .ok (.close rest (lt_of_skipSpaces here)) :=
    (match_skipSpaces here _ _).trans (if_pos rfl)
  rw [membersFrom, next]
  rfl

/-- A member is read, and then those after it. -/
theorem membersFrom_step {step : σ → String → Reader σ} {first : Bool} {state : σ} {k : String}
    {result : Option σ}
    (next : ∃ r, nextKey first s = .ok (.key r) ∧ r.value = k ∧ r.rest = t)
    (read : (step state k).run t = result.map fun state => (state, rest)) (h : s.length ≤ n)
    (h' : rest.length ≤ n) :
    outcome (membersFrom step n first state s h) =
      result.bind fun state => outcome (membersFrom step n false state rest h') := by
  obtain ⟨key, next, rfl, rfl⟩ := next
  rw [membersFrom, next]
  dsimp only
  cases result with
  | none =>
    obtain ⟨e, failed⟩ := outcome_eq_none_iff.mp read
    rw [failed]
    rfl
  | some after =>
    obtain ⟨r, found, rfl, rfl⟩ := outcome_eq_some_iff.mp read
    rw [found]
    rfl

/-! ## All parts -/

theorem exists_array_text (vs : List Value) (rest : List Char) :
    ∃ more, (Value.array vs).text ++ rest = '[' :: more := by
  cases vs <;> exact ⟨_, rfl⟩

section Elements

variable {step : σ → Reader σ} {f : σ → Value → Option σ} {vs : List Value}

/-- Every element may stand in an array, and the steps read it as `f` says. -/
def ReadsElements (step : σ → Reader σ) (f : σ → Value → Option σ) (vs : List Value) : Prop :=
  ∀ v ∈ vs, Starts v.text ∧ ∀ state rest, Ends rest →
    (step state).run (v.text ++ rest) = (f state v).map fun state => (state, rest)

theorem ends_moreElements (vs : List Value) (rest : List Char) :
    Ends (Value.moreElements vs ++ rest) := by
  cases vs with
  | nil => exact ends_bracket rest
  | cons v vs => exact ends_comma _

/-- The loop over elements takes the written elements one by one, as a fold over them does. -/
theorem elementsFrom_written (reads : ReadsElements step f vs) {state : σ} (h : s.length ≤ n)
    (written : s = Value.moreElements vs ++ rest) :
    outcome (elementsFrom step n false state s h) =
      (vs.foldlM f state).map fun state => (state, rest) := by
  induction vs generalizing n s state with
  | nil =>
    subst written
    exact elementsFrom_close false state h
  | cons v vs ih =>
    obtain ⟨⟨starts, read⟩, others⟩ := List.forall_mem_cons.mp reads
    have split : s = ',' :: (v.text ++ (Value.moreElements vs ++ rest)) := by
      rw [written, Value.moreElements, List.cons_append, List.cons_append, List.append_assoc]
    subst split
    have h' : (Value.moreElements vs ++ rest).length ≤ n := by
      rw [List.length_cons, List.length_append] at h
      omega
    rw [elementsFrom_step (nextElement_comma (starts.append _))
      (read state _ (ends_moreElements vs rest)) h h', List.foldlM_cons]
    cases f state v with
    | none => rfl
    | some after => exact ih others h' rfl

/-- **The elements of a written array are read in their order.** -/
theorem run_elements (reads : ReadsElements step f vs) (state : σ) (rest : List Char) :
    (elements step state).run ((Value.array vs).text ++ rest) =
      (vs.foldlM f state).map fun state => (state, rest) := by
  cases vs with
  | nil => exact elementsFrom_close true state (length_le_succ _)
  | cons v vs =>
    obtain ⟨⟨starts, read⟩, others⟩ := List.forall_mem_cons.mp reads
    have text : (Value.array (v :: vs)).text ++ rest =
        '[' :: (v.text ++ (Value.moreElements vs ++ rest)) := by
      rw [Value.text, List.cons_append, List.cons_append, List.append_assoc]
    have h' : (Value.moreElements vs ++ rest).length ≤
        (v.text ++ (Value.moreElements vs ++ rest)).length + 1 := by
      simp only [List.length_append]
      omega
    rw [text]
    refine (elementsFrom_step (nextElement_first (starts.append _))
      (read state _ (ends_moreElements vs rest)) (length_le_succ _) h').trans ?_
    rw [List.foldlM_cons]
    cases f state v with
    | none => rfl
    | some after => exact elementsFrom_written others h' rfl

end Elements

section Members

/-- The spaces between the parts of a written object. -/
structure Layout where
  /-- In front of each key. -/
  key : List Char
  /-- Behind each colon. -/
  value : List Char
  /-- In front of the closing brace. -/
  close : List Char
  spaces_key : ∀ c ∈ key, isSpace c = true
  spaces_value : ∀ c ∈ value, isSpace c = true
  spaces_close : ∀ c ∈ close, isSpace c = true

namespace Layout

variable (l : Layout)

/-- A key, the colon and the value. -/
def member (m : String × Value) : List Char :=
  l.key ++ (stringText m.1 ++ ':' :: (l.value ++ m.2.text))

/-- Further members, each after a comma, and the closing brace. -/
def moreMembers : List (String × Value) → List Char
  | [] => l.close ++ ['\x7d']
  | m :: ms => ',' :: (l.member m ++ moreMembers ms)

/-- An object of some members. -/
def object : List (String × Value) → List Char
  | [] => '\x7b' :: (l.close ++ ['\x7d'])
  | m :: ms => '\x7b' :: (l.member m ++ l.moreMembers ms)

/-- An object is its members between braces, joined by commas. -/
theorem object_eq_intercalate {ms : List (String × Value)} (given : ms ≠ []) :
    l.object ms = '\x7b' :: [','].intercalate (ms.map l.member) ++ (l.close ++ ['\x7d']) := by
  obtain ⟨m, ms, rfl⟩ := List.exists_cons_of_ne_nil given
  refine congrArg ('\x7b' :: ·) ?_
  clear given
  induction ms generalizing m with
  | nil => simp [moreMembers]
  | cons m' ms ih =>
    rw [moreMembers, ih, List.map_cons, List.map_cons, List.map_cons, List.intercalate_cons_cons]
    simp

theorem exists_object (ms : List (String × Value)) (rest : List Char) :
    ∃ more, l.object ms ++ rest = '\x7b' :: more := by
  cases ms <;> exact ⟨_, rfl⟩

/-- No spaces stand between the parts. -/
def compact : Layout := ⟨[], [], [], nofun, nofun, nofun⟩

theorem moreMembers_compact (ms : List (String × Value)) :
    compact.moreMembers ms = Value.moreMembers ms := by
  induction ms with
  | nil => rfl
  | cons m ms ih => simp [moreMembers, Value.moreMembers, member, compact, ← ih]

/-- The canonical writer writes objects in the compact layout. -/
theorem object_compact (ms : List (String × Value)) :
    compact.object ms = (Value.object ms).text := by
  cases ms with
  | nil => rfl
  | cons m ms => simp [object, Value.text, member, compact, ← moreMembers_compact]

end Layout

theorem exists_object_text (ms : List (String × Value)) (rest : List Char) :
    ∃ more, (Value.object ms).text ++ rest = '\x7b' :: more := by
  cases ms <;> exact ⟨_, rfl⟩

variable {step : σ → String → Reader σ} {f : σ → String × Value → Option σ}
  {ms : List (String × Value)} {l : Layout}

/-- The steps read every member, from the colon after its key on, as `f` says. -/
def Layout.Reads (l : Layout) (step : σ → String → Reader σ) (f : σ → String × Value → Option σ)
    (ms : List (String × Value)) : Prop :=
  ∀ m ∈ ms, ∀ state rest, Ends rest →
    (step state m.1).run (':' :: (l.value ++ (m.2.text ++ rest))) =
      (f state m).map fun state => (state, rest)

theorem ends_moreMembers (l : Layout) (ms : List (String × Value)) (rest : List Char) :
    Ends (l.moreMembers ms ++ rest) := by
  cases ms with
  | nil =>
    rw [Layout.moreMembers, List.append_assoc]
    cases close : l.close with
    | nil => exact ends_brace rest
    | cons c w =>
      exact ends_space (l.spaces_close c (close ▸ List.mem_cons_self)) _
  | cons m ms => exact ends_comma _

theorem ends_valueMembers (ms : List (String × Value)) (rest : List Char) :
    Ends (Value.moreMembers ms ++ rest) :=
  Layout.moreMembers_compact ms ▸ ends_moreMembers .compact ms rest

/-- The loop over members takes the written members one by one, as a fold over them does. -/
theorem membersFrom_written (reads : l.Reads step f ms) {state : σ} (h : s.length ≤ n)
    (written : s = l.moreMembers ms ++ rest) :
    outcome (membersFrom step n false state s h) =
      (ms.foldlM f state).map fun state => (state, rest) := by
  induction ms generalizing n s state with
  | nil =>
    rw [Layout.moreMembers, List.append_assoc] at written
    subst written
    exact membersFrom_close l.spaces_close false state h
  | cons m ms ih =>
    obtain ⟨read, others⟩ := List.forall_mem_cons.mp reads
    have split : s = ',' :: (l.key ++ (stringText m.1 ++
        ':' :: (l.value ++ (m.2.text ++ (l.moreMembers ms ++ rest))))) := by
      simp [written, Layout.moreMembers, Layout.member]
    subst split
    have h' : (l.moreMembers ms ++ rest).length ≤ n := by
      simp only [List.length_cons, List.length_append] at h ⊢
      omega
    rw [membersFrom_step (nextKey_comma l.spaces_key m.1 _)
      (read state _ (ends_moreMembers l ms rest)) h h', List.foldlM_cons]
    cases f state m with
    | none => rfl
    | some after => exact ih others h' rfl

/-- **The members of a written object are read in their order**, whatever its layout. -/
theorem run_layout (reads : l.Reads step f ms) (state : σ) (rest : List Char) :
    (members step state).run (l.object ms ++ rest) =
      (ms.foldlM f state).map fun state => (state, rest) := by
  cases ms with
  | nil =>
    have text : l.object [] ++ rest = '\x7b' :: (l.close ++ '\x7d' :: rest) := by
      simp [Layout.object]
    rw [text]
    exact membersFrom_close l.spaces_close true state (length_le_succ _)
  | cons m ms =>
    obtain ⟨read, others⟩ := List.forall_mem_cons.mp reads
    have text : l.object (m :: ms) ++ rest = '\x7b' :: (l.key ++ (stringText m.1 ++
        ':' :: (l.value ++ (m.2.text ++ (l.moreMembers ms ++ rest))))) := by
      simp [Layout.object, Layout.member]
    have h' : (l.moreMembers ms ++ rest).length ≤ (l.key ++ (stringText m.1 ++
        ':' :: (l.value ++ (m.2.text ++ (l.moreMembers ms ++ rest))))).length + 1 := by
      simp only [List.length_cons, List.length_append]
      omega
    rw [text]
    refine (membersFrom_step (nextKey_first l.spaces_key m.1 _)
      (read state _ (ends_moreMembers l ms rest)) (length_le_succ _) h').trans ?_
    rw [List.foldlM_cons]
    cases f state m with
    | none => rfl
    | some after => exact membersFrom_written others h' rfl

/-- The same for members without spaces. -/
def ReadsMembers (step : σ → String → Reader σ) (f : σ → String × Value → Option σ)
    (ms : List (String × Value)) : Prop :=
  ∀ m ∈ ms, ∀ state rest, Ends rest →
    (step state m.1).run (':' :: (m.2.text ++ rest)) = (f state m).map fun state => (state, rest)

/-- The members of a written object are read in their order. -/
theorem run_members (reads : ReadsMembers step f ms) (state : σ) (rest : List Char) :
    (members step state).run ((Value.object ms).text ++ rest) =
      (ms.foldlM f state).map fun state => (state, rest) := by
  rw [← Layout.object_compact]
  exact run_layout (l := .compact) reads state rest

end Members

end VersionInfo.Json
