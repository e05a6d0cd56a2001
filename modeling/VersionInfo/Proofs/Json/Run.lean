import VersionInfo.Json.Reading

/-!
# Runs of readers

The run of a reader on a text is what it reads and what it leaves, without the bound that every
reading carries and without the cause of a failure. Runs of composed readers are composed of runs.

* `outcome`, `Reader.run`: what is read and what is left.
* `Reader.run_map`, `Reader.run_andThen`, `Reader.run_check`: runs of composed readers.
* `Reader.text_eq_ok_iff`: a run that leaves nothing but spaces reads the whole text.
* `run_atValue_eq`, `PassesSpaces`: spaces in front of a value are passed over.
-/

namespace VersionInfo.Json

variable {α β : Type}

/-- What is read and what is left, without the bound, if anything is read. -/
def outcome {n : Nat} (result : Except Error (Reading α n)) : Option (α × List Char) :=
  result.toOption.map fun r => (r.value, r.rest)

/-- The outcome forgets the bound of a reading and keeps the value with the rest. -/
theorem outcome_eq_some_iff {n : Nat} {result : Except Error (Reading α n)} {a : α}
    {t : List Char} :
    outcome result = some (a, t) ↔ ∃ r, result = .ok r ∧ r.value = a ∧ r.rest = t := by
  cases result with
  | error e => exact ⟨nofun, nofun⟩
  | ok r =>
    constructor
    · intro h
      obtain ⟨rfl, rfl⟩ := Prod.mk.inj (Option.some.inj h)
      exact ⟨r, rfl, rfl, rfl⟩
    · rintro ⟨_, same, rfl, rfl⟩
      cases same
      rfl

theorem outcome_eq_none_iff {n : Nat} {result : Except Error (Reading α n)} :
    outcome result = none ↔ ∃ e, result = .error e := by
  cases result with
  | error e => exact ⟨fun _ => ⟨e, rfl⟩, fun _ => rfl⟩
  | ok r => exact ⟨nofun, nofun⟩

namespace Reader

/-- What a reader reads and leaves of a text. -/
def run (p : Reader α) (s : List Char) : Option (α × List Char) := outcome (p s)

variable {p : Reader α} {s t : List Char} {a : α}

theorem run_map (f : α → β) (p : Reader α) (s : List Char) :
    (p.map f).run s = (p.run s).map fun r => (f r.1, r.2) := by
  unfold run map
  cases p s <;> rfl

/-- The second reader runs on what the first has left. -/
theorem run_andThen (p : Reader α) (q : α → Reader β) (s : List Char) :
    (p.andThen q).run s = (p.run s).bind fun r => (q r.1).run r.2 := by
  unfold run andThen
  cases p s with
  | error e => rfl
  | ok r =>
    change outcome (q r.value r.rest >>= _) = outcome (q r.value r.rest)
    cases q r.value r.rest <;> rfl

/-- A value is read and then checked. -/
theorem run_check (p : Reader α) (f : α → Except Error β) (s : List Char) :
    run (fun s => do
      let r ← p s
      let v ← f r.value
      return r.map fun _ => v) s =
      (p.run s).bind fun r => (f r.1).toOption.map fun v => (v, r.2) := by
  unfold run
  dsimp only
  cases p s with
  | error e => rfl
  | ok r =>
    change outcome (f r.value >>= _) = Option.map _ (f r.value).toOption
    cases f r.value <;> rfl

/-- A text is read if what is left behind its value are spaces. -/
theorem text_eq_ok_iff {s : String} :
    p.text s = .ok a ↔ ∃ rest, p.run s.toList = some (a, rest) ∧ skipSpaces rest = [] := by
  unfold text run
  cases read : p s.toList with
  | error e => exact ⟨nofun, fun ⟨_, h, _⟩ => nomatch h⟩
  | ok r =>
    change (if skipSpaces r.rest = [] then Except.ok r.value else .error _) = _ ↔ _
    constructor
    · intro h
      split at h
      · rename_i spaces
        cases h
        exact ⟨r.rest, rfl, spaces⟩
      · cases h
    · rintro ⟨rest, h, spaces⟩
      obtain ⟨rfl, rfl⟩ := Prod.mk.inj (Option.some.inj h)
      rw [if_pos spaces]

end Reader

/-! ## Spaces and words -/

theorem skipSpaces_append {w : List Char} (spaces : ∀ c ∈ w, isSpace c = true) (s : List Char) :
    skipSpaces (w ++ s) = skipSpaces s :=
  List.dropWhile_append_of_pos spaces

theorem skipSpaces_cons {c : Char} (h : isSpace c = false) (s : List Char) :
    skipSpaces (c :: s) = c :: s :=
  List.dropWhile_cons_of_neg (by rw [h]; exact Bool.false_ne_true)

/-- The first character decides, when the spaces in front of it are known. -/
theorem match_skipSpaces {γ : Type} {s more : List Char} {c : Char}
    (here : skipSpaces s = c :: more) (onEnd : skipSpaces s = [] → γ)
    (onNext : ∀ c more, skipSpaces s = c :: more → γ) :
    (match h : skipSpaces s with
      | [] => onEnd h
      | c :: more => onNext c more h) = onNext c more here := by
  split
  · rename_i none
    rw [here] at none
    cases none
  · rename_i found
    have same := here.symm.trans found
    cases same
    rfl

/-- A value is read by the first character that is no space. -/
theorem run_atValue_eq (p : Char → Reader α) (s : List Char) :
    (atValue p).run s = match skipSpaces s with
      | [] => none
      | c :: rest => (p c).run (c :: rest) := by
  cases found : skipSpaces s with
  | nil =>
    unfold Reader.run atValue
    split
    · rfl
    · rename_i found'
      rw [found] at found'
      cases found'
  | cons c rest =>
    dsimp only
    unfold Reader.run atValue
    split
    · rename_i found'
      rw [found] at found'
      cases found'
    · rename_i found'
      obtain ⟨rfl, rfl⟩ := List.cons.inj (found'.symm.trans found)
      cases p _ (_ :: _) <;> rfl

theorem run_atValue {c : Char} (h : isSpace c = false) (p : Char → Reader α) (s : List Char) :
    (atValue p).run (c :: s) = (p c).run (c :: s) := by
  rw [run_atValue_eq, skipSpaces_cons h]

/-- Spaces in front of what the reader reads make no difference. -/
def PassesSpaces (p : Reader α) : Prop :=
  ∀ w s, (∀ c ∈ w, isSpace c = true) → p.run (w ++ s) = p.run s

theorem passesSpaces_atValue (p : Char → Reader α) : PassesSpaces (atValue p) := by
  intro w s spaces
  rw [run_atValue_eq, run_atValue_eq, skipSpaces_append spaces]

theorem PassesSpaces.map {p : Reader α} (h : PassesSpaces p) (f : α → β) :
    PassesSpaces (p.map f) := by
  intro w s spaces
  rw [Reader.run_map, Reader.run_map, h w s spaces]

theorem word_append (w rest : List Char) : word w (w ++ rest) = .ok rest := by
  induction w with
  | nil => rfl
  | cons c w ih =>
    rw [List.cons_append, word, if_pos rfl]
    exact ih

/-- A word that stands in the text is read as its value. -/
theorem run_literal (c : Char) (w : List Char) (a : α) (rest : List Char) :
    (literal w a).run (c :: (w ++ rest)) = some (a, rest) := by
  unfold Reader.run literal
  dsimp only
  split
  · rename_i e failed
    rw [word_append] at failed
    cases failed
  · rename_i left found
    rw [word_append] at found
    cases found
    rfl

end VersionInfo.Json
