import VersionInfo.Proofs.Json.ValueReading

/-!
# What readers of known types accept

A reader of known types decides on every value: it reads those that fit, and it fails on all
others, whatever follows them in a text. What it makes of a value is described along with it.

* `Takes`: a reader takes exactly the values that fit.
* `takes_string`, `takes_boolean`, `takes_int64`: single values.
* `takes_option`, `takes_list`: optional values and arrays.
-/

namespace VersionInfo.Json

variable {α β : Type}

/-- **The reader takes exactly the values that fit**, and makes of them what they hold. -/
structure Takes (p : Reader α) (fits : Value → Prop) (holds : Value → α → Prop) : Prop where
  accepts : ∀ {v : Value}, v.Plain → fits v → ∃ a, Gives p v (some a) ∧ holds v a
  refuses : ∀ {v : Value}, v.Plain → ¬ fits v → Gives p v none

variable {p : Reader α} {fits : Value → Prop} {holds : Value → α → Prop}

/-- A reader that decides on a value decides on its text alone. -/
theorem Takes.gives (h : Takes p fits holds) {v : Value} (plain : v.Plain) :
    Gives p v ((p.run v.text).map Prod.fst) := by
  by_cases fit : fits v
  · obtain ⟨a, gives, -⟩ := h.accepts plain fit
    rwa [gives.eq_run]
  · rw [(h.refuses plain fit).eq_run]
    exact h.refuses plain fit

theorem Takes.map (h : Takes p fits holds) (f : α → β) {holds' : Value → β → Prop}
    (keeps : ∀ v a, holds v a → holds' v (f a)) : Takes (p.map f) fits holds' where
  accepts plain fit := by
    obtain ⟨a, gives, described⟩ := h.accepts plain fit
    exact ⟨f a, gives.map f, keeps _ a described⟩
  refuses plain other := (h.refuses plain other).map f

/-- The texts that the values which fit make up are read, and no others. -/
theorem Takes.exists_text_iff (h : Takes p fits holds) {v : Value} (plain : v.Plain) :
    (∃ a, p.text (String.ofList v.text) = .ok a) ↔ fits v := by
  constructor
  · rintro ⟨a, read⟩
    by_contra unfit
    cases (h.refuses plain unfit).text_eq_ok_iff.mp read
  · intro fit
    obtain ⟨a, gives, -⟩ := h.accepts plain fit
    exact ⟨a, gives.text⟩

/-- What is read from the text of a value is held by it. -/
theorem Takes.holds_of_text (h : Takes p fits holds) {v : Value} (plain : v.Plain) {a : α}
    (read : p.text (String.ofList v.text) = .ok a) : holds v a := by
  obtain ⟨b, gives, held⟩ := h.accepts plain ((h.exists_text_iff plain).mp ⟨a, read⟩)
  cases gives.text_eq_ok_iff.mp read
  exact held

/-! ## First characters -/

namespace Value

variable {v : Value} {c : Char}

/-- The value is of the kind that the character opens. -/
def OpenedBy (v : Value) (c : Char) : Prop :=
  match c with
  | 'n' => v = null
  | 't' => v = boolean true
  | 'f' => v = boolean false
  | '"' => ∃ s, v = string s
  | '[' => ∃ vs, v = array vs
  | '\x7b' => ∃ ms, v = object ms
  | _ => (∃ n, v = integer n) ∨ ∃ x, v = float x

theorem Opens.openedBy (h : v.Opens c) : v.OpenedBy c := by
  have number : startsNumber c = true → ((∃ n, v = integer n) ∨ ∃ x, v = float x) →
      v.OpenedBy c := by
    intro starts kind
    unfold OpenedBy
    split <;> first | exact kind | exact absurd starts (by decide)
  cases v with
  | null => cases h; rfl
  | boolean b => cases b <;> cases h <;> rfl
  | integer n => exact number h (Or.inl ⟨n, rfl⟩)
  | float x => exact number h (Or.inr ⟨x, rfl⟩)
  | string s => cases h; exact ⟨s, rfl⟩
  | array vs => cases h; exact ⟨vs, rfl⟩
  | object ms => cases h; exact ⟨ms, rfl⟩

theorem Opens.eq_integer (noFloat : v.NoFloat) (opens : v.Opens c)
    (starts : startsNumber c = true) : ∃ n, v = integer n := by
  cases v with
  | integer n => exact ⟨n, rfl⟩
  | float x => exact absurd rfl (noFloat.here x)
  | boolean b => cases b <;> cases opens <;> exact absurd starts (by decide)
  | _ => cases opens; exact absurd starts (by decide)

end Value

/-! ## Single values -/

theorem run_unexpected (expected : String) (c : Char) (s : List Char) :
    (unexpected expected c : Reader α).run s = none := by
  have report : ∀ found : Reader Found, (found.andThen fun f =>
      (.fail (.invalidType f expected) : Reader α)).run s = none := by
    intro found
    rw [Reader.run_andThen]
    cases found.run s <;> rfl
  unfold unexpected
  split_ifs <;> first | exact report _ | rfl

/-- A reader fails on a value if it fails at the characters that the value may start with. -/
theorem gives_none {q : Char → Reader α} {v : Value} (noFloat : v.NoFloat)
    (fails : ∀ c, v.Opens c → ∀ s, (q c).run s = none) : Gives (atValue q) v none := by
  intro rest _
  obtain ⟨c, more, written, opens⟩ := Value.exists_opens noFloat
  rw [written, List.cons_append, run_atValue opens.solid.1]
  exact fails c opens _

/-- Strings are read from strings and from nothing else. -/
theorem takes_string : Takes string (fun v => ∃ s, v = .string s) fun v s => v = .string s where
  accepts := by
    rintro _ - ⟨s, rfl⟩
    exact ⟨s, gives_string s, rfl⟩
  refuses plain other := by
    refine gives_none plain.noFloat fun c opens s => ?_
    have quote : c ≠ '"' := by
      rintro rfl
      exact other opens.openedBy
    rw [if_neg quote, run_unexpected]

theorem takes_boolean : Takes boolean (fun v => ∃ b, v = .boolean b) fun v b => v = .boolean b where
  accepts := by
    rintro _ - ⟨b, rfl⟩
    exact ⟨b, gives_boolean b, rfl⟩
  refuses plain other := by
    refine gives_none plain.noFloat fun c opens s => ?_
    have yes : c ≠ 't' := by
      rintro rfl
      exact other ⟨true, opens.openedBy⟩
    have no : c ≠ 'f' := by
      rintro rfl
      exact other ⟨false, opens.openedBy⟩
    rw [if_neg yes, if_neg no, run_unexpected]

/-- An integer that fits 64 bits with a sign, or else none at all, is read from a number. -/
theorem int64_cases {n : Int} (range : IntegerRange n) :
    (∃ t : Int64, n = t.toInt) ∨ ∃ e, (Number.integer n).int64 = .error e := by
  by_cases fits : n ≤ Int64.maxValue.toInt
  · left
    refine ⟨Int64.ofInt n, (Int64.toInt_ofInt_of_le ?_ ?_).symm⟩
    · exact range.1
    · exact Int.lt_of_le_of_lt fits (by decide)
  · right
    rw [Number.int64, if_neg fits]
    exact ⟨_, rfl⟩

/-- Integers of 64 bits are read from the integers in their range: others are refused, not cut. -/
theorem takes_int64 :
    Takes int64 (fun v => ∃ t : Int64, v = .integer t.toInt) fun v t => v = .integer t.toInt where
  accepts := by
    rintro _ - ⟨t, rfl⟩
    exact ⟨t, gives_int64 t, rfl⟩
  refuses {v} plain other := by
    by_cases integer : ∃ n, v = .integer n
    · obtain ⟨n, rfl⟩ := integer
      intro rest ends
      have range := plain.inRange.here n rfl
      obtain ⟨e, failed⟩ := (int64_cases range).resolve_left fun ⟨t, same⟩ => other ⟨t, same ▸ rfl⟩
      obtain ⟨c, more, written, starts⟩ := writeInt_startsNumber n
      have read := run_number range ends
      rw [Value.text, written, List.cons_append, int64,
        run_atValue (isSpace_of_startsNumber starts), if_pos starts, Reader.run_check,
        ← List.cons_append, ← written, read, Option.bind_some, failed]
      rfl
    · refine gives_none plain.noFloat fun c opens s => ?_
      have starts : ¬ startsNumber c = true := fun starts =>
        integer (opens.eq_integer plain.noFloat starts)
      rw [if_neg starts, run_unexpected]

/-! ## Optional values and arrays -/

/-- An optional value is read from `null` and from what the value is read from. -/
theorem takes_option (h : Takes p fits holds) :
    Takes (option p) (fun v => v = .null ∨ fits v) fun v o => o.elim (v = .null) (holds v) := by
  have given : ∀ {v : Value}, v.Plain → v ≠ .null → NotNull v := by
    intro v plain other
    obtain ⟨c, more, written, opens⟩ := Value.exists_opens plain.noFloat
    refine ⟨c, more, written, opens.solid.1, ?_⟩
    rintro rfl
    exact other opens.openedBy
  constructor
  · intro v plain fit
    by_cases null : v = .null
    · subst null
      exact ⟨none, gives_option_null p, rfl⟩
    · obtain ⟨a, gives, described⟩ := h.accepts plain (fit.resolve_left null)
      exact ⟨some a, gives_option_some (given plain null) gives, described⟩
  · intro v plain other
    rw [not_or] at other
    exact gives_option_some (given plain other.1) (h.refuses plain other.2)

theorem mapM_eq_some_of_forall {f : Value → Option α} {vs : List Value}
    (each : ∀ v ∈ vs, ∃ a, f v = some a ∧ holds v a) :
    ∃ as, vs.mapM f = some as ∧ List.Forall₂ holds vs as := by
  induction vs with
  | nil => exact ⟨[], rfl, .nil⟩
  | cons v vs ih =>
    obtain ⟨⟨a, first, described⟩, others⟩ := List.forall_mem_cons.mp each
    obtain ⟨as, rest, all⟩ := ih others
    refine ⟨a :: as, ?_, .cons described all⟩
    rw [List.mapM_cons, first, rest]
    rfl

theorem mapM_eq_none_of_mem {f : Value → Option α} {vs : List Value} {v : Value} (mem : v ∈ vs)
    (fails : f v = none) : vs.mapM f = none := by
  induction vs with
  | nil => exact absurd mem List.not_mem_nil
  | cons u vs ih =>
    rw [List.mapM_cons]
    rcases List.mem_cons.mp mem with rfl | later
    · rw [fails]
      rfl
    · rw [ih later]
      cases f u <;> rfl

/-- Lists are read from arrays whose elements all fit. -/
theorem takes_list (h : Takes p fits holds) :
    Takes (list p) (fun v => ∃ vs, v = .array vs ∧ ∀ u ∈ vs, fits u)
      fun v as => ∃ vs, v = .array vs ∧ List.Forall₂ holds vs as := by
  have gives : ∀ {vs : List Value}, (Value.array vs).Plain →
      Gives (list p) (.array vs) (vs.mapM fun v => (p.run v.text).map Prod.fst) := by
    intro vs plain
    refine gives_list fun v mem => ?_
    have plain := Value.plain_array.mp plain v mem
    exact ⟨Value.starts_text plain.noFloat, h.gives plain⟩
  constructor
  · rintro _ plain ⟨vs, rfl, fit⟩
    have each : ∀ v ∈ vs, ∃ a, (p.run v.text).map Prod.fst = some a ∧ holds v a := by
      intro v mem
      obtain ⟨a, read, described⟩ := h.accepts (Value.plain_array.mp plain v mem) (fit v mem)
      exact ⟨a, read.eq_run, described⟩
    obtain ⟨as, all, described⟩ := mapM_eq_some_of_forall each
    exact ⟨as, all ▸ gives plain, vs, rfl, described⟩
  · intro v plain other
    by_cases array : ∃ vs, v = .array vs
    · obtain ⟨vs, rfl⟩ := array
      obtain ⟨u, mem, unfit⟩ : ∃ u ∈ vs, ¬ fits u := by
        by_contra! all
        exact other ⟨vs, rfl, all⟩
      have fails : (p.run u.text).map Prod.fst = none :=
        (h.refuses (Value.plain_array.mp plain u mem) unfit).eq_run
      have none : vs.mapM (fun v => (p.run v.text).map Prod.fst) = none :=
        mapM_eq_none_of_mem mem fails
      exact none ▸ gives plain
    · refine gives_none plain.noFloat fun c opens s => ?_
      have bracket : c ≠ '[' := by
        rintro rfl
        exact array opens.openedBy
      rw [if_neg bracket, run_unexpected]

end VersionInfo.Json
