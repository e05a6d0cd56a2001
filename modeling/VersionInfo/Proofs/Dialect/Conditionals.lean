import VersionInfo.Dialect.Line
import VersionInfo.Text.Blank
import VersionInfo.Text.Case

/-!
# Conditional directives

A text with conditionals stands for one text for each set of defined symbols. A line is a directive
if the first of its characters that is not blank is a number sign; the words behind it say what it
does. The lines are taken one after another, with a stack of the conditionals that are open, and a
line is kept if it stands in no branch that is left out.

* `Grammar.directive?` reads a directive, `Grammar.resolve` takes the lines.
* `Apart.not_starts`: texts that no line can both start with.
* `resolve_plain`: lines without directives are kept or left out together.
* `plain_of_resolve`: no directive is left.
* `resolve_guarded`, `resolve_chained`: what is left of a conditional.
* `asks_ifLine`, `asks_elseIfLine`: the conditions that a dialect writes are read back.
-/

namespace VersionInfo

open Text (isBlank)

namespace Conditional

/-! ## Directives -/

/-- What a directive does. -/
inductive Kind where
  /-- Opens a conditional, with its first branch. -/
  | opens
  /-- Goes on to a branch with a condition. -/
  | elseIf
  /-- Goes on to the last branch. -/
  | otherwise
  /-- Closes the conditional. -/
  | closes
deriving DecidableEq

/-- A directive with the words behind its keyword. -/
structure Directive where
  kind : Kind
  words : List String
deriving DecidableEq

/-- How a language writes directives. -/
structure Grammar where
  keyword : Kind → List String
  /-- Stands between the symbols of a condition. -/
  operator : String
  /-- May end a condition. -/
  ending : Option String
  /-- Whether the case of letters does not count in words that are not symbols. -/
  ignoresCase : Bool

/-- The words of a text: what stands between blanks. -/
def words (cs : List Char) : List String :=
  ((cs.splitOnP isBlank).filter fun w => !w.isEmpty).map String.ofList

/-- A text that is one word. -/
def IsWord (w : String) : Prop := w ≠ "" ∧ ∀ c ∈ w.toList, isBlank c = false

instance : DecidablePred IsWord := fun w =>
  have : Decidable (∀ c ∈ w.toList, isBlank c = false) :=
    List.decidableBAll (fun c => isBlank c = false) w.toList
  inferInstanceAs (Decidable (_ ∧ _))

/-- A line from its first character that is not blank. -/
def shown (line : String) : List Char := line.toList.dropWhile isBlank

/-- The line shows a text, and then anything. -/
def Starts (lead line : String) : Prop := lead.toList <+: shown line

instance (lead line : String) : Decidable (Starts lead line) :=
  inferInstanceAs (Decidable (_ <+: _))

theorem Starts.append {lead line : String} (h : Starts lead line) (more : String) :
    Starts lead (line ++ more) := by
  unfold Starts shown at h ⊢
  rw [String.toList_append, List.dropWhile_append]
  split
  · rename_i nothing
    rw [List.isEmpty_iff.mp nothing] at h
    rw [List.prefix_nil.mp h]
    exact List.nil_prefix
  · exact h.trans (List.prefix_append _ _)

/-- No line starts with both texts. -/
def Apart (a b : String) : Prop := ¬ a.toList <+: b.toList ∧ ¬ b.toList <+: a.toList

instance (a b : String) : Decidable (Apart a b) := inferInstanceAs (Decidable (_ ∧ _))

theorem Apart.symm {a b : String} (apart : Apart a b) : Apart b a := ⟨apart.2, apart.1⟩

/-- A line cannot start with two leads that are apart. -/
theorem Apart.not_starts {a b line : String} (apart : Apart a b) (h : Starts a line) :
    ¬ Starts b line := fun other =>
  (List.prefix_or_prefix_of_prefix h other).elim apart.1 apart.2

/-- A name that a condition can ask for. -/
def IsSymbol (s : String) : Prop := s ≠ "" ∧ ∀ c ∈ s.toList, c.isAlphanum = true ∨ c = '_'

instance : DecidablePred IsSymbol := fun s =>
  have : Decidable (∀ c ∈ s.toList, c.isAlphanum = true ∨ c = '_') :=
    List.decidableBAll (fun c => c.isAlphanum = true ∨ c = '_') s.toList
  inferInstanceAs (Decidable (_ ∧ _))

namespace Grammar

/-- Whether a word is the one that the language has. -/
def same (g : Grammar) (word fixed : String) : Bool :=
  if g.ignoresCase then decide (Text.SameIgnoringCase word fixed) else word == fixed

/-- What follows some fixed words. -/
def behind (g : Grammar) : List String → List String → Option (List String)
  | [], words => some words
  | _ :: _, [] => none
  | fixed :: more, word :: words => if g.same word fixed then g.behind more words else none

/-- The directive that some words make. -/
def directiveOf (g : Grammar) (words : List String) : Option Directive :=
  [Kind.opens, .elseIf, .otherwise, .closes].findSome? fun kind =>
    (g.behind (g.keyword kind) words).map fun more => ⟨kind, more⟩

/-- The directive of a line. -/
def directive? (g : Grammar) (line : String) : Option Directive :=
  match shown line with
  | '#' :: rest => g.directiveOf (words rest)
  | _ => none

theorem directive?_of_shown {g : Grammar} {line : String} {rest : List Char}
    (h : shown line = '#' :: rest) : g.directive? line = g.directiveOf (words rest) := by
  unfold directive?
  rw [h]
  rfl

/-- The line is no directive. -/
def Plain (g : Grammar) (line : String) : Prop := g.directive? line = none

instance (g : Grammar) (line : String) : Decidable (g.Plain line) :=
  inferInstanceAs (Decidable (_ = _))

theorem plain_of_not_starts {g : Grammar} {line : String} (h : ¬ Starts "#" line) :
    g.Plain line := by
  unfold Plain directive?
  split
  · rename_i rest read
    exact absurd ⟨rest, read.symm⟩ h
  · rfl

/-- Whether one of the symbols of a condition is defined. -/
def holds (g : Grammar) (defined : String → Bool) : List String → Option Bool
  | [] => none
  | [symbol] => if IsSymbol symbol then some (defined symbol) else none
  | symbol :: word :: rest =>
    if ¬ IsSymbol symbol then none
    else if g.same word g.operator then (g.holds defined rest).map (defined symbol || ·)
    else if rest = [] ∧ g.ending.any (g.same word) then some (defined symbol)
    else none

end Grammar

/-! ## Resolution -/

/-- The present branch of an open conditional. -/
structure Branch where
  /-- The branch is not left out. -/
  kept : Bool
  /-- This branch or one before it is not left out. -/
  settled : Bool
  /-- No branch may follow. -/
  last : Bool

namespace Grammar

/-- What a directive does to the open conditionals, the innermost first. -/
def step (g : Grammar) (defined : String → Bool) (d : Directive) (stack : List Branch) :
    Option (List Branch) :=
  match d.kind, stack with
  | .opens, stack => (g.holds defined d.words).map fun b => ⟨b, b, false⟩ :: stack
  | .elseIf, top :: outer =>
    if top.last then none
    else (g.holds defined d.words).map fun b =>
      ⟨!top.settled && b, top.settled || b, false⟩ :: outer
  | .otherwise, top :: outer =>
    if top.last then none else some (⟨!top.settled, true, true⟩ :: outer)
  | .closes, _ :: outer => some outer
  | _, [] => none

/-- The lines that are left of some lines, or nothing if they cannot be resolved. -/
def resolve (g : Grammar) (defined : String → Bool) :
    List Branch → List String → Option (List String)
  | stack, [] => if stack.isEmpty then some [] else none
  | stack, line :: rest =>
    match g.directive? line with
    | some d => (g.step defined d stack).bind fun stack => g.resolve defined stack rest
    | none => (g.resolve defined stack rest).map fun left =>
        if stack.all Branch.kept then line :: left else left

variable {g : Grammar} {defined : String → Bool} {stack : List Branch}

/-- A directive changes the branches that are open and is not kept itself. -/
theorem resolve_directive {d : Directive} {line : String} {after : List Branch}
    (read : g.directive? line = some d) (next : g.step defined d stack = some after)
    (rest : List String) :
    g.resolve defined stack (line :: rest) = g.resolve defined after rest := by
  rw [resolve, read]
  dsimp only
  rw [next, Option.bind_some]

/-- **Lines without directives** are kept or left out together. -/
theorem resolve_plain {lines : List String} (plain : ∀ line ∈ lines, g.Plain line)
    (rest : List String) :
    g.resolve defined stack (lines ++ rest) = (g.resolve defined stack rest).map
      ((if stack.all Branch.kept then lines else []) ++ ·) := by
  induction lines with
  | nil =>
    have nothing : (if stack.all Branch.kept then ([] : List String) else []) = [] := ite_self _
    rw [nothing]
    exact Option.map_id'.symm
  | cons line lines ih =>
    obtain ⟨first, others⟩ := List.forall_mem_cons.mp plain
    rw [List.cons_append, resolve, first]
    dsimp only
    rw [ih others, Option.map_map]
    by_cases kept : stack.all Branch.kept = true
    · simp only [if_pos kept]
      rfl
    · simp only [if_neg kept]
      rfl

/-- **No directive is left.** -/
theorem plain_of_resolve {lines left : List String}
    (h : g.resolve defined stack lines = some left) :
    ∀ line ∈ left, g.Plain line := by
  induction lines generalizing stack left with
  | nil =>
    rw [resolve] at h
    split at h
    · cases h
      exact List.forall_mem_nil _
    · cases h
  | cons line rest ih =>
    rw [resolve] at h
    cases read : g.directive? line with
    | some d =>
      rw [read] at h
      obtain ⟨after, -, h⟩ := Option.bind_eq_some_iff.mp h
      exact ih h
    | none =>
      rw [read] at h
      obtain ⟨others, resolved, rfl⟩ := Option.map_eq_some_iff.mp h
      split
      · exact List.forall_mem_cons.mpr ⟨read, ih resolved⟩
      · exact ih resolved

/-! ## Conditionals -/

/-- The line is a directive whose condition asks for some symbols. -/
def Asks (g : Grammar) (kind : Kind) (symbols : List String) (line : String) : Prop :=
  ∃ words, g.directive? line = some ⟨kind, words⟩ ∧
    ∀ defined, g.holds defined words = some (symbols.any defined)

/-- **A conditional with one branch.** -/
theorem resolve_guarded {symbols body : List String} {opener closer : String} {after : List String}
    (opens : g.Asks .opens symbols opener) (plain : ∀ line ∈ body, g.Plain line)
    (closes : g.directive? closer = some ⟨.closes, after⟩) (rest : List String) :
    g.resolve defined [] (opener :: (body ++ closer :: rest)) =
      (g.resolve defined [] rest).map ((if symbols.any defined then body else []) ++ ·) := by
  obtain ⟨condition, read, holds⟩ := opens
  have opened : g.step defined ⟨.opens, condition⟩ [] =
      some [⟨symbols.any defined, symbols.any defined, false⟩] := by
    simp only [step, holds, Option.map_some]
  rw [resolve_directive read opened, resolve_plain plain, resolve_directive closes rfl]
  simp only [List.all_cons, List.all_nil, Bool.and_true]

/-- **A conditional with three branches**, of which the first that counts is kept. -/
theorem resolve_chained {symbols symbols' first second third after after' : List String}
    {opener other last closer : String} (opens : g.Asks .opens symbols opener)
    (plainFirst : ∀ line ∈ first, g.Plain line)
    (elseIf : g.Asks .elseIf symbols' other)
    (plainSecond : ∀ line ∈ second, g.Plain line)
    (otherwise : g.directive? last = some ⟨.otherwise, after⟩)
    (plainThird : ∀ line ∈ third, g.Plain line)
    (closes : g.directive? closer = some ⟨.closes, after'⟩) (rest : List String) :
    g.resolve defined []
        (opener :: (first ++ other :: (second ++ last :: (third ++ closer :: rest)))) =
      (g.resolve defined [] rest).map ((if symbols.any defined then first
        else if symbols'.any defined then second else third) ++ ·) := by
  obtain ⟨condition, read, holds⟩ := opens
  obtain ⟨condition', read', holds'⟩ := elseIf
  have opened : g.step defined ⟨.opens, condition⟩ [] =
      some [⟨symbols.any defined, symbols.any defined, false⟩] := by
    simp only [step, holds, Option.map_some]
  have gone (b : Bool) : g.step defined ⟨.elseIf, condition'⟩ [⟨b, b, false⟩] =
      some [⟨!b && symbols'.any defined, b || symbols'.any defined, false⟩] := by
    simp only [step, holds', Bool.false_eq_true, if_false, Option.map_some]
  have ended (b c : Bool) : g.step defined ⟨.otherwise, after⟩ [⟨c, b, false⟩] =
      some [⟨!b, true, true⟩] := rfl
  rw [resolve_directive read opened, resolve_plain plainFirst, resolve_directive read' (gone _),
    resolve_plain plainSecond, resolve_directive otherwise (ended _ _), resolve_plain plainThird,
    resolve_directive closes rfl]
  simp only [Option.map_map, List.all_cons, List.all_nil, Bool.and_true]
  cases symbols.any defined <;> cases symbols'.any defined <;> rfl

end Grammar

/-! ## The grammars of the languages -/

/-- The keywords of C# and F#. -/
def hashKeyword : Kind → List String
  | .opens => ["if"]
  | .elseIf => ["elif"]
  | .otherwise => ["else"]
  | .closes => ["endif"]

/-- The keywords of Visual Basic. -/
def basicKeyword : Kind → List String
  | .opens => ["If"]
  | .elseIf => ["ElseIf"]
  | .otherwise => ["Else"]
  | .closes => ["End", "If"]

/-- The directives of a language. -/
def grammar : Language → Grammar
  | .cSharp | .fSharp => ⟨hashKeyword, "||", none, false⟩
  | .visualBasic => ⟨basicKeyword, "Or", some "Then", true⟩

/-! ## What a dialect writes -/

section Words

variable {w : String} {b : Char}

theorem isBlank_of_isAlphanum {c : Char} (h : c.isAlphanum = true) : isBlank c = false := by
  have range : 48 ≤ c.toNat ∧ c.toNat ≤ 57 ∨ 65 ≤ c.toNat ∧ c.toNat ≤ 90 ∨
      97 ≤ c.toNat ∧ c.toNat ≤ 122 := by
    rcases Bool.or_eq_true_iff.mp h with alpha | digit
    · rcases Bool.or_eq_true_iff.mp alpha with upper | lower
      · exact Or.inr (Or.inl (of_decide_eq_true upper))
      · obtain ⟨least, greatest⟩ := Bool.and_eq_true_iff.mp lower
        exact Or.inr (Or.inr ⟨of_decide_eq_true least, of_decide_eq_true greatest⟩)
    · obtain ⟨least, greatest⟩ := Bool.and_eq_true_iff.mp digit
      exact Or.inl ⟨of_decide_eq_true least, of_decide_eq_true greatest⟩
  simp only [isBlank, Text.CodePoints.contains, Text.blanks, List.any_cons, List.any_nil,
    Bool.or_false, Bool.or_eq_false_iff, Bool.and_eq_false_iff, decide_eq_false_iff_not]
  omega

theorem IsSymbol.isWord (symbol : IsSymbol w) : IsWord w := by
  refine ⟨symbol.1, fun c mem => ?_⟩
  rcases symbol.2 c mem with letter | rfl
  · exact isBlank_of_isAlphanum letter
  · decide

theorem words_blank (blank : isBlank b = true) (rest : List Char) :
    words (b :: rest) = words rest := by
  have split := List.splitOnP_append_cons_of_forall_mem (List.forall_mem_nil (isBlank · = false))
    b blank rest
  rw [List.nil_append] at split
  rw [words, split]
  rfl

theorem words_append (word : IsWord w) (blank : isBlank b = true) (rest : List Char) :
    words (w.toList ++ b :: rest) = w :: words rest := by
  have chars : (!w.toList.isEmpty) = true := by simpa using word.1
  simp only [words, List.splitOnP_append_cons_of_forall_mem word.2 b blank, List.filter_cons, chars,
    if_true, List.map_cons, String.ofList_toList]

theorem words_toList (word : IsWord w) : words w.toList = [w] := by
  have chars : (!w.toList.isEmpty) = true := by simpa using word.1
  simp only [words, List.splitOnP_eq_singleton word.2, List.filter_cons, chars, if_true,
    List.filter_nil, List.map_cons, List.map_nil, String.ofList_toList]

end Words

/-- The words of a condition. -/
def Grammar.conditionWords (g : Grammar) : List String → List String
  | [] => g.ending.toList
  | [symbol] => symbol :: g.ending.toList
  | symbol :: next :: rest => symbol :: g.operator :: g.conditionWords (next :: rest)

section Written

variable (l : Language) {symbol : String} {symbols : List String}

theorem words_operator (plain : IsSymbol symbol) (rest : List Char) :
    words (symbol.toList ++ ((Dialect.of l).conditionals.orOperator.toList ++ rest)) =
      symbol :: (grammar l).operator :: words rest := by
  have bars : " || ".toList = ' ' :: ("||".toList ++ [' ']) := rfl
  have letters : "  Or  ".toList = ' ' :: ' ' :: ("Or".toList ++ [' ', ' ']) := rfl
  have barred :
      words (symbol.toList ++ (" || ".toList ++ rest)) = symbol :: "||" :: words rest := by
    rw [bars, List.cons_append, List.append_assoc, words_append plain.isWord rfl,
      List.singleton_append, words_append (by decide) rfl]
  cases l with
  | cSharp => exact barred
  | fSharp => exact barred
  | visualBasic =>
    change words (symbol.toList ++ ("  Or  ".toList ++ rest)) = symbol :: "Or" :: words rest
    rw [letters, List.cons_append, List.cons_append, List.append_assoc,
      words_append plain.isWord rfl, words_blank rfl, List.cons_append, List.singleton_append,
      words_append (by decide) rfl, words_blank rfl]

theorem words_ending (plain : IsSymbol symbol) :
    words (symbol.toList ++ (Dialect.of l).conditionals.thenPart.toList) =
      symbol :: (grammar l).ending.toList := by
  have bare : words (symbol.toList ++ []) = [symbol] := by
    rw [List.append_nil, words_toList plain.isWord]
  cases l with
  | cSharp => exact bare
  | fSharp => exact bare
  | visualBasic =>
    refine (words_append plain.isWord rfl "Then".toList).trans ?_
    rw [words_toList (by decide)]
    rfl

/-- The words of a condition are its symbols with the operator between them. -/
theorem words_condition (given : symbols ≠ []) (plain : ∀ symbol ∈ symbols, IsSymbol symbol) :
    words ((Dialect.of l).condition symbols).toList = (grammar l).conditionWords symbols := by
  unfold Dialect.condition
  induction symbols with
  | nil => exact absurd rfl given
  | cons symbol rest ih =>
    obtain ⟨first, others⟩ := List.forall_mem_cons.mp plain
    cases rest with
    | nil =>
      rw [String.intercalate_singleton, String.toList_append, words_ending l first]
      rfl
    | cons next rest =>
      have shorter := ih (List.cons_ne_nil _ _) others
      rw [String.toList_append] at shorter
      rw [String.intercalate_cons_cons]
      simp only [String.toList_append, List.append_assoc]
      rw [words_operator l first, shorter]
      rfl

/-- A condition on several symbols holds if one of them is defined. -/
theorem holds_conditionWords (given : symbols ≠ []) (plain : ∀ symbol ∈ symbols, IsSymbol symbol)
    (defined : String → Bool) :
    (grammar l).holds defined ((grammar l).conditionWords symbols) =
      some (symbols.any defined) := by
  have operator : (grammar l).same (grammar l).operator (grammar l).operator = true := by
    cases l <;> decide
  induction symbols with
  | nil => exact absurd rfl given
  | cons symbol rest ih =>
    obtain ⟨first, others⟩ := List.forall_mem_cons.mp plain
    cases rest with
    | nil =>
      rw [List.any_cons, List.any_nil, Bool.or_false]
      cases l with
      | cSharp => exact if_pos first
      | fSharp => exact if_pos first
      | visualBasic => exact if_neg (not_not_intro first)
    | cons next rest =>
      rw [Grammar.conditionWords, Grammar.holds, if_neg (not_not_intro first), if_pos operator,
        ih (List.cons_ne_nil _ _) others, Option.map_some]
      rfl

/-- A line with a keyword of one word behind its number sign, and a condition behind that. -/
theorem asks_of_keyword {kind : Kind} {opener : String} (keyword : String)
    (hash : opener.toList = '#' :: (keyword.toList ++ [' ']))
    (word : IsWord keyword)
    (found : ∀ more, (grammar l).directiveOf (keyword :: more) = some ⟨kind, more⟩)
    (given : symbols ≠ []) (plain : ∀ symbol ∈ symbols, IsSymbol symbol) :
    (grammar l).Asks kind symbols (opener ++ (Dialect.of l).condition symbols) := by
  refine ⟨(grammar l).conditionWords symbols, ?_, holds_conditionWords l given plain⟩
  have read : shown (opener ++ (Dialect.of l).condition symbols) =
      '#' :: (keyword.toList ++ ' ' :: ((Dialect.of l).condition symbols).toList) := by
    rw [shown, String.toList_append, hash, List.cons_append, List.append_assoc,
      List.dropWhile_cons_of_neg (by decide), List.singleton_append]
  rw [Grammar.directive?_of_shown read, words_append word rfl,
    words_condition l given plain, found]

/-- **Conditions are read back.** -/
theorem asks_ifLine (given : symbols ≠ []) (plain : ∀ symbol ∈ symbols, IsSymbol symbol) :
    (grammar l).Asks .opens symbols ((Dialect.of l).ifLine symbols) := by
  cases l with
  | cSharp => exact asks_of_keyword _ "if" rfl (by decide) (fun _ => rfl) given plain
  | fSharp => exact asks_of_keyword _ "if" rfl (by decide) (fun _ => rfl) given plain
  | visualBasic => exact asks_of_keyword _ "If" rfl (by decide) (fun _ => rfl) given plain

/-- So are those of further branches. -/
theorem asks_elseIfLine (given : symbols ≠ []) (plain : ∀ symbol ∈ symbols, IsSymbol symbol) :
    (grammar l).Asks .elseIf symbols ((Dialect.of l).elseIfLine symbols) := by
  cases l with
  | cSharp => exact asks_of_keyword _ "elif" rfl (by decide) (fun _ => rfl) given plain
  | fSharp => exact asks_of_keyword _ "elif" rfl (by decide) (fun _ => rfl) given plain
  | visualBasic => exact asks_of_keyword _ "ElseIf" rfl (by decide) (fun _ => rfl) given plain

end Written

end Conditional

end VersionInfo
