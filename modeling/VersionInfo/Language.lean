/-!
# Target languages

The three languages that source text is generated in, `CodeLanguage`. A caller names one by its
selector; the generated file carries its extension.

* `ofSelector?_eq_some_iff`: the selectors are exact, and each names one language.
-/

namespace VersionInfo

/-- A language that source text is generated in. -/
inductive Language where
  | cSharp
  | fSharp
  | visualBasic
deriving DecidableEq

namespace Language

/-- All languages, in the order they are listed. -/
def all : List Language := [cSharp, fSharp, visualBasic]

/-- The name a caller selects the language by. -/
def selector : Language → String
  | cSharp => "c#"
  | fSharp => "f#"
  | visualBasic => "vb"

/-- The extension of a generated file. -/
def extension : Language → String
  | cSharp => "cs"
  | fSharp => "fs"
  | visualBasic => "vb"

/-- The language of a selector; case counts. -/
def ofSelector? (s : String) : Option Language := all.find? fun l => l.selector == s

/-! ## Lemmas -/

theorem mem_all (l : Language) : l ∈ all := by cases l <;> decide

/-- A selector is known only in its exact spelling, and it names one language. -/
theorem ofSelector?_eq_some_iff {s : String} {l : Language} :
    ofSelector? s = some l ↔ l.selector = s := by
  constructor
  · intro h
    simpa using List.find?_some h
  · rintro rfl
    cases l <;> rfl

end Language

end VersionInfo
