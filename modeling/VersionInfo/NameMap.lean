/-!
# Maps keyed by name

A map from names to values is the list of its entries in ascending order of names, compared by
code points. `insert` puts an entry in its place and replaces an earlier value of the name, so
`ofList` keeps the last value of each.

* `get?_insert`: what a look-up finds after an insertion.
-/

namespace VersionInfo

/-- Entries in ascending order of names. -/
abbrev NameMap (α : Type) := List (String × α)

namespace NameMap

variable {α : Type}

/-- Every name stands before the greater ones, and none stands twice. -/
def Ascending (m : NameMap α) : Prop := (m.map Prod.fst).Pairwise (· < ·)

/-- The value of a name. -/
def get? (m : NameMap α) (name : String) : Option α :=
  (m.find? fun e => e.1 == name).map Prod.snd

/-- The map with `value` under `name`. -/
def insert (name : String) (value : α) : NameMap α → NameMap α
  | [] => [(name, value)]
  | (n, v) :: rest =>
    if name < n then (name, value) :: (n, v) :: rest
    else if name = n then (name, value) :: rest
    else (n, v) :: insert name value rest

/-- The map of some entries, of which the last of a name counts. -/
def ofList (entries : List (String × α)) : NameMap α :=
  entries.foldl (fun m e => insert e.1 e.2 m) []

/-! ## Lemmas -/

/-- An entry that is added is found under its name in place of any that was there; the others stay.
-/
theorem get?_insert (m : NameMap α) (name other : String) (value : α) :
    get? (insert name value m) other = if name = other then some value else get? m other := by
  induction m with
  | nil => by_cases h : name = other <;> simp [insert, get?, h]
  | cons e rest ih =>
    obtain ⟨n, v⟩ := e
    simp only [insert]
    split
    · by_cases h : name = other <;> simp [get?, h]
    · split
      · rename_i h
        subst h
        by_cases h : name = other <;> simp [get?, h]
      · rename_i h
        by_cases hn : n = other
        · subst hn
          simp [get?, h]
        · have step : ∀ m : NameMap α, get? ((n, v) :: m) other = get? m other := by
            intro m
            simp [get?, hn]
          rw [step, step, ih]

end NameMap

end VersionInfo
