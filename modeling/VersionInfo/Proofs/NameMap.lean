import Mathlib.Data.List.Perm.Basic
import Mathlib.Data.String.Basic
import VersionInfo.NameMap

/-!
# Order and contents of maps keyed by name

A map is in **ascending** order when every name stands before the greater ones. Insertion keeps
that order, so every map made of a list of entries has it. Where the names of the entries differ
from each other, nothing is replaced, and the map holds the entries themselves.

* `ascending_ofList`: a map made of entries is ascending.
* `exists_insert_eq`: where a new name is put.
* `ofList_perm`: entries with different names are all kept, each once.
* `ofList_middle`, `exists_ofList_middle`: such an entry can be put into the map after the others,
  and its value does not tell where.
* `get?_ofList`: of the entries of one name the last counts.
* `eq_of_get?`, `ofList_of_ascending`: an ascending map is given by what its look-ups find.
-/

namespace VersionInfo.NameMap

variable {α : Type}

theorem ascending_nil : Ascending ([] : NameMap α) := List.Pairwise.nil

theorem ascending_cons {e : String × α} {m : NameMap α} :
    Ascending (e :: m) ↔ (∀ x ∈ m, e.1 < x.1) ∧ Ascending m := by
  unfold Ascending
  rw [List.map_cons, List.pairwise_cons, List.forall_mem_map]

/-- Ascending maps with the same entries are one map. -/
theorem eq_of_ascending_of_perm {m n : NameMap α} (hm : Ascending m) (hn : Ascending n)
    (h : m.Perm n) : m = n := by
  refine h.eq_of_pairwise (fun x y _ _ below above => ?_) (List.pairwise_map.mp hm)
    (List.pairwise_map.mp hn)
  exact absurd (lt_trans below above) (lt_irrefl _)

/-! ## Insertion -/

theorem eq_or_mem_of_mem_insert {m : NameMap α} {name : String} {value : α} {e : String × α}
    (h : e ∈ insert name value m) : e = (name, value) ∨ e ∈ m := by
  induction m with
  | nil => exact Or.inl (List.mem_singleton.mp h)
  | cons x rest ih =>
    obtain ⟨n, v⟩ := x
    simp only [insert] at h
    split at h
    · exact List.mem_cons.mp h
    · split at h
      · rcases List.mem_cons.mp h with h | h
        · exact Or.inl h
        · exact Or.inr (List.mem_cons_of_mem _ h)
      · rcases List.mem_cons.mp h with h | h
        · exact Or.inr (h ▸ List.mem_cons_self)
        · rcases ih h with h | h
          · exact Or.inl h
          · exact Or.inr (List.mem_cons_of_mem _ h)

/-- Adding an entry keeps a map in ascending order. -/
theorem ascending_insert {m : NameMap α} (hm : Ascending m) (name : String) (value : α) :
    Ascending (insert name value m) := by
  induction m with
  | nil => exact List.pairwise_singleton _ _
  | cons x rest ih =>
    obtain ⟨n, v⟩ := x
    obtain ⟨least, hrest⟩ := ascending_cons.mp hm
    simp only [insert]
    split
    · rename_i hlt
      refine ascending_cons.mpr ⟨fun e he => ?_, hm⟩
      rcases List.mem_cons.mp he with rfl | he
      · exact hlt
      · exact lt_trans hlt (least e he)
    · split
      · rename_i heq
        exact ascending_cons.mpr ⟨fun e he => heq ▸ least e he, hrest⟩
      · rename_i hlt hne
        have hgt : n < name := lt_of_le_of_ne (not_lt.mp hlt) (Ne.symm hne)
        refine ascending_cons.mpr ⟨fun e he => ?_, ih hrest⟩
        rcases eq_or_mem_of_mem_insert he with rfl | he
        · exact hgt
        · exact least e he

/-- A new name replaces nothing. -/
theorem insert_perm {m : NameMap α} {name : String} (h : name ∉ m.map Prod.fst) (value : α) :
    (insert name value m).Perm ((name, value) :: m) := by
  induction m with
  | nil => exact List.Perm.refl _
  | cons x rest ih =>
    obtain ⟨n, v⟩ := x
    rw [List.map_cons, List.mem_cons, not_or] at h
    simp only [insert]
    split
    · exact List.Perm.refl _
    · rw [if_neg h.1]
      exact ((ih h.2).cons _).trans (List.Perm.swap _ _ _)

/-- **A new name is put** behind all smaller names and in front of all greater ones. -/
theorem exists_insert_eq {m : NameMap α} (hm : Ascending m) {name : String}
    (new : name ∉ m.map Prod.fst) :
    ∃ smaller greater, m = smaller ++ greater ∧ (∀ e ∈ smaller, e.1 < name) ∧
      (∀ e ∈ greater, name < e.1) ∧
      ∀ value, insert name value m = smaller ++ (name, value) :: greater := by
  induction m with
  | nil => exact ⟨[], [], rfl, List.forall_mem_nil _, List.forall_mem_nil _, fun _ => rfl⟩
  | cons x rest ih =>
    obtain ⟨n, v⟩ := x
    obtain ⟨least, hrest⟩ := ascending_cons.mp hm
    rw [List.map_cons, List.mem_cons, not_or] at new
    rcases lt_or_gt_of_ne new.1 with below | above
    · refine ⟨[], (n, v) :: rest, rfl, List.forall_mem_nil _, ?_, fun value => if_pos below⟩
      exact List.forall_mem_cons.mpr ⟨below, fun e he => lt_trans below (least e he)⟩
    · obtain ⟨smaller, greater, rfl, hsmaller, hgreater, inserted⟩ := ih hrest new.2
      refine ⟨(n, v) :: smaller, greater, rfl, List.forall_mem_cons.mpr ⟨above, hsmaller⟩,
        hgreater, fun value => ?_⟩
      rw [insert, if_neg (not_lt_of_gt above), if_neg new.1, inserted, List.cons_append]

/-! ## Maps of entries -/

theorem ascending_foldl_insert (entries : List (String × α)) {m : NameMap α} (hm : Ascending m) :
    Ascending (entries.foldl (fun m e => insert e.1 e.2 m) m) := by
  induction entries generalizing m with
  | nil => exact hm
  | cons e rest ih => exact ih (ascending_insert hm e.1 e.2)

theorem ascending_ofList (entries : List (String × α)) : Ascending (ofList entries) :=
  ascending_foldl_insert entries ascending_nil

/-- Entries with names of their own are all kept when they are added one by one. -/
theorem foldl_insert_perm {entries : List (String × α)} {m : NameMap α}
    (h : ((entries ++ m).map Prod.fst).Nodup) :
    (entries.foldl (fun m e => insert e.1 e.2 m) m).Perm (entries ++ m) := by
  induction entries generalizing m with
  | nil => exact List.Perm.refl _
  | cons e rest ih =>
    have inserted : (insert e.1 e.2 m).Perm (e :: m) := by
      refine insert_perm (fun he => ?_) e.2
      rw [List.cons_append, List.map_cons, List.nodup_cons, List.map_append, List.mem_append] at h
      exact h.1 (Or.inr he)
    have moved : (rest ++ insert e.1 e.2 m).Perm (e :: rest ++ m) :=
      (inserted.append_left rest).trans List.perm_middle
    exact (ih ((moved.map Prod.fst).nodup_iff.mpr h)).trans moved

/-- **Entries with different names are all kept**, each once. -/
theorem ofList_perm {entries : List (String × α)} (h : (entries.map Prod.fst).Nodup) :
    (ofList entries).Perm entries := by
  have kept := foldl_insert_perm (m := []) (by rwa [List.append_nil])
  rwa [List.append_nil] at kept

/-- Any of such entries can be put into the map after the others. -/
theorem ofList_middle {front back : List (String × α)} {e : String × α}
    (h : ((front ++ e :: back).map Prod.fst).Nodup) :
    ofList (front ++ e :: back) = insert e.1 e.2 (ofList (front ++ back)) := by
  have apart : ((e :: (front ++ back)).map Prod.fst).Nodup :=
    (List.perm_middle.map Prod.fst).nodup_iff.mp h
  obtain ⟨new, others⟩ := List.nodup_cons.mp apart
  have kept := ofList_perm others
  refine eq_of_ascending_of_perm (ascending_ofList _) (ascending_insert (ascending_ofList _) _ _) ?_
  have last : (insert e.1 e.2 (ofList (front ++ back))).Perm (e :: (front ++ back)) :=
    (insert_perm (fun mem => new ((kept.map Prod.fst).mem_iff.mp mem)) e.2).trans (kept.cons e)
  exact ((ofList_perm h).trans List.perm_middle).trans last.symm

/-- Where such an entry stands in the map does not depend on its value. -/
theorem exists_ofList_middle {front back : List (String × α)} {name : String}
    (h : (front.map Prod.fst ++ name :: back.map Prod.fst).Nodup) :
    ∃ smaller greater, ∀ value,
      ofList (front ++ (name, value) :: back) = smaller ++ (name, value) :: greater := by
  obtain ⟨new, others⟩ := List.nodup_cons.mp (List.perm_middle.nodup_iff.mp h)
  rw [← List.map_append] at new others
  have fresh : name ∉ (ofList (front ++ back)).map Prod.fst := fun mem =>
    new (((ofList_perm others).map Prod.fst).mem_iff.mp mem)
  obtain ⟨smaller, greater, -, -, -, inserted⟩ := exists_insert_eq (ascending_ofList _) fresh
  refine ⟨smaller, greater, fun value => ?_⟩
  rw [ofList_middle (by rwa [List.map_append, List.map_cons]), inserted]

/-- The map of such entries lists what they were made from, in another order. -/
theorem exists_perm_ofList_map {β : Type} {f : β → String × α} {bs : List β}
    (h : ((bs.map f).map Prod.fst).Nodup) :
    ∃ cs : List β, cs.Perm bs ∧ ofList (bs.map f) = cs.map f := by
  have listed : Relation.Comp (fun m cs => m = List.map f cs) List.Perm (ofList (bs.map f)) bs := by
    rw [List.eq_map_comp_perm]
    exact ofList_perm h
  obtain ⟨cs, same, perm⟩ := listed
  exact ⟨cs, perm, same⟩

/-! ## Look-ups -/

theorem get?_cons (e : String × α) (m : NameMap α) (name : String) :
    get? (e :: m) name = if e.1 = name then some e.2 else get? m name := by
  unfold get?
  rw [List.find?_cons]
  cases h : e.1 == name with
  | true => rw [if_pos (beq_iff_eq.mp h), Option.map_some]
  | false => rw [if_neg (beq_eq_false_iff_ne.mp h)]

theorem get?_append (m n : NameMap α) (name : String) :
    get? (m ++ n) name = (get? m name).or (get? n name) := by
  unfold get?
  rw [List.find?_append]
  cases m.find? fun e => e.1 == name <;> rfl

theorem mem_of_get? {m : NameMap α} {name : String} {value : α} (h : get? m name = some value) :
    (name, value) ∈ m := by
  obtain ⟨e, found, rfl⟩ := Option.map_eq_some_iff.mp h
  obtain rfl : e.1 = name := by simpa using List.find?_some found
  exact List.mem_of_find?_eq_some found

theorem get?_map {β : Type} (f : α → β) (m : NameMap α) (name : String) :
    get? (m.map fun e => (e.1, f e.2)) name = (get? m name).map f := by
  induction m with
  | nil => rfl
  | cons e rest ih =>
    rw [List.map_cons, get?_cons, get?_cons, ih]
    split <;> rfl

/-- Of several entries with one name the last that was added is found. -/
theorem get?_foldl_insert (entries : List (String × α)) (m : NameMap α) (name : String) :
    get? (entries.foldl (fun m e => insert e.1 e.2 m) m) name =
      (get? entries.reverse name).or (get? m name) := by
  induction entries generalizing m with
  | nil => rfl
  | cons e rest ih =>
    have first : get? (insert e.1 e.2 m) name = (get? [e] name).or (get? m name) := by
      rw [get?_insert, get?_cons]
      split <;> rfl
    rw [List.foldl_cons, ih, List.reverse_cons, get?_append, Option.or_assoc, first]

/-- **Of the entries of one name the last counts.** -/
theorem get?_ofList (entries : List (String × α)) (name : String) :
    get? (ofList entries) name = get? entries.reverse name :=
  (get?_foldl_insert entries [] name).trans (Option.or_none)

theorem mem_of_mem_ofList {entries : List (String × α)} {e : String × α}
    (h : e ∈ ofList entries) : e ∈ entries := by
  have every : ∀ (entries : List (String × α)) (m : NameMap α),
      e ∈ entries.foldl (fun m e => insert e.1 e.2 m) m → e ∈ entries ∨ e ∈ m := by
    intro entries
    induction entries with
    | nil => exact fun m h => Or.inr h
    | cons x rest ih =>
      intro m h
      rcases ih _ h with h | h
      · exact Or.inl (List.mem_cons_of_mem _ h)
      · rcases eq_or_mem_of_mem_insert h with rfl | h
        · exact Or.inl List.mem_cons_self
        · exact Or.inr h
  exact (every entries [] h).resolve_right List.not_mem_nil

theorem get?_eq_some_iff {m : NameMap α} (hm : Ascending m) {name : String} {value : α} :
    get? m name = some value ↔ (name, value) ∈ m := by
  refine ⟨mem_of_get?, fun h => ?_⟩
  induction m with
  | nil => exact absurd h List.not_mem_nil
  | cons e rest ih =>
    obtain ⟨least, hrest⟩ := ascending_cons.mp hm
    rw [get?_cons]
    rcases List.mem_cons.mp h with rfl | h
    · exact if_pos rfl
    · rw [if_neg (ne_of_lt (least _ h)), ih hrest h]

theorem Ascending.nodup_names {m : NameMap α} (hm : Ascending m) : (m.map Prod.fst).Nodup :=
  hm.imp ne_of_lt

theorem Ascending.nodup {m : NameMap α} (hm : Ascending m) : m.Nodup :=
  (List.pairwise_map.mp hm).imp fun below same => absurd (same ▸ below) (lt_irrefl _)

/-- **An ascending map is given by what its look-ups find.** -/
theorem eq_of_get? {m n : NameMap α} (hm : Ascending m) (hn : Ascending n)
    (same : ∀ name, get? m name = get? n name) : m = n := by
  refine eq_of_ascending_of_perm hm hn ?_
  refine (List.perm_ext_iff_of_nodup hm.nodup hn.nodup).mpr fun e => ?_
  rw [← Prod.mk.eta (p := e), ← get?_eq_some_iff hm, same, get?_eq_some_iff hn]

/-- The entries of an ascending map make that map. -/
theorem ofList_of_ascending {m : NameMap α} (hm : Ascending m) : ofList m = m :=
  eq_of_ascending_of_perm (ascending_ofList m) hm (ofList_perm hm.nodup_names)

end VersionInfo.NameMap
