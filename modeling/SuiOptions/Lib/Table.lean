import Mathlib

/-! Tables: finite maps as lists of entries, in the order they were added. -/

set_option autoImplicit false

abbrev Table (κ ν : Type) := List (κ × ν)

namespace Table

variable {κ ν : Type} [DecidableEq κ] {table : Table κ ν} {key other : κ} {value : ν}

def get? (table : Table κ ν) (key : κ) : Option ν := (table.find? fun entry => entry.1 = key).map (·.2)

def contains (table : Table κ ν) (key : κ) : Bool := (table.get? key).isSome

/-- Add an entry; callers check that the key is new. -/
def add (table : Table κ ν) (key : κ) (value : ν) : Table κ ν := table ++ [(key, value)]

def remove (table : Table κ ν) (key : κ) : Table κ ν := table.eraseP fun entry => entry.1 = key

def set (table : Table κ ν) (key : κ) (value : ν) : Table κ ν :=
  table.map fun entry => if entry.1 = key then (key, value) else entry

def Distinct (table : Table κ ν) : Prop := (table.map (·.1)).Nodup

theorem get?_cons (entry : κ × ν) (rest : Table κ ν) :
    get? (entry :: rest) key = if entry.1 = key then some entry.2 else get? rest key := by
  by_cases here : entry.1 = key <;> simp [get?, here]

theorem get?_append (first second : Table κ ν) : get? (first ++ second) key = (get? first key).or (get? second key) := by
  induction first with
  | nil => rfl
  | cons entry rest ih =>
    rw [List.cons_append, get?_cons, get?_cons]
    by_cases here : entry.1 = key
    · rw [if_pos here, if_pos here]
      rfl
    · rw [if_neg here, if_neg here, ih]

theorem mem_of_get? (found : table.get? key = some value) : (key, value) ∈ table := by
  obtain ⟨⟨k, v⟩, located, rfl⟩ := Option.map_eq_some_iff.mp found
  have same : k = key := by simpa using List.find?_some located
  subst same
  exact List.mem_of_find?_eq_some located

theorem get?_of_mem (distinct : table.Distinct) (member : (key, value) ∈ table) : table.get? key = some value := by
  induction table with
  | nil => cases member
  | cons entry rest ih =>
    have parts := List.nodup_cons.mp distinct
    rw [get?_cons]
    rcases List.mem_cons.mp member with same | later
    · subst same
      exact if_pos rfl
    · have other : entry.1 ≠ key := by
        rintro rfl
        exact parts.1 (List.mem_map.mpr ⟨_, later, rfl⟩)
      rw [if_neg other]
      exact ih parts.2 later

theorem get?_remove_of_ne (differ : other ≠ key) : (table.remove key).get? other = table.get? other := by
  induction table with
  | nil => rfl
  | cons entry rest ih =>
    by_cases here : entry.1 = key
    · have skipped : entry.1 ≠ other := fun same => differ (same.symm.trans here)
      simp [remove, here, get?_cons, Ne.symm differ]
    · have erased : remove (entry :: rest) key = entry :: remove rest key := by
        simp [remove, here]
      rw [erased, get?_cons, get?_cons, ih]

theorem get?_add_of_ne (differ : other ≠ key) : (table.add key value).get? other = table.get? other := by
  rw [add, get?_append]
  simp [Ne.symm differ, get?]

theorem get?_add_self (fresh : table.get? key = none) : (table.add key value).get? key = some value := by
  rw [add, get?_append, fresh]
  simp [get?]

theorem Distinct.remove (distinct : table.Distinct) : (table.remove key).Distinct :=
  distinct.sublist (List.eraseP_sublist.map _)

omit [DecidableEq κ] in
theorem Distinct.add (distinct : table.Distinct) (fresh : ∀ entry ∈ table, entry.1 ≠ key) :
    (table.add key value).Distinct := by
  simp only [Distinct, Table.add, List.map_append, List.map_cons, List.map_nil]
  refine List.nodup_append.mpr ⟨distinct, by simp, ?_⟩
  intro k known new only
  obtain ⟨entry, member, rfl⟩ := List.mem_map.mp known
  rw [List.mem_singleton.mp only]
  exact fresh entry member

theorem map_fst_set : (table.set key value).map (·.1) = table.map (·.1) := by
  rw [set, List.map_map]
  apply List.map_congr_left
  intro entry _
  by_cases here : entry.1 = key <;> simp [here]

theorem Distinct.set (distinct : table.Distinct) : (table.set key value).Distinct := by
  rw [Distinct, map_fst_set]
  exact distinct

theorem mem_set {entry : κ × ν} (member : entry ∈ table.set key value) :
    entry ∈ table ∧ entry.1 ≠ key ∨ entry = (key, value) := by
  obtain ⟨old, known, rfl⟩ := List.mem_map.mp member
  by_cases here : old.1 = key
  · rw [if_pos here]
    exact Or.inr rfl
  · rw [if_neg here]
    exact Or.inl ⟨known, here⟩

theorem get?_set_self (found : table.get? key = some value) (new : ν) : (table.set key new).get? key = some new := by
  induction table with
  | nil => cases found
  | cons entry rest ih =>
    rw [get?_cons] at found
    rw [set, List.map_cons, get?_cons]
    by_cases here : entry.1 = key
    · simp [here]
    · rw [if_neg here] at found
      rw [if_neg here, if_neg here]
      exact ih found

theorem get?_set_of_ne (differ : other ≠ key) : (table.set key value).get? other = table.get? other := by
  induction table with
  | nil => rfl
  | cons entry rest ih =>
    rw [set, List.map_cons, get?_cons, get?_cons]
    by_cases here : entry.1 = key
    · rw [if_pos here, if_neg (fun same => differ same.symm), if_neg (fun same => differ (same.symm.trans here))]
      exact ih
    · rw [if_neg here]
      exact congrArg (fun tail => if entry.1 = other then some entry.2 else tail) ih

theorem sum_remove (f : κ × ν → Nat) (found : table.get? key = some value) :
    (table.map f).sum = f (key, value) + ((table.remove key).map f).sum := by
  induction table with
  | nil => cases found
  | cons entry rest ih =>
    by_cases here : entry.1 = key
    · have same : entry = (key, value) := by
        simp only [get?, List.find?_cons, here, decide_true, Option.map_some, Option.some.injEq] at found
        exact Prod.ext here found
      subst same
      simp [remove]
    · have later : get? rest key = some value := by
        simpa only [get?, List.find?_cons, here, decide_false] using found
      have erased : remove (entry :: rest) key = entry :: remove rest key := by
        simp [remove, here]
      rw [erased, List.map_cons, List.sum_cons, List.map_cons, List.sum_cons, ih later]
      omega

theorem ne_of_mem_remove (distinct : table.Distinct) {entry : κ × ν} (member : entry ∈ table.remove key) :
    entry.1 ≠ key := by
  induction table with
  | nil => cases member
  | cons first rest ih =>
    have parts := List.nodup_cons.mp distinct
    by_cases here : first.1 = key
    · have kept : remove (first :: rest) key = rest := by
        simp [remove, here]
      rw [kept] at member
      rintro rfl
      exact parts.1 (List.mem_map.mpr ⟨entry, member, here.symm⟩)
    · have kept : remove (first :: rest) key = first :: remove rest key := by
        simp [remove, here]
      rw [kept] at member
      rcases List.mem_cons.mp member with rfl | later
      · exact here
      · exact ih parts.2 later

theorem get?_of_remove (distinct : table.Distinct) (found : (table.remove key).get? other = some value) :
    other ≠ key ∧ table.get? other = some value := by
  have differ : other ≠ key := ne_of_mem_remove distinct (mem_of_get? found)
  exact ⟨differ, (get?_remove_of_ne differ).symm.trans found⟩

theorem mem_of_mem_remove {entry : κ × ν} (member : entry ∈ table.remove key) : entry ∈ table :=
  List.mem_of_mem_eraseP member

end Table
