import Mathlib

/-! Ordered maps: `BTreeMap` with the entry operations programs use on it.

Two maps that find the same values are equal. -/

set_option autoImplicit false

attribute [instance] lexOrd

def BTreeMap (κ ν : Type) [Ord κ] := Std.ExtTreeMap κ ν compare

namespace BTreeMap

variable {κ ν : Type} [Ord κ] [Std.TransOrd κ]

def empty : BTreeMap κ ν := (∅ : Std.ExtTreeMap κ ν compare)

instance : EmptyCollection (BTreeMap κ ν) := ⟨empty⟩

def get? (map : BTreeMap κ ν) (key : κ) : Option ν := Std.ExtTreeMap.get? map key

def insert (map : BTreeMap κ ν) (key : κ) (value : ν) : BTreeMap κ ν := Std.ExtTreeMap.insert map key value

def remove (map : BTreeMap κ ν) (key : κ) : BTreeMap κ ν := Std.ExtTreeMap.erase map key

/-- An update through `get_mut`: a missing key is left missing. -/
def modify (map : BTreeMap κ ν) (key : κ) (f : ν → ν) : BTreeMap κ ν := Std.ExtTreeMap.modify map key f

/-- An update through `entry(key).or_insert(fresh)`. -/
def entry (map : BTreeMap κ ν) (key : κ) (fresh : ν) (f : ν → ν) : BTreeMap κ ν :=
  map.insert key (f ((map.get? key).getD fresh))

/-- `INSERT .. ON CONFLICT (key) DO UPDATE`: a stored value is merged with the new one. -/
def upsert (map : BTreeMap κ ν) (key : κ) (value : ν) (merge : ν → ν → ν) : BTreeMap κ ν :=
  map.insert key ((map.get? key).elim value fun held => merge held value)

def retain (map : BTreeMap κ ν) (test : κ → ν → Bool) : BTreeMap κ ν := Std.ExtTreeMap.filter test map

def toList (map : BTreeMap κ ν) : List (κ × ν) := Std.ExtTreeMap.toList map

def find? (map : BTreeMap κ ν) (test : κ → ν → Bool) : Option (κ × ν) :=
  map.toList.find? fun entry => test entry.1 entry.2

variable {map first second : BTreeMap κ ν} {key other : κ} {value : ν}

@[simp] theorem get?_empty : (∅ : BTreeMap κ ν).get? key = none := Std.ExtTreeMap.getElem?_empty

def All (P : κ → ν → Prop) (map : BTreeMap κ ν) : Prop := ∀ key value, map.get? key = some value → P key value

def Related {μ : Type} (holds : κ → ν → μ → Prop) (map : BTreeMap κ ν) (image : BTreeMap κ μ) : Prop :=
  ∀ key, Option.Rel (holds key) (map.get? key) (image.get? key)

theorem All.empty {P : κ → ν → Prop} : All P (∅ : BTreeMap κ ν) := by
  intro key value found
  rw [get?_empty] at found
  cases found

section Related

variable {μ : Type} {holds : κ → ν → μ → Prop} {image : BTreeMap κ μ}

theorem Related.empty : Related holds (∅ : BTreeMap κ ν) ∅ := by
  intro key
  rw [get?_empty, get?_empty]
  exact .none

theorem Related.none_iff (related : map.Related holds image) : map.get? key = none ↔ image.get? key = none := by
  have here := related key
  constructor
  · intro missing
    rw [missing] at here
    cases found : image.get? key with
    | none => rfl
    | some shown =>
      rw [found] at here
      cases here
  · intro missing
    rw [missing] at here
    cases found : map.get? key with
    | none => rfl
    | some value =>
      rw [found] at here
      cases here

theorem Related.some (related : map.Related holds image) (found : map.get? key = some value) :
    ∃ shown, image.get? key = some shown ∧ holds key value shown := by
  have here := related key
  rw [found] at here
  cases present : image.get? key with
  | none =>
    rw [present] at here
    cases here
  | some shown =>
    rw [present] at here
    cases here with
    | some held => exact ⟨shown, rfl, held⟩

end Related

/-- `entry(key).or_insert(fresh)` inserts the value of a missing key only. -/
theorem entry_or_insert {fresh : ν} (missing : map.get? key = none) : map.entry key fresh id = map.insert key fresh := by
  rw [entry, missing]
  rfl

section Lookup

variable [Std.LawfulEqOrd κ]

theorem ext (same : ∀ key, first.get? key = second.get? key) : first = second :=
  Std.ExtTreeMap.ext_getElem? same

theorem mem_toList : (key, value) ∈ map.toList ↔ map.get? key = some value :=
  Std.ExtTreeMap.mem_toList_iff_getElem?_eq_some

theorem find?_some {test : κ → ν → Bool} (found : map.find? test = some (key, value)) :
    map.get? key = some value ∧ test key value = true := by
  refine ⟨mem_toList.mp (List.mem_of_find?_eq_some found), ?_⟩
  have passed := List.find?_some (p := fun entry : κ × ν => test entry.1 entry.2) found
  exact passed

theorem find?_none {test : κ → ν → Bool} (missing : map.find? test = none) (held : map.get? key = some value) :
    test key value = false := by
  have each := List.find?_eq_none.mp missing (key, value) (mem_toList.mpr held)
  simpa using each

/-- The entry found is the first: no smaller key passes. -/
theorem find?_least {test : κ → ν → Bool} (found : map.find? test = some (key, value)) {smaller : κ} {held : ν}
    (below : compare smaller key = .lt) (present : map.get? smaller = some held) : test smaller held = false := by
  obtain ⟨-, before, after, split, failing⟩ := List.find?_eq_some_iff_append.mp found
  have inside : (smaller, held) ∈ before ++ (key, value) :: after := split ▸ mem_toList.mpr present
  have sorted : (before ++ (key, value) :: after).Pairwise fun first second => compare first.1 second.1 = .lt :=
    split ▸ Std.ExtTreeMap.ordered_keys_toList
  rcases List.mem_append.mp inside with earlier | later
  · simpa using failing (smaller, held) earlier
  · exfalso
    rcases List.mem_cons.mp later with same | later
    · obtain ⟨rfl, rfl⟩ := Prod.mk.inj same
      rw [Std.ReflOrd.compare_self] at below
      cases below
    · have above := (List.pairwise_cons.mp (List.pairwise_append.mp sorted).2.1).1 (smaller, held) later
      rw [Std.OrientedOrd.eq_swap, below] at above
      cases above

theorem find?_key_congr {test : κ → ν → Bool}
    (same : ∀ key, (first.get? key).map (test key) = (second.get? key).map (test key)) :
    (first.find? test).map (·.1) = (second.find? test).map (·.1) := by
  have passes : ∀ {one other : BTreeMap κ ν},
      (∀ key, (one.get? key).map (test key) = (other.get? key).map (test key)) →
      ∀ {key value}, one.get? key = some value → test key value = true →
        ∃ held, other.get? key = some held ∧ test key held = true := by
    intro one other agree key value present passed
    have outcome := agree key
    rw [present] at outcome
    obtain ⟨held, there, result⟩ := Option.map_eq_some_iff.mp outcome.symm
    exact ⟨held, there, result.trans passed⟩
  rcases foundFirst : first.find? test with - | ⟨firstKey, firstValue⟩
  · rcases foundSecond : second.find? test with - | ⟨secondKey, secondValue⟩
    · rfl
    · obtain ⟨present, passed⟩ := find?_some foundSecond
      obtain ⟨held, there, result⟩ := passes (fun key => (same key).symm) present passed
      rw [find?_none foundFirst there] at result
      cases result
  · obtain ⟨present, passed⟩ := find?_some foundFirst
    obtain ⟨held, there, result⟩ := passes same present passed
    rcases foundSecond : second.find? test with - | ⟨secondKey, secondValue⟩
    · rw [find?_none foundSecond there] at result
      cases result
    · obtain ⟨presentSecond, passedSecond⟩ := find?_some foundSecond
      obtain ⟨heldFirst, thereFirst, resultFirst⟩ := passes (fun key => (same key).symm) presentSecond passedSecond
      have notBelow : compare secondKey firstKey ≠ .lt := by
        intro below
        rw [find?_least foundFirst below thereFirst] at resultFirst
        cases resultFirst
      have notAbove : compare firstKey secondKey ≠ .lt := by
        intro below
        rw [find?_least foundSecond below there] at result
        cases result
      have equal : compare firstKey secondKey = .eq := by
        cases order : compare firstKey secondKey with
        | lt => exact absurd order notAbove
        | eq => rfl
        | gt =>
          rw [Std.OrientedOrd.eq_swap, order] at notBelow
          exact absurd rfl notBelow
      exact congrArg some (Std.LawfulEqOrd.compare_eq_iff_eq.mp equal)

variable [DecidableEq κ]

omit [Std.TransOrd κ] in
theorem ite_compare {β : Type} (here elsewhere : β) :
    (if compare key other = .eq then here else elsewhere) = if other = key then here else elsewhere := by
  by_cases same : other = key
  · rw [if_pos same, if_pos (Std.LawfulEqOrd.compare_eq_iff_eq.mpr same.symm)]
  · rw [if_neg same, if_neg fun equal => same (Std.LawfulEqOrd.compare_eq_iff_eq.mp equal).symm]

theorem get?_insert : (map.insert key value).get? other = if other = key then some value else map.get? other :=
  Std.ExtTreeMap.getElem?_insert.trans (ite_compare _ _)

theorem get?_remove : (map.remove key).get? other = if other = key then none else map.get? other :=
  Std.ExtTreeMap.getElem?_erase.trans (ite_compare _ _)

theorem get?_modify {f : ν → ν} :
    (map.modify key f).get? other = if other = key then (map.get? other).map f else map.get? other := by
  refine Std.ExtTreeMap.getElem?_modify.trans ((ite_compare _ _).trans ?_)
  by_cases same : other = key
  · subst same
    rfl
  · rw [if_neg same, if_neg same]
    rfl

theorem get?_modify_none {f : ν → ν} : (map.modify key f).get? other = none ↔ map.get? other = none := by
  rw [get?_modify]
  split
  · exact Option.map_eq_none_iff
  · exact Iff.rfl

theorem get?_entry {fresh : ν} {f : ν → ν} : (map.entry key fresh f).get? other =
    if other = key then some (f ((map.get? other).getD fresh)) else map.get? other := by
  rw [entry, get?_insert]
  by_cases same : other = key
  · subst same
    rfl
  · rw [if_neg same, if_neg same]

theorem entry_of_some {fresh : ν} (held : map.get? key = some value) : map.entry key fresh id = map := by
  apply ext
  intro other
  rw [get?_entry]
  split
  · next same =>
    rw [same, held]
    rfl
  · rfl

theorem get?_upsert {merge : ν → ν → ν} : (map.upsert key value merge).get? other =
    if other = key then some ((map.get? other).elim value fun held => merge held value) else map.get? other := by
  rw [upsert, get?_insert]
  by_cases same : other = key
  · subst same
    rfl
  · rw [if_neg same, if_neg same]

/-! ### What every entry satisfies -/

section All

variable {P : κ → ν → Prop} {f : ν → ν} {fresh : ν}

theorem All.insert (all : map.All P) (here : P key value) : (map.insert key value).All P := by
  intro other held found
  rw [get?_insert] at found
  split at found
  · next same =>
    cases found
    exact same ▸ here
  · exact all other held found

theorem All.modify (all : map.All P) (here : ∀ value, map.get? key = some value → P key value → P key (f value)) :
    (map.modify key f).All P := by
  intro other held found
  rw [get?_modify] at found
  split at found
  · next same =>
    subst same
    obtain ⟨value, present, rfl⟩ := Option.map_eq_some_iff.mp found
    exact here value present (all other value present)
  · exact all other held found

theorem All.entry (all : map.All P) (new : P key fresh) (here : ∀ value, P key value → P key (f value)) :
    (map.entry key fresh f).All P := by
  refine all.insert (here _ ?_)
  cases found : map.get? key with
  | none => exact new
  | some value => exact all key value found

theorem All.remove (all : map.All P) : (map.remove key).All P := by
  intro other held found
  rw [get?_remove] at found
  split at found
  · cases found
  · exact all other held found

end All

/-! ### Related maps -/

section Related

variable {μ : Type} {holds : κ → ν → μ → Prop} {image : BTreeMap κ μ} {shown : μ}

theorem Related.insert (related : map.Related holds image) (here : holds key value shown) :
    (map.insert key value).Related holds (image.insert key shown) := by
  intro other
  rw [get?_insert, get?_insert]
  split
  · next same => exact .some (same ▸ here)
  · exact related other

theorem Related.remove (related : map.Related holds image) : (map.remove key).Related holds (image.remove key) := by
  intro other
  rw [get?_remove, get?_remove]
  split
  · exact .none
  · exact related other

end Related

end Lookup

end BTreeMap
