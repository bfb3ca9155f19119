import SuiOptions.Lib.BTreeMap

/-! Sums over the values of a map. -/

set_option autoImplicit false

namespace BTreeMap

variable {κ ν A : Type} [Ord κ] [Std.TransOrd κ] [AddCommGroup A]

def total (map : BTreeMap κ ν) (f : ν → A) : A := (map.toList.map fun entry => f entry.2).sum

def part (map : BTreeMap κ ν) (f : ν → A) (key : κ) : A := (map.get? key).elim 0 f

variable {map first second : BTreeMap κ ν} {key other : κ} {value held : ν} {f g : ν → A}

theorem part_of_some (found : map.get? key = some value) : map.part f key = f value := by
  rw [part, found]
  rfl

theorem part_of_none (missing : map.get? key = none) : map.part f key = 0 := by
  rw [part, missing]
  rfl

section Sums

variable [Std.LawfulEqOrd κ] [DecidableEq κ]

theorem total_eq_sum {keys : Finset κ} (covered : ∀ key, map.get? key ≠ none → key ∈ keys) :
    map.total f = ∑ key ∈ keys, map.part f key := by
  have once : (map.toList.map Prod.fst).Nodup := by
    have distinct : (map.toList.map Prod.fst).Pairwise fun first second => ¬ compare first second = .eq := by
      rw [List.pairwise_map]
      exact Std.ExtTreeMap.distinct_keys_toList
    exact distinct.imp fun differ same => differ (Std.LawfulEqOrd.compare_eq_iff_eq.mpr same)
  have parts : map.total f = ((map.toList.map Prod.fst).map (map.part f)).sum := by
    rw [total, List.map_map]
    refine congrArg List.sum (List.map_congr_left fun entry member => ?_)
    exact (part_of_some (mem_toList.mp member)).symm
  rw [parts, ← List.sum_toFinset _ once]
  apply Finset.sum_subset
  · intro key member
    obtain ⟨entry, inside, rfl⟩ := List.mem_map.mp (List.mem_toFinset.mp member)
    apply covered
    rw [mem_toList.mp inside]
    nofun
  · intro key _ outside
    cases found : map.get? key with
    | none => exact part_of_none found
    | some value =>
      have inside := List.mem_map_of_mem (f := Prod.fst) (mem_toList.mpr found)
      exact absurd (List.mem_toFinset.mpr inside) outside

def keys (map : BTreeMap κ ν) : Finset κ := (map.toList.map Prod.fst).toFinset

theorem mem_keys : key ∈ map.keys ↔ map.get? key ≠ none := by
  rw [keys, List.mem_toFinset, List.mem_map]
  constructor
  · rintro ⟨entry, inside, rfl⟩
    rw [mem_toList.mp inside]
    nofun
  · intro present
    obtain ⟨value, found⟩ := Option.ne_none_iff_exists'.mp present
    exact ⟨(key, value), mem_toList.mpr found, rfl⟩

/-- Maps that agree but for one key have sums that differ by what it contributes. -/
theorem total_changed (same : ∀ other, other ≠ key → first.get? other = second.get? other) :
    second.total f = first.total f - first.part f key + second.part f key := by
  let all := Insert.insert key (first.keys ∪ second.keys)
  have left : first.total f = ∑ other ∈ all, first.part f other := total_eq_sum fun other present =>
    Finset.mem_insert_of_mem (Finset.mem_union_left _ (mem_keys.mpr present))
  have right : second.total f = ∑ other ∈ all, second.part f other := total_eq_sum fun other present =>
    Finset.mem_insert_of_mem (Finset.mem_union_right _ (mem_keys.mpr present))
  have inside : key ∈ all := Finset.mem_insert_self key _
  have rest : ∑ other ∈ all.erase key, second.part f other = ∑ other ∈ all.erase key, first.part f other := by
    refine Finset.sum_congr rfl fun other member => ?_
    rw [part, part, same other (Finset.ne_of_mem_erase member)]
  rw [left, right, ← Finset.add_sum_erase _ (first.part f) inside, ← Finset.add_sum_erase _ (second.part f) inside, rest]
  abel

theorem total_insert : (map.insert key value).total f = map.total f - map.part f key + f value := by
  have same : ∀ other, other ≠ key → map.get? other = (map.insert key value).get? other := by
    intro other differ
    rw [get?_insert, if_neg differ]
  have here : (map.insert key value).get? key = some value := by rw [get?_insert, if_pos rfl]
  rw [total_changed same, part_of_some here]

theorem total_remove : (map.remove key).total f = map.total f - map.part f key := by
  have same : ∀ other, other ≠ key → map.get? other = (map.remove key).get? other := by
    intro other differ
    rw [get?_remove, if_neg differ]
  have gone : (map.remove key).get? key = none := by rw [get?_remove, if_pos rfl]
  rw [total_changed same, part_of_none gone, add_zero]

omit [Std.LawfulEqOrd κ] [DecidableEq κ] in
theorem part_getD {fresh : ν} (worthless : f fresh = 0) : map.part f key = f ((map.get? key).getD fresh) := by
  cases found : map.get? key with
  | none => rw [part_of_none found, Option.getD_none, worthless]
  | some value => rw [part_of_some found, Option.getD_some]

/-- `entry(key).or_insert(fresh)` changes the sum by what the value had and has. -/
theorem total_entry {fresh : ν} {change : ν → ν} (worthless : f fresh = 0) : (map.entry key fresh change).total f =
    map.total f - f ((map.get? key).getD fresh) + f (change ((map.get? key).getD fresh)) := by
  rw [entry, total_insert, part_getD worthless]

theorem part_modify {change : ν → ν} (same : ∀ value, f (change value) = f value) :
    (map.modify key change).part f other = map.part f other := by
  rw [part, part, get?_modify]
  split
  · cases map.get? other with
    | none => rfl
    | some value => exact same value
  · rfl

theorem total_modify {change : ν → ν} (same : ∀ value, f (change value) = f value) :
    (map.modify key change).total f = map.total f := by
  have rest : ∀ other, other ≠ key → map.get? other = (map.modify key change).get? other := by
    intro other differ
    rw [get?_modify, if_neg differ]
  rw [total_changed rest, part_modify same, sub_add_cancel]

theorem part_insert : (map.insert key value).part f other = if other = key then f value else map.part f other := by
  rw [part, get?_insert]
  split <;> rfl

theorem part_remove : (map.remove key).part f other = if other = key then 0 else map.part f other := by
  rw [part, get?_remove]
  split <;> rfl

@[simp] theorem total_empty : (∅ : BTreeMap κ ν).total f = 0 := by
  have none : (∅ : BTreeMap κ ν).total f = ∑ key ∈ (∅ : Finset κ), (∅ : BTreeMap κ ν).part f key :=
    total_eq_sum fun key present => absurd get?_empty present
  rw [none, Finset.sum_empty]

section Order

variable [PartialOrder A] [IsOrderedAddMonoid A] (nonneg : ∀ key value, map.get? key = some value → 0 ≤ f value)

include nonneg

omit [DecidableEq κ] in
theorem total_nonneg : 0 ≤ map.total f := by
  refine List.sum_nonneg fun amount member => ?_
  obtain ⟨entry, inside, rfl⟩ := List.mem_map.mp member
  exact nonneg entry.1 entry.2 (mem_toList.mp inside)

theorem le_total (found : map.get? key = some value) : f value ≤ map.total f := by
  have rest : 0 ≤ (map.remove key).total f := total_nonneg fun other held kept => by
    rw [get?_remove] at kept
    split at kept
    · cases kept
    · exact nonneg other held kept
  rw [total_remove, part_of_some found] at rest
  exact sub_nonneg.mp rest

end Order

end Sums

end BTreeMap
