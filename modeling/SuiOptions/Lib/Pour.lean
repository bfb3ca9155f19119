import Mathlib.Algebra.GroupWithZero.Nat
import Mathlib.Algebra.Order.Group.Nat
import Mathlib.Algebra.Order.BigOperators.Group.List
import Mathlib.Data.List.GetD

/-! An amount poured over a list of capacities, the first ones first. -/

set_option autoImplicit false

namespace Pour

def pour : Nat → List Nat → List Nat
  | _, [] => []
  | available, capacity :: rest => min available capacity :: pour (available - min available capacity) rest

variable {available capacity : Nat} {capacities : List Nat}

theorem pour_sum : (pour available capacities).sum = min available capacities.sum := by
  induction capacities generalizing available with
  | nil => simp [pour]
  | cons capacity rest ih =>
    simp only [pour, List.sum_cons, ih]
    omega

theorem getD_le_sum (amounts : List Nat) (index : Nat) : amounts.getD index 0 ≤ amounts.sum := by
  by_cases inside : index < amounts.length
  · rw [List.getD_eq_getElem amounts 0 inside]
    exact List.le_sum_of_mem (List.getElem_mem inside)
  · rw [List.getD_eq_default amounts 0 (Nat.le_of_not_lt inside)]
    exact Nat.zero_le _

theorem pour_first {first second : Nat} (ahead : first < second)
    (some : 0 < (pour available capacities).getD second 0) :
    (pour available capacities).getD first 0 = capacities.getD first 0 := by
  induction capacities generalizing available first second with
  | nil => rfl
  | cons capacity rest ih =>
    cases second with
    | zero => cases ahead
    | succ second =>
      rw [pour, List.getD_cons_succ] at some
      cases first with
      | zero =>
        -- nothing would be left for the later one
        have taken := getD_le_sum (pour (available - min available capacity) rest) second
        rw [pour_sum] at taken
        change min available capacity = capacity
        omega
      | succ first => exact ih (Nat.lt_of_succ_lt_succ ahead) some

end Pour
