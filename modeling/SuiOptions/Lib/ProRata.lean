import Mathlib.Algebra.BigOperators.Group.List.Basic
import Mathlib.Algebra.Order.Ring.Nat
import Mathlib.Tactic.Ring
import Mathlib.Tactic.Common

/-! Pro-rata shares of a pool, rounded down.

A rate is a pair of naturals, worth over supply; rates are compared by cross
multiplication. An exit burns shares, pays some of their worth and may keep the
rest as new shares at the same rate.
-/

set_option autoImplicit false

namespace ProRata

def portion (worth supply shares : Nat) : Nat := worth * shares / supply

@[simp] theorem portion_zero (worth supply : Nat) : portion worth supply 0 = 0 := by simp [portion]

theorem portion_le (worth : Nat) {supply shares : Nat} (within : shares ≤ supply) : portion worth supply shares ≤ worth :=
  Nat.div_le_of_le_mul (by rw [Nat.mul_comm supply]; exact Nat.mul_le_mul_left _ within)

theorem portion_mono (worth supply : Nat) {less more : Nat} (below : less ≤ more) :
    portion worth supply less ≤ portion worth supply more :=
  Nat.div_le_div_right (Nat.mul_le_mul_left _ below)

theorem portion_add_le (worth supply first second : Nat) :
    portion worth supply first + portion worth supply second ≤ portion worth supply (first + second) := by
  unfold portion
  rw [Nat.mul_add]
  exact Nat.div_add_div_le_add_div

theorem sum_portion_le (worth supply : Nat) (parts : List Nat) :
    (parts.map (portion worth supply)).sum ≤ portion worth supply parts.sum := by
  induction parts with
  | nil => exact Nat.zero_le _
  | cons part rest ih =>
    rw [List.map_cons, List.sum_cons, List.sum_cons]
    exact (Nat.add_le_add_left ih _).trans (portion_add_le _ _ _ _)

theorem le_portion_add (worth supply first second : Nat) :
    portion worth supply (first + second) ≤ portion worth supply first + portion worth supply second + 1 := by
  unfold portion
  rcases Nat.eq_zero_or_pos supply with none | some
  · simp [none]
  · rw [Nat.mul_add, Nat.add_div some]
    split <;> omega

/-- The second of two parts is taken of what the first one left: the two fall short of the
common part by the parts of what the first one took, and by the remainders. -/
theorem portion_after {worth supply first : Nat} (within : first ≤ supply) (second : Nat) :
    portion worth supply (first + second) =
      portion worth supply first + portion (worth - portion worth supply first) supply second +
        (portion worth supply first * second + worth * first % supply +
          (worth - portion worth supply first) * second % supply) / supply := by
  have less := portion_le worth within
  rcases Nat.eq_zero_or_pos supply with none | some
  · simp [portion, none]
  · have early : supply * portion worth supply first + worth * first % supply = worth * first := Nat.div_add_mod _ _
    have late : supply * portion (worth - portion worth supply first) supply second +
        (worth - portion worth supply first) * second % supply = (worth - portion worth supply first) * second :=
      Nat.div_add_mod _ _
    have parted : (worth - portion worth supply first) * second + portion worth supply first * second =
        worth * second := by
      rw [← Nat.add_mul, Nat.sub_add_cancel less]
    have total : worth * (first + second) = portion worth supply first * second + worth * first % supply +
        (worth - portion worth supply first) * second % supply +
          supply * (portion worth supply first + portion (worth - portion worth supply first) supply second) := by
      rw [Nat.mul_add, Nat.mul_add supply]
      omega
    conv_lhs => rw [portion, total, Nat.add_mul_div_left _ _ some]
    exact Nat.add_comm _ _

/-- Parts that make up the supply take all of the worth exactly when none of them is rounded. -/
theorem sum_portion_eq_iff {worth supply : Nat} (some : 0 < supply) {parts : List Nat} (whole : parts.sum = supply) :
    (parts.map (portion worth supply)).sum = worth ↔ ∀ part ∈ parts, supply ∣ worth * part := by
  have split : ∀ list : List Nat, supply * (list.map (portion worth supply)).sum +
      (list.map (fun part => worth * part % supply)).sum = worth * list.sum := by
    intro list
    induction list with
    | nil => rfl
    | cons part rest ih =>
      have here : supply * portion worth supply part + worth * part % supply = worth * part := Nat.div_add_mod _ _
      simp only [List.map_cons, List.sum_cons, Nat.mul_add]
      omega
  have total := split parts
  rw [whole, Nat.mul_comm worth supply] at total
  constructor
  · intro all part member
    rw [all] at total
    have none : (parts.map (fun part => worth * part % supply)).sum = 0 := by omega
    have zero := (List.sum_eq_zero_iff_forall_eq_nat.mp none) _ (List.mem_map_of_mem member)
    exact Nat.dvd_of_mod_eq_zero zero
  · intro exact'
    have none : (parts.map (fun part => worth * part % supply)).sum = 0 := by
      apply List.sum_eq_zero_iff_forall_eq_nat.mpr
      intro rest member
      obtain ⟨part, listed, rfl⟩ := List.mem_map.mp member
      exact Nat.mod_eq_zero_of_dvd (exact' part listed)
    exact Nat.eq_of_mul_eq_mul_left some (by omega)

theorem sub_portion_eq_zero_iff {worth supply shares : Nat} (within : shares ≤ supply) (some : 0 < supply) :
    worth - portion worth supply shares = 0 ↔ worth = 0 ∨ shares = supply := by
  constructor
  · intro none
    rcases Nat.eq_zero_or_pos worth with zero | positive
    · exact Or.inl zero
    · right
      have all : worth * supply ≤ worth * shares :=
        calc worth * supply ≤ portion worth supply shares * supply := Nat.mul_le_mul_right _ (by omega)
          _ ≤ worth * shares := Nat.div_mul_le_self _ _
      have enough := Nat.le_of_mul_le_mul_left all positive
      omega
  · rintro (rfl | rfl)
    · exact Nat.zero_sub _
    · rw [portion, Nat.mul_div_cancel _ some, Nat.sub_self]

def NoBetter (worth supply worth' supply' : Nat) : Prop := worth * supply' ≤ worth' * supply

theorem NoBetter.refl (worth supply : Nat) : NoBetter worth supply worth supply := Nat.le_refl _

theorem NoBetter.trans {worth supply worth' supply' worth'' supply'' : Nat} (positive : 0 < supply')
    (early : NoBetter worth supply worth' supply') (late : NoBetter worth' supply' worth'' supply'') :
    NoBetter worth supply worth'' supply'' := by
  unfold NoBetter at *
  apply Nat.le_of_mul_le_mul_right _ positive
  calc worth * supply'' * supply' = worth * supply' * supply'' := by ring
    _ ≤ worth' * supply * supply'' := Nat.mul_le_mul_right _ early
    _ = worth' * supply'' * supply := by ring
    _ ≤ worth'' * supply' * supply := Nat.mul_le_mul_right _ late
    _ = worth'' * supply * supply' := by ring

/-- What an exit at a rate takes: `burned` shares go, `minted` come back, and `paid` leaves the pool. -/
def Exit (worth supply burned minted paid : Nat) : Prop := paid * supply + minted * worth ≤ burned * worth

theorem Exit.of_parts {worth supply burned minted value kept : Nat} (valued : value * supply ≤ burned * worth)
    (priced : minted * worth ≤ kept * supply) (within : kept ≤ value) :
    Exit worth supply burned minted (value - kept) := by
  have parts : (value - kept) * supply + kept * supply = value * supply := by
    rw [← Nat.add_mul, Nat.sub_add_cancel within]
  unfold Exit
  omega

theorem Exit.minted_le {worth supply burned minted paid : Nat} (positive : 0 < worth)
    (exits : Exit worth supply burned minted paid) : minted ≤ burned :=
  Nat.le_of_mul_le_mul_right (Nat.le_trans (Nat.le_add_left _ _) exits) positive

theorem Exit.better {worth supply worth' supply' burned minted paid : Nat} (positive : 0 < worth)
    (supplied : 0 < supply) (exits : Exit worth supply burned minted paid) (better : NoBetter worth supply worth' supply') :
    Exit worth' supply' burned minted paid := by
  have fewer := exits.minted_le positive
  obtain ⟨gone, rfl⟩ := Nat.exists_eq_add_of_le fewer
  have net : paid * supply ≤ gone * worth := by
    unfold Exit at exits
    rw [Nat.add_mul] at exits
    omega
  have raised : paid * supply' ≤ gone * worth' := by
    apply Nat.le_of_mul_le_mul_right _ supplied
    calc paid * supply' * supply = paid * supply * supply' := by ring
      _ ≤ gone * worth * supply' := Nat.mul_le_mul_right _ net
      _ = gone * (worth * supply') := by ring
      _ ≤ gone * (worth' * supply) := Nat.mul_le_mul_left _ better
      _ = gone * worth' * supply := by ring
  unfold Exit
  rw [Nat.add_mul]
  omega

theorem Exit.portion_le {worth supply burned minted paid before after : Nat} (supplied : 0 < supply)
    (fewer : minted ≤ burned) (moved : after + burned = before + minted) (exits : Exit worth supply burned minted paid) :
    paid + portion worth supply after ≤ portion worth supply before := by
  obtain ⟨gone, rfl⟩ := Nat.exists_eq_add_of_le fewer
  have net : paid ≤ portion worth supply gone := by
    unfold portion
    rw [Nat.le_div_iff_mul_le supplied, Nat.mul_comm worth]
    unfold Exit at exits
    rw [Nat.add_mul] at exits
    omega
  calc paid + portion worth supply after
      ≤ portion worth supply gone + portion worth supply after := Nat.add_le_add_right net _
    _ ≤ portion worth supply (gone + after) := portion_add_le _ _ _ _
    _ = portion worth supply before := by congr 1; omega

/-- An exit at the rate of the pool, which is left with the rest, does not lower the rate. -/
theorem Exit.rate {worth supply burned minted paid worth' supply' : Nat} (exits : Exit worth supply burned minted paid)
    (moved : supply' + burned = supply + minted) (left : worth ≤ worth' + paid) : NoBetter worth supply worth' supply' := by
  unfold NoBetter Exit at *
  have scaled : supply' * worth + burned * worth = supply * worth + minted * worth := by
    rw [← Nat.add_mul, ← Nat.add_mul, moved]
  have rest : worth * supply ≤ worth' * supply + paid * supply := by
    rw [← Nat.add_mul]
    exact Nat.mul_le_mul_right _ left
  rw [Nat.mul_comm worth supply']
  rw [Nat.mul_comm worth supply] at rest
  omega

/-- An entry that takes no more shares than its worth does not lower the rate. -/
theorem entry_rate {worth supply value minted worth' : Nat} (priced : minted * worth ≤ value * supply)
    (added : worth + value ≤ worth') : NoBetter worth supply worth' (supply + minted) := by
  unfold NoBetter
  calc worth * (supply + minted) = worth * supply + minted * worth := by ring
    _ ≤ worth * supply + value * supply := Nat.add_le_add_left priced _
    _ = (worth + value) * supply := by ring
    _ ≤ worth' * supply := Nat.mul_le_mul_right _ added

/-- What is bought for a value and sold at the rate of the purchase returns the value at most. -/
theorem resale_le {worth supply value minted returned : Nat} (supplied : 0 < supply)
    (bought : minted * worth ≤ value * supply) (sold : returned * supply ≤ minted * worth) : returned ≤ value :=
  Nat.le_of_mul_le_mul_right (Nat.le_trans sold bought) supplied

theorem resale_after_le {worth supply value minted grown returned : Nat} (supplied : 0 < supply)
    (bought : minted * worth ≤ value * supply) (grew : value ≤ grown)
    (sold : returned * (supply + minted) ≤ minted * (worth + grown)) : returned ≤ grown := by
  apply Nat.le_of_mul_le_mul_right (c := supply + minted) _ (Nat.lt_of_lt_of_le supplied (Nat.le_add_right _ _))
  have more : value * supply ≤ grown * supply := Nat.mul_le_mul_right _ grew
  calc returned * (supply + minted) ≤ minted * (worth + grown) := sold
    _ = minted * worth + grown * minted := by ring
    _ ≤ grown * supply + grown * minted := Nat.add_le_add_right (Nat.le_trans bought more) _
    _ = grown * (supply + minted) := by ring

end ProRata
