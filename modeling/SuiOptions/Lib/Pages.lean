import Mathlib

/-! A list read in pages from its head.

A walk reads page after page until one whose first item stops it, or until the list
ends. Where everything behind a stopping item stops as well, it reads a prefix whose
length is known from the number of items before the first that stops.
-/

set_option autoImplicit false

namespace Pages

variable {α : Type} (size : Nat) (stop : α → Bool)

/-- The items on the pages that a walk reads; every page but the last has `size` of them. -/
def walked : Nat → List α → List α
  | 0, _ => []
  | _ + 1, [] => []
  | rounds + 1, head :: tail =>
    (head :: tail).take size ++
      if (head :: tail).length ≤ size ∨ stop head = true then [] else walked rounds ((head :: tail).drop size)

def lastHead (items : List α) : Option α := items[(items.length - 1) / size * size]?

def ahead (items : List α) : Nat := items.countP fun item => !stop item

/-- The items that a walk reads: all pages with an item ahead, and one page more. -/
def reach (items : List α) : Nat := (ahead stop items + size - 1) / size * size + size

def Monotone (items : List α) : Prop := items.Pairwise fun first second => stop first = true → stop second = true

variable {size stop}

theorem Monotone.drop {items : List α} (monotone : Monotone stop items) (count : Nat) : Monotone stop (items.drop count) :=
  monotone.sublist (List.drop_sublist _ _)

theorem ahead_of_stop {head : α} {tail : List α} (monotone : Monotone stop (head :: tail)) (stops : stop head = true) :
    ahead stop (head :: tail) = 0 := by
  obtain ⟨later, -⟩ := List.pairwise_cons.mp monotone
  unfold ahead
  rw [List.countP_eq_zero]
  intro item member
  rcases List.mem_cons.mp member with rfl | inside
  · simp [stops]
  · simp [later item inside stops]

theorem ahead_drop {items : List α} (monotone : Monotone stop items) (count : Nat) :
    ahead stop (items.drop count) = ahead stop items - count := by
  induction count generalizing items with
  | zero => simp
  | succ count ih =>
    cases items with
    | nil => simp [ahead]
    | cons head tail =>
      obtain ⟨later, rest⟩ := List.pairwise_cons.mp monotone
      rw [List.drop_succ_cons, ih rest]
      by_cases stops : stop head = true
      · have none := ahead_of_stop monotone stops
        have tailNone : ahead stop tail = 0 := by
          unfold ahead
          rw [List.countP_eq_zero]
          intro item inside
          simp [later item inside stops]
        omega
      · have one : ahead stop (head :: tail) = ahead stop tail + 1 := by
          unfold ahead
          rw [List.countP_cons_of_pos (by simpa using stops)]
        omega

theorem ahead_pos {head : α} {tail : List α} (goes : ¬ stop head = true) : 0 < ahead stop (head :: tail) := by
  unfold ahead
  rw [List.countP_cons_of_pos (by simpa using goes)]
  exact Nat.succ_pos _

theorem take_ahead {items : List α} (monotone : Monotone stop items) :
    items.take (ahead stop items) = items.filter fun item => !stop item := by
  induction items with
  | nil => rfl
  | cons head tail ih =>
    by_cases stops : stop head = true
    · have none := ahead_of_stop monotone stops
      rw [none, List.take_zero, eq_comm, List.filter_eq_nil_iff]
      exact List.countP_eq_zero.mp none
    · have one : ahead stop (head :: tail) = ahead stop tail + 1 := by
        unfold ahead
        rw [List.countP_cons_of_pos (by simpa using stops)]
      rw [one, List.take_succ_cons, ih (List.pairwise_cons.mp monotone).2, List.filter_cons_of_pos (by simpa using stops)]

theorem stop_of_mem_drop {items : List α} (monotone : Monotone stop items) {item : α}
    (behind : item ∈ items.drop (ahead stop items)) : stop item = true := by
  have none := ahead_drop monotone (ahead stop items)
  rw [Nat.sub_self] at none
  have stops := List.countP_eq_zero.mp none item behind
  simpa using stops

theorem ahead_lt_reach (positive : 0 < size) (items : List α) : ahead stop items < reach size stop items := by
  have split := Nat.div_add_mod' (ahead stop items + size - 1) size
  have small := Nat.mod_lt (ahead stop items + size - 1) positive
  unfold reach
  omega

theorem walked_eq_take (positive : 0 < size) {rounds : Nat} {items : List α} (enough : items.length < rounds)
    (monotone : Monotone stop items) : walked size stop rounds items = items.take (reach size stop items) := by
  induction rounds generalizing items with
  | zero => omega
  | succ rounds ih =>
    cases items with
    | nil => simp [walked]
    | cons head tail =>
      unfold walked
      split
      · rename_i last
        rw [List.append_nil]
        rcases last with short | stops
        · have far : size ≤ reach size stop (head :: tail) := Nat.le_add_left _ _
          rw [List.take_of_length_le short, List.take_of_length_le (short.trans far)]
        · unfold reach
          rw [ahead_of_stop monotone stops, Nat.zero_add, Nat.div_eq_of_lt (by omega), Nat.zero_mul, Nat.zero_add]
      · rename_i more
        obtain ⟨long, goes⟩ := not_or.mp more
        have shorter : ((head :: tail).drop size).length < rounds := by
          rw [List.length_drop]
          omega
        have some : 0 < ahead stop (head :: tail) := ahead_pos goes
        -- a page fewer to read behind the first one
        have count : reach size stop (head :: tail) = size + reach size stop ((head :: tail).drop size) := by
          unfold reach
          rw [ahead_drop monotone]
          rcases Nat.lt_or_ge size (ahead stop (head :: tail)) with beyond | within
          · have next : ahead stop (head :: tail) + size - 1 = (ahead stop (head :: tail) - size + size - 1) + size := by omega
            rw [next, Nat.add_div_right _ positive, Nat.succ_mul]
            omega
          · have one : (ahead stop (head :: tail) + size - 1) / size = 1 :=
              Nat.div_eq_of_lt_le (by omega) (by omega)
            have zero : (ahead stop (head :: tail) - size + size - 1) / size = 0 := Nat.div_eq_of_lt (by omega)
            rw [one, zero]
            omega
        rw [ih shorter (monotone.drop size), count, List.take_add]

theorem lastHead_of_le {head : α} {tail : List α} (short : (head :: tail).length ≤ size) :
    lastHead size (head :: tail) = some head := by
  unfold lastHead
  have first : ((head :: tail).length - 1) / size = 0 := Nat.div_eq_of_lt (by rw [List.length_cons] at short ⊢; omega)
  rw [first, Nat.zero_mul]
  rfl

theorem lastHead_drop (positive : 0 < size) {items : List α} (long : size < items.length) :
    lastHead size (items.drop size) = lastHead size items := by
  unfold lastHead
  have pages : (items.length - 1) / size = (items.length - size - 1) / size + 1 := by
    have next : items.length - 1 = (items.length - size - 1) + size := by omega
    rw [next, Nat.add_div_right _ positive]
  rw [List.getElem?_drop, List.length_drop, pages, Nat.succ_mul, Nat.add_comm]

theorem lastHead_isSome (size : Nat) {items : List α} (nonempty : items ≠ []) :
    ∃ item, lastHead size items = some item := by
  have length := List.length_pos_iff.mpr nonempty
  have inside : (items.length - 1) / size * size < items.length := by
    have bound := Nat.div_mul_le_self (items.length - 1) size
    omega
  exact ⟨_, List.getElem?_eq_getElem inside⟩

end Pages
