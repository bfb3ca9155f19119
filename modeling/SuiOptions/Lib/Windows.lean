import Mathlib

/-! Amounts over sliding windows of time.

A log of entries in the order of their times is bounded when every window of a
given length holds at most a given total. Such a bound is kept entry by entry: it
is enough to look back from each entry.
-/

set_option autoImplicit false

namespace Windows

structure Entry where
  time : Nat
  amount : Nat
  deriving DecidableEq, Repr

def amountOf (log : List Entry) (test : Entry → Bool) : Nat := ((log.filter test).map Entry.amount).sum

section Amounts

variable {log : List Entry} {test other : Entry → Bool}

@[simp] theorem amountOf_nil : amountOf [] test = 0 := rfl

theorem amountOf_cons (e : Entry) : amountOf (e :: log) test = (if test e then e.amount else 0) + amountOf log test := by
  unfold amountOf
  rw [List.filter_cons]
  split <;> simp

theorem amountOf_append (late : List Entry) : amountOf (log ++ late) test = amountOf log test + amountOf late test := by
  simp [amountOf]

theorem amountOf_snoc (e : Entry) : amountOf (log ++ [e]) test = amountOf log test + (if test e then e.amount else 0) := by
  rw [amountOf_append, amountOf_cons, amountOf_nil, Nat.add_zero]

theorem amountOf_mono (wider : ∀ e ∈ log, test e → other e) : amountOf log test ≤ amountOf log other := by
  induction log with
  | nil => exact Nat.le_refl _
  | cons e rest ih =>
    have tail := ih fun later member => wider later (List.mem_cons_of_mem e member)
    have head := wider e List.mem_cons_self
    rw [amountOf_cons, amountOf_cons]
    split_ifs with here there
    · omega
    · exact absurd (head here) there
    · omega
    · omega

theorem amountOf_congr (same : ∀ e ∈ log, test e = other e) : amountOf log test = amountOf log other :=
  Nat.le_antisymm (amountOf_mono fun e member passed => same e member ▸ passed)
    (amountOf_mono fun e member passed => (same e member).symm ▸ passed)

theorem amountOf_eq_zero (none : ∀ e ∈ log, test e = false) : amountOf log test = 0 := by
  have nothing : amountOf log test = amountOf log fun _ => false := amountOf_congr none
  rw [nothing]
  simp [amountOf]

end Amounts

/-- The amounts in the window that begins at `start`. -/
def during (log : List Entry) (start length : Nat) : Nat :=
  amountOf log fun e => start ≤ e.time && e.time < start + length

/-- The amounts a window that ends with `now` looks back to. -/
def recent (log : List Entry) (now length : Nat) : Nat := amountOf log fun e => now < e.time + length

def Bounded (length limit : Nat) (log : List Entry) : Prop := ∀ start, during log start length ≤ limit

theorem Bounded.nil (length limit : Nat) : Bounded length limit [] := fun _ => Nat.zero_le _

theorem Bounded.earlier {length limit : Nat} {log late : List Entry} (bounded : Bounded length limit (log ++ late)) :
    Bounded length limit log := by
  intro start
  have whole := bounded start
  rw [during, amountOf_append] at whole
  exact Nat.le_of_add_right_le whole

/-- An entry keeps the bound exactly when it fits beside what its window looks back to. -/
theorem bounded_snoc {length limit now amount : Nat} {log : List Entry} (positive : 0 < length)
    (past : ∀ e ∈ log, e.time ≤ now) :
    Bounded length limit (log ++ [⟨now, amount⟩]) ↔ Bounded length limit log ∧ recent log now length + amount ≤ limit := by
  constructor
  · intro bounded
    refine ⟨bounded.earlier, ?_⟩
    have window := bounded (now + 1 - length)
    have looks : recent log now length ≤ during log (now + 1 - length) length := by
      apply amountOf_mono
      intro e member within
      have before := past e member
      simp only [decide_eq_true_eq, Bool.and_eq_true] at within ⊢
      omega
    rw [during, amountOf_snoc, if_pos (by simp only [decide_eq_true_eq, Bool.and_eq_true]; omega)] at window
    rw [during] at looks
    simp only at window
    omega
  · rintro ⟨bounded, fits⟩ start
    rw [during, amountOf_snoc]
    split
    · next inside =>
      simp only [decide_eq_true_eq, Bool.and_eq_true] at inside
      have back : during log start length ≤ recent log now length := by
        apply amountOf_mono
        intro e _ within
        simp only [decide_eq_true_eq, Bool.and_eq_true] at within ⊢
        omega
      rw [during] at back
      simp only
      omega
    · exact bounded start

end Windows
