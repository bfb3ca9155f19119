import Mathlib

/-! Additions of machine words, as natural numbers below a power of two. -/

set_option autoImplicit false

namespace Words

def Word (width n : Nat) : Prop := n < 2 ^ width

def MaybeWord (width : Nat) (o : Option Nat) : Prop := ∀ n ∈ o, Word width n

instance (width n : Nat) : Decidable (Word width n) := inferInstanceAs (Decidable (n < 2 ^ width))

instance (width : Nat) (o : Option Nat) : Decidable (MaybeWord width o) :=
  inferInstanceAs (Decidable (∀ n ∈ o, Word width n))

@[simp] theorem Word.zero (width : Nat) : Word width 0 := Nat.two_pow_pos width

@[simp] theorem maybeWord_none (width : Nat) : MaybeWord width none := by simp [MaybeWord]

@[simp] theorem maybeWord_some {width n : Nat} : MaybeWord width (some n) ↔ Word width n := by simp [MaybeWord]

theorem Word.le {width n less : Nat} (word : Word width n) (atMost : less ≤ n) : Word width less :=
  Nat.lt_of_le_of_lt atMost word

theorem Word.sub {width n : Nat} (word : Word width n) (less : Nat) : Word width (n - less) :=
  word.le (Nat.sub_le n less)

theorem Word.max {width a b : Nat} (first : Word width a) (second : Word width b) : Word width (max a b) :=
  Nat.max_lt.mpr ⟨first, second⟩

def saturatingAdd (width a b : Nat) : Nat := min (a + b) (2 ^ width - 1)

def saturatingMul (width a b : Nat) : Nat := min (a * b) (2 ^ width - 1)

theorem saturatingAdd_word (width a b : Nat) : Word width (saturatingAdd width a b) :=
  Nat.lt_of_le_of_lt (Nat.min_le_right _ _) (Nat.sub_lt (Nat.two_pow_pos width) Nat.one_pos)

theorem saturatingMul_word (width a b : Nat) : Word width (saturatingMul width a b) :=
  Nat.lt_of_le_of_lt (Nat.min_le_right _ _) (Nat.sub_lt (Nat.two_pow_pos width) Nat.one_pos)

def wrappingAdd (width a b : Nat) : Nat := (a + b) % 2 ^ width

theorem foldl_saturatingAdd (width : Nat) (amounts : List Nat) (start : Nat) :
    amounts.foldl (saturatingAdd width) (min start (2 ^ width - 1)) = min (start + amounts.sum) (2 ^ width - 1) := by
  induction amounts generalizing start with
  | nil => rw [List.foldl_nil, List.sum_nil, Nat.add_zero]
  | cons amount rest ih =>
    -- saturating once is saturating at the end: the sum only grows
    have here : saturatingAdd width (min start (2 ^ width - 1)) amount = min (start + amount) (2 ^ width - 1) := by
      unfold saturatingAdd
      omega
    rw [List.foldl_cons, here, ih, List.sum_cons, Nat.add_assoc]

theorem wrappingAdd_of_small {width a b : Nat} (small : a + b < 2 ^ width) : wrappingAdd width a b = a + b :=
  Nat.mod_eq_of_lt small

theorem foldl_wrappingAdd {width : Nat} {amounts : List Nat} {start : Nat} (small : start + amounts.sum < 2 ^ width) :
    amounts.foldl (wrappingAdd width) start = start + amounts.sum := by
  induction amounts generalizing start with
  | nil => rfl
  | cons amount rest ih =>
    rw [List.sum_cons, ← Nat.add_assoc] at small ⊢
    rw [List.foldl_cons, wrappingAdd_of_small (Nat.lt_of_le_of_lt (Nat.le_add_right _ _) small), ih small]

end Words
