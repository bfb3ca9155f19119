import Mathlib

/-! Unambiguous texts: numerals of a fixed width, and words that end where a
symbol outside their alphabet stands. -/

set_option autoImplicit false

namespace Text

variable {α : Type}

def numeral (base : Nat) (digit : Nat → α) : Nat → Nat → List α
  | 0, _ => []
  | width + 1, value => numeral base digit width (value / base) ++ [digit (value % base)]

@[simp] theorem numeral_length (base : Nat) (digit : Nat → α) (width value : Nat) :
    (numeral base digit width value).length = width := by
  induction width generalizing value with
  | zero => rfl
  | succ width ih => simp [numeral, ih]

theorem mem_numeral {base width value : Nat} {digit : Nat → α} {symbol : α} (positive : 0 < base)
    (member : symbol ∈ numeral base digit width value) : ∃ d < base, symbol = digit d := by
  induction width generalizing value with
  | zero => cases member
  | succ width ih =>
    rcases List.mem_append.mp member with high | low
    · exact ih high
    · exact ⟨value % base, Nat.mod_lt value positive, List.mem_singleton.mp low⟩

theorem numeral_inj {base width first second : Nat} {digit : Nat → α}
    (distinct : ∀ a < base, ∀ b < base, digit a = digit b → a = b) (left : first < base ^ width)
    (right : second < base ^ width) (same : numeral base digit width first = numeral base digit width second) :
    first = second := by
  induction width generalizing first second with
  | zero =>
    rw [Nat.pow_zero] at left right
    omega
  | succ width ih =>
    have positive : 0 < base := by
      rcases Nat.eq_zero_or_pos base with rfl | positive
      · simp at left
      · exact positive
    obtain ⟨high, low⟩ := List.append_inj same (by simp)
    have fits : ∀ {value : Nat}, value < base ^ (width + 1) → value / base < base ^ width := by
      intro value bounded
      rw [Nat.pow_succ] at bounded
      exact Nat.div_lt_of_lt_mul (Nat.mul_comm _ _ ▸ bounded)
    have quotients := ih (fits left) (fits right) high
    have remainders := distinct _ (Nat.mod_lt first positive) _ (Nat.mod_lt second positive) (List.cons.inj low).1
    rw [← Nat.div_add_mod first base, ← Nat.div_add_mod second base, quotients, remainders]

def value (base : Nat) (digits : List Nat) : Nat := digits.foldl (fun sum digit => sum * base + digit) 0

theorem value_snoc (base : Nat) (digits : List Nat) (digit : Nat) :
    value base (digits ++ [digit]) = value base digits * base + digit := by
  simp [value, List.foldl_append]

theorem value_numeral {base width number : Nat} (fits : number < base ^ width) :
    value base (numeral base id width number) = number := by
  induction width generalizing number with
  | zero =>
    rw [Nat.pow_zero] at fits
    obtain rfl : number = 0 := by omega
    rfl
  | succ width ih =>
    have high : number / base < base ^ width := by
      rw [Nat.pow_succ] at fits
      exact Nat.div_lt_of_lt_mul (Nat.mul_comm _ _ ▸ fits)
    rw [numeral, value_snoc, ih high]
    exact Nat.div_add_mod' number base

theorem value_lt {base : Nat} {digits : List Nat} (small : ∀ digit ∈ digits, digit < base) :
    value base digits < base ^ digits.length := by
  induction digits using List.reverseRecOn with
  | nil => simp [value]
  | append_singleton digits digit ih =>
    have low : digit < base := small digit (by simp)
    have high := ih fun other member => small other (List.mem_append_left _ member)
    rw [value_snoc, List.length_append, List.length_singleton, Nat.pow_succ]
    calc value base digits * base + digit < value base digits * base + base := by omega
      _ = (value base digits + 1) * base := by ring
      _ ≤ base ^ digits.length * base := Nat.mul_le_mul_right _ high

theorem numeral_value {base : Nat} {digits : List Nat} (small : ∀ digit ∈ digits, digit < base) :
    numeral base id digits.length (value base digits) = digits := by
  induction digits using List.reverseRecOn with
  | nil => rfl
  | append_singleton digits digit ih =>
    have low : digit < base := small digit (by simp)
    have positive : 0 < base := by omega
    have high : (value base digits * base + digit) / base = value base digits := by
      rw [Nat.mul_comm, Nat.mul_add_div positive, Nat.div_eq_of_lt low, Nat.add_zero]
    have rest : (value base digits * base + digit) % base = digit := by
      rw [Nat.mul_comm, Nat.mul_add_mod, Nat.mod_eq_of_lt low]
    rw [List.length_append, List.length_singleton, numeral, value_snoc, high, rest,
      ih fun other member => small other (List.mem_append_left _ member)]
    rfl

theorem numeral_drop (base : Nat) (digit : Nat → α) (skip width number : Nat) :
    (numeral base digit (skip + width) number).drop skip = numeral base digit width number := by
  induction width generalizing number with
  | zero => rw [numeral, Nat.add_zero, List.drop_eq_nil_of_le (numeral_length ..).le]
  | succ width ih =>
    have long : skip ≤ (numeral base digit (skip + width) (number / base)).length := by
      rw [numeral_length]
      omega
    rw [← Nat.add_assoc, numeral, numeral, List.drop_append_of_le_length long, ih]

def Ends (alphabet : α → Prop) (text : List α) : Prop := ∀ symbol, text.head? = some symbol → ¬ alphabet symbol

theorem Ends.nil (alphabet : α → Prop) : Ends alphabet [] := nofun

theorem Ends.cons {alphabet : α → Prop} {symbol : α} (outside : ¬ alphabet symbol) (text : List α) :
    Ends alphabet (symbol :: text) := by
  rintro _ ⟨⟩
  exact outside

theorem word_cancel {alphabet : α → Prop} {first second rest other : List α} (left : ∀ s ∈ first, alphabet s)
    (right : ∀ s ∈ second, alphabet s) (ends : Ends alphabet rest) (otherEnds : Ends alphabet other)
    (same : first ++ rest = second ++ other) : first = second ∧ rest = other := by
  induction first generalizing second with
  | nil =>
    cases second with
    | nil => exact ⟨rfl, same⟩
    | cons symbol second =>
      rw [List.nil_append] at same
      exact absurd (right symbol List.mem_cons_self) (ends symbol (by rw [same]; rfl))
  | cons symbol first ih =>
    cases second with
    | nil =>
      rw [List.nil_append] at same
      exact absurd (left symbol List.mem_cons_self) (otherEnds symbol (by rw [← same]; rfl))
    | cons head second =>
      obtain ⟨rfl, tails⟩ := List.cons.inj same
      obtain ⟨rfl, rests⟩ := ih (fun s member => left s (List.mem_cons_of_mem _ member))
        (fun s member => right s (List.mem_cons_of_mem _ member)) tails
      exact ⟨rfl, rests⟩

theorem spelling_cancel {β : Type} {alphabet : α → Prop} {spell : α → β}
    (distinct : ∀ s, alphabet s → ∀ t, alphabet t → spell s = spell t → s = t) {first second : List α}
    (left : ∀ s ∈ first, alphabet s) (right : ∀ s ∈ second, alphabet s)
    (same : first.map spell = second.map spell) : first = second := by
  induction first generalizing second with
  | nil => exact (List.map_eq_nil_iff.mp same.symm).symm
  | cons symbol first ih =>
    cases second with
    | nil => cases same
    | cons other second =>
      obtain ⟨heads, tails⟩ := List.cons.inj same
      rw [distinct symbol (left symbol List.mem_cons_self) other (right other List.mem_cons_self) heads,
        ih (fun s member => left s (List.mem_cons_of_mem _ member))
          (fun s member => right s (List.mem_cons_of_mem _ member)) tails]

section Pairs

variable [DecidableEq α] (a b : α)

/-- Every `a` with a `b` behind it left out, from the left. -/
def removePair : List α → List α
  | [] => []
  | [c] => [c]
  | c :: d :: rest => if c = a ∧ d = b then removePair rest else c :: removePair (d :: rest)

variable {a b}

theorem removePair_append (first : List α) {second : List α} (apart : second.head? ≠ some b) :
    removePair a b (first ++ second) = removePair a b first ++ removePair a b second := by
  fun_induction removePair a b first with
  | case1 => rfl
  | case2 c =>
    cases second with
    | nil => rfl
    | cons d rest =>
      have other : ¬ (c = a ∧ d = b) := by
        rintro ⟨-, rfl⟩
        exact apart rfl
      simp [removePair, other]
  | case3 c d rest pair ih => simpa [removePair, pair] using ih
  | case4 c d rest other ih => simpa [removePair, other] using ih

theorem removePair_sublist (text : List α) : (removePair a b text).Sublist text := by
  fun_induction removePair a b text with
  | case1 => exact .slnil
  | case2 c => exact .refl _
  | case3 c d rest pair ih => exact (ih.cons _).cons _
  | case4 c d rest other ih => exact ih.cons_cons _

theorem removePair_eq_self_iff {text : List α} : removePair a b text = text ↔ ¬ [a, b] <:+: text := by
  fun_induction removePair a b text with
  | case1 => simp
  | case2 c =>
    simp only [true_iff]
    intro inside
    have length := inside.length_le
    simp at length
  | case3 c d rest pair ih =>
    obtain ⟨rfl, rfl⟩ := pair
    constructor
    · intro same
      have shorter := (removePair_sublist (a := c) (b := d) rest).length_le
      have lengths := congrArg List.length same
      simp only [List.length_cons] at lengths
      omega
    · intro none
      exact absurd ⟨[], rest, rfl⟩ none
  | case4 c d rest other ih =>
    rw [List.cons.injEq, and_iff_right rfl, ih, List.infix_cons_iff (a := c), not_or]
    have first : ¬ [a, b] <+: c :: d :: rest := by
      rintro ⟨tail, same⟩
      simp only [List.cons_append, List.cons.injEq, List.nil_append] at same
      exact other ⟨same.1.symm, same.2.1.symm⟩
    rw [and_iff_right first]

end Pairs
end Text
