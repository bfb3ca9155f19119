import Mathlib

/-! Sums over lists under replacement and deletion of one element, and sums over
lists of keys that cover the support of a function. -/

set_option autoImplicit false

namespace Sums

theorem sum_map_set {α : Type} (f : α → Nat) {items : List α} {index : Nat} {old : α} (new : α)
    (found : items[index]? = some old) : ((items.set index new).map f).sum + f old = (items.map f).sum + f new := by
  induction items generalizing index with
  | nil => simp at found
  | cons head tail ih =>
    cases index with
    | zero =>
      simp only [List.getElem?_cons_zero, Option.some.injEq] at found
      subst found
      simp only [List.set_cons_zero, List.map_cons, List.sum_cons]
      omega
    | succ index =>
      have later := ih (by simpa using found)
      simp only [List.set_cons_succ, List.map_cons, List.sum_cons]
      omega

theorem sum_map_eraseIdx {α : Type} (f : α → Nat) {items : List α} {index : Nat} {old : α}
    (found : items[index]? = some old) : ((items.eraseIdx index).map f).sum + f old = (items.map f).sum := by
  induction items generalizing index with
  | nil => simp at found
  | cons head tail ih =>
    cases index with
    | zero =>
      simp only [List.getElem?_cons_zero, Option.some.injEq] at found
      subst found
      simp only [List.eraseIdx_cons_zero, List.map_cons, List.sum_cons]
      omega
    | succ index =>
      have later := ih (by simpa using found)
      simp only [List.eraseIdx_cons_succ, List.map_cons, List.sum_cons]
      omega

theorem sum_map_changed {α : Type} {f g : α → Nat} {items : List α} {item : α} (once : items.Nodup)
    (member : item ∈ items) (same : ∀ other ∈ items, other ≠ item → g other = f other) :
    (items.map g).sum + f item = (items.map f).sum + g item := by
  induction items with
  | nil => cases member
  | cons head tail ih =>
    obtain ⟨fresh, once⟩ := List.nodup_cons.mp once
    simp only [List.map_cons, List.sum_cons]
    rcases List.mem_cons.mp member with rfl | later
    · have rest : tail.map g = tail.map f := List.map_congr_left fun other inside =>
        same other (List.mem_cons_of_mem _ inside) fun equal => fresh (equal ▸ inside)
      rw [rest]
      omega
    · have here := same head List.mem_cons_self fun equal => fresh (equal ▸ later)
      have below := ih once later fun other inside => same other (List.mem_cons_of_mem _ inside)
      omega

/-- Two lists of distinct keys that cover the same support give the same sum. -/
theorem sum_support {α : Type} [DecidableEq α] {f : α → Nat} {keys keys' : List α} (once : keys.Nodup)
    (once' : keys'.Nodup) (covered : ∀ x, f x ≠ 0 → (x ∈ keys ↔ x ∈ keys')) :
    (keys.map f).sum = (keys'.map f).sum := by
  rw [← List.sum_toFinset f once, ← List.sum_toFinset f once', ← Finset.sum_filter_ne_zero keys.toFinset,
    ← Finset.sum_filter_ne_zero keys'.toFinset]
  congr 1
  ext x
  simp only [Finset.mem_filter, List.mem_toFinset]
  constructor
  · rintro ⟨member, positive⟩
    exact ⟨(covered x positive).mp member, positive⟩
  · rintro ⟨member, positive⟩
    exact ⟨(covered x positive).mpr member, positive⟩

theorem sum_changed {α : Type} [DecidableEq α] {f g : α → Nat} {keys keys' : List α} {key : α} (once : keys.Nodup)
    (once' : keys'.Nodup) (covered : ∀ x, f x ≠ 0 → x ∈ keys) (covered' : ∀ x, g x ≠ 0 → x ∈ keys')
    (same : ∀ x, x ≠ key → g x = f x) : (keys'.map g).sum + f key = (keys.map f).sum + g key := by
  -- both sums are over one finite set that has the key and both supports
  have whole : ∀ (h : α → Nat) (list : List α), list.Nodup → (∀ x, h x ≠ 0 → x ∈ list) →
      list ⊆ keys ++ keys' → (list.map h).sum = ∑ x ∈ insert key (keys ++ keys').toFinset, h x := by
    intro h list nodup support inside
    rw [← List.sum_toFinset h nodup]
    apply Finset.sum_subset
    · intro x member
      exact Finset.mem_insert_of_mem (List.mem_toFinset.mpr (inside (List.mem_toFinset.mp member)))
    · intro x _ outside
      by_contra positive
      exact outside (List.mem_toFinset.mpr (support x positive))
  rw [whole f keys once covered (List.subset_append_left _ _), whole g keys' once' covered' (List.subset_append_right _ _),
    ← Finset.add_sum_erase _ f (Finset.mem_insert_self _ _), ← Finset.add_sum_erase _ g (Finset.mem_insert_self _ _)]
  have rest : ∑ x ∈ (insert key (keys ++ keys').toFinset).erase key, g x =
      ∑ x ∈ (insert key (keys ++ keys').toFinset).erase key, f x :=
    Finset.sum_congr rfl fun x member => same x (Finset.ne_of_mem_erase member)
  rw [rest]
  omega

end Sums
