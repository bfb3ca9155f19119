import Mathlib.Data.Fintype.Card
import Mathlib.Logic.Relation

/-! Directed graphs without cycles, as relations: when an edge may be added, and
the rank that orders a finite one. -/

set_option autoImplicit false

namespace Acyclic

open Relation

variable {α : Type} {edge more : α → α → Prop}

def IsAcyclic (edge : α → α → Prop) : Prop := ∀ x, ¬ TransGen edge x x

theorem IsAcyclic.mono (acyclic : IsAcyclic edge) (fewer : ∀ x y, more x y → edge x y) : IsAcyclic more :=
  fun x cycle => acyclic x (TransGen.mono fewer x x cycle)

theorem path_split {i j x y : α} (path : TransGen (fun x y => edge x y ∨ (x = i ∧ y = j)) x y) :
    TransGen edge x y ∨ (ReflTransGen edge x i ∧ ReflTransGen edge j y) := by
  induction path with
  | single step =>
    rcases step with old | ⟨rfl, rfl⟩
    · exact Or.inl (.single old)
    · exact Or.inr ⟨.refl, .refl⟩
  | tail _ step ih =>
    rcases step with old | ⟨rfl, rfl⟩
    · rcases ih with direct | ⟨first, second⟩
      · exact Or.inl (direct.tail old)
      · exact Or.inr ⟨first, second.tail old⟩
    · rcases ih with direct | ⟨first, second⟩
      · exact Or.inr ⟨direct.to_reflTransGen, .refl⟩
      · exact Or.inr ⟨first, .refl⟩

/-- An edge closes no cycle where its source cannot be reached from its target. -/
theorem IsAcyclic.add (acyclic : IsAcyclic edge) {i j : α} (fresh : ¬ ReflTransGen edge j i) :
    IsAcyclic (fun x y => edge x y ∨ (x = i ∧ y = j)) := by
  intro x cycle
  rcases path_split cycle with old | ⟨first, second⟩
  · exact acyclic x old
  · exact fresh (second.trans first)

open Classical in
/-- A finite graph without cycles is ranked: every edge leads to a lower node. -/
theorem IsAcyclic.exists_rank [Fintype α] (acyclic : IsAcyclic edge) :
    ∃ rank : α → Nat, ∀ x y, edge x y → rank y < rank x := by
  refine ⟨fun x => (Finset.univ.filter (fun z => TransGen edge x z)).card, fun x y step => ?_⟩
  apply Finset.card_lt_card
  rw [Finset.ssubset_iff_of_subset]
  · exact ⟨y, by simpa using TransGen.single step, by simpa using acyclic y⟩
  · intro z below
    simp only [Finset.mem_filter, Finset.mem_univ, true_and] at below ⊢
    exact below.head step

end Acyclic
