import Mathlib.Logic.Relation
import Mathlib.Tactic.Linarith

/-! Partial fills of a standing offer.

An offer gives at most `give` units for at most `want` units, at no worse a rate.
It may be filled in parts while it is open, and once closed it stays closed.
-/

set_option autoImplicit false

structure Offer where
  give : Nat
  want : Nat

namespace Offer

structure Progress where
  given : Nat
  taken : Nat
  closed : Bool

variable (offer : Offer)

inductive Step : Progress → Progress → Prop where
  | fill {p : Progress} (taken given : Nat) : p.closed = false → 0 < taken → p.taken + taken ≤ offer.want →
      given * offer.want ≤ taken * offer.give → Step p ⟨p.given + given, p.taken + taken, false⟩
  | close {p : Progress} : Step p { p with closed := true }

def Run : Progress → Progress → Prop := Relation.ReflTransGen offer.Step

structure Honoured (p : Progress) : Prop where
  within : p.taken ≤ offer.want
  price : p.given * offer.want ≤ p.taken * offer.give
  unpaid : p.taken = 0 → p.given = 0

variable {offer} {p q : Progress}

theorem Honoured.initial (closed : Bool) : offer.Honoured ⟨0, 0, closed⟩ :=
  ⟨Nat.zero_le _, by simp, fun _ => rfl⟩

theorem Honoured.step (honoured : offer.Honoured p) (moved : offer.Step p q) : offer.Honoured q := by
  cases moved with
  | close => exact ⟨honoured.within, honoured.price, honoured.unpaid⟩
  | fill taken given _ positive room price =>
    refine ⟨room, ?_, ?_⟩
    · have before := honoured.price
      simp only [Nat.add_mul]
      exact Nat.add_le_add before price
    · intro nothing
      simp only at nothing
      omega

theorem Honoured.run (honoured : offer.Honoured p) (moved : offer.Run p q) : offer.Honoured q := by
  induction moved with
  | refl => exact honoured
  | tail _ last ih => exact ih.step last

end Offer
