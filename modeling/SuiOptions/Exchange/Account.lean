import SuiOptions.Exchange.Market
import SuiOptions.Lib.Offer

/-! What the exchange holds on one order, and how it can change.

An `Account` collects the registry's entry for a digest, the maker's watermark,
the clock, and the amounts recorded and moved, those of open obligations counted
as moved. Its steps are the life of an order; they refine the partial fills of an
offer, whatever collection does to the entry.
-/

set_option autoImplicit false

namespace SuiOptions.Exchange

open Execution Move

@[ext] structure Account where
  entry : Option FillState
  watermark : Nat
  now : Nat
  given : Nat
  taken : Nat
  received : Nat

def Order.offer (order : Order) : Offer := ⟨order.makerAmount.toNat, order.takerAmount.toNat⟩

namespace Account

def filled (a : Account) : Nat :=
  match a.entry with
  | some state => state.takerTokenFilled
  | none => 0

def cancelled (a : Account) : Bool :=
  match a.entry with
  | some state => state.cancelled
  | none => false

def Dead (order : Order) (a : Account) : Prop :=
  a.cancelled = true ∨ order.expiryMs.toNat ≤ a.now ∨ order.salt.toNat ≤ a.watermark

instance (order : Order) (a : Account) : Decidable (a.Dead order) :=
  inferInstanceAs (Decidable (_ ∨ _ ∨ _))

def fill (order : Order) (taken given : Nat) (a : Account) : Account :=
  { a with
    entry := some { a.entry.getD ⟨0, false, order.expiryMs.toNat⟩ with takerTokenFilled := a.filled + taken }
    given := a.given + given
    taken := a.taken + taken
    received := a.received + taken }

def cancel (order : Order) (a : Account) : Account :=
  { a with entry := some { a.entry.getD ⟨0, true, order.expiryMs.toNat⟩ with cancelled := true } }

structure Fillable (order : Order) (taken given : Nat) (a : Account) : Prop where
  live : ¬ a.Dead order
  positive : 0 < taken
  room : a.filled + taken ≤ order.takerAmount.toNat
  price : given * order.takerAmount.toNat ≤ taken * order.makerAmount.toNat

inductive Step (order : Order) : Account → Account → Prop where
  | wait {a : Account} (now : Nat) : a.now ≤ now → Step order a { a with now }
  | void {a : Account} (watermark : Nat) : a.watermark ≤ watermark → Step order a { a with watermark }
  | cancel {a : Account} : Step order a (a.cancel order)
  | collect {a : Account} (state : FillState) : a.entry = some state →
      state.expiryMs + SettlementRegistry.gcGraceMs ≤ a.now → Step order a { a with entry := none }
  | fill {a : Account} (taken given : Nat) : a.Fillable order taken given →
      Step order a (a.fill order taken given)

/-- The counter is the history until the order expires, and an entry keeps the
order's expiry. Past it an entry may be collected, and a late cancellation
starts a new one at zero. -/
structure Sound (order : Order) (a : Account) : Prop where
  counter : a.filled = a.taken ∨ order.expiryMs.toNat ≤ a.now
  expiry : ∀ state, a.entry = some state → state.expiryMs = order.expiryMs.toNat
  received : a.received = a.taken

def progress (order : Order) (a : Account) : Offer.Progress := ⟨a.given, a.taken, decide (a.Dead order)⟩

variable {order : Order} {a b : Account}

theorem filled_cancel : (a.cancel order).filled = a.filled := by
  unfold filled cancel
  cases a.entry <;> rfl

theorem Sound.filled_eq (sound : a.Sound order) (live : ¬ a.Dead order) : a.filled = a.taken := by
  rcases sound.counter with same | expired
  · exact same
  · exact absurd (Or.inr (Or.inl expired)) live

theorem Sound.step (sound : a.Sound order) (moved : Step order a b) : b.Sound order := by
  cases moved with
  | wait now later => exact ⟨sound.counter.imp_right (le_trans · later), sound.expiry, sound.received⟩
  | void watermark _ => exact ⟨sound.counter, sound.expiry, sound.received⟩
  | cancel =>
    refine ⟨?_, fun state same => ?_, sound.received⟩
    · rw [filled_cancel]
      exact sound.counter
    · cases same
      cases present : a.entry with
      | some state => exact sound.expiry state present
      | none => rfl
  | collect state present eligible =>
    refine ⟨Or.inr ?_, fun _ impossible => ?_, sound.received⟩
    · have recorded := sound.expiry state present
      simp only
      omega
    · cases impossible
  | fill taken given fillable =>
    refine ⟨Or.inl ?_, fun state same => ?_, ?_⟩
    · exact congrArg (· + taken) (sound.filled_eq fillable.live)
    · cases same
      cases present : a.entry with
      | some state => exact sound.expiry state present
      | none => rfl
    · exact congrArg (· + taken) sound.received

end Account

end SuiOptions.Exchange
