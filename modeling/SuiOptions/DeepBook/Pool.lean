import SuiOptions.Move.Runtime

/-! The vendored spot pool: the flash loans and the vault of `vault.move`, and the coin
swap of `pool.move`. Matching is a parameter. -/

set_option autoImplicit false

namespace SuiOptions.DeepBook

open Execution Move

inductive Error where
  | notEnoughBaseForLoan
  | notEnoughQuoteForLoan
  | invalidLoanQuantity
  | incorrectLoanPool
  | incorrectTypeReturned
  | incorrectQuantityReturned
  | invalidQuantityIn
  | minimumQuantityOutNotMet
  | balanceManagerBalanceTooLow
  deriving DecidableEq, Repr

structure Balances where
  base : Nat
  quote : Nat
  deep : Nat
  deriving DecidableEq, Repr

/-- Has no ability: the transaction that borrows has to return it. -/
structure FlashLoan (τ : Type) where
  poolId : Nat
  borrowQuantity : Nat
  typeName : τ
  deriving DecidableEq, Repr

structure Pool (β τ : Type) where
  poolId : Nat
  baseType : τ
  quoteType : τ
  lotSize : Nat
  minSize : Nat
  vault : Balances
  /-- Orders, accounts and fees. -/
  book : β

structure Engine (β : Type) where
  inputFeeRate : β → Nat
  /-- The base that an amount of quote buys, when its fee is paid in DEEP and when not. -/
  quantityOut : β → Bool → Nat → Nat → Result Error Nat
  /-- The book after an order of a quantity, and what the vault and the manager then owe. -/
  createOrder : β → Nat → Bool → Bool → Nat → Result Error (β × Balances × Balances)

def floatScaling : Nat := 1000000000

variable {β τ : Type}

namespace Pool

section Loans

def borrow (p : Pool β τ) (held : Nat) (short : Error) (type : τ) (amount : Nat) : Result Error (FlashLoan τ) := do
  check (0 < amount) .invalidLoanQuantity
  check (amount ≤ held) short
  pure ⟨p.poolId, amount, type⟩

def borrowFlashloanBase (p : Pool β τ) (amount : Nat) : Result Error (Nat × FlashLoan τ × Pool β τ) := do
  let loan ← p.borrow p.vault.base .notEnoughBaseForLoan p.baseType amount
  pure (amount, loan, { p with vault := { p.vault with base := p.vault.base - amount } })

def borrowFlashloanQuote (p : Pool β τ) (amount : Nat) : Result Error (Nat × FlashLoan τ × Pool β τ) := do
  let loan ← p.borrow p.vault.quote .notEnoughQuoteForLoan p.quoteType amount
  pure (amount, loan, { p with vault := { p.vault with quote := p.vault.quote - amount } })

variable [DecidableEq τ]

def giveBack (p : Pool β τ) (type : τ) (coin : Nat) (loan : FlashLoan τ) : Result Error Unit := do
  check (p.poolId = loan.poolId) .incorrectLoanPool
  check (type = loan.typeName) .incorrectTypeReturned
  check (coin = loan.borrowQuantity) .incorrectQuantityReturned

def returnFlashloanBase (p : Pool β τ) (coin : Nat) (loan : FlashLoan τ) : Result Error (Pool β τ) := do
  p.giveBack p.baseType coin loan
  let base ← addU64 p.vault.base coin
  pure { p with vault := { p.vault with base } }

def returnFlashloanQuote (p : Pool β τ) (coin : Nat) (loan : FlashLoan τ) : Result Error (Pool β τ) := do
  p.giveBack p.quoteType coin loan
  let quote ← addU64 p.vault.quote coin
  pure { p with vault := { p.vault with quote } }

end Loans

def payOut (vault manager settled owed : Nat) : Result Error (Nat × Nat) :=
  if owed < settled then do
    let vault ← sub vault (settled - owed)
    let manager ← addU64 manager (settled - owed)
    pure (vault, manager)
  else pure (vault, manager)

def collect (vault manager settled owed : Nat) : Result Error (Nat × Nat) :=
  if settled < owed then do
    check (owed - settled ≤ manager) .balanceManagerBalanceTooLow
    let vault ← addU64 vault (owed - settled)
    pure (vault, manager - (owed - settled))
  else pure (vault, manager)

def settleBalanceManager (vault manager settled owed : Balances) : Result Error (Balances × Balances) := do
  -- the source pays in all three assets before it collects in any
  let (base, baseOut) ← payOut vault.base manager.base settled.base owed.base
  let (quote, quoteOut) ← payOut vault.quote manager.quote settled.quote owed.quote
  let (deep, deepOut) ← payOut vault.deep manager.deep settled.deep owed.deep
  let (base, baseOut) ← collect base baseOut settled.base owed.base
  let (quote, quoteOut) ← collect quote quoteOut settled.quote owed.quote
  let (deep, deepOut) ← collect deep deepOut settled.deep owed.deep
  pure (⟨base, quote, deep⟩, ⟨baseOut, quoteOut, deepOut⟩)

def placeMarketOrder (engine : Engine β) (p : Pool β τ) (manager : Balances) (quantity : Nat)
    (isBid payWithDeep : Bool) (now : Nat) : Result Error (Pool β τ × Balances) := do
  let (book, settled, owed) ← engine.createOrder p.book quantity isBid payWithDeep now
  let (vault, manager) ← settleBalanceManager p.vault manager settled owed
  pure ({ p with vault, book }, manager)

/-- The base an order is for: what the quote buys, or what is left after an input fee. -/
def orderQuantity (engine : Engine β) (p : Pool β τ) (baseIn quoteIn now : Nat) (isBid payWithDeep : Bool) :
    Result Error Nat :=
  if isBid then engine.quantityOut p.book payWithDeep quoteIn now
  else if payWithDeep then pure baseIn
  else pure (baseIn * floatScaling / (floatScaling + engine.inputFeeRate p.book))

/-- The pool and the three coins that come out. An order below the least size is not placed, and
the coins that went in come out again, whatever the least amount that was asked for. -/
def swapExactQuantity (engine : Engine β) (p : Pool β τ) (baseIn quoteIn deepIn minOut now : Nat) :
    Result Error (Pool β τ × Balances) := do
  let payWithDeep := decide (0 < deepIn)
  let isBid := decide (0 < quoteIn)
  check (decide (0 < baseIn) ≠ isBid) .invalidQuantityIn
  let wanted ← p.orderQuantity engine baseIn quoteIn now isBid payWithDeep
  -- rounded down to whole lots
  let quantity := wanted - wanted % p.lotSize
  if quantity < p.minSize then pure (p, ⟨baseIn, quoteIn, deepIn⟩)
  else do
    let (p, out) ← p.placeMarketOrder engine ⟨baseIn, quoteIn, deepIn⟩ quantity isBid payWithDeep now
    check (minOut ≤ if isBid then out.base else out.quote) .minimumQuantityOutNotMet
    pure (p, out)

def swapExactBaseForQuote (engine : Engine β) (p : Pool β τ) (baseIn deepIn minQuoteOut now : Nat) :
    Result Error (Pool β τ × Balances) := p.swapExactQuantity engine baseIn 0 deepIn minQuoteOut now

def swapExactQuoteForBase (engine : Engine β) (p : Pool β τ) (quoteIn deepIn minBaseOut now : Nat) :
    Result Error (Pool β τ × Balances) := p.swapExactQuantity engine 0 quoteIn deepIn minBaseOut now

/-- The order for what was put in would be below the least size. -/
def tooSmall (engine : Engine β) (p : Pool β τ) (baseIn quoteIn deepIn now : Nat) : Bool :=
  match p.orderQuantity engine baseIn quoteIn now (decide (0 < quoteIn)) (decide (0 < deepIn)) with
  | .ok wanted => wanted - wanted % p.lotSize < p.minSize
  | .error _ => false

end Pool

structure Alike (p next : Pool β τ) : Prop where
  pool : next.poolId = p.poolId
  base : next.baseType = p.baseType
  quote : next.quoteType = p.quoteType

structure Conserved (vault hand vaultNext handNext : Balances) : Prop where
  base : vaultNext.base + handNext.base = vault.base + hand.base
  quote : vaultNext.quote + handNext.quote = vault.quote + hand.quote
  deep : vaultNext.deep + handNext.deep = vault.deep + hand.deep

section Settling

variable {p next : Pool β τ} {engine : Engine β} {vault manager settled owed : Balances}

theorem payOut_conserves {vault manager settled owed : Nat} {done : Nat × Nat}
    (ran : Pool.payOut vault manager settled owed = .ok done) : done.1 + done.2 = vault + manager := by
  unfold Pool.payOut at ran
  split at ran
  · simp only [bind_ok, pure_ok, sub_ok, addU64, fit_ok] at ran
    obtain ⟨_, ⟨enough, rfl⟩, _, ⟨_, rfl⟩, rfl⟩ := ran
    simp only
    omega
  · cases ran
    rfl

theorem collect_conserves {vault manager settled owed : Nat} {done : Nat × Nat}
    (ran : Pool.collect vault manager settled owed = .ok done) : done.1 + done.2 = vault + manager := by
  unfold Pool.collect at ran
  split at ran
  · simp only [bind_ok, check_ok, pure_ok, addU64, fit_ok] at ran
    obtain ⟨_, enough, _, ⟨_, rfl⟩, rfl⟩ := ran
    simp only
    omega
  · cases ran
    rfl

theorem settle_conserves {done : Balances × Balances}
    (ran : Pool.settleBalanceManager vault manager settled owed = .ok done) : Conserved vault manager done.1 done.2 := by
  simp only [Pool.settleBalanceManager, bind_ok, pure_ok] at ran
  obtain ⟨base, baseOut, quote, quoteOut, deep, deepOut, _, baseIn, _, quoteIn, _, deepIn, rfl⟩ := ran
  exact ⟨(collect_conserves baseIn).trans (payOut_conserves baseOut),
    (collect_conserves quoteIn).trans (payOut_conserves quoteOut),
    (collect_conserves deepIn).trans (payOut_conserves deepOut)⟩

structure Swapped (engine : Engine β) (p next : Pool β τ) (baseIn quoteIn deepIn minOut now : Nat) (out : Balances) :
    Prop where
  alike : Alike p next
  oneSided : decide (0 < baseIn) ≠ decide (0 < quoteIn)
  conserved : Conserved p.vault ⟨baseIn, quoteIn, deepIn⟩ next.vault out
  unplaced : p.tooSmall engine baseIn quoteIn deepIn now = true → next = p ∧ out = ⟨baseIn, quoteIn, deepIn⟩
  placed : p.tooSmall engine baseIn quoteIn deepIn now = false →
    minOut ≤ if 0 < quoteIn then out.base else out.quote

theorem swapExactQuantity_ok {baseIn quoteIn deepIn minOut now : Nat} {done : Pool β τ × Balances}
    (ran : p.swapExactQuantity engine baseIn quoteIn deepIn minOut now = .ok done) :
    Swapped engine p done.1 baseIn quoteIn deepIn minOut now done.2 := by
  simp only [Pool.swapExactQuantity, bind_ok, check_ok] at ran
  obtain ⟨_, oneSided, wanted, known, ran⟩ := ran
  have small : p.tooSmall engine baseIn quoteIn deepIn now = decide (wanted - wanted % p.lotSize < p.minSize) := by
    rw [Pool.tooSmall, known]
  split at ran
  · rename_i below
    cases ran
    rw [decide_eq_true below] at small
    refine ⟨⟨rfl, rfl, rfl⟩, oneSided, ⟨rfl, rfl, rfl⟩, fun _ => ⟨rfl, rfl⟩, fun placed => ?_⟩
    rw [small] at placed
    cases placed
  · rename_i above
    rw [decide_eq_false above] at small
    simp only [Pool.placeMarketOrder, bind_ok, pure_ok, check_ok] at ran
    obtain ⟨_, ⟨created, _, vaults, settled, rfl⟩, _, enough, rfl⟩ := ran
    refine ⟨⟨rfl, rfl, rfl⟩, oneSided, settle_conserves settled, fun unplaced => ?_, fun _ => ?_⟩
    · rw [small] at unplaced
      cases unplaced
    · simpa using enough

end Settling

end SuiOptions.DeepBook
