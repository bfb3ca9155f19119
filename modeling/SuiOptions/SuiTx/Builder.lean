import SuiOptions.Lib.Ptb
import SuiOptions.Lib.Words

/-! The transaction builder of `sui-tx`, the coins it funds from a wallet (`funding.rs`),
and the checker of `put_exercise.rs` for results that nothing consumes. -/

set_option autoImplicit false

namespace SuiOptions.SuiTx

open Ptb Words

inductive Function where
  | zero
  | redeemFunds
  | borrowFlashloanBase
  | borrowFlashloanQuote
  | returnFlashloanBase
  | returnFlashloanQuote
  | swapExactBaseForQuote
  | swapExactQuoteForBase
  | exerciseCall
  | exercisePut
  | exercisePutCoin
  | takerSwapQuoteForBase
  deriving DecidableEq, Repr

def Function.name : Function → String
  | .zero => "coin::zero"
  | .redeemFunds => "coin::redeem_funds"
  | .borrowFlashloanBase => "pool::borrow_flashloan_base"
  | .borrowFlashloanQuote => "pool::borrow_flashloan_quote"
  | .returnFlashloanBase => "pool::return_flashloan_base"
  | .returnFlashloanQuote => "pool::return_flashloan_quote"
  | .swapExactBaseForQuote => "pool::swap_exact_base_for_quote"
  | .swapExactQuoteForBase => "pool::swap_exact_quote_for_base"
  | .exerciseCall => "bucket::exercise"
  | .exercisePut => "put_bucket::exercise"
  | .exercisePutCoin => "vault_mm::exercise_put_coin"
  | .takerSwapQuoteForBase => "deepbook_adapter::taker_swap_quote_for_base"

structure MoveCall (τ : Type) where
  package : Nat
  function : Function
  typeArguments : List τ
  deriving DecidableEq

abbrev Builder (τ : Type) := List (Command (MoveCall τ))

variable {τ : Type}

namespace Builder

def command (pt : Builder τ) (c : Command (MoveCall τ)) : Argument × Builder τ := (.result pt.length, pt ++ [c])

def moveCall (pt : Builder τ) (package : Nat) (function : Function) (typeArguments : List τ)
    (arguments : List Argument) : Argument × Builder τ :=
  pt.command (.moveCall ⟨package, function, typeArguments⟩ arguments)

end Builder

def nested : Argument → Nat → Argument
  | .result c, i => .nestedResult c i
  | other, _ => other

def frameworkPackage : Nat := 2

def clockObject : Nat := 6

def zeroCoin (pt : Builder τ) (coinType : τ) : Argument × Builder τ :=
  pt.moveCall frameworkPackage .zero [coinType] []

section Funding

def redeem (pt : Builder τ) (coinType : τ) (amount : Nat) : Argument × Builder τ :=
  pt.moveCall frameworkPackage .redeemFunds [coinType] [.pure amount]

/-- The part the coin objects cannot cover, when there is one. -/
def withdraw (pt : Builder τ) (coinType : τ) (shortfall : Nat) : Option Argument × Builder τ :=
  if 0 < shortfall then
    let (coin, pt) := redeem pt coinType shortfall
    (some coin, pt)
  else (none, pt)

/-- The source counts them as a `u16`. -/
def nestedResults (split : Argument) (count : Nat) : List Argument := (List.range (count % 2 ^ 16)).map (nested split)

theorem nestedResults_small {split : Argument} {count : Nat} (small : count < 2 ^ 16) :
    nestedResults split count = (List.range count).map (nested split) := by
  rw [nestedResults, Nat.mod_eq_of_lt small]

/-- Spend the coin objects `refs` and withdraw `shortfall`: `count` coins of `amount` each. -/
def emit (pt : Builder τ) (coinType : τ) (refs : List Nat) (shortfall amount count : Nat) :
    Except String (List Argument × Builder τ) :=
  let (withdrawn, pt) := withdraw pt coinType shortfall
  match refs with
  | [] =>
    match withdrawn with
    | none => .error "shortfall is the full amount when there are no coins"
    | some withdrawn =>
      if count = 1 then .ok ([withdrawn], pt)
      else
        -- the last slice is the withdrawn coin itself: nothing is left of it
        let (split, pt) := pt.command (.splitCoins withdrawn (List.replicate (count - 1) (.pure amount)))
        .ok (nestedResults split (count - 1) ++ [withdrawn], pt)
  | first :: others =>
    let rest := others.map Argument.object ++ withdrawn.toList
    let pt := if rest = [] then pt else (pt.command (.mergeCoins (.object first) rest)).2
    let (split, pt) := pt.command (.splitCoins (.object first) (List.replicate count (.pure amount)))
    .ok (nestedResults split count, pt)

/-- What a wallet holds of one type: coin objects, and an address balance. -/
structure Wallet where
  owner : Nat
  coins : List (Nat × Nat)
  available : Nat

variable [ToString τ]

def exactCoins (pt : Builder τ) (wallet : Wallet) (coinType : τ) (amount count : Nat) :
    Except String (List Argument × Builder τ) :=
  if count = 0 then .ok ([], pt)
  else if 2 ^ 64 ≤ amount * count then .error s!"{count} × {amount} of {coinType} overflows u64"
  else
    let needed := amount * count
    let fromCoins := (wallet.coins.map (·.2)).foldl (saturatingAdd 64) 0
    let shortfall := needed - fromCoins
    if 0 < shortfall ∧ wallet.available < shortfall then
      .error s!"{wallet.owner} holds {fromCoins} of {coinType} in coins and {wallet.available} as an address balance, need {needed}"
    else emit pt coinType (wallet.coins.map (·.1)) shortfall amount count

def exactCoin (pt : Builder τ) (wallet : Wallet) (coinType : τ) (amount : Nat) :
    Except String (Argument × Builder τ) :=
  match exactCoins pt wallet coinType amount 1 with
  | .ok (coin :: _, pt) => .ok (coin, pt)
  | .ok ([], _) => .error "removal index (is 0) should be < len (is 0)"
  | .error why => .error why

end Funding

end SuiOptions.SuiTx
