import SuiOptions.Core.PutBucket
import SuiOptions.DeepBook.Pool
import SuiOptions.SuiTx.Builder

/-! What the Move calls of a transaction do on chain: two buckets, one spot pool and the
address balances of the sender. -/

set_option autoImplicit false

namespace SuiOptions.SuiTx

open Ptb SuiOptions.Core SuiOptions.DeepBook

structure Shared (τ bucket : Type) where
  id : Nat
  tags : List τ
  state : bucket

structure World (ι β τ : Type) where
  now : Nat
  corePackage : Nat
  deepbookPackage : Nat
  deepType : τ
  calls : Shared τ (Bucket ι)
  puts : Shared τ (PutBucket ι)
  pool : Pool β τ
  /-- The address balances of the sender. -/
  funds : τ → Nat

variable {ι β τ : Type} [DecidableEq τ]

namespace World

def poolTags (w : World ι β τ) : List τ := [w.pool.baseType, w.pool.quoteType]

def redeemFunds (w : World ι β τ) (type : τ) (amount : Nat) : Option (World ι β τ) :=
  if amount ≤ w.funds type then some { w with funds := Function.update w.funds type (w.funds type - amount) }
  else none

/-- `put_bucket::exercise`: the settlement paid out. -/
def exercisePut (w : World ι β τ) (puts delivery : Nat) : Option (Nat × World ι β τ) :=
  match w.puts.state.exercise w.now puts delivery with
  | .ok (payout, state) => some (payout, { w with puts := { w.puts with state } })
  | .error _ => none

/-- `bucket::exercise`: as much underlying as there were calls. -/
def exerciseCall (w : World ι β τ) (calls payment : Nat) : Option (World ι β τ) :=
  match w.calls.state.exercise w.now calls payment with
  | .ok state => some { w with calls := { w.calls with state } }
  | .error _ => none

def borrowBase (w : World ι β τ) (amount : Nat) : Option (FlashLoan τ × World ι β τ) :=
  match w.pool.borrowFlashloanBase amount with
  | .ok (_, loan, pool) => some (loan, { w with pool })
  | .error _ => none

def borrowQuote (w : World ι β τ) (amount : Nat) : Option (FlashLoan τ × World ι β τ) :=
  match w.pool.borrowFlashloanQuote amount with
  | .ok (_, loan, pool) => some (loan, { w with pool })
  | .error _ => none

def returnBase (w : World ι β τ) (coin : Nat) (loan : FlashLoan τ) : Option (World ι β τ) :=
  match w.pool.returnFlashloanBase coin loan with
  | .ok pool => some { w with pool }
  | .error _ => none

def returnQuote (w : World ι β τ) (coin : Nat) (loan : FlashLoan τ) : Option (World ι β τ) :=
  match w.pool.returnFlashloanQuote coin loan with
  | .ok pool => some { w with pool }
  | .error _ => none

variable (engine : Engine β)

def sellBase (w : World ι β τ) (baseIn deepIn minOut : Nat) : Option (Balances × World ι β τ) :=
  match w.pool.swapExactBaseForQuote engine baseIn deepIn minOut w.now with
  | .ok (pool, out) => some (out, { w with pool })
  | .error _ => none

def spendQuote (w : World ι β τ) (quoteIn deepIn minOut : Nat) : Option (Balances × World ι β τ) :=
  match w.pool.swapExactQuoteForBase engine quoteIn deepIn minOut w.now with
  | .ok (pool, out) => some (out, { w with pool })
  | .error _ => none

end World

def coinsOut (w : World ι β τ) (out : Balances) : List (Value τ (FlashLoan τ)) :=
  [.coin w.pool.baseType out.base, .coin w.pool.quoteType out.quote, .coin w.deepType out.deep]

section Execute

variable (engine : Engine β)

def executePool (function : Function) (w : World ι β τ) (arguments : List (Value τ (FlashLoan τ))) :
    Option (World ι β τ × List (Value τ (FlashLoan τ))) :=
  match function, arguments with
  | .borrowFlashloanBase, [.pure amount] =>
    (w.borrowBase amount).map fun done => (done.2, [.coin w.pool.baseType amount, .resource done.1])
  | .borrowFlashloanQuote, [.pure amount] =>
    (w.borrowQuote amount).map fun done => (done.2, [.coin w.pool.quoteType amount, .resource done.1])
  | .returnFlashloanBase, [.coin type coin, .resource loan] =>
    if type = w.pool.baseType then (w.returnBase coin loan).map fun next => (next, []) else none
  | .returnFlashloanQuote, [.coin type coin, .resource loan] =>
    if type = w.pool.quoteType then (w.returnQuote coin loan).map fun next => (next, []) else none
  | .swapExactBaseForQuote, [.coin type baseIn, .coin fee deepIn, .pure minOut, .shared clock] =>
    if type = w.pool.baseType ∧ fee = w.deepType ∧ clock = clockObject then
      (w.sellBase engine baseIn deepIn minOut).map fun done => (done.2, coinsOut w done.1)
    else none
  | .swapExactQuoteForBase, [.coin type quoteIn, .coin fee deepIn, .pure minOut, .shared clock] =>
    if type = w.pool.quoteType ∧ fee = w.deepType ∧ clock = clockObject then
      (w.spendQuote engine quoteIn deepIn minOut).map fun done => (done.2, coinsOut w done.1)
    else none
  | _, _ => none

def execute (c : MoveCall τ) (w : World ι β τ) (arguments : List (Value τ (FlashLoan τ))) :
    Option (World ι β τ × List (Value τ (FlashLoan τ))) :=
  match c.function, c.typeArguments, arguments with
  | .zero, [type], [] => if c.package = frameworkPackage then some (w, [.coin type 0]) else none
  | .redeemFunds, [type], [.pure amount] =>
    if c.package = frameworkPackage then (w.redeemFunds type amount).map fun next => (next, [.coin type amount])
    else none
  | .exerciseCall, [underlying, settlement, coin], [.shared bucket, .coin calls amount, .coin cash payment, .shared clock] =>
    if c.package = w.corePackage ∧ bucket = w.calls.id ∧ w.calls.tags = [underlying, settlement, coin] ∧
        calls = coin ∧ cash = settlement ∧ clock = clockObject then
      (w.exerciseCall amount payment).map fun next => (next, [.coin underlying amount])
    else none
  | .exercisePut, [underlying, settlement, coin], [.shared bucket, .coin puts amount, .coin asset delivery, .shared clock] =>
    if c.package = w.corePackage ∧ bucket = w.puts.id ∧ w.puts.tags = [underlying, settlement, coin] ∧
        puts = coin ∧ asset = underlying ∧ clock = clockObject then
      (w.exercisePut amount delivery).map fun done => (done.2, [.coin settlement done.1])
    else none
  | function, tags, .shared pool :: rest =>
    if c.package = w.deepbookPackage ∧ tags = w.poolTags ∧ pool = w.pool.poolId then executePool engine function w rest
    else none
  | _, _, _ => none

end Execute

end SuiOptions.SuiTx
