import SuiOptions.SuiTx.Stranded

/-! The put-exercise transactions of `put_exercise.rs`: one builder, three routes. -/

set_option autoImplicit false

namespace SuiOptions.SuiTx

open Ptb Words

inductive PutPath where
  | vaultUnderlying
  | baseFlash
  | quoteFlash
  deriving DecidableEq, Repr

structure PutPtbSpec (τ : Type) where
  deepbookPackage : Nat
  corePackage : Nat
  underlyingType : τ
  settlementType : τ
  putCoinType : τ
  deepCoinType : τ
  /-- Put units to exercise, and underlying units delivered. -/
  amount : Nat
  payout : Nat
  /-- The most settlement spent on buying the underlying back. -/
  maxQuoteIn : Nat
  /-- Settlement that must remain after every repayment. -/
  minProfit : Nat
  recipient : Nat

structure PutPtbArgs where
  pool : Argument
  bucket : Argument
  clock : Argument
  puts : Argument
  underlying : Option Argument

variable {τ : Type}

section Helpers

variable (pt : Builder τ) (spec : PutPtbSpec τ) (args : PutPtbArgs)

def poolTags : List τ := [spec.underlyingType, spec.settlementType]

def bucketTags : List τ := [spec.underlyingType, spec.settlementType, spec.putCoinType]

def poolCall (function : Function) (arguments : List Argument) : Argument × Builder τ :=
  pt.moveCall spec.deepbookPackage function (poolTags spec) arguments

def exerciseCall (delivery : Argument) : Argument × Builder τ :=
  pt.moveCall spec.corePackage .exercisePut (bucketTags spec) [args.bucket, args.puts, delivery, args.clock]

def repurchase (quoteIn : Argument) : (Argument × Argument × Argument) × Builder τ :=
  let (deepZero, pt) := zeroCoin pt spec.deepCoinType
  let (swap, pt) := poolCall pt spec .swapExactQuoteForBase [args.pool, quoteIn, deepZero, .pure spec.amount, args.clock]
  ((nested swap 0, nested swap 1, nested swap 2), pt)

def split (coin : Argument) (amount : Nat) : Argument × Builder τ :=
  let (out, pt) := pt.command (.splitCoins coin [.pure amount])
  (nested out 0, pt)

def checkBounds : Except String Unit :=
  if spec.amount = 0 then .error "put exercise: zero amount"
  else if spec.maxQuoteIn = 0 then .error "put exercise: zero max_quote_in (no repurchase budget)"
  else if spec.payout < saturatingAdd 64 spec.maxQuoteIn spec.minProfit then
    .error s!"put exercise profit bound: max_quote_in {spec.maxQuoteIn} + min_profit {spec.minProfit} exceeds payout {spec.payout}"
  else .ok ()

end Helpers

def buildPutExercise (pt : Builder τ) (spec : PutPtbSpec τ) (args : PutPtbArgs) (path : PutPath) :
    Except String (Builder τ) :=
  match checkBounds spec with
  | .error why => .error why
  | .ok () =>
    let recipient := Argument.pure spec.recipient
    match path with
    | .vaultUnderlying =>
      match args.underlying with
      | none => .error "vault-underlying path needs an underlying coin argument"
      | some underlying =>
        let (payout, pt) := exerciseCall pt spec args underlying
        let (spend, pt) := split pt payout spec.maxQuoteIn
        let ((baseOut, quoteRem, deepRem), pt) := repurchase pt spec args spend
        let (profit, pt) := split pt payout spec.minProfit
        .ok (pt.command (.transferObjects [payout, profit, baseOut, quoteRem, deepRem] recipient)).2
    | .baseFlash =>
      let (borrow, pt) := poolCall pt spec .borrowFlashloanBase [args.pool, .pure spec.amount]
      let borrowed := nested borrow 0
      let loan := nested borrow 1
      let (payout, pt) := exerciseCall pt spec args borrowed
      let (spend, pt) := split pt payout spec.maxQuoteIn
      let ((baseOut, quoteRem, deepRem), pt) := repurchase pt spec args spend
      let (repay, pt) := split pt baseOut spec.amount
      let (_, pt) := poolCall pt spec .returnFlashloanBase [args.pool, repay, loan]
      let (profit, pt) := split pt payout spec.minProfit
      .ok (pt.command (.transferObjects [payout, profit, baseOut, quoteRem, deepRem] recipient)).2
    | .quoteFlash =>
      let (borrow, pt) := poolCall pt spec .borrowFlashloanQuote [args.pool, .pure spec.maxQuoteIn]
      let borrowed := nested borrow 0
      let loan := nested borrow 1
      let ((baseOut, quoteRem, deepRem), pt) := repurchase pt spec args borrowed
      let (delivery, pt) := split pt baseOut spec.amount
      let (payout, pt) := exerciseCall pt spec args delivery
      let (_, pt) := pt.command (.mergeCoins payout [quoteRem])
      let (repay, pt) := split pt payout spec.maxQuoteIn
      let (_, pt) := poolCall pt spec .returnFlashloanQuote [args.pool, repay, loan]
      let (profit, pt) := split pt payout spec.minProfit
      .ok (pt.command (.transferObjects [payout, profit, baseOut, deepRem] recipient)).2

end SuiOptions.SuiTx
