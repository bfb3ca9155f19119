import SuiOptions.SuiTx.Chain
import SuiOptions.SuiTx.PutExercise

/-! What the put-exercise routes come to on chain: each transaction runs as a few calls in
sequence, with the guards its splits put between them. -/

set_option autoImplicit false

namespace SuiOptions.SuiTx

open Ptb SuiOptions.Core SuiOptions.DeepBook Execution

variable {ι β τ : Type}

structure World.Like (w next : World ι β τ) : Prop where
  now : next.now = w.now
  corePackage : next.corePackage = w.corePackage
  deepbookPackage : next.deepbookPackage = w.deepbookPackage
  deepType : next.deepType = w.deepType
  puts : next.puts.id = w.puts.id
  putTags : next.puts.tags = w.puts.tags
  calls : next.calls.id = w.calls.id
  callTags : next.calls.tags = w.calls.tags
  pool : next.pool.poolId = w.pool.poolId
  base : next.pool.baseType = w.pool.baseType
  quote : next.pool.quoteType = w.pool.quoteType
  funds : next.funds = w.funds

/-- What the recipient is sent: what is left of the payout, the least profit, the underlying, what
was not spent on it, and the DEEP. -/
structure Proceeds where
  rest : Nat
  profit : Nat
  underlying : Nat
  unspent : Option Nat
  deep : Nat
  deriving DecidableEq, Repr

def Proceeds.settlement (p : Proceeds) : Nat := p.rest + p.profit + p.unspent.getD 0

def Proceeds.coins (spec : PutPtbSpec τ) (p : Proceeds) : List (Value τ (FlashLoan τ)) :=
  [.coin spec.settlementType p.rest, .coin spec.settlementType p.profit, .coin spec.underlyingType p.underlying] ++
    p.unspent.toList.map (.coin spec.settlementType) ++ [.coin spec.deepCoinType p.deep]

section Meaning

variable [DecidableEq τ] (engine : Engine β) (spec : PutPtbSpec τ) (w : World ι β τ)

/-- What a route does: its calls, and the guards that its splits are. -/
def PutPath.effect : PutPath → Option (World ι β τ × Proceeds)
  | .vaultUnderlying =>
    (w.exercisePut spec.amount spec.amount).bind fun exercised =>
      if spec.maxQuoteIn ≤ exercised.1 then
        (exercised.2.spendQuote engine spec.maxQuoteIn 0 spec.amount).bind fun bought =>
          if spec.minProfit ≤ exercised.1 - spec.maxQuoteIn then
            some (bought.2, ⟨exercised.1 - spec.maxQuoteIn - spec.minProfit, spec.minProfit, bought.1.base,
              some bought.1.quote, bought.1.deep⟩)
          else none
      else none
  | .baseFlash =>
    (w.borrowBase spec.amount).bind fun lent =>
      (lent.2.exercisePut spec.amount spec.amount).bind fun exercised =>
        if spec.maxQuoteIn ≤ exercised.1 then
          (exercised.2.spendQuote engine spec.maxQuoteIn 0 spec.amount).bind fun bought =>
            if spec.amount ≤ bought.1.base then
              (bought.2.returnBase spec.amount lent.1).bind fun repaid =>
                if spec.minProfit ≤ exercised.1 - spec.maxQuoteIn then
                  some (repaid, ⟨exercised.1 - spec.maxQuoteIn - spec.minProfit, spec.minProfit,
                    bought.1.base - spec.amount, some bought.1.quote, bought.1.deep⟩)
                else none
            else none
        else none
  | .quoteFlash =>
    (w.borrowQuote spec.maxQuoteIn).bind fun lent =>
      (lent.2.spendQuote engine spec.maxQuoteIn 0 spec.amount).bind fun bought =>
        if spec.amount ≤ bought.1.base then
          (bought.2.exercisePut spec.amount spec.amount).bind fun exercised =>
            if spec.maxQuoteIn ≤ exercised.1 + bought.1.quote then
              (exercised.2.returnQuote spec.maxQuoteIn lent.1).bind fun repaid =>
                if spec.minProfit ≤ exercised.1 + bought.1.quote - spec.maxQuoteIn then
                  some (repaid, ⟨exercised.1 + bought.1.quote - spec.maxQuoteIn - spec.minProfit, spec.minProfit,
                    bought.1.base - spec.amount, none, bought.1.deep⟩)
                else none
            else none
        else none

end Meaning

section Frames

variable {w next : World ι β τ} {engine : Engine β}

theorem World.Like.withPool {pool : Pool β τ} (alike : Alike w.pool pool) : w.Like { w with pool } :=
  ⟨rfl, rfl, rfl, rfl, rfl, rfl, rfl, rfl, alike.pool, alike.base, alike.quote, rfl⟩

theorem exercisePut_like {puts delivery payout : Nat} (ran : w.exercisePut puts delivery = some (payout, next)) :
    w.Like next := by
  unfold World.exercisePut at ran
  split at ran
  · cases ran
    exact ⟨rfl, rfl, rfl, rfl, rfl, rfl, rfl, rfl, rfl, rfl, rfl, rfl⟩
  · cases ran

theorem borrowBase_like {amount : Nat} {loan : FlashLoan τ} (ran : w.borrowBase amount = some (loan, next)) :
    w.Like next := by
  unfold World.borrowBase at ran
  split at ran
  · rename_i borrowed
    cases ran
    simp only [Pool.borrowFlashloanBase, bind_ok, pure_ok] at borrowed
    obtain ⟨_, _, same⟩ := borrowed
    cases same
    exact .withPool ⟨rfl, rfl, rfl⟩
  · cases ran

theorem borrowQuote_like {amount : Nat} {loan : FlashLoan τ} (ran : w.borrowQuote amount = some (loan, next)) :
    w.Like next := by
  unfold World.borrowQuote at ran
  split at ran
  · rename_i borrowed
    cases ran
    simp only [Pool.borrowFlashloanQuote, bind_ok, pure_ok] at borrowed
    obtain ⟨_, _, same⟩ := borrowed
    cases same
    exact .withPool ⟨rfl, rfl, rfl⟩
  · cases ran

theorem spendQuote_like {quoteIn deepIn minOut : Nat} {out : Balances}
    (ran : w.spendQuote engine quoteIn deepIn minOut = some (out, next)) : w.Like next := by
  unfold World.spendQuote at ran
  split at ran
  · rename_i swapped
    cases ran
    exact .withPool (swapExactQuantity_ok swapped).alike
  · cases ran

variable [DecidableEq τ]

theorem returnBase_like {coin : Nat} {loan : FlashLoan τ} (ran : w.returnBase coin loan = some next) : w.Like next := by
  unfold World.returnBase at ran
  split at ran
  · rename_i returned
    cases ran
    simp only [Pool.returnFlashloanBase, bind_ok, pure_ok] at returned
    obtain ⟨_, _, _, _, same⟩ := returned
    cases same
    exact .withPool ⟨rfl, rfl, rfl⟩
  · cases ran

theorem returnQuote_like {coin : Nat} {loan : FlashLoan τ} (ran : w.returnQuote coin loan = some next) : w.Like next := by
  unfold World.returnQuote at ran
  split at ran
  · rename_i returned
    cases ran
    simp only [Pool.returnFlashloanQuote, bind_ok, pure_ok] at returned
    obtain ⟨_, _, _, _, same⟩ := returned
    cases same
    exact .withPool ⟨rfl, rfl, rfl⟩
  · cases ran

end Frames

structure PutPtbSpec.Fits (spec : PutPtbSpec τ) (w : World ι β τ) : Prop where
  deepbook : spec.deepbookPackage = w.deepbookPackage
  core : spec.corePackage = w.corePackage
  base : w.pool.baseType = spec.underlyingType
  quote : w.pool.quoteType = spec.settlementType
  tags : w.puts.tags = bucketTags spec
  deep : w.deepType = spec.deepCoinType

theorem PutPtbSpec.Fits.like {spec : PutPtbSpec τ} {w next : World ι β τ} (fits : spec.Fits w) (like : w.Like next) :
    spec.Fits next :=
  ⟨fits.deepbook.trans like.deepbookPackage.symm, fits.core.trans like.corePackage.symm, like.base.trans fits.base,
    like.quote.trans fits.quote, like.putTags.trans fits.tags, like.deepType.trans fits.deep⟩

/-- A machine about to run a route: the shared objects are there under their names. -/
structure Staged (m : Machine (World ι β τ) τ (FlashLoan τ)) (spec : PutPtbSpec τ) (args : PutPtbArgs) : Prop where
  fits : spec.Fits m.world
  pool : args.pool = .object m.world.pool.poolId
  bucket : args.bucket = .object m.world.puts.id
  clock : args.clock = .object clockObject
  poolShared : m.read args.pool = some (.shared m.world.pool.poolId)
  bucketShared : m.read args.bucket = some (.shared m.world.puts.id)
  clockShared : m.read args.clock = some (.shared clockObject)

structure Apart (args : PutPtbArgs) (a : Argument) : Prop where
  pool : args.pool.place ≠ a.place
  bucket : args.bucket.place ≠ a.place
  clock : args.clock.place ≠ a.place

section Staging

variable {m : Machine (World ι β τ) τ (FlashLoan τ)} {spec : PutPtbSpec τ} {args : PutPtbArgs} {a : Argument}

theorem Staged.apart_result (staged : Staged m spec args) (i j : Nat) : Apart args (.nestedResult i j) := by
  refine ⟨?_, ?_, ?_⟩
  · rw [staged.pool]
    nofun
  · rw [staged.bucket]
    nofun
  · rw [staged.clock]
    nofun

theorem Staged.apart_whole (staged : Staged m spec args) (i : Nat) : Apart args (.result i) := by
  refine ⟨?_, ?_, ?_⟩
  · rw [staged.pool]
    nofun
  · rw [staged.bucket]
    nofun
  · rw [staged.clock]
    nofun

/-- Nothing that is not a shared object is read as one. -/
theorem Staged.apart_coin (staged : Staged m spec args) {type : τ} {amount : Nat} {p : Place} (place : a.place = some p)
    (known : m.read a = some (.coin type amount)) : Apart args a := by
  have coin := Machine.read_place known place
  refine ⟨fun same => ?_, fun same => ?_, fun same => ?_⟩
  · have shared := Machine.read_place staged.poolShared (same.trans place)
    rw [coin] at shared
    cases shared
  · have shared := Machine.read_place staged.bucketShared (same.trans place)
    rw [coin] at shared
    cases shared
  · have shared := Machine.read_place staged.clockShared (same.trans place)
    rw [coin] at shared
    cases shared

theorem Staged.put (staged : Staged m spec args) (apart : Apart args a) (value : Option (Value τ (FlashLoan τ))) :
    Staged (m.put a value) spec args where
  fits := by
    rw [Machine.put_world]
    exact staged.fits
  pool := by
    rw [Machine.put_world]
    exact staged.pool
  bucket := by
    rw [Machine.put_world]
    exact staged.bucket
  clock := staged.clock
  poolShared := by
    rw [Machine.read_put value apart.pool, Machine.put_world]
    exact staged.poolShared
  bucketShared := by
    rw [Machine.read_put value apart.bucket, Machine.put_world]
    exact staged.bucketShared
  clockShared := by
    rw [Machine.read_put value apart.clock]
    exact staged.clockShared

theorem Staged.yields (staged : Staged m spec args) (values : List (Value τ (FlashLoan τ))) :
    Staged (m.yields values) spec args where
  fits := staged.fits
  pool := staged.pool
  bucket := staged.bucket
  clock := staged.clock
  poolShared := by
    rw [Machine.read_yields values (by
      rw [staged.pool]
      exact trivial)]
    exact staged.poolShared
  bucketShared := by
    rw [Machine.read_yields values (by
      rw [staged.bucket]
      exact trivial)]
    exact staged.bucketShared
  clockShared := by
    rw [Machine.read_yields values (by
      rw [staged.clock]
      exact trivial)]
    exact staged.clockShared

theorem Staged.enter {next : World ι β τ} (staged : Staged m spec args) (like : m.world.Like next) :
    Staged (m.enter next) spec args where
  fits := staged.fits.like like
  pool := by
    rw [staged.pool, Machine.enter_world, like.pool]
  bucket := by
    rw [staged.bucket, Machine.enter_world, like.puts]
  clock := staged.clock
  poolShared := by
    rw [Machine.read_enter, Machine.enter_world, like.pool]
    exact staged.poolShared
  bucketShared := by
    rw [Machine.read_enter, Machine.enter_world, like.puts]
    exact staged.bucketShared
  clockShared := by
    rw [Machine.read_enter]
    exact staged.clockShared

end Staging

section Calls

variable [DecidableEq τ] (engine : Engine β) {m : Machine (World ι β τ) τ (FlashLoan τ)} {spec : PutPtbSpec τ}
  {args : PutPtbArgs} {coin loan deep : Argument}

theorem step_zero (type : τ) :
    m.step (execute engine) (.moveCall ⟨frameworkPackage, .zero, [type]⟩ []) = some (m.yields [.coin type 0]) := by
  rw [Machine.step_call (by rfl)]
  rfl

theorem Staged.step_exercise {puts delivery : Nat} (staged : Staged m spec args)
    (held : m.read args.puts = some (.coin spec.putCoinType puts)) (apartPuts : Apart args args.puts)
    (delivered : m.read coin = some (.coin spec.underlyingType delivery)) (apartCoin : Apart args coin)
    (other : coin.place ≠ args.puts.place) :
    m.step (execute engine)
        (.moveCall ⟨spec.corePackage, .exercisePut, bucketTags spec⟩ [args.bucket, args.puts, coin, args.clock]) =
      (m.world.exercisePut puts delivery).map fun done =>
        (((m.put args.puts none).put coin none).enter done.2).yields [.coin spec.settlementType done.1] := by
  have second := staged.put apartPuts none
  have third := second.put apartCoin none
  -- taking the puts leaves the delivery, which is another coin
  have still : (m.put args.puts none).read coin = some (.coin spec.underlyingType delivery) := by
    rw [Machine.read_put none other, delivered]
  have took : m.takeAll [args.bucket, args.puts, coin, args.clock] =
      some ([.shared m.world.puts.id, .coin spec.putCoinType puts, .coin spec.underlyingType delivery,
        .shared clockObject], (m.put args.puts none).put coin none) := by
    rw [Machine.takeAll_of (Machine.take_keeps staged.bucketShared rfl),
      Machine.takeAll_of (Machine.take_moves held rfl), Machine.takeAll_of (Machine.take_moves still rfl),
      Machine.takeAll_of (Machine.take_keeps third.clockShared rfl)]
    rfl
  rw [Machine.step_call took]
  simp only [Machine.put_world, execute, bucketTags]
  rw [if_pos ⟨staged.fits.core, trivial, staged.fits.tags, trivial, trivial, trivial⟩, Option.map_map]
  rfl

theorem Staged.step_pool {function : Function} {arguments : List Argument} {values : List (Value τ (FlashLoan τ))}
    {next : Machine (World ι β τ) τ (FlashLoan τ)} (staged : Staged m spec args)
    (took : m.takeAll arguments = some (values, next)) (same : next.world = m.world)
    (others : function ≠ .zero ∧ function ≠ .redeemFunds ∧ function ≠ .exerciseCall ∧ function ≠ .exercisePut) :
    m.step (execute engine) (.moveCall ⟨spec.deepbookPackage, function, poolTags spec⟩ (args.pool :: arguments)) =
      (executePool engine function m.world values).map fun done => (next.enter done.1).yields done.2 := by
  have tags : poolTags spec = m.world.poolTags := by
    rw [poolTags, World.poolTags, staged.fits.base, staged.fits.quote]
  have whole : m.takeAll (args.pool :: arguments) = some (.shared m.world.pool.poolId :: values, next) := by
    rw [Machine.takeAll_of (Machine.take_keeps staged.poolShared rfl), took]
    rfl
  rw [Machine.step_call whole, same]
  congr 1
  cases function with
  | zero => exact absurd rfl others.1
  | redeemFunds => exact absurd rfl others.2.1
  | exerciseCall => exact absurd rfl others.2.2.1
  | exercisePut => exact absurd rfl others.2.2.2
  | _ =>
    simp only [execute]
    rw [if_pos ⟨staged.fits.deepbook, tags, trivial⟩]

theorem Staged.step_borrowBase (staged : Staged m spec args) (amount : Nat) :
    m.step (execute engine)
        (.moveCall ⟨spec.deepbookPackage, .borrowFlashloanBase, poolTags spec⟩ [args.pool, .pure amount]) =
      (m.world.borrowBase amount).map fun done =>
        (m.enter done.2).yields [.coin spec.underlyingType amount, .resource done.1] := by
  rw [staged.step_pool engine (by rfl) rfl (by decide), executePool, Option.map_map, staged.fits.base]
  rfl

theorem Staged.step_borrowQuote (staged : Staged m spec args) (amount : Nat) :
    m.step (execute engine)
        (.moveCall ⟨spec.deepbookPackage, .borrowFlashloanQuote, poolTags spec⟩ [args.pool, .pure amount]) =
      (m.world.borrowQuote amount).map fun done =>
        (m.enter done.2).yields [.coin spec.settlementType amount, .resource done.1] := by
  rw [staged.step_pool engine (by rfl) rfl (by decide), executePool, Option.map_map, staged.fits.quote]
  rfl

theorem Staged.step_returnBase {amount : Nat} {lent : FlashLoan τ} (staged : Staged m spec args)
    (held : m.read coin = some (.coin spec.underlyingType amount)) (owed : m.read loan = some (.resource lent))
    (other : loan.place ≠ coin.place) :
    m.step (execute engine)
        (.moveCall ⟨spec.deepbookPackage, .returnFlashloanBase, poolTags spec⟩ [args.pool, coin, loan]) =
      (m.world.returnBase amount lent).map fun next => (((m.put coin none).put loan none).enter next).yields [] := by
  rw [staged.step_pool engine (Machine.takeAll_two held owed other ⟨rfl, rfl⟩ []) (by simp) (by decide), executePool,
    if_pos staged.fits.base.symm, Option.map_map]
  rfl

theorem Staged.step_returnQuote {amount : Nat} {lent : FlashLoan τ} (staged : Staged m spec args)
    (held : m.read coin = some (.coin spec.settlementType amount)) (owed : m.read loan = some (.resource lent))
    (other : loan.place ≠ coin.place) :
    m.step (execute engine)
        (.moveCall ⟨spec.deepbookPackage, .returnFlashloanQuote, poolTags spec⟩ [args.pool, coin, loan]) =
      (m.world.returnQuote amount lent).map fun next => (((m.put coin none).put loan none).enter next).yields [] := by
  rw [staged.step_pool engine (Machine.takeAll_two held owed other ⟨rfl, rfl⟩ []) (by simp) (by decide), executePool,
    if_pos staged.fits.quote.symm, Option.map_map]
  rfl

theorem Staged.step_spend {quoteIn deepIn : Nat} (staged : Staged m spec args)
    (held : m.read coin = some (.coin spec.settlementType quoteIn)) (apartCoin : Apart args coin)
    (fee : m.read deep = some (.coin spec.deepCoinType deepIn)) (apartFee : Apart args deep)
    (other : deep.place ≠ coin.place) (minOut : Nat) :
    m.step (execute engine)
        (.moveCall ⟨spec.deepbookPackage, .swapExactQuoteForBase, poolTags spec⟩
          [args.pool, coin, deep, .pure minOut, args.clock]) =
      (m.world.spendQuote engine quoteIn deepIn minOut).map fun done =>
        (((m.put coin none).put deep none).enter done.2).yields
          [.coin spec.underlyingType done.1.base, .coin spec.settlementType done.1.quote,
            .coin spec.deepCoinType done.1.deep] := by
  have last := (staged.put apartCoin none).put apartFee none
  have took : m.takeAll [coin, deep, .pure minOut, args.clock] =
      some ([.coin spec.settlementType quoteIn, .coin spec.deepCoinType deepIn, .pure minOut, .shared clockObject],
        (m.put coin none).put deep none) := by
    rw [Machine.takeAll_two held fee other ⟨rfl, rfl⟩,
      Machine.takeAll_of (Machine.take_keeps (Machine.read_pure minOut) rfl),
      Machine.takeAll_of (Machine.take_keeps last.clockShared rfl)]
    rfl
  rw [staged.step_pool engine took (by simp) (by decide), executePool,
    if_pos ⟨staged.fits.quote.symm, staged.fits.deep.symm, rfl⟩, Option.map_map]
  congr 1
  funext done
  simp only [Function.comp, coinsOut, staged.fits.base, staged.fits.quote, staged.fits.deep]

end Calls

/-- What there is to see of a run. -/
def observed (final : Machine (World ι β τ) τ (FlashLoan τ)) : World ι β τ × List (Nat × Value τ (FlashLoan τ)) :=
  (final.world, final.sent)

structure Held (m : Machine (World ι β τ) τ (FlashLoan τ)) (args : PutPtbArgs) (a : Argument) (type : τ) (amount : Nat) :
    Prop where
  known : m.read a = some (.coin type amount)
  before : a.Before m.count
  apart : Apart args a

section Holding

variable {m : Machine (World ι β τ) τ (FlashLoan τ)} {args : PutPtbArgs} {a b : Argument} {type : τ} {amount : Nat}

theorem Held.yields (held : Held m args a type amount) {values : List (Value τ (FlashLoan τ))} :
    Held (m.yields values) args a type amount where
  known := (Machine.read_yields values held.before).trans held.known
  before := by
    rw [Machine.yields_count]
    exact held.before.mono (Nat.le_succ _)
  apart := held.apart

theorem Held.put (held : Held m args a type amount) {value : Option (Value τ (FlashLoan τ))}
    (other : a.place ≠ b.place) : Held (m.put b value) args a type amount where
  known := (Machine.read_put value other).trans held.known
  before := by
    rw [Machine.put_count]
    exact held.before
  apart := held.apart

theorem Held.enter (held : Held m args a type amount) {next : World ι β τ} : Held (m.enter next) args a type amount where
  known := (Machine.read_enter next).trans held.known
  before := held.before
  apart := held.apart

end Holding

section Rules

variable [DecidableEq τ] {engine : Engine β} {m : Machine (World ι β τ) τ (FlashLoan τ)} {spec : PutPtbSpec τ}
  {args : PutPtbArgs} {coin loan deep : Argument} {rest : List (Command (MoveCall τ))} {γ : Type}
  {conclude : γ → World ι β τ × List (Nat × Value τ (FlashLoan τ))}

theorem Staged.zero (staged : Staged m spec args) {later : Option γ}
    (each : Staged (m.yields [.coin spec.deepCoinType 0]) spec args →
      ((m.yields [.coin spec.deepCoinType 0]).run (execute engine) rest).map observed = later.map conclude) :
    (m.run (execute engine) (.moveCall ⟨frameworkPackage, .zero, [spec.deepCoinType]⟩ [] :: rest)).map observed =
      later.map conclude := by
  rw [Machine.run_cons, step_zero, Option.bind_some]
  exact each (staged.yields _)

theorem Staged.split {type : τ} {value n : Nat} (staged : Staged m spec args) (apart : Apart args coin)
    (known : m.read coin = some (.coin type value)) {later : Option γ}
    (each : Staged ((m.put coin (some (.coin type (value - n)))).yields [.coin type n]) spec args →
      (((m.put coin (some (.coin type (value - n)))).yields [.coin type n]).run (execute engine) rest).map observed =
        later.map conclude) :
    (m.run (execute engine) (.splitCoins coin [.pure n] :: rest)).map observed =
      (if n ≤ value then later else none).map conclude :=
  Machine.run_guard (Machine.step_split known n) (each ((staged.put apart _).yields _))

theorem Staged.merge {source : Argument} {type : τ} {value more : Nat} (staged : Staged m spec args)
    (apart : Apart args coin) (apartSource : Apart args source) (into : m.read coin = some (.coin type value))
    (held : m.read source = some (.coin type more)) (other : coin.place ≠ source.place) {later : Option γ}
    (each : Staged (((m.put source none).put coin (some (.coin type (value + more)))).yields []) spec args →
      ((((m.put source none).put coin (some (.coin type (value + more)))).yields []).run (execute engine) rest).map
        observed = later.map conclude) :
    (m.run (execute engine) (.mergeCoins coin [source] :: rest)).map observed = later.map conclude := by
  have merged : m.step (execute engine) (.mergeCoins coin [source]) =
      some (((m.put source none).put coin (some (.coin type (value + more)))).yields []) :=
    Machine.step_merge [(source, more)] into (by simpa using held) (List.pairwise_singleton _ _) (by simpa using other)
  rw [Machine.run_cons, merged, Option.bind_some]
  exact each (((staged.put apartSource none).put apart _).yields _)

theorem Staged.borrowBase {amount : Nat} (staged : Staged m spec args) {later : FlashLoan τ × World ι β τ → Option γ}
    (each : ∀ lent, m.world.borrowBase amount = some lent →
      Staged ((m.enter lent.2).yields [.coin spec.underlyingType amount, .resource lent.1]) spec args →
      (((m.enter lent.2).yields [.coin spec.underlyingType amount, .resource lent.1]).run (execute engine) rest).map
        observed = (later lent).map conclude) :
    (m.run (execute engine)
        (.moveCall ⟨spec.deepbookPackage, .borrowFlashloanBase, poolTags spec⟩ [args.pool, .pure amount] :: rest)).map
      observed = ((m.world.borrowBase amount).bind later).map conclude :=
  Machine.run_follow (staged.step_borrowBase engine amount) fun lent ran =>
    each lent ran ((staged.enter (borrowBase_like ran)).yields _)

theorem Staged.borrowQuote {amount : Nat} (staged : Staged m spec args) {later : FlashLoan τ × World ι β τ → Option γ}
    (each : ∀ lent, m.world.borrowQuote amount = some lent →
      Staged ((m.enter lent.2).yields [.coin spec.settlementType amount, .resource lent.1]) spec args →
      (((m.enter lent.2).yields [.coin spec.settlementType amount, .resource lent.1]).run (execute engine) rest).map
        observed = (later lent).map conclude) :
    (m.run (execute engine)
        (.moveCall ⟨spec.deepbookPackage, .borrowFlashloanQuote, poolTags spec⟩ [args.pool, .pure amount] :: rest)).map
      observed = ((m.world.borrowQuote amount).bind later).map conclude :=
  Machine.run_follow (staged.step_borrowQuote engine amount) fun lent ran =>
    each lent ran ((staged.enter (borrowQuote_like ran)).yields _)

theorem Staged.exercise {puts delivery : Nat} (staged : Staged m spec args)
    (held : m.read args.puts = some (.coin spec.putCoinType puts)) (apartPuts : Apart args args.puts)
    (delivered : m.read coin = some (.coin spec.underlyingType delivery)) (apartCoin : Apart args coin)
    (other : coin.place ≠ args.puts.place) {later : Nat × World ι β τ → Option γ}
    (each : ∀ done, m.world.exercisePut puts delivery = some done →
      Staged ((((m.put args.puts none).put coin none).enter done.2).yields [.coin spec.settlementType done.1]) spec args →
      (((((m.put args.puts none).put coin none).enter done.2).yields [.coin spec.settlementType done.1]).run
        (execute engine) rest).map observed = (later done).map conclude) :
    (m.run (execute engine) (.moveCall ⟨spec.corePackage, .exercisePut, bucketTags spec⟩
        [args.bucket, args.puts, coin, args.clock] :: rest)).map observed =
      ((m.world.exercisePut puts delivery).bind later).map conclude :=
  Machine.run_follow (staged.step_exercise engine held apartPuts delivered apartCoin other) fun done ran =>
    each done ran ((((staged.put apartPuts none).put apartCoin none).enter (by
      rw [Machine.put_world, Machine.put_world]
      exact exercisePut_like ran)).yields _)

theorem Staged.spend {quoteIn deepIn minOut : Nat} (staged : Staged m spec args)
    (held : m.read coin = some (.coin spec.settlementType quoteIn)) (apartCoin : Apart args coin)
    (fee : m.read deep = some (.coin spec.deepCoinType deepIn)) (apartFee : Apart args deep)
    (other : deep.place ≠ coin.place) {later : Balances × World ι β τ → Option γ}
    (each : ∀ done, m.world.spendQuote engine quoteIn deepIn minOut = some done →
      Staged ((((m.put coin none).put deep none).enter done.2).yields
        [.coin spec.underlyingType done.1.base, .coin spec.settlementType done.1.quote,
          .coin spec.deepCoinType done.1.deep]) spec args →
      (((((m.put coin none).put deep none).enter done.2).yields
        [.coin spec.underlyingType done.1.base, .coin spec.settlementType done.1.quote,
          .coin spec.deepCoinType done.1.deep]).run (execute engine) rest).map observed = (later done).map conclude) :
    (m.run (execute engine) (.moveCall ⟨spec.deepbookPackage, .swapExactQuoteForBase, poolTags spec⟩
        [args.pool, coin, deep, .pure minOut, args.clock] :: rest)).map observed =
      ((m.world.spendQuote engine quoteIn deepIn minOut).bind later).map conclude :=
  Machine.run_follow (staged.step_spend engine held apartCoin fee apartFee other minOut) fun done ran =>
    each done ran ((((staged.put apartCoin none).put apartFee none).enter (by
      rw [Machine.put_world, Machine.put_world]
      exact spendQuote_like ran)).yields _)

theorem Staged.returnBase {amount : Nat} {lent : FlashLoan τ} (staged : Staged m spec args)
    (held : m.read coin = some (.coin spec.underlyingType amount)) (apartCoin : Apart args coin)
    (owed : m.read loan = some (.resource lent)) (apartLoan : Apart args loan)
    (other : loan.place ≠ coin.place) {later : World ι β τ → Option γ}
    (each : ∀ next, m.world.returnBase amount lent = some next →
      Staged ((((m.put coin none).put loan none).enter next).yields []) spec args →
      (((((m.put coin none).put loan none).enter next).yields []).run (execute engine) rest).map observed =
        (later next).map conclude) :
    (m.run (execute engine)
        (.moveCall ⟨spec.deepbookPackage, .returnFlashloanBase, poolTags spec⟩ [args.pool, coin, loan] :: rest)).map
      observed = ((m.world.returnBase amount lent).bind later).map conclude :=
  Machine.run_follow (staged.step_returnBase engine held owed other) fun next ran =>
    each next ran ((((staged.put apartCoin none).put apartLoan none).enter (by
      rw [Machine.put_world, Machine.put_world]
      exact returnBase_like ran)).yields _)

theorem Staged.returnQuote {amount : Nat} {lent : FlashLoan τ} (staged : Staged m spec args)
    (held : m.read coin = some (.coin spec.settlementType amount)) (apartCoin : Apart args coin)
    (owed : m.read loan = some (.resource lent)) (apartLoan : Apart args loan)
    (other : loan.place ≠ coin.place) {later : World ι β τ → Option γ}
    (each : ∀ next, m.world.returnQuote amount lent = some next →
      Staged ((((m.put coin none).put loan none).enter next).yields []) spec args →
      (((((m.put coin none).put loan none).enter next).yields []).run (execute engine) rest).map observed =
        (later next).map conclude) :
    (m.run (execute engine)
        (.moveCall ⟨spec.deepbookPackage, .returnFlashloanQuote, poolTags spec⟩ [args.pool, coin, loan] :: rest)).map
      observed = ((m.world.returnQuote amount lent).bind later).map conclude :=
  Machine.run_follow (staged.step_returnQuote engine held owed other) fun next ran =>
    each next ran ((((staged.put apartCoin none).put apartLoan none).enter (by
      rw [Machine.put_world, Machine.put_world]
      exact returnQuote_like ran)).yields _)

end Rules

section Runs

variable [DecidableEq τ] (engine : Engine β) {m : Machine (World ι β τ) τ (FlashLoan τ)} {spec : PutPtbSpec τ}
  {args : PutPtbArgs} {pt built : Builder τ}

theorem run_vaultUnderlying {underlying : Argument} (staged : Staged m spec args)
    (puts : Held m args args.puts spec.putCoinType spec.amount) (own : args.underlying = some underlying)
    (delivery : Held m args underlying spec.underlyingType spec.amount) (other : underlying.place ≠ args.puts.place)
    (count : pt.length = m.count) (made : buildPutExercise pt spec args .vaultUnderlying = .ok built) :
    ∃ route, built = pt ++ route ∧
      (m.run (execute engine) route).map observed =
        (PutPath.effect engine spec m.world .vaultUnderlying).map fun done =>
          (done.1, m.sent ++ (done.2.coins spec).map fun v => (spec.recipient, v)) := by
  unfold buildPutExercise at made
  split at made
  · cases made
  · simp only [own, poolCall, exerciseCall, SuiTx.split, repurchase, zeroCoin, Builder.moveCall, Builder.command,
      nested, List.append_assoc, List.length_append, List.length_cons, List.length_nil, List.cons_append,
      List.nil_append, Nat.zero_add, Nat.reduceAdd, count] at made
    cases made
    -- one rule for each command, in the order they were emitted
    refine ⟨_, rfl, staged.exercise puts.known puts.apart delivery.known delivery.apart other
      fun exercised _ staged => ?_⟩
    refine staged.split (staged.apart_whole _)
      (show Machine.read _ (.result m.count) = some (.coin spec.settlementType exercised.1) by simp) fun staged => ?_
    refine staged.zero fun staged => ?_
    refine staged.spend
      (show Machine.read _ (.nestedResult (m.count + 1) 0) = some (.coin spec.settlementType spec.maxQuoteIn) by simp)
      (staged.apart_result _ _)
      (show Machine.read _ (.result (m.count + 2)) = some (.coin spec.deepCoinType 0) by simp)
      (staged.apart_whole _) (by simp [Argument.place]) fun bought _ staged => ?_
    refine staged.split (staged.apart_whole _)
      (show Machine.read _ (.result m.count) = some (.coin spec.settlementType (exercised.1 - spec.maxQuoteIn)) by
        simp [Nat.add_assoc]) fun staged => ?_
    refine (Machine.run_transfer
      [(.result m.count, .coin spec.settlementType (exercised.1 - spec.maxQuoteIn - spec.minProfit)),
        (.nestedResult (m.count + 4) 0, .coin spec.settlementType spec.minProfit),
        (.nestedResult (m.count + 3) 0, .coin spec.underlyingType bought.1.base),
        (.nestedResult (m.count + 3) 1, .coin spec.settlementType bought.1.quote),
        (.nestedResult (m.count + 3) 2, .coin spec.deepCoinType bought.1.deep)] spec.recipient ?_ ?_ ?_).trans ?_
    · simp [Nat.add_assoc]
    · simp [Value.isLinear]
    · simp [Argument.place]
    · simp [Proceeds.coins]

theorem run_baseFlash (staged : Staged m spec args) (puts : Held m args args.puts spec.putCoinType spec.amount)
    (count : pt.length = m.count) (made : buildPutExercise pt spec args .baseFlash = .ok built) :
    ∃ route, built = pt ++ route ∧
      (m.run (execute engine) route).map observed =
        (PutPath.effect engine spec m.world .baseFlash).map fun done =>
          (done.1, m.sent ++ (done.2.coins spec).map fun v => (spec.recipient, v)) := by
  unfold buildPutExercise at made
  split at made
  · cases made
  · simp only [poolCall, exerciseCall, SuiTx.split, repurchase, zeroCoin, Builder.moveCall, Builder.command, nested,
      List.append_assoc, List.length_append, List.length_cons, List.length_nil, List.cons_append, List.nil_append,
      Nat.zero_add, Nat.reduceAdd, count] at made
    cases made
    -- the puts were there before the loan: its coin and its receipt are in other places
    have elsewhere (j : Nat) : args.puts.place ≠ some (.slot m.count j) := puts.before.place_ne (Nat.le_refl _)
    refine ⟨_, rfl, staged.borrowBase fun lent _ staged => ?_⟩
    refine staged.exercise
      puts.enter.yields.known puts.apart
      (show Machine.read _ (.nestedResult m.count 0) = some (.coin spec.underlyingType spec.amount) by simp)
      (staged.apart_result _ _) (Ne.symm (elsewhere 0)) fun exercised _ staged => ?_
    refine staged.split (staged.apart_whole _)
      (show Machine.read _ (.result (m.count + 1)) = some (.coin spec.settlementType exercised.1) by simp) fun staged => ?_
    refine staged.zero fun staged => ?_
    refine staged.spend
      (show Machine.read _ (.nestedResult (m.count + 2) 0) = some (.coin spec.settlementType spec.maxQuoteIn) by simp)
      (staged.apart_result _ _)
      (show Machine.read _ (.result (m.count + 3)) = some (.coin spec.deepCoinType 0) by simp)
      (staged.apart_whole _) (by simp [Argument.place]) fun bought _ staged => ?_
    refine staged.split (staged.apart_result _ _)
      (show Machine.read _ (.nestedResult (m.count + 4) 0) = some (.coin spec.underlyingType bought.1.base) by simp)
      fun staged => ?_
    refine staged.returnBase
      (show Machine.read _ (.nestedResult (m.count + 5) 0) = some (.coin spec.underlyingType spec.amount) by simp)
      (staged.apart_result _ _)
      (show Machine.read _ (.nestedResult m.count 1) = some (.resource lent.1) by
        simp [Machine.put_contents, elsewhere, Nat.add_assoc])
      (staged.apart_result _ _) (by simp [Argument.place]) fun repaid _ staged => ?_
    refine staged.split (staged.apart_whole _)
      (show Machine.read _ (.result (m.count + 1)) = some (.coin spec.settlementType (exercised.1 - spec.maxQuoteIn)) by
        simp) fun staged => ?_
    refine (Machine.run_transfer
      [(.result (m.count + 1), .coin spec.settlementType (exercised.1 - spec.maxQuoteIn - spec.minProfit)),
        (.nestedResult (m.count + 7) 0, .coin spec.settlementType spec.minProfit),
        (.nestedResult (m.count + 4) 0, .coin spec.underlyingType (bought.1.base - spec.amount)),
        (.nestedResult (m.count + 4) 1, .coin spec.settlementType bought.1.quote),
        (.nestedResult (m.count + 4) 2, .coin spec.deepCoinType bought.1.deep)] spec.recipient ?_ ?_ ?_).trans ?_
    · simp
    · simp [Value.isLinear]
    · simp [Argument.place]
    · simp [Proceeds.coins]

theorem run_quoteFlash (staged : Staged m spec args) (puts : Held m args args.puts spec.putCoinType spec.amount)
    (count : pt.length = m.count) (made : buildPutExercise pt spec args .quoteFlash = .ok built) :
    ∃ route, built = pt ++ route ∧
      (m.run (execute engine) route).map observed =
        (PutPath.effect engine spec m.world .quoteFlash).map fun done =>
          (done.1, m.sent ++ (done.2.coins spec).map fun v => (spec.recipient, v)) := by
  unfold buildPutExercise at made
  split at made
  · cases made
  · simp only [poolCall, exerciseCall, SuiTx.split, repurchase, zeroCoin, Builder.moveCall, Builder.command, nested,
      List.append_assoc, List.length_append, List.length_cons, List.length_nil, List.cons_append, List.nil_append,
      Nat.zero_add, Nat.reduceAdd, count] at made
    cases made
    -- the puts come from before the route, none of its results takes their place
    have elsewhere (i j : Nat) (past : m.count ≤ i) : args.puts.place ≠ some (.slot i j) := puts.before.place_ne past
    -- borrow, and buy the underlying with it
    refine ⟨_, rfl, staged.borrowQuote fun lent _ staged => ?_⟩
    refine staged.zero fun staged => ?_
    refine staged.spend
      (show Machine.read _ (.nestedResult m.count 0) = some (.coin spec.settlementType spec.maxQuoteIn) by simp)
      (staged.apart_result _ _)
      (show Machine.read _ (.result (m.count + 1)) = some (.coin spec.deepCoinType 0) by simp)
      (staged.apart_whole _) (by simp [Argument.place]) fun bought _ staged => ?_
    -- exercise with the amount of the puts
    refine staged.split (staged.apart_result _ _)
      (show Machine.read _ (.nestedResult (m.count + 2) 0) = some (.coin spec.underlyingType bought.1.base) by simp)
      fun staged => ?_
    refine staged.exercise
      (Held.known (Held.yields (Held.put (Held.yields (Held.enter (Held.put (Held.put
        (Held.yields (Held.yields puts.enter)) (by exact elsewhere _ _ (Nat.le_refl _)))
        (by exact elsewhere _ _ (Nat.le_succ _))))) (by exact elsewhere _ _ (Nat.le_add_right _ _))))) puts.apart
      (show Machine.read _ (.nestedResult (m.count + 3) 0) = some (.coin spec.underlyingType spec.amount) by simp)
      (staged.apart_result _ _) (Ne.symm (elsewhere _ _ (Nat.le_add_right _ _))) fun exercised _ staged => ?_
    -- the cash and the change of the purchase pay the loan back
    refine staged.merge (staged.apart_whole _) (staged.apart_result _ _)
      (show Machine.read _ (.result (m.count + 4)) = some (.coin spec.settlementType exercised.1) by simp)
      (show Machine.read _ (.nestedResult (m.count + 2) 1) = some (.coin spec.settlementType bought.1.quote) by
        simp [Machine.put_contents, elsewhere, Nat.add_assoc]) (by simp [Argument.place]) fun staged => ?_
    -- the loan is cut off
    refine staged.split (staged.apart_whole _)
      (show Machine.read _ (.result (m.count + 4)) =
        some (.coin spec.settlementType (exercised.1 + bought.1.quote)) by simp) fun staged => ?_
    refine staged.returnQuote
      (show Machine.read _ (.nestedResult (m.count + 6) 0) = some (.coin spec.settlementType spec.maxQuoteIn) by simp)
      (staged.apart_result _ _)
      (show Machine.read _ (.nestedResult m.count 1) = some (.resource lent.1) by
        simp [Machine.put_contents, elsewhere, Nat.add_assoc])
      (staged.apart_result _ _) (by simp [Argument.place]) fun repaid _ staged => ?_
    -- the profit is cut off, which is the check that it is there
    refine staged.split (staged.apart_whole _)
      (show Machine.read _ (.result (m.count + 4)) =
        some (.coin spec.settlementType (exercised.1 + bought.1.quote - spec.maxQuoteIn)) by simp) fun staged => ?_
    -- everything that is left goes to the recipient
    refine (Machine.run_transfer
      [(.result (m.count + 4),
          .coin spec.settlementType (exercised.1 + bought.1.quote - spec.maxQuoteIn - spec.minProfit)),
        (.nestedResult (m.count + 8) 0, .coin spec.settlementType spec.minProfit),
        (.nestedResult (m.count + 2) 0, .coin spec.underlyingType (bought.1.base - spec.amount)),
        (.nestedResult (m.count + 2) 2, .coin spec.deepCoinType bought.1.deep)] spec.recipient ?_ ?_ ?_).trans ?_
    · simp [Machine.put_contents, elsewhere, Nat.add_assoc]
    · simp [Value.isLinear]
    · simp [Argument.place]
    · simp [Proceeds.coins]

end Runs

end SuiOptions.SuiTx
