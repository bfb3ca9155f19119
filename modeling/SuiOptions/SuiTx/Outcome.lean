import SuiOptions.SuiTx.Routes

/-! What a put-exercise route leaves: the bucket, the pool and the recipient share what was
there, and the recipient has the least profit at least. -/

set_option autoImplicit false

namespace SuiOptions.SuiTx

open Ptb SuiOptions.Core SuiOptions.DeepBook Execution Move Words

variable {ι β τ : Type}

def PutPath.delivers (spec : PutPtbSpec τ) : PutPath → Nat
  | .vaultUnderlying => spec.amount
  | .baseFlash | .quoteFlash => 0

def World.held (w : World ι β τ) : Balances :=
  ⟨w.puts.state.underlyingBalance + w.pool.vault.base, w.puts.state.settlementBalance + w.pool.vault.quote,
    w.pool.vault.deep⟩

/-- The order for the budget would be below the least size of the pool. -/
def World.unplaced (engine : Engine β) (spec : PutPtbSpec τ) (w : World ι β τ) : Bool :=
  w.pool.tooSmall engine 0 spec.maxQuoteIn 0 w.now

structure Exercised (b next : PutBucket ι) (amount payout : Nat) : Prop where
  priced : applyStrikeFloor amount b.strike b.strikeScale = .ok payout
  supply : next.supply + amount = b.supply
  underlying : next.underlyingBalance = b.underlyingBalance + amount
  settlement : next.settlementBalance + payout = b.settlementBalance

/-- What a route comes to. -/
structure Outcome (engine : Engine β) (spec : PutPtbSpec τ) (path : PutPath) (w next : World ι β τ) (p : Proceeds)
    (payout : Nat) : Prop where
  exercised : Exercised w.puts.state next.puts.state spec.amount payout
  conserved : Conserved w.held ⟨path.delivers spec, 0, 0⟩ next.held ⟨p.underlying, p.settlement, p.deep⟩
  profit : spec.minProfit ≤ p.settlement
  spent : payout ≤ p.settlement + spec.maxQuoteIn
  replaced : w.unplaced engine spec = false → path.delivers spec ≤ p.underlying
  unplaced : w.unplaced engine spec = true → path = .vaultUnderlying ∧ p.underlying = 0 ∧ p.settlement = payout

section Calls

variable {engine : Engine β} {w next : World ι β τ} {spec : PutPtbSpec τ}

theorem World.Like.trans {last : World ι β τ} (first : w.Like next) (second : next.Like last) : w.Like last :=
  ⟨second.now.trans first.now, second.corePackage.trans first.corePackage,
    second.deepbookPackage.trans first.deepbookPackage,
    second.deepType.trans first.deepType, second.puts.trans first.puts, second.putTags.trans first.putTags,
    second.calls.trans first.calls, second.callTags.trans first.callTags, second.pool.trans first.pool,
    second.base.trans first.base, second.quote.trans first.quote, second.funds.trans first.funds⟩

theorem exercisePut_ok {puts delivery payout : Nat} (ran : w.exercisePut puts delivery = some (payout, next)) :
    delivery = puts ∧ 0 < puts ∧ next.pool = w.pool ∧ Exercised w.puts.state next.puts.state puts payout := by
  unfold World.exercisePut at ran
  split at ran
  · rename_i exercised
    cases ran
    obtain ⟨_, positive, rfl, _, _, supplied, _, _, priced, enough, rfl⟩ := PutBucket.exercise_ok.mp exercised
    exact ⟨rfl, positive, rfl, priced, Nat.sub_add_cancel supplied, rfl, Nat.sub_add_cancel enough⟩
  · cases ran

theorem borrowBase_ok {amount : Nat} {loan : FlashLoan τ} (ran : w.borrowBase amount = some (loan, next)) :
    amount ≤ w.pool.vault.base ∧ loan = ⟨w.pool.poolId, amount, w.pool.baseType⟩ ∧
      next = { w with pool := { w.pool with vault := { w.pool.vault with base := w.pool.vault.base - amount } } } := by
  unfold World.borrowBase at ran
  split at ran
  · rename_i borrowed
    cases ran
    simp only [Pool.borrowFlashloanBase, Pool.borrow, bind_ok, check_ok, pure_ok] at borrowed
    obtain ⟨_, ⟨_, _, _, enough, rfl⟩, same⟩ := borrowed
    cases same
    exact ⟨enough, rfl, rfl⟩
  · cases ran

theorem borrowQuote_ok {amount : Nat} {loan : FlashLoan τ} (ran : w.borrowQuote amount = some (loan, next)) :
    amount ≤ w.pool.vault.quote ∧ loan = ⟨w.pool.poolId, amount, w.pool.quoteType⟩ ∧
      next = { w with pool := { w.pool with vault := { w.pool.vault with quote := w.pool.vault.quote - amount } } } := by
  unfold World.borrowQuote at ran
  split at ran
  · rename_i borrowed
    cases ran
    simp only [Pool.borrowFlashloanQuote, Pool.borrow, bind_ok, check_ok, pure_ok] at borrowed
    obtain ⟨_, ⟨_, _, _, enough, rfl⟩, same⟩ := borrowed
    cases same
    exact ⟨enough, rfl, rfl⟩
  · cases ran

/-- The budget buys underlying, at least the amount asked for; an order too small to place gives all of
it back. -/
structure Bought (engine : Engine β) (w next : World ι β τ) (quoteIn minOut : Nat) (out : Balances) : Prop where
  like : w.Like next
  puts : next.puts = w.puts
  base : next.pool.vault.base + out.base = w.pool.vault.base
  quote : next.pool.vault.quote + out.quote = w.pool.vault.quote + quoteIn
  deep : next.pool.vault.deep + out.deep = w.pool.vault.deep
  placed : w.pool.tooSmall engine 0 quoteIn 0 w.now = false → minOut ≤ out.base
  unplaced : w.pool.tooSmall engine 0 quoteIn 0 w.now = true → out = ⟨0, quoteIn, 0⟩

theorem spendQuote_ok {quoteIn minOut : Nat} {out : Balances}
    (ran : w.spendQuote engine quoteIn 0 minOut = some (out, next)) : Bought engine w next quoteIn minOut out := by
  have like := spendQuote_like ran
  unfold World.spendQuote at ran
  split at ran
  · rename_i swap
    cases ran
    have swapped := swapExactQuantity_ok swap
    have conserved := swapped.conserved
    have spent : 0 < quoteIn := Nat.pos_of_ne_zero (by simpa using swapped.oneSided)
    refine ⟨like, rfl, conserved.base, conserved.quote, conserved.deep, fun placed => ?_, fun unplaced => ?_⟩
    · simpa [spent] using swapped.placed placed
    · exact (swapped.unplaced unplaced).2
  · cases ran

variable [DecidableEq τ]

theorem returnBase_ok {coin : Nat} {loan : FlashLoan τ} (ran : w.returnBase coin loan = some next) :
    next = { w with pool := { w.pool with vault := { w.pool.vault with base := w.pool.vault.base + coin } } } := by
  unfold World.returnBase at ran
  split at ran
  · rename_i returned
    cases ran
    simp only [Pool.returnFlashloanBase, bind_ok, pure_ok, addU64, fit_ok] at returned
    obtain ⟨_, _, _, ⟨_, rfl⟩, rfl⟩ := returned
    rfl
  · cases ran

theorem returnQuote_ok {coin : Nat} {loan : FlashLoan τ} (ran : w.returnQuote coin loan = some next) :
    next = { w with pool := { w.pool with vault := { w.pool.vault with quote := w.pool.vault.quote + coin } } } := by
  unfold World.returnQuote at ran
  split at ran
  · rename_i returned
    cases ran
    simp only [Pool.returnFlashloanQuote, bind_ok, pure_ok, addU64, fit_ok] at returned
    obtain ⟨_, _, _, ⟨_, rfl⟩, rfl⟩ := returned
    rfl
  · cases ran

end Calls

section Routes

variable [DecidableEq τ] {engine : Engine β} {spec : PutPtbSpec τ} {w next : World ι β τ} {p : Proceeds}

theorem vaultUnderlying_outcome (ran : PutPath.effect engine spec w .vaultUnderlying = some (next, p)) :
    ∃ payout, w.Like next ∧ Outcome engine spec .vaultUnderlying w next p payout := by
  simp only [PutPath.effect, Option.bind_eq_some_iff, Option.ite_none_right_eq_some, Option.some.injEq,
    Prod.mk.injEq] at ran
  obtain ⟨⟨payout, exercised⟩, first, budget, ⟨out, bought⟩, second, profit, rfl, rfl⟩ := ran
  obtain ⟨_, _, pool, done⟩ := exercisePut_ok first
  have spent := spendQuote_ok second
  have like := exercisePut_like first
  have small : exercised.pool.tooSmall engine 0 spec.maxQuoteIn 0 exercised.now = w.unplaced engine spec := by
    rw [World.unplaced, pool, like.now]
  have underlying := done.underlying
  have settlement := done.settlement
  have base := spent.base
  have quote := spent.quote
  have deep := spent.deep
  rw [pool] at base quote deep
  dsimp only at budget profit underlying settlement base quote deep
  refine ⟨payout, like.trans spent.like, ?_, ⟨?_, ?_, ?_⟩, ?_, ?_, fun placed => ?_, fun unplaced => ?_⟩
  · rw [spent.puts]
    exact done
  · simp only [World.held, PutPath.delivers, spent.puts]
    omega
  · simp only [World.held, spent.puts, Proceeds.settlement, Option.getD_some]
    omega
  · simp only [World.held]
    omega
  · simp only [Proceeds.settlement]
    omega
  · simp only [Proceeds.settlement]
    omega
  · exact spent.placed (small.trans placed)
  · cases spent.unplaced (small.trans unplaced)
    refine ⟨rfl, rfl, ?_⟩
    simp only [Proceeds.settlement, Option.getD_some]
    omega

theorem baseFlash_outcome (ran : PutPath.effect engine spec w .baseFlash = some (next, p)) :
    ∃ payout, w.Like next ∧ Outcome engine spec .baseFlash w next p payout := by
  simp only [PutPath.effect, Option.bind_eq_some_iff, Option.ite_none_right_eq_some, Option.some.injEq,
    Prod.mk.injEq] at ran
  obtain ⟨⟨loan, lent⟩, first, ⟨payout, exercised⟩, second, budget, ⟨out, bought⟩, third, enough, repaid, fourth, profit,
    rfl, rfl⟩ := ran
  obtain ⟨capacity, _, rfl⟩ := borrowBase_ok first
  obtain ⟨_, positive, pool, done⟩ := exercisePut_ok second
  have spent := spendQuote_ok third
  obtain rfl := returnBase_ok fourth
  have like := (borrowBase_like first).trans (exercisePut_like second)
  have small : exercised.pool.tooSmall engine 0 spec.maxQuoteIn 0 exercised.now = w.unplaced engine spec := by
    rw [World.unplaced, pool, like.now]
    rfl
  have underlying := done.underlying
  have settlement := done.settlement
  have base := spent.base
  have quote := spent.quote
  have deep := spent.deep
  rw [pool] at base quote deep
  dsimp only at capacity budget enough profit underlying settlement base quote deep
  refine ⟨payout, (like.trans spent.like).trans (returnBase_like fourth), ?_, ⟨?_, ?_, ?_⟩, ?_, ?_,
    fun _ => Nat.zero_le _, fun unplaced => ?_⟩
  · rw [spent.puts]
    exact done
  · simp only [World.held, PutPath.delivers, spent.puts]
    omega
  · simp only [World.held, spent.puts, Proceeds.settlement, Option.getD_some]
    omega
  · simp only [World.held]
    omega
  · simp only [Proceeds.settlement]
    omega
  · simp only [Proceeds.settlement]
    omega
  · cases spent.unplaced (small.trans unplaced)
    exact absurd enough (Nat.not_le_of_lt positive)

theorem quoteFlash_outcome (ran : PutPath.effect engine spec w .quoteFlash = some (next, p)) :
    ∃ payout, w.Like next ∧ Outcome engine spec .quoteFlash w next p payout := by
  simp only [PutPath.effect, Option.bind_eq_some_iff, Option.ite_none_right_eq_some, Option.some.injEq,
    Prod.mk.injEq] at ran
  obtain ⟨⟨loan, lent⟩, first, ⟨out, bought⟩, second, enough, ⟨payout, exercised⟩, third, budget, repaid, fourth, profit,
    rfl, rfl⟩ := ran
  obtain ⟨capacity, _, rfl⟩ := borrowQuote_ok first
  have spent := spendQuote_ok second
  obtain ⟨_, positive, pool, done⟩ := exercisePut_ok third
  obtain rfl := returnQuote_ok fourth
  have like := ((borrowQuote_like first).trans spent.like).trans (exercisePut_like third)
  have underlying := done.underlying
  have settlement := done.settlement
  rw [spent.puts] at underlying settlement
  have base := spent.base
  have quote := spent.quote
  have deep := spent.deep
  dsimp only at capacity budget enough profit underlying settlement base quote deep
  refine ⟨payout, like.trans (returnQuote_like fourth), ?_, ⟨?_, ?_, ?_⟩, ?_, ?_, fun _ => Nat.zero_le _,
    fun unplaced => ?_⟩
  · rw [spent.puts] at done
    exact done
  · simp only [World.held, PutPath.delivers, pool]
    omega
  · simp only [World.held, pool, Proceeds.settlement, Option.getD_none]
    omega
  · simp only [World.held, pool]
    omega
  · simp only [Proceeds.settlement]
    omega
  · simp only [Proceeds.settlement]
    omega
  · cases spent.unplaced unplaced
    exact absurd enough (Nat.not_le_of_lt positive)

/-- Whatever the route, what ran exercised the bucket and shared its worth with the pool and the recipient. -/
theorem route_outcome {path : PutPath} (ran : path.effect engine spec w = some (next, p)) :
    ∃ payout, w.Like next ∧ Outcome engine spec path w next p payout := by
  cases path with
  | vaultUnderlying => exact vaultUnderlying_outcome ran
  | baseFlash => exact baseFlash_outcome ran
  | quoteFlash => exact quoteFlash_outcome ran

end Routes

section Bounds

variable {engine : Engine β} {spec : PutPtbSpec τ} {w : World ι β τ}

theorem checkBounds_ok (bounded : checkBounds spec = .ok ()) (small : spec.payout < 2 ^ 64 - 1) :
    0 < spec.amount ∧ spec.maxQuoteIn + spec.minProfit ≤ spec.payout := by
  unfold checkBounds saturatingAdd at bounded
  split at bounded
  · cases bounded
  · split at bounded
    · cases bounded
    · split at bounded
      · cases bounded
      · omega

theorem Exercised.payout_eq {b next : PutBucket ι} {amount payout known : Nat}
    (exercised : Exercised b next amount payout)
    (priced : applyStrikeFloor amount b.strike b.strikeScale = .ok known) : payout = known :=
  Except.ok.inj (exercised.priced.symm.trans priced)

/-- What was bought covers the loan exactly when the order was placed. -/
theorem Bought.covers {next : World ι β τ} {quoteIn amount : Nat} {out : Balances}
    (bought : Bought engine w next quoteIn amount out) (positive : 0 < amount) :
    amount ≤ out.base ↔ w.pool.tooSmall engine 0 quoteIn 0 w.now = false := by
  constructor
  · intro enough
    rw [← Bool.not_eq_true]
    intro unplaced
    rw [bought.unplaced unplaced] at enough
    exact absurd enough (Nat.not_le_of_lt positive)
  · exact bought.placed

end Bounds

section Unrefused

variable [DecidableEq τ] (engine : Engine β) (spec : PutPtbSpec τ) (w : World ι β τ)

/-- The calls of a route alone; a flash loan is paid back when the order for it was placed. -/
def PutPath.calls : PutPath → Option (World ι β τ)
  | .vaultUnderlying =>
    (w.exercisePut spec.amount spec.amount).bind fun exercised =>
      (exercised.2.spendQuote engine spec.maxQuoteIn 0 spec.amount).bind fun bought => some bought.2
  | .baseFlash =>
    (w.borrowBase spec.amount).bind fun lent =>
      (lent.2.exercisePut spec.amount spec.amount).bind fun exercised =>
        (exercised.2.spendQuote engine spec.maxQuoteIn 0 spec.amount).bind fun bought =>
          if w.unplaced engine spec = false then bought.2.returnBase spec.amount lent.1 else none
  | .quoteFlash =>
    (w.borrowQuote spec.maxQuoteIn).bind fun lent =>
      (lent.2.spendQuote engine spec.maxQuoteIn 0 spec.amount).bind fun bought =>
        if w.unplaced engine spec = false then
          (bought.2.exercisePut spec.amount spec.amount).bind fun exercised =>
            exercised.2.returnQuote spec.maxQuoteIn lent.1
        else none

variable {engine spec w}

theorem vaultUnderlying_calls (covered : spec.maxQuoteIn + spec.minProfit ≤ spec.payout)
    (priced : applyStrikeFloor spec.amount w.puts.state.strike w.puts.state.strikeScale = .ok spec.payout) :
    (PutPath.effect engine spec w .vaultUnderlying).map (·.1) = PutPath.calls engine spec w .vaultUnderlying := by
  simp only [PutPath.effect, PutPath.calls, Option.map_bind]
  refine Option.bind_congr fun exercised ran => ?_
  obtain ⟨_, _, _, done⟩ := exercisePut_ok ran
  have paid := done.payout_eq priced
  rw [Function.comp_apply, if_pos (by omega), Option.map_bind]
  refine Option.bind_congr fun bought _ => ?_
  rw [Function.comp_apply, if_pos (by omega), Option.map_some]

theorem baseFlash_calls (positive : 0 < spec.amount) (covered : spec.maxQuoteIn + spec.minProfit ≤ spec.payout)
    (priced : applyStrikeFloor spec.amount w.puts.state.strike w.puts.state.strikeScale = .ok spec.payout) :
    (PutPath.effect engine spec w .baseFlash).map (·.1) = PutPath.calls engine spec w .baseFlash := by
  simp only [PutPath.effect, PutPath.calls, Option.map_bind]
  refine Option.bind_congr fun lent borrowed => ?_
  obtain ⟨loan, lent⟩ := lent
  obtain ⟨_, _, same⟩ := borrowBase_ok borrowed
  rw [Function.comp_apply, Option.map_bind]
  refine Option.bind_congr fun exercised ran => ?_
  obtain ⟨_, _, pool, done⟩ := exercisePut_ok ran
  have paid := done.payout_eq (by rw [same]; exact priced)
  rw [Function.comp_apply, if_pos (by omega), Option.map_bind]
  refine Option.bind_congr fun bought spent => ?_
  have small : exercised.2.pool.tooSmall engine 0 spec.maxQuoteIn 0 exercised.2.now = w.unplaced engine spec := by
    rw [pool, (exercisePut_like ran).now, same]
    rfl
  have covers := (spendQuote_ok spent).covers positive
  rw [small] at covers
  rw [Function.comp_apply]
  by_cases placed : w.unplaced engine spec = false
  -- the order is placed: the base bought covers the loan
  · rw [if_pos placed, if_pos (covers.mpr placed), Option.map_bind]
    refine (Option.bind_congr fun repaid _ => ?_).trans (Option.bind_fun_some _)
    rw [Function.comp_apply, if_pos (by omega), Option.map_some]
  · rw [if_neg placed, if_neg (fun enough => placed (covers.mp enough)), Option.map_none]

theorem quoteFlash_calls (positive : 0 < spec.amount) (covered : spec.maxQuoteIn + spec.minProfit ≤ spec.payout)
    (priced : applyStrikeFloor spec.amount w.puts.state.strike w.puts.state.strikeScale = .ok spec.payout) :
    (PutPath.effect engine spec w .quoteFlash).map (·.1) = PutPath.calls engine spec w .quoteFlash := by
  simp only [PutPath.effect, PutPath.calls, Option.map_bind]
  refine Option.bind_congr fun lent borrowed => ?_
  obtain ⟨loan, lent⟩ := lent
  obtain ⟨_, _, same⟩ := borrowQuote_ok borrowed
  rw [Function.comp_apply, Option.map_bind]
  refine Option.bind_congr fun bought spent => ?_
  have small : lent.pool.tooSmall engine 0 spec.maxQuoteIn 0 lent.now = w.unplaced engine spec := by
    rw [same]
    rfl
  have covers := (spendQuote_ok spent).covers positive
  rw [small] at covers
  rw [Function.comp_apply]
  by_cases placed : w.unplaced engine spec = false
  -- the order is placed: the base bought covers the delivery
  · rw [if_pos placed, if_pos (covers.mpr placed), Option.map_bind]
    refine Option.bind_congr fun exercised ran => ?_
    obtain ⟨_, _, _, done⟩ := exercisePut_ok ran
    have paid := done.payout_eq (by rw [(spendQuote_ok spent).puts, same]; exact priced)
    rw [Function.comp_apply, if_pos (by omega), Option.map_bind]
    refine (Option.bind_congr fun repaid _ => ?_).trans (Option.bind_fun_some _)
    rw [Function.comp_apply, if_pos (by omega), Option.map_some]
  · rw [if_neg placed, if_neg (fun enough => placed (covers.mp enough)), Option.map_none]

/-- With the payout the desk has read, no split of a route refuses it: it comes to its calls alone. -/
theorem route_calls {path : PutPath} (positive : 0 < spec.amount)
    (covered : spec.maxQuoteIn + spec.minProfit ≤ spec.payout)
    (priced : applyStrikeFloor spec.amount w.puts.state.strike w.puts.state.strikeScale = .ok spec.payout) :
    (path.effect engine spec w).map (·.1) = path.calls engine spec w := by
  cases path with
  | vaultUnderlying => exact vaultUnderlying_calls covered priced
  | baseFlash => exact baseFlash_calls positive covered priced
  | quoteFlash => exact quoteFlash_calls positive covered priced

end Unrefused

end SuiOptions.SuiTx
