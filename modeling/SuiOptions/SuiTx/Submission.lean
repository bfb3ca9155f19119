import SuiOptions.SuiTx.Funding
import SuiOptions.SuiTx.Outcome

/-! The put exercise the desk submits: its coins are gathered from the wallets, and one of
the routes spends them. -/

set_option autoImplicit false

namespace SuiOptions.SuiTx

open Ptb SuiOptions.Core SuiOptions.DeepBook Execution

variable {ι β τ : Type}

section Building

variable [ToString τ] (spec : PutPtbSpec τ)

def gatherUnderlying (pt : Builder τ) (own : Wallet) : PutPath → Except String (Option Argument × Builder τ)
  | .vaultUnderlying =>
    match exactCoin pt own spec.underlyingType spec.amount with
    | .ok (coin, pt) => .ok (some coin, pt)
    | .error why => .error s!"gathering own underlying for delivery: {why}"
  | .baseFlash | .quoteFlash => .ok (none, pt)

def submitPutExercise (pool bucket : Nat) (puts own : Wallet) (path : PutPath) : Except String (Builder τ) := do
  checkBounds spec
  let (coin, pt) ← exactCoin [] puts spec.putCoinType spec.amount
  let (underlying, pt) ← gatherUnderlying spec pt own path
  buildPutExercise pt spec ⟨.object pool, .object bucket, .object clockObject, coin, underlying⟩ path

end Building

/-- Before anything runs: the shared objects are there under their names, and the wallets are what
the sender has. -/
structure Ready (m : Machine (World ι β τ) τ (FlashLoan τ)) (spec : PutPtbSpec τ) (puts own : Wallet) : Prop where
  fresh : m.arities = []
  fits : spec.Fits m.world
  pool : m.contents (.object m.world.pool.poolId) = some (.shared m.world.pool.poolId)
  bucket : m.contents (.object m.world.puts.id) = some (.shared m.world.puts.id)
  clock : m.contents (.object clockObject) = some (.shared clockObject)
  puts : puts.Stocks spec.putCoinType m
  own : own.Stocks spec.underlyingType m
  different : spec.putCoinType ≠ spec.underlyingType

theorem Wallet.Stocks.disjoint {m : Machine (World ι β τ) τ (FlashLoan τ)} {wallet other : Wallet} {type kind : τ}
    (stocks : wallet.Stocks type m) (others : other.Stocks kind m)
    (different : type ≠ kind) {c d : Nat × Nat} (one : c ∈ wallet.coins) (two : d ∈ other.coins) : c.1 ≠ d.1 := by
  intro same
  have known := stocks.coins c one
  rw [same, others.coins d two] at known
  exact different (Value.coin.inj (Option.some.inj known)).1.symm

def routeArgs (w : World ι β τ) (coin : Argument) (underlying : Option Argument) : PutPtbArgs :=
  ⟨.object w.pool.poolId, .object w.puts.id, .object clockObject, coin, underlying⟩

theorem Ready.staged {m : Machine (World ι β τ) τ (FlashLoan τ)} {spec : PutPtbSpec τ} {puts own : Wallet}
    (ready : Ready m spec puts own) (coin : Argument) (underlying : Option Argument) :
    Staged m spec (routeArgs m.world coin underlying) where
  fits := ready.fits
  pool := rfl
  bucket := rfl
  clock := rfl
  poolShared := ready.pool
  bucketShared := ready.bucket
  clockShared := ready.clock

section Gathering

variable [DecidableEq τ] {engine : Engine β} {m mid next : Machine (World ι β τ) τ (FlashLoan τ)} {spec : PutPtbSpec τ}
  {args : PutPtbArgs} {pt built : Builder τ} {wallet other : Wallet} {type kind : τ} {amount count value : Nat}
  {coin : Argument} {coins : List Argument}

theorem exactCoin_funds [ToString τ] (stocks : wallet.Stocks type m) (length : pt.length = m.count)
    (made : exactCoin pt wallet type amount = .ok (coin, built)) :
    ∃ commands next, built = pt ++ commands ∧ m.run (execute engine) commands = some next ∧
      Funded m next wallet type amount 1 [coin] ∧ next.count = built.length := by
  unfold exactCoin at made
  split at made
  · rename_i gathered
    cases made
    obtain ⟨commands, next, appended, ran, funded, counted⟩ := exactCoins_funds engine (by decide) stocks length gathered
    cases List.length_eq_zero_iff.mp (Nat.succ.inj funded.number)
    exact ⟨commands, next, appended, ran, funded, counted⟩
  · cases made
  · cases made

theorem Funded.read_shared {a : Argument} {object id : Nat} (funded : Funded m next wallet type amount count coins)
    (stocks : wallet.Stocks type m) (place : a = .object object) (known : m.read a = some (.shared id)) :
    next.read a = some (.shared id) := by
  subst place
  rw [funded.grown.frame (.object object) trivial, known]
  intro spent listed same
  obtain ⟨c, inside, rfl⟩ := List.mem_map.mp listed
  cases same
  have coin := stocks.coins c inside
  rw [← Machine.read_object, known] at coin
  cases coin

theorem Funded.staged (funded : Funded m next wallet type amount count coins) (stocks : wallet.Stocks type m)
    (staged : Staged m spec args) : Staged next spec args := by
  obtain ⟨drawn, _, world⟩ := funded.world
  have fits := staged.fits
  refine ⟨?_, ?_, ?_, staged.clock, ?_, ?_, funded.read_shared stocks staged.clock staged.clockShared⟩
  · rw [world]
    exact ⟨fits.deepbook, fits.core, fits.base, fits.quote, fits.tags, fits.deep⟩
  · rw [world]
    exact staged.pool
  · rw [world]
    exact staged.bucket
  · rw [world]
    exact funded.read_shared stocks staged.pool staged.poolShared
  · rw [world]
    exact funded.read_shared stocks staged.bucket staged.bucketShared

theorem Funded.elsewhere (funded : Funded m next wallet type amount count coins)
    (apart : ∀ c ∈ wallet.coins, ∀ d ∈ other.coins, c.1 ≠ d.1) {d : Nat × Nat} (inside : d ∈ other.coins) :
    next.contents (.object d.1) = m.contents (.object d.1) := by
  refine funded.grown.frame (.object d.1) trivial fun id listed same => ?_
  obtain ⟨c, spent, rfl⟩ := List.mem_map.mp listed
  exact apart c spent d inside (Place.object.inj (Option.some.inj same)).symm

theorem Funded.funds (funded : Funded m next wallet type amount count coins) (different : type ≠ kind) :
    next.world.funds kind = m.world.funds kind := by
  obtain ⟨drawn, _, world⟩ := funded.world
  rw [world]
  exact Function.update_of_ne different.symm _ _

theorem Funded.stocks (funded : Funded m next wallet type amount count coins) (stocks : wallet.Stocks type m)
    (others : other.Stocks kind m) (different : type ≠ kind) : other.Stocks kind next where
  coins d inside :=
    (funded.elsewhere (fun _ one _ two => stocks.disjoint others different one two) inside).trans (others.coins d inside)
  distinct := others.distinct
  funds := (funded.funds different).trans others.funds

theorem Funded.worth (funded : Funded m next wallet type amount count coins) (different : type ≠ kind)
    (apart : ∀ c ∈ wallet.coins, ∀ d ∈ other.coins, c.1 ≠ d.1) : other.worth kind next = other.worth kind m := by
  have same : other.coins.map (fun d => coinAt next d.1) = other.coins.map fun d => coinAt m d.1 := by
    refine List.map_congr_left fun d inside => ?_
    rw [coinAt, coinAt, funded.elsewhere apart inside]
  rw [Wallet.worth, Wallet.worth, same, funded.funds different]

theorem Funded.held (funded : Funded m next wallet type amount 1 [coin]) (staged : Staged next spec args) :
    Held next args coin type amount := by
  have inside : (coin, amount) ∈ [coin].map fun a => (a, amount) := List.mem_singleton_self _
  obtain ⟨i, j, place, _⟩ := funded.grown.made _ inside
  have known := funded.grown.coins _ inside
  exact ⟨known, funded.grown.before _ inside, staged.apart_coin place known⟩

theorem Funded.kept {i j : Nat} (funded : Funded m next wallet type amount count coins)
    (held : Held m args coin kind value) (place : coin.place = some (.slot i j)) : Held next args coin kind value where
  known := by
    rw [funded.grown.frame coin held.before fun id _ same => by
      rw [place] at same
      cases same]
    exact held.known
  before := held.before.mono funded.grown.count
  apart := held.apart

end Gathering

/-- The calls the submitted transactions make, withdrawals from a wallet among them. -/
def returns : Function → Option Nat
  | .redeemFunds => some 1
  | function => returnArity function

section Returning

variable [DecidableEq τ] {engine : Engine β}

theorem executePool_length {function : Function} {w : World ι β τ} {arguments : List (Value τ (FlashLoan τ))}
    {done : World ι β τ × List (Value τ (FlashLoan τ))} {n : Nat}
    (ran : executePool engine function w arguments = some done) (known : returns function = some n) :
    done.2.length = n := by
  unfold executePool at ran
  split at ran
  · obtain ⟨lent, _, rfl⟩ := Option.map_eq_some_iff.mp ran
    exact Option.some.inj known
  · obtain ⟨lent, _, rfl⟩ := Option.map_eq_some_iff.mp ran
    exact Option.some.inj known
  · obtain ⟨next, _, rfl⟩ := Option.map_eq_some_iff.mp (Option.ite_none_right_eq_some.mp ran).2
    exact Option.some.inj known
  · obtain ⟨next, _, rfl⟩ := Option.map_eq_some_iff.mp (Option.ite_none_right_eq_some.mp ran).2
    exact Option.some.inj known
  · cases known
  · obtain ⟨bought, _, rfl⟩ := Option.map_eq_some_iff.mp (Option.ite_none_right_eq_some.mp ran).2
    exact Option.some.inj known
  · cases ran

/-- The calls return as many values as the checker takes them to. -/
theorem execute_honest : Honest (execute engine : MoveCall τ → World ι β τ → _ → _) returns := by
  intro c w arguments done n ran known
  unfold execute at ran
  split at ran
  · rename_i named _
    rw [named] at known
    obtain ⟨_, same⟩ := Option.ite_none_right_eq_some.mp ran
    cases same
    exact Option.some.inj known
  · rename_i named _
    rw [named] at known
    obtain ⟨next, _, rfl⟩ := Option.map_eq_some_iff.mp (Option.ite_none_right_eq_some.mp ran).2
    exact Option.some.inj known
  · rename_i named _
    rw [named] at known
    cases known
  · rename_i named _
    rw [named] at known
    obtain ⟨paid, _, rfl⟩ := Option.map_eq_some_iff.mp (Option.ite_none_right_eq_some.mp ran).2
    exact Option.some.inj known
  · exact executePool_length (Option.ite_none_right_eq_some.mp ran).2 known
  · cases ran

end Returning

section Tallying

variable {spec : PutPtbSpec τ} {pt built : Builder τ} {pool bucket : Nat} {coin underlying : Argument}

structure Earlier (coin : Argument) (count : Nat) : Prop where
  result : isResult coin = true
  before : coin.Before count

theorem Earlier.ne_result {count i : Nat} (earlier : Earlier coin count) (past : count ≤ i) :
    .result i ≠ coin ∧ coin ≠ .result i := by
  have other : .result i ≠ coin := by
    rintro rfl
    exact Nat.lt_irrefl _ (Nat.lt_of_lt_of_le earlier.before past)
  exact ⟨other, other.symm⟩

theorem Earlier.ne_nestedResult {count i j : Nat} (earlier : Earlier coin count) (past : count ≤ i) :
    .nestedResult i j ≠ coin ∧ coin ≠ .nestedResult i j := by
  have other : .nestedResult i j ≠ coin := by
    rintro rfl
    exact Nat.lt_irrefl _ (Nat.lt_of_lt_of_le earlier.before past)
  exact ⟨other, other.symm⟩

def leftover (coins : List Argument) (index : Nat) (route : Builder τ) : Option (List Argument) :=
  ((⟨coins, []⟩ : Tally).commands returns index route).map fun done => done.2.outstanding

theorem settles_vaultUnderlying (puts : Earlier coin pt.length) (delivery : Earlier underlying pt.length)
    (apart : underlying ≠ coin)
    (made : buildPutExercise pt spec ⟨.object pool, .object bucket, .object clockObject, coin, some underlying⟩
      .vaultUnderlying = .ok built) :
    ∃ route, built = pt ++ route ∧ leftover [coin, underlying] pt.length route = some [] := by
  unfold buildPutExercise at made
  split at made
  · cases made
  · simp only [poolCall, exerciseCall, SuiTx.split, repurchase, zeroCoin, Builder.moveCall, Builder.command, nested,
      List.append_assoc, List.length_append, List.length_cons, List.length_nil, List.cons_append, List.nil_append,
      Nat.zero_add, Nat.reduceAdd] at made
    cases made
    refine ⟨_, rfl, ?_⟩
    simp [leftover, Tally.commands, Tally.command, Tally.consumeAll, Tally.consume, Tally.produce, produced, returns,
      returnArity, puts.result, puts.ne_result, puts.ne_nestedResult, delivery.result, delivery.ne_result,
      delivery.ne_nestedResult, apart, List.range_succ, Nat.add_assoc]

theorem settles_baseFlash (puts : Earlier coin pt.length)
    (made : buildPutExercise pt spec ⟨.object pool, .object bucket, .object clockObject, coin, none⟩ .baseFlash =
      .ok built) :
    ∃ route, built = pt ++ route ∧ leftover [coin] pt.length route = some [] := by
  unfold buildPutExercise at made
  split at made
  · cases made
  · simp only [poolCall, exerciseCall, SuiTx.split, repurchase, zeroCoin, Builder.moveCall, Builder.command, nested,
      List.append_assoc, List.length_append, List.length_cons, List.length_nil, List.cons_append, List.nil_append,
      Nat.zero_add, Nat.reduceAdd] at made
    cases made
    refine ⟨_, rfl, ?_⟩
    simp [leftover, Tally.commands, Tally.command, Tally.consumeAll, Tally.consume, Tally.produce, produced, returns,
      returnArity, puts.result, puts.ne_result, puts.ne_nestedResult, List.range_succ, Nat.add_assoc]

theorem settles_quoteFlash (puts : Earlier coin pt.length)
    (made : buildPutExercise pt spec ⟨.object pool, .object bucket, .object clockObject, coin, none⟩ .quoteFlash =
      .ok built) :
    ∃ route, built = pt ++ route ∧ leftover [coin] pt.length route = some [] := by
  unfold buildPutExercise at made
  split at made
  · cases made
  · simp only [poolCall, exerciseCall, SuiTx.split, repurchase, zeroCoin, Builder.moveCall, Builder.command, nested,
      List.append_assoc, List.length_append, List.length_cons, List.length_nil, List.cons_append, List.nil_append,
      Nat.zero_add, Nat.reduceAdd] at made
    cases made
    refine ⟨_, rfl, ?_⟩
    simp [leftover, Tally.commands, Tally.command, Tally.consumeAll, Tally.consume, Tally.produce, produced, returns,
      returnArity, puts.result, puts.ne_result, puts.ne_nestedResult, List.range_succ, Nat.add_assoc]

end Tallying

section Submitting

variable [DecidableEq τ] [ToString τ] {engine : Engine β} {m mid final : Machine (World ι β τ) τ (FlashLoan τ)}
  {spec : PutPtbSpec τ} {puts own : Wallet} {path : PutPath} {commands funding : Builder τ} {coin : Argument}
  {underlying : Option Argument}

/-- The coins of a route are there, and nothing else is live; the wallets have paid for them. -/
structure Gathered (engine : Engine β) (m mid : Machine (World ι β τ) τ (FlashLoan τ)) (spec : PutPtbSpec τ)
    (puts own : Wallet) (path : PutPath) (funding : Builder τ) (coin : Argument) (underlying : Option Argument) : Prop where
  ran : m.run (execute engine) funding = some mid
  length : funding.length = mid.count
  staged : Staged mid spec (routeArgs m.world coin underlying)
  held : Held mid (routeArgs m.world coin underlying) coin spec.putCoinType spec.amount
  result : isResult coin = true
  delivery : match path with
    | .vaultUnderlying => ∃ delivered, underlying = some delivered ∧ isResult delivered = true ∧
        Held mid (routeArgs m.world coin underlying) delivered spec.underlyingType spec.amount ∧
        delivered.place ≠ coin.place
    | .baseFlash | .quoteFlash => underlying = none
  world : ∃ funds, mid.world = { m.world with funds }
  sent : mid.sent = m.sent
  accounted : Accounted mid ⟨coin :: underlying.toList, []⟩
  putsPaid : puts.worth spec.putCoinType mid + spec.amount = puts.worth spec.putCoinType m
  ownPaid : own.worth spec.underlyingType mid + path.delivers spec = own.worth spec.underlyingType m

theorem isResult_of_place {a : Argument} {i j : Nat} (place : a.place = some (.slot i j)) : isResult a = true := by
  cases a with
  | pure n => cases place
  | object id => cases place
  | result i => rfl
  | nestedResult i j => rfl

theorem Ready.gathers_puts (engine : Engine β) (ready : Ready m spec puts own)
    (made : exactCoin [] puts spec.putCoinType spec.amount = .ok (coin, funding)) :
    ∃ mid, Gathered engine m mid spec puts own .baseFlash funding coin none ∧
      Funded m mid puts spec.putCoinType spec.amount 1 [coin] := by
  have start : ([] : Builder τ).length = m.count := (congrArg List.length ready.fresh).symm
  obtain ⟨commands, mid, appended, ran, funded, counted⟩ := exactCoin_funds ready.puts start made
  rw [List.nil_append] at appended
  subst appended
  have staged := funded.staged ready.puts (ready.staged coin none)
  obtain ⟨i, j, place, _⟩ := funded.grown.made _ (List.mem_singleton_self _)
  obtain ⟨drawn, _, world⟩ := funded.world
  have paid := funded.debited
  rw [Nat.one_mul] at paid
  refine ⟨mid, ⟨ran, counted.symm, staged, funded.held staged, isResult_of_place place, rfl, ⟨_, world⟩,
    funded.grown.sent, funded.grown.accounted _ (Accounted.fresh ready.fresh), paid, ?_⟩, funded⟩
  exact funded.worth ready.different fun _ one _ two => ready.puts.disjoint ready.own ready.different one two

theorem Ready.gathers (engine : Engine β) (ready : Ready m spec puts own)
    (made : submitPutExercise spec m.world.pool.poolId m.world.puts.id puts own path = .ok commands) :
    ∃ funding mid coin underlying, Gathered engine m mid spec puts own path funding coin underlying ∧
      buildPutExercise funding spec (routeArgs m.world coin underlying) path = .ok commands := by
  simp only [submitPutExercise, bind_ok] at made
  obtain ⟨_, _, ⟨coin, pt⟩, first, ⟨underlying, funding⟩, second, built⟩ := made
  obtain ⟨mid, gathered, funded⟩ := ready.gathers_puts engine first
  cases path with
  | baseFlash =>
    cases second
    exact ⟨_, mid, _, _, gathered, built⟩
  | quoteFlash =>
    cases second
    exact ⟨_, mid, _, _, { gathered with delivery := rfl }, built⟩
  | vaultUnderlying =>
    simp only [gatherUnderlying] at second
    split at second
    · rename_i delivered _ delivery
      cases second
      -- the second wallet is gathered on the machine the first one leaves
      have stocks := funded.stocks ready.puts ready.own ready.different
      obtain ⟨commands, next, rfl, ran, paid, counted⟩ := exactCoin_funds stocks gathered.length delivery
      have staged := paid.staged stocks (funded.staged ready.puts (ready.staged coin (some delivered)))
      have held := funded.held (funded.staged ready.puts (ready.staged coin (some delivered)))
      obtain ⟨i, j, place, _⟩ := funded.grown.made _ (List.mem_singleton_self _)
      obtain ⟨k, l, here, later⟩ := paid.grown.made _ (List.mem_singleton_self _)
      obtain ⟨funds, before⟩ := gathered.world
      obtain ⟨drawn, _, after⟩ := paid.world
      have ownPaid := paid.debited
      have ownKept : own.worth spec.underlyingType mid + 0 = own.worth spec.underlyingType m := gathered.ownPaid
      rw [Nat.one_mul] at ownPaid
      refine ⟨_, next, coin, some delivered, ⟨?_, counted.symm, staged, paid.kept held place, gathered.result, ?_, ?_,
        paid.grown.sent.trans gathered.sent, paid.grown.accounted _ gathered.accounted, ?_, ?_⟩, built⟩
      · rw [Machine.run_append, gathered.ran, Option.bind_some, ran]
      · refine ⟨delivered, rfl, isResult_of_place here, paid.held staged, fun same => ?_⟩
        exact held.before.place_ne later (same.symm.trans here)
      · rw [after, before]
        exact ⟨_, rfl⟩
      · rw [paid.worth ready.different.symm fun _ one _ two =>
          (ready.puts.disjoint ready.own ready.different two one).symm]
        exact gathered.putsPaid
      · exact ownPaid.trans ownKept
    · cases second

end Submitting

end SuiOptions.SuiTx
