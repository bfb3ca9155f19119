import SuiOptions.SuiTx.Submission

/-! Submitted put exercises on chain: they commit whenever they run, do what their route does,
and leave every party its due. -/

set_option autoImplicit false

namespace SuiOptions.SuiTx

open Ptb SuiOptions.Core SuiOptions.DeepBook Execution

variable {ι β τ : Type}

section Committing

variable {engine : Engine β} {m mid final : Machine (World ι β τ) τ (FlashLoan τ)}
  {spec : PutPtbSpec τ} {args : PutPtbArgs} {puts own : Wallet} {path : PutPath}
  {pt built commands funding suffix : Builder τ} {coin : Argument} {underlying : Option Argument}

def conclude (sent : List (Nat × Value τ (FlashLoan τ))) (spec : PutPtbSpec τ) (done : World ι β τ × Proceeds) :
    World ι β τ × List (Nat × Value τ (FlashLoan τ)) :=
  (done.1, sent ++ (done.2.coins spec).map fun v => (spec.recipient, v))

/-- A route names no object but its arguments. -/
def NamesOnly (args : PutPtbArgs) (route : Builder τ) : Prop :=
  ∀ c ∈ route, ∀ b ∈ c.arguments, ∀ id, b.place = some (.object id) →
    b = args.pool ∨ b = args.bucket ∨ b = args.clock ∨ b = args.puts ∨ args.underlying = some b

theorem route_names (made : buildPutExercise pt spec args path = .ok built) :
    ∃ route, built = pt ++ route ∧ NamesOnly args route := by
  unfold buildPutExercise at made
  split at made
  · cases made
  · cases path with
    | vaultUnderlying =>
      dsimp only at made
      split at made
      · cases made
      · rename_i underlying given
        simp only [poolCall, exerciseCall, SuiTx.split, repurchase, zeroCoin, Builder.moveCall, Builder.command, nested,
          List.append_assoc, List.cons_append, List.nil_append] at made
        cases made
        refine ⟨_, rfl, ?_⟩
        simp [NamesOnly, Command.arguments, Argument.place, given]
    | baseFlash =>
      simp only [poolCall, exerciseCall, SuiTx.split, repurchase, zeroCoin, Builder.moveCall, Builder.command, nested,
        List.append_assoc, List.cons_append, List.nil_append] at made
      cases made
      refine ⟨_, rfl, ?_⟩
      simp [NamesOnly, Command.arguments, Argument.place]
    | quoteFlash =>
      simp only [poolCall, exerciseCall, SuiTx.split, repurchase, zeroCoin, Builder.moveCall, Builder.command, nested,
        List.append_assoc, List.cons_append, List.nil_append] at made
      cases made
      refine ⟨_, rfl, ?_⟩
      simp [NamesOnly, Command.arguments, Argument.place]

variable [DecidableEq τ]

theorem Gathered.builds (gathered : Gathered engine m mid spec puts own path funding coin underlying)
    (made : buildPutExercise funding spec (routeArgs m.world coin underlying) path = .ok commands) :
    ∃ route, commands = funding ++ route ∧ NamesOnly (routeArgs m.world coin underlying) route ∧
      (mid.run (execute engine) route).map observed = (path.effect engine spec mid.world).map (conclude mid.sent spec) ∧
      leftover (coin :: underlying.toList) funding.length route = some [] := by
  obtain ⟨route, appended, names⟩ := route_names made
  refine ⟨route, appended, names, ?_⟩
  have delivery := gathered.delivery
  -- the puts were made by the funding, before the first command of the route
  have earlier : Earlier coin funding.length := ⟨gathered.result, gathered.length ▸ gathered.held.before⟩
  cases path with
  | vaultUnderlying =>
    obtain ⟨delivered, rfl, result, held, other⟩ := delivery
    obtain ⟨first, same, ran⟩ :=
      run_vaultUnderlying engine gathered.staged gathered.held rfl held other gathered.length made
    obtain ⟨second, alike, settled⟩ := settles_vaultUnderlying earlier ⟨result, gathered.length ▸ held.before⟩
      (fun same => other (congrArg Argument.place same)) made
    cases List.append_cancel_left (appended.symm.trans same)
    cases List.append_cancel_left (appended.symm.trans alike)
    exact ⟨ran, settled⟩
  | baseFlash =>
    obtain rfl : underlying = none := delivery
    obtain ⟨first, same, ran⟩ := run_baseFlash engine gathered.staged gathered.held gathered.length made
    obtain ⟨second, alike, settled⟩ := settles_baseFlash earlier made
    cases List.append_cancel_left (appended.symm.trans same)
    cases List.append_cancel_left (appended.symm.trans alike)
    exact ⟨ran, settled⟩
  | quoteFlash =>
    obtain rfl : underlying = none := delivery
    obtain ⟨first, same, ran⟩ := run_quoteFlash engine gathered.staged gathered.held gathered.length made
    obtain ⟨second, alike, settled⟩ := settles_quoteFlash earlier made
    cases List.append_cancel_left (appended.symm.trans same)
    cases List.append_cancel_left (appended.symm.trans alike)
    exact ⟨ran, settled⟩

/-- Nothing is left over, so that the transaction commits whenever it runs. -/
theorem Gathered.commits (gathered : Gathered engine m mid spec puts own path funding coin underlying)
    (appended : commands = funding ++ suffix)
    (settled : leftover (coin :: underlying.toList) funding.length suffix = some []) :
    m.commit (execute engine) commands = m.run (execute engine) commands := by
  unfold Machine.commit
  split
  · rename_i failed
    exact failed.symm
  · rename_i final ran
    obtain ⟨⟨names, last⟩, tallied, outstanding⟩ := Option.map_eq_some_iff.mp settled
    rw [appended, Machine.run_append, gathered.ran, Option.bind_some] at ran
    rw [gathered.length] at tallied
    have kept := gathered.accounted.run execute_honest tallied ran
    rw [kept.not_stranded outstanding, if_neg Bool.false_ne_true, appended, Machine.run_append, gathered.ran,
      Option.bind_some, ran]

theorem object_of_isResult {a : Argument} {id : Nat} (result : isResult a = true) : a.place ≠ some (.object id) := by
  cases a with
  | pure n => cases result
  | object other => cases result
  | result i => exact fun same => Place.noConfusion (Option.some.inj same)
  | nestedResult i j => exact fun same => Place.noConfusion (Option.some.inj same)

theorem Gathered.kept (gathered : Gathered engine m mid spec puts own path funding coin underlying)
    (ready : Ready m spec puts own) (names : NamesOnly (routeArgs m.world coin underlying) suffix)
    (ran : mid.run (execute engine) suffix = some final) {wallet : Wallet} {type : τ} (stocks : wallet.Stocks type m)
    {d : Nat × Nat} (inside : d ∈ wallet.coins) : final.contents (.object d.1) = mid.contents (.object d.1) := by
  have known := stocks.coins d inside
  -- a coin is not shared, hence none of the objects the route names
  have unshared (id : Nat) (shared : m.contents (.object id) = some (.shared id)) : id ≠ d.1 := by
    rintro rfl
    rw [known] at shared
    cases shared
  refine Machine.run_unnamed ran fun c listed b named same => ?_
  rcases names c listed b named d.1 same with rfl | rfl | rfl | rfl | given
  · exact unshared _ ready.pool (Place.object.inj (Option.some.inj same))
  · exact unshared _ ready.bucket (Place.object.inj (Option.some.inj same))
  · exact unshared _ ready.clock (Place.object.inj (Option.some.inj same))
  · exact object_of_isResult gathered.result same
  · have delivery := gathered.delivery
    have given : underlying = some b := given
    cases path with
    | vaultUnderlying =>
      obtain ⟨delivered, rfl, result, _⟩ := delivery
      cases given
      exact object_of_isResult result same
    | baseFlash => cases given.symm.trans delivery
    | quoteFlash => cases given.symm.trans delivery

theorem Gathered.worth (gathered : Gathered engine m mid spec puts own path funding coin underlying)
    (ready : Ready m spec puts own) (names : NamesOnly (routeArgs m.world coin underlying) suffix)
    (ran : mid.run (execute engine) suffix = some final) (like : mid.world.Like final.world) {wallet : Wallet} {type : τ}
    (stocks : wallet.Stocks type m) : wallet.worth type final = wallet.worth type mid := by
  have same : wallet.coins.map (fun d => coinAt final d.1) = wallet.coins.map fun d => coinAt mid d.1 := by
    refine List.map_congr_left fun d inside => ?_
    rw [coinAt, coinAt, gathered.kept ready names ran stocks inside]
  rw [Wallet.worth, Wallet.worth, same, like.funds]

/-- What the wallets pay for a route. -/
structure Debited (m final : Machine (World ι β τ) τ (FlashLoan τ)) (spec : PutPtbSpec τ) (puts own : Wallet)
    (path : PutPath) : Prop where
  puts : puts.worth spec.putCoinType final + spec.amount = puts.worth spec.putCoinType m
  own : own.worth spec.underlyingType final + path.delivers spec = own.worth spec.underlyingType m

/-- The submitted transaction commits whenever it runs, and does what its route does. -/
theorem Ready.runs [ToString τ] (engine : Engine β) (ready : Ready m spec puts own)
    (made : submitPutExercise spec m.world.pool.poolId m.world.puts.id puts own path = .ok commands) :
    m.commit (execute engine) commands = m.run (execute engine) commands ∧
      (∃ funds, (m.run (execute engine) commands).map observed =
        (path.effect engine spec { m.world with funds }).map (conclude m.sent spec)) ∧
      ∀ final, m.run (execute engine) commands = some final → Debited m final spec puts own path := by
  obtain ⟨funding, mid, coin, underlying, gathered, built⟩ := ready.gathers engine made
  obtain ⟨route, appended, names, effect, settled⟩ := gathered.builds built
  have runs : m.run (execute engine) commands = mid.run (execute engine) route := by
    rw [appended, Machine.run_append, gathered.ran, Option.bind_some]
  refine ⟨gathered.commits appended settled, ?_, fun final ran => ?_⟩
  -- the route starts from the world that the funding leaves, where only the balances differ
  · obtain ⟨funds, world⟩ := gathered.world
    refine ⟨funds, ?_⟩
    rw [runs, effect, world, gathered.sent]
  · rw [runs] at ran
    rw [ran, Option.map_some] at effect
    obtain ⟨done, reached, same⟩ := Option.map_eq_some_iff.mp effect.symm
    obtain ⟨payout, unmoved, _⟩ := route_outcome reached
    have like : mid.world.Like final.world := by
      have world : done.1 = final.world := congrArg Prod.fst same
      rw [← world]
      exact unmoved
    constructor
    · rw [gathered.worth ready names ran like ready.puts]
      exact gathered.putsPaid
    · rw [gathered.worth ready names ran like ready.own]
      exact gathered.ownPaid

end Committing

section Sample

def Sample.spec : PutPtbSpec Nat where
  deepbookPackage := 41
  corePackage := 40
  underlyingType := 0
  settlementType := 1
  putCoinType := 2
  deepCoinType := 3
  amount := 10
  payout := 20
  maxQuoteIn := 12
  minProfit := 5
  recipient := 77

theorem Sample.ready : Ready Sample.machine Sample.spec Sample.putWallet Sample.ownWallet where
  fresh := rfl
  fits := ⟨rfl, rfl, rfl, rfl, rfl, rfl⟩
  pool := rfl
  bucket := rfl
  clock := rfl
  puts := Sample.putWallet_stocks
  own := Sample.ownWallet_stocks
  different := by decide

theorem Sample.commits (path : PutPath) :
    ∃ commands final, submitPutExercise Sample.spec 100 101 Sample.putWallet Sample.ownWallet path = .ok commands ∧
      Sample.machine.commit (execute Sample.engine) commands = some final := by
  have passed : (submitPutExercise Sample.spec 100 101 Sample.putWallet Sample.ownWallet path).toOption.any
      (fun commands => (Sample.machine.commit (execute Sample.engine) commands).isSome) = true := by
    cases path with
    | vaultUnderlying => decide +kernel
    | baseFlash => decide +kernel
    | quoteFlash => decide +kernel
  obtain ⟨commands, made, committed⟩ := (Option.any_eq_true _ _).mp passed
  obtain ⟨final, reached⟩ := Option.isSome_iff_exists.mp committed
  exact ⟨commands, final, toOption_eq_some.mp made, reached⟩

end Sample

section Exercising

variable [DecidableEq τ] [ToString τ] {engine : Engine β} {m final : Machine (World ι β τ) τ (FlashLoan τ)}
  {spec : PutPtbSpec τ} {puts own : Wallet} {path : PutPath} {commands : Builder τ}

/-- The transaction that is submitted comes to the calls of its route, whichever route it is: it commits exactly
when they succeed, and then the world and the coins sent are theirs. It is never refused for a result left over,
and the wallets pay the puts and the underlying of the route, no more. -/
theorem put_exercise_refines (ready : Ready m spec puts own)
    (made : submitPutExercise spec m.world.pool.poolId m.world.puts.id puts own path = .ok commands) :
    m.commit (execute engine) commands = m.run (execute engine) commands ∧
      (∃ funds, (m.commit (execute engine) commands).map observed =
        (path.effect engine spec { m.world with funds }).map (conclude m.sent spec)) ∧
      ∀ final, m.commit (execute engine) commands = some final → Debited m final spec puts own path := by
  obtain ⟨commits, effect, debited⟩ := ready.runs engine made
  refine ⟨commits, ?_, fun final committed => debited final (commits.symm.trans committed)⟩
  rw [commits]
  exact effect

theorem put_exercise_refines_sample :
    ∃ commands final, submitPutExercise Sample.spec 100 101 Sample.putWallet Sample.ownWallet .quoteFlash = .ok commands ∧
      Sample.machine.commit (execute Sample.engine) commands = some final ∧
      Debited Sample.machine final Sample.spec Sample.putWallet Sample.ownWallet .quoteFlash := by
  obtain ⟨commands, final, made, committed⟩ := Sample.commits .quoteFlash
  obtain ⟨_, _, debited⟩ := put_exercise_refines Sample.ready made
  exact ⟨commands, final, made, committed, debited final committed⟩

/-- What a committed put exercise comes to. The bucket exercises the amount; what it held, what the pool held and
the underlying that was delivered are shared by the two and the recipient, who is left the least profit and all of
the payout but the budget. The underlying delivered is bought back, unless the order is too small for the pool:
then only the own-underlying route commits, with none of it bought back. -/
theorem put_exercise_outcome (ready : Ready m spec puts own)
    (made : submitPutExercise spec m.world.pool.poolId m.world.puts.id puts own path = .ok commands)
    (committed : m.commit (execute engine) commands = some final) :
    ∃ p payout, final.sent = m.sent ++ (p.coins spec).map (fun v => (spec.recipient, v)) ∧
      Outcome engine spec path m.world final.world p payout := by
  obtain ⟨commits, ⟨funds, effect⟩, _⟩ := ready.runs engine made
  rw [commits.symm.trans committed, Option.map_some] at effect
  obtain ⟨⟨world, p⟩, reached, same⟩ := Option.map_eq_some_iff.mp effect.symm
  obtain ⟨payout, _, outcome⟩ := route_outcome reached
  have there : world = final.world := congrArg Prod.fst same
  have sent : m.sent ++ (p.coins spec).map (fun v => (spec.recipient, v)) = final.sent := congrArg Prod.snd same
  rw [there] at outcome
  exact ⟨p, payout, sent.symm, outcome.exercised, outcome.conserved, outcome.profit, outcome.spent, outcome.replaced,
    outcome.unplaced⟩

theorem put_exercise_outcome_sample :
    ∃ commands final p payout,
      submitPutExercise Sample.spec 100 101 Sample.putWallet Sample.ownWallet .vaultUnderlying = .ok commands ∧
      Sample.machine.commit (execute Sample.engine) commands = some final ∧
      final.sent = (p.coins Sample.spec).map (fun v => (77, v)) ∧
      Outcome Sample.engine Sample.spec .vaultUnderlying Sample.world final.world p payout := by
  obtain ⟨commands, final, made, committed⟩ := Sample.commits .vaultUnderlying
  obtain ⟨p, payout, sent, outcome⟩ := put_exercise_outcome Sample.ready made committed
  exact ⟨commands, final, p, payout, made, committed, sent, outcome⟩

/-- With the payout the bucket pays, nothing the route adds to its calls refuses it: a submitted transaction
commits exactly when the calls succeed and a flash loan's order is not too small for the pool. The bound is
checked against a sum that saturates, hence the payout short of the largest `u64`. -/
theorem put_exercise_calls (ready : Ready m spec puts own)
    (made : submitPutExercise spec m.world.pool.poolId m.world.puts.id puts own path = .ok commands)
    (priced : applyStrikeFloor spec.amount m.world.puts.state.strike m.world.puts.state.strikeScale = .ok spec.payout)
    (small : spec.payout < 2 ^ 64 - 1) :
    ∃ funds, (m.commit (execute engine) commands).map (·.world) = path.calls engine spec { m.world with funds } := by
  obtain ⟨commits, ⟨funds, effect⟩, _⟩ := ready.runs engine made
  have bounded : checkBounds spec = .ok () := by
    simp only [submitPutExercise, bind_ok] at made
    obtain ⟨_, bounded, _⟩ := made
    exact bounded
  obtain ⟨positive, covered⟩ := checkBounds_ok bounded small
  refine ⟨funds, ?_⟩
  rw [← route_calls (w := { m.world with funds }) positive covered priced, commits]
  have worlds := congrArg (Option.map Prod.fst) effect
  rw [Option.map_map, Option.map_map] at worlds
  exact worlds

theorem put_exercise_calls_sample :
    ∃ commands final funds,
      submitPutExercise Sample.spec 100 101 Sample.putWallet Sample.ownWallet .baseFlash = .ok commands ∧
      Sample.machine.commit (execute Sample.engine) commands = some final ∧
      PutPath.calls Sample.engine Sample.spec { Sample.world with funds } .baseFlash = some final.world := by
  obtain ⟨commands, final, made, committed⟩ := Sample.commits .baseFlash
  obtain ⟨funds, calls⟩ := put_exercise_calls Sample.ready made rfl (by decide)
  rw [committed] at calls
  exact ⟨commands, final, funds, made, committed, calls.symm⟩

end Exercising

section Checked

variable {σ τ ρ : Type} [DecidableEq τ] {m : Machine σ τ ρ}
  {call : MoveCall τ → σ → List (Value τ ρ) → Option (σ × List (Value τ ρ))}

/-- A transaction the checker accepts is never refused for what it leaves over: each result is taken
by a later command, and it commits whenever its commands succeed. -/
theorem nothing_stranded {commands : List (Command (MoveCall τ))} {names : List String} (fresh : m.arities = [])
    (honest : Honest call returnArity) (checked : assertNothingStranded commands = some names) :
    (∀ earlier c later, commands = earlier ++ c :: later →
      ∀ name ∈ resultsOf earlier.length c, ∃ d ∈ later, name ∈ takes d) ∧
      m.commit call commands = m.run call commands := by
  obtain ⟨calls, last, tallied, settled⟩ := assertNothingStranded_ok checked
  constructor
  · intro earlier c later split name result
    rw [← Nat.zero_add earlier.length] at result
    exact (Tally.commands_taken tallied settled).2 earlier c later split name result
  unfold Machine.commit
  split
  · rename_i failed
    exact failed.symm
  · rename_i final ran
    have start : m.count = 0 := congrArg List.length fresh
    -- what is live at the end is outstanding in the tally, where nothing is
    have kept := (Accounted.fresh fresh).run honest (start.symm ▸ tallied) ran
    rw [kept.not_stranded settled, if_neg Bool.false_ne_true, ran]

/-- The calls on chain return as many values as the checker says. -/
theorem execute_checked {ι β : Type} {engine : Engine β} :
    Honest (execute engine : MoveCall τ → World ι β τ → _ → _) returnArity := by
  intro c w arguments done n ran known
  refine execute_honest c w arguments done n ran ?_
  cases named : c.function with
  | redeemFunds =>
    rw [named] at known
    cases known
  | _ =>
    rw [named] at known
    exact known

/-- The route of a base flash loan is accepted, and its commands succeed. -/
theorem nothing_stranded_baseFlash :
    ∃ commands final, submitPutExercise Sample.spec 100 101 Sample.putWallet Sample.ownWallet .baseFlash = .ok commands ∧
      Sample.machine.run (execute Sample.engine) commands = some final ∧
      Sample.machine.commit (execute Sample.engine) commands = some final ∧
      ∀ earlier c later, commands = earlier ++ c :: later →
        ∀ name ∈ resultsOf earlier.length c, ∃ d ∈ later, name ∈ takes d := by
  have passed : (submitPutExercise Sample.spec 100 101 Sample.putWallet Sample.ownWallet .baseFlash).toOption.any
      (fun commands => (assertNothingStranded commands).isSome &&
        (Sample.machine.run (execute Sample.engine) commands).isSome) = true := by decide +kernel
  obtain ⟨commands, made, both⟩ := (Option.any_eq_true _ _).mp passed
  obtain ⟨accepted, succeeds⟩ := (Bool.and_eq_true _ _).mp both
  obtain ⟨names, checked⟩ := Option.isSome_iff_exists.mp accepted
  obtain ⟨final, ran⟩ := Option.isSome_iff_exists.mp succeeds
  obtain ⟨taken, commits⟩ := nothing_stranded (m := Sample.machine) rfl execute_checked checked
  exact ⟨commands, final, toOption_eq_some.mp made, ran, commits.trans ran, taken⟩

end Checked

end SuiOptions.SuiTx
