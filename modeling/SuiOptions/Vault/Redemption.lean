import SuiOptions.Vault.Payments
import SuiOptions.Vault.Appraised

/-! Solvency of the terminal settlement.

The snapshot turns each side of the book into a pool. Every claim is a portion
of its pool rounded down, so what is owed to all claims together bounds what
they can take one by one, in any order.
-/

set_option autoImplicit false

namespace SuiOptions.Vault

open Execution Move
open Exchange (ID Address DomainState)

namespace SettlementPool

variable (pool : SettlementPool)

def worthOn : LaneCode → Nat
  | .senior => pool.seniorPool
  | .junior => pool.juniorPool

def supplyOn : LaneCode → Nat
  | .senior => pool.seniorSupply
  | .junior => pool.juniorSupply

theorem poolOf_eq (tranche : Tranche) : pool.poolOf tranche = pool.worthOn (laneCodeOf tranche) := by
  cases tranche <;> rfl

theorem supplyOf_eq (tranche : Tranche) : pool.supplyOf tranche = pool.supplyOn (laneCodeOf tranche) := by
  cases tranche <;> rfl

def due (code : LaneCode) (shares : Nat) : Nat := ProRata.portion (pool.worthOn code) (pool.supplyOn code) shares

def entitled (stake : Stake) : Nat :=
  if (stake.tranche = .junior ∧ stake.generation < pool.activeJuniorGeneration) ∨ pool.supplyOf stake.tranche = 0 then 0
  else pool.poolOf stake.tranche * stake.shares / pool.supplyOf stake.tranche

theorem entitlement_eq (stake : Stake) :
    pool.entitlement stake.tranche stake.generation stake.shares = castU64 (pool.entitled stake) := by
  unfold entitlement entitled
  split
  · rfl
  · rfl

/-- A sound stake is entitled to what its weight is due; it weighs on one side only. -/
theorem entitled_eq {capital : CapitalStructure} {stake : Stake} (sound : stake.Sound capital pool.activeJuniorGeneration) :
    pool.entitled stake = pool.due .senior (stake.weight pool.activeJuniorGeneration .senior) +
      pool.due .junior (stake.weight pool.activeJuniorGeneration .junior) := by
  by_cases wiped : stake.tranche = .junior ∧ stake.generation < pool.activeJuniorGeneration
  · rw [entitled, if_pos (Or.inl wiped), Stake.weight_wiped wiped.1 wiped.2, Stake.weight_wiped wiped.1 wiped.2]
    simp [due]
  · have one : pool.entitled stake = pool.due (laneCodeOf stake.tranche) stake.shares := by
      unfold entitled due ProRata.portion
      rw [poolOf_eq, supplyOf_eq]
      split
      case isTrue either =>
        rcases either with gone | empty
        · exact absurd gone wiped
        · rw [empty, Nat.div_zero]
      case isFalse => rfl
    rw [one, sound.weight_live .senior wiped, sound.weight_live .junior wiped]
    cases laneCodeOf stake.tranche <;> simp [due]

end SettlementPool

namespace TradingVault

variable {Obj : Type} {v next : TradingVault Obj} {pool : SettlementPool}

def owed (v : TradingVault Obj) (pool : SettlementPool) : Nat :=
  pool.due .senior (v.outstanding .senior) + pool.due .junior (v.outstanding .junior)

def stakes (v : TradingVault Obj) : List Stake := v.claims.map (·.position.stake) ++ v.queue.requests.map (·.2.stake)

def entitlements (v : TradingVault Obj) (pool : SettlementPool) : Nat := (v.stakes.map pool.entitled).sum

theorem outstanding_eq_stakes (code : LaneCode) :
    v.outstanding code = (v.stakes.map (Stake.weight v.book.activeJuniorGeneration code)).sum := by
  simp [outstanding, outstandingOf, stakes, Function.comp_def]

theorem WellKept.stakes (kept : v.WellKept) :
    ∀ stake ∈ v.stakes, stake.Sound v.capital v.book.activeJuniorGeneration := by
  intro stake member
  rcases List.mem_append.mp member with held | queued
  · obtain ⟨claim, known, rfl⟩ := List.mem_map.mp held
    exact kept.claims claim known
  · obtain ⟨entry, known, rfl⟩ := List.mem_map.mp queued
    exact kept.requests entry known

/-- Rounded one by one, the claims take no more than they are owed together. -/
theorem entitlements_le (kept : v.WellKept) (generation : pool.activeJuniorGeneration = v.book.activeJuniorGeneration) :
    v.entitlements pool ≤ v.owed pool := by
  have sound := kept.stakes
  rw [← generation] at sound
  rw [entitlements, owed, outstanding_eq_stakes, outstanding_eq_stakes, ← generation]
  generalize v.stakes = stakes at sound ⊢
  induction stakes with
  | nil => simp
  | cons stake rest ih =>
    have later := ih fun other member => sound other (List.mem_cons_of_mem _ member)
    have senior := ProRata.portion_add_le (pool.worthOn .senior) (pool.supplyOn .senior)
      (stake.weight pool.activeJuniorGeneration .senior)
      (rest.map (Stake.weight pool.activeJuniorGeneration .senior)).sum
    have junior := ProRata.portion_add_le (pool.worthOn .junior) (pool.supplyOn .junior)
      (stake.weight pool.activeJuniorGeneration .junior)
      (rest.map (Stake.weight pool.activeJuniorGeneration .junior)).sum
    simp only [List.map_cons, List.sum_cons, pool.entitled_eq (sound stake List.mem_cons_self)]
    unfold SettlementPool.due at later ⊢
    omega

/-- A settled vault that can pay every claim and the curator's fees. -/
structure Solvent (v : TradingVault Obj) (pool : SettlementPool) : Prop where
  closed : v.state = .closed
  settled : v.settlement = some pool
  generation : pool.activeJuniorGeneration = v.book.activeJuniorGeneration
  supplied : ∀ code, v.outstanding code ≤ pool.supplyOn code
  funded : pool.curatorFeesAccrued + v.owed pool ≤ v.freeBalance v.config.accountingAsset
  bounded : pool.curatorFeesAccrued + v.owed pool < u64Bound

theorem owed_congr (same : ∀ code, next.outstanding code = v.outstanding code) : next.owed pool = v.owed pool := by
  rw [owed, owed, same, same]

theorem Solvent.carry (solvent : v.Solvent pool) (state : next.state = .closed) (settlement : next.settlement = v.settlement)
    (generation : next.book.activeJuniorGeneration = v.book.activeJuniorGeneration)
    (outstanding : ∀ code, next.outstanding code = v.outstanding code)
    (accounting : next.config.accountingAsset = v.config.accountingAsset)
    (grew : v.freeBalance v.config.accountingAsset ≤ next.freeBalance v.config.accountingAsset) : next.Solvent pool := by
  refine ⟨state, settlement.trans solvent.settled, solvent.generation.trans generation.symm, ?_, ?_, ?_⟩
  · intro code
    rw [outstanding code]
    exact solvent.supplied code
  · rw [owed_congr outstanding, accounting]
    exact Nat.le_trans solvent.funded grew
  · rw [owed_congr outstanding]
    exact solvent.bounded

theorem Solvent.synced (solvent : v.Solvent pool) (frame : SyncFrame v next) : next.Solvent pool := by
  refine solvent.carry (frame.state.trans solvent.closed) frame.settlement frame.supply.generation ?_ (by rw [frame.config]) ?_
  · exact (Reshuffled.of_same frame.capital frame.supply frame.claims (by rw [frame.queue])).outstanding
  · rw [freeBalance, freeBalance, frame.purse]

/-! ### Paying a claim -/

structure Paying (v : TradingVault Obj) (stake : Stake) (next : TradingVault Obj) : Prop where
  state : next.state = v.state
  config : next.config = v.config
  settlement : next.settlement = v.settlement
  purse : next.purse = v.purse
  book : next.book = v.book
  outstanding : ∀ code, v.outstanding code = stake.weight v.book.activeJuniorGeneration code + next.outstanding code

theorem Paying.owed {stake : Stake} (paying : Paying v stake next) (solvent : v.Solvent pool)
    (sound : stake.Sound v.capital v.book.activeJuniorGeneration) :
    pool.entitled stake + next.owed pool ≤ v.owed pool := by
  rw [← solvent.generation] at sound
  rw [pool.entitled_eq sound, TradingVault.owed, TradingVault.owed, paying.outstanding, paying.outstanding,
    solvent.generation]
  have senior := ProRata.portion_add_le (pool.worthOn .senior) (pool.supplyOn .senior)
    (stake.weight v.book.activeJuniorGeneration .senior) (next.outstanding .senior)
  have junior := ProRata.portion_add_le (pool.worthOn .junior) (pool.supplyOn .junior)
    (stake.weight v.book.activeJuniorGeneration .junior) (next.outstanding .junior)
  unfold SettlementPool.due
  omega

theorem payOut_of (v : TradingVault Obj) (t : TypeName) (amount : Nat) (enough : amount ≤ v.purse.balances t) :
    ∃ next, v.payOut t amount = .ok next ∧ next.purse.balances t = v.purse.balances t - amount := by
  unfold payOut
  split
  case isTrue none => exact ⟨v, rfl, by omega⟩
  case isFalse some =>
    simp only [take, Purse.takeBalanceInternal, check_of (show 0 < v.purse.balances t by omega), check_of enough]
    exact ⟨_, rfl, Function.update_self _ _ _⟩

theorem Paying.pays {stake : Stake} (paying : Paying v stake next) (solvent : v.Solvent pool)
    (sound : stake.Sound v.capital v.book.activeJuniorGeneration) (cfg : VaultProtocolConfig) (basis : Nat) :
    ∃ last, next.paySettlement cfg v.config.accountingAsset stake.tranche stake.generation stake.shares basis = .ok last := by
  have owed := paying.owed solvent sound
  have bounded := solvent.bounded
  have funded := solvent.funded
  have small : pool.entitled stake < u64Bound := by omega
  obtain ⟨fees, crystallizes, within⟩ :=
    crystallize_of basis small next.config.feeBound cfg.protocolFeeBound
  obtain ⟨_, parts⟩ := crystallize_ok crystallizes
  have entitles : pool.entitlement stake.tranche stake.generation stake.shares = .ok (pool.entitled stake) := by
    rw [pool.entitlement_eq, castU64, fit_of small]
  have accrues : (addU64 pool.curatorFeesAccrued fees.curatorNet : Result Error Nat) =
      .ok (pool.curatorFeesAccrued + fees.curatorNet) := fit_of (by omega)
  rw [freeBalance] at funded
  obtain ⟨cut, cuts, left⟩ := payOut_of { next with
    settlement := some { pool with curatorFeesAccrued := pool.curatorFeesAccrued + fees.curatorNet } }
    v.config.accountingAsset fees.protocolCut (by rw [paying.purse]; omega)
  obtain ⟨last, pays, _⟩ := payOut_of cut v.config.accountingAsset (pool.entitled stake - fees.grossFee)
    (by rw [left, paying.purse]; omega)
  refine ⟨last, ?_⟩
  simp only [paySettlement, paying.settlement, solvent.settled, need, entitles, crystallizes, accrues, cuts, sub_of within,
    bind, Except.bind]
  exact pays

theorem Paying.solvent {last : TradingVault Obj} {stake : Stake} {cfg : VaultProtocolConfig} {basis : Nat}
    (paying : Paying v stake next) (solvent : v.Solvent pool)
    (sound : stake.Sound v.capital v.book.activeJuniorGeneration)
    (ran : next.paySettlement cfg v.config.accountingAsset stake.tranche stake.generation stake.shares basis = .ok last) :
    ∃ pool, last.Solvent pool := by
  have owed := paying.owed solvent sound
  have bounded := solvent.bounded
  have funded := solvent.funded
  obtain ⟨pool', entitlement, fees, purse, settled, entitles, crystallizes, enough, within, balances, _, rfl⟩ :=
    paySettlement_ok ran
  cases settled.symm.trans (paying.settlement.trans solvent.settled)
  rw [pool.entitlement_eq, castU64, fit_ok] at entitles
  obtain ⟨_, rfl⟩ := entitles
  obtain ⟨_, parts⟩ := crystallize_ok crystallizes
  -- the net fee moves from what is owed to what has accrued
  have rest : pool.curatorFeesAccrued + fees.curatorNet + next.owed pool +
      (fees.protocolCut + (pool.entitled stake - fees.grossFee)) ≤ pool.curatorFeesAccrued + v.owed pool := by omega
  refine ⟨{ pool with curatorFeesAccrued := pool.curatorFeesAccrued + fees.curatorNet },
    paying.state.trans solvent.closed, rfl, ?_, fun code => ?_, ?_, ?_⟩
  · exact solvent.generation.trans (by rw [paying.book])
  · have supplied := solvent.supplied code
    rw [paying.outstanding code] at supplied
    have same : SettlementPool.supplyOn { pool with curatorFeesAccrued := pool.curatorFeesAccrued + fees.curatorNet } code =
        pool.supplyOn code := by cases code <;> rfl
    rw [same]
    exact Nat.le_trans (Nat.le_add_left _ _) supplied
  · change pool.curatorFeesAccrued + fees.curatorNet + next.owed pool ≤ purse.balances next.config.accountingAsset
    rw [balances, paying.config, Function.update_self, paying.purse]
    rw [freeBalance] at funded
    omega
  · change pool.curatorFeesAccrued + fees.curatorNet + next.owed pool < u64Bound
    omega

theorem redeeming {index : Nat} {held : Held} (found : v.claims[index]? = some held) :
    Paying v held.position.stake { v with claims := v.claims.eraseIdx index } := by
  refine ⟨rfl, rfl, rfl, rfl, rfl, fun code => ?_⟩
  have erased := Sums.sum_map_eraseIdx
    (fun held : Held => held.position.stake.weight v.book.activeJuniorGeneration code) found
  simp only [outstanding, outstandingOf]
  omega

theorem settling {seq : Nat} {request : WithdrawRequest} (found : v.queue.requests.get? seq = some request) :
    Paying v request.stake { v with queue := v.queue.drop seq request found } :=
  ⟨rfl, rfl, rfl, rfl, rfl, outstanding_drop found rfl rfl rfl⟩

theorem claimSettlementCuratorFees_solvent {t : TypeName} {purse : Purse} (solvent : v.Solvent pool)
    (asset : t = v.config.accountingAsset) (taken : v.purse.takeBalanceInternal t pool.curatorFeesAccrued = .ok purse) :
    ({ v with settlement := some { pool with curatorFeesAccrued := 0 }, purse } : TradingVault Obj).Solvent
      { pool with curatorFeesAccrued := 0 } := by
  obtain ⟨_, _, balances⟩ := Purse.takeBalanceInternal_ok taken
  have bounded := solvent.bounded
  have funded := solvent.funded
  refine ⟨solvent.closed, rfl, solvent.generation, fun code => ?_, ?_, ?_⟩
  · have supplied := solvent.supplied code
    cases code <;> exact supplied
  · change 0 + v.owed pool ≤ purse.balances v.config.accountingAsset
    rw [balances, asset, Function.update_self]
    rw [freeBalance] at funded
    omega
  · change 0 + v.owed pool < u64Bound
    omega

/-! ### Batches that outlive the closing -/

def NoBetter (f : Fulfillment) (pool : SettlementPool) : Prop :=
  ∀ tranche, ProRata.NoBetter (f.navOf tranche + 1) (f.supplyOf tranche + shareOffset) (pool.poolOf tranche)
    (pool.supplyOf tranche)

theorem Exited.owed {f : Fulfillment} {receipt : Receipt} {minted : Nat} (exited : Exited v f receipt minted next)
    (solvent : v.Solvent pool) (cheap : NoBetter f pool) :
    (∀ code, next.outstanding code ≤ v.outstanding code) ∧
      receipt.priced.payout + receipt.priced.protocolCut + next.owed pool ≤ v.owed pool := by
  have fewer := exited.exits.minted_le (Nat.succ_pos _)
  have side : receipt.priced.payout + receipt.priced.protocolCut +
      pool.due (laneCodeOf receipt.request.tranche) (next.outstanding (laneCodeOf receipt.request.tranche)) ≤
        pool.due (laneCodeOf receipt.request.tranche) (v.outstanding (laneCodeOf receipt.request.tranche)) := by
    have moved := exited.claimed (laneCodeOf receipt.request.tranche)
    simp only [mintOf, if_pos] at moved
    have supplied := solvent.supplied (laneCodeOf receipt.request.tranche)
    by_cases empty : pool.supplyOn (laneCodeOf receipt.request.tranche) = 0
    · -- no share of this side is left, and the request has none
      have counted := exited.counted
      have exits := exited.exits
      unfold ProRata.Exit at exits
      have none : receipt.request.shares = 0 := by omega
      rw [none, Nat.zero_mul] at exits
      have paid : receipt.priced.payout + receipt.priced.protocolCut = 0 := by
        by_contra some
        have := Nat.mul_pos (Nat.pos_of_ne_zero some) (show 0 < f.supplyOf receipt.request.tranche + shareOffset by
          simp [shareOffset])
        omega
      rw [paid, Nat.zero_add]
      exact ProRata.portion_mono _ _ (by omega)
    · have better := cheap receipt.request.tranche
      rw [pool.poolOf_eq, pool.supplyOf_eq] at better
      have exits := exited.exits.better (Nat.succ_pos _) (by simp [shareOffset]) better
      exact exits.portion_le (Nat.pos_of_ne_zero empty) fewer moved
  have senior := exited.claimed .senior
  have junior := exited.claimed .junior
  unfold TradingVault.owed
  constructor
  · intro code
    have moved := exited.claimed code
    simp only [mintOf] at moved
    split at moved <;> omega
  · cases lane : laneCodeOf receipt.request.tranche
    · simp only [mintOf, lane, if_neg (show LaneCode.senior ≠ .junior by decide)] at junior
      rw [lane] at side
      rw [Nat.add_right_cancel junior]
      omega
    · simp only [mintOf, lane, if_neg (show LaneCode.junior ≠ .senior by decide)] at senior
      rw [lane] at side
      rw [Nat.add_right_cancel senior]
      omega

theorem fulfillNext_settlement {cfg : VaultProtocolConfig} {f : Fulfillment} {p : TypeName} {now : Nat} {id : ID}
    {outcome : Option Receipt} (ran : v.fulfillNext cfg f p now id = .ok (next, outcome)) :
    next.settlement = v.settlement := by
  rcases fulfillNext_ok ran with ⟨rfl, _⟩ | ⟨receipt, _, paid⟩
  · rfl
  · exact paid.from.settlement

theorem fulfillNext_solvent {cfg : VaultProtocolConfig} {f : Fulfillment} {p : TypeName} {now : Nat} {id : ID}
    {outcome : Option Receipt} (solvent : v.Solvent pool) (kept : v.WellKept) (cheap : NoBetter f pool)
    (ran : v.fulfillNext cfg f p now id = .ok (next, outcome)) : next.Solvent pool := by
  rcases fulfillNext_ok ran with ⟨rfl, _⟩ | ⟨receipt, _, paid⟩
  · exact solvent.carry solvent.closed rfl rfl (fun _ => rfl) rfl (Nat.le_refl _)
  have frame := paid.from
  cases wiped : v.wipedClaim receipt.request.tranche receipt.request.capitalGeneration with
  | true =>
    obtain ⟨nothing, book, outstanding⟩ := paid.wiped wiped
    refine solvent.carry (frame.state.trans solvent.closed) frame.settlement frame.generation outstanding
      (by rw [frame.config]) ?_
    rw [freeBalance, freeBalance, frame.balances, nothing, Nat.sub_zero, Function.update_eq_self]
  | false =>
    obtain ⟨minted, exited⟩ := paid.exited kept wiped
    obtain ⟨fewer, owed⟩ := exited.owed solvent cheap
    have bounded := solvent.bounded
    have funded := solvent.funded
    refine ⟨frame.state.trans solvent.closed, frame.settlement.trans solvent.settled,
      solvent.generation.trans frame.generation.symm,
      fun code => Nat.le_trans (fewer code) (solvent.supplied code), ?_, by omega⟩
    rw [freeBalance] at funded ⊢
    rw [frame.config, frame.balances]
    rcases convert_ok paid.converted with ⟨same | gone, payout, cut⟩ | ⟨other, _⟩
    · rw [same, Function.update_self]
      omega
    · cases gone.symm.trans wiped
    · rw [Function.update_of_ne (Ne.symm other)]
      omega

/-! ### The snapshot -/

/-- Legs other than the accounting balance are worth nothing. -/
def Liquid (v : TradingVault Obj) (a : Appraisal Obj) : Prop :=
  ∀ leg ∈ a.legs, leg.balanceType ≠ some v.config.accountingAsset → leg.value = 0

theorem sum_one_type {t : TypeName} {amount : Nat} {legs : List (Leg Obj)} (once : (legs.filterMap Leg.balanceType).Nodup)
    (worth : ∀ leg ∈ legs, leg.balanceType = some t → leg.value = amount)
    (others : ∀ leg ∈ legs, leg.balanceType ≠ some t → leg.value = 0) : (legs.map Leg.value).sum ≤ amount := by
  induction legs with
  | nil => exact Nat.zero_le _
  | cons leg rest ih =>
    have later := ih (by
        rw [List.filterMap_cons] at once
        split at once
        · exact once
        · exact (List.nodup_cons.mp once).2)
      (fun other member => worth other (List.mem_cons_of_mem _ member))
      (fun other member => others other (List.mem_cons_of_mem _ member))
    rw [List.map_cons, List.sum_cons]
    by_cases here : leg.balanceType = some t
    · have nothing : (rest.map Leg.value).sum = 0 := by
        apply List.sum_eq_zero
        intro value member
        obtain ⟨other, known, rfl⟩ := List.mem_map.mp member
        refine others other (List.mem_cons_of_mem _ known) fun same => ?_
        rw [List.filterMap_cons, here] at once
        exact (List.nodup_cons.mp once).1 (List.mem_filterMap.mpr ⟨other, known, same⟩)
      rw [worth leg List.mem_cons_self here, nothing]
      exact Nat.le_refl _
    · rw [others leg List.mem_cons_self here]
      omega

theorem Liquid.total {a : Appraisal Obj} {nav : Nat} (liquid : v.Liquid a) (fits : Fits v a)
    (consumed : v.consumeAppraisal a = .ok nav) : nav ≤ v.freeBalance v.config.accountingAsset := by
  obtain ⟨_, _, _, seq, rfl⟩ := World.consumeAppraisal_ok consumed
  have current := fits.current seq
  rw [fits.total]
  refine sum_one_type fits.types (fun leg member same => ?_) liquid
  cases leg with
  | balance t amount value =>
    cases same
    exact (fits.par amount value member).trans (current.amounts _ amount value member)
  | position valued object value => cases same
  | equity value => cases same

theorem snapshotSettlement_solvent {cfg : VaultProtocolConfig} {a : Appraisal Obj} {now : Nat} (holds : v.SharesHold)
    (fits : Fits v a) (liquid : v.Liquid a) (ran : v.snapshotSettlement cfg a now = .ok next)
    (settled : next.settlement = some pool) : next.Solvent pool := by
  obtain ⟨closed, unsettled, nav, synced, seniorNav, juniorNav, consumed, syncs, small, rfl⟩ := snapshotSettlement_ok ran
  have frame := syncCapital_frame syncs
  have conserved := (holds.synced syncs).conserved (frame.settlement.trans unsettled)
  have enough := liquid.total fits consumed
  obtain ⟨_, _, _, split, _⟩ := syncCapital_ok syncs
  have same := Option.some.inj settled
  have worths : pool.worthOn .senior = seniorNav ∧ pool.worthOn .junior = juniorNav := by
    rw [← same]
    exact ⟨rfl, rfl⟩
  have supplied : ∀ code, synced.outstanding code = pool.supplyOn code := by
    intro code
    rw [← conserved code, ← same]
    cases code <;> rfl
  -- every share of the book is outstanding, and due its whole pool at most
  have owed : pool.curatorFeesAccrued + synced.owed pool ≤ nav := by
    have senior := ProRata.portion_le (pool.worthOn .senior) (Nat.le_of_eq (supplied .senior))
    have junior := ProRata.portion_le (pool.worthOn .junior) (Nat.le_of_eq (supplied .junior))
    have fresh : pool.curatorFeesAccrued = 0 := by rw [← same]
    unfold TradingVault.owed SettlementPool.due
    omega
  refine ⟨frame.state.trans closed, settled, by rw [← same], fun code => Nat.le_of_eq (supplied code), ?_, ?_⟩
  · change _ ≤ synced.purse.balances synced.config.accountingAsset
    rw [frame.purse, frame.config]
    exact Nat.le_trans owed enough
  · exact Nat.lt_of_le_of_lt owed small

/-! ### Every claim succeeds -/

theorem Solvent.redeems {index : Nat} {p : VaultPosition} (solvent : v.Solvent pool) (kept : v.WellKept)
    (cfg : VaultProtocolConfig) (found : v.claims[index]? = some ⟨p, .wallet⟩) :
    ∃ next, v.redeemSettledPosition cfg v.config.accountingAsset index = .ok next := by
  obtain ⟨next, pays⟩ := (redeeming found).pays solvent (kept.claims _ (List.mem_of_getElem? found)) cfg p.costBasis
  refine ⟨next, ?_⟩
  simp only [redeemSettledPosition, bind_ok, check_ok, exists_const, walletPosition_ok]
  exact ⟨p, found, solvent.closed, by rw [solvent.settled]; rfl, trivial, pays⟩

theorem Solvent.settles {seq : Nat} {request : WithdrawRequest} (solvent : v.Solvent pool) (kept : v.WellKept)
    (cfg : VaultProtocolConfig) (found : v.queue.requests.get? seq = some request) :
    ∃ next, v.settleQueuedRequest cfg v.config.accountingAsset seq = .ok next := by
  obtain ⟨next, pays⟩ := (settling found).pays solvent (kept.requests _ (Table.mem_of_get? found)) cfg request.basis
  refine ⟨next, ?_⟩
  have looked : v.queue.lookup seq .requestMissing = .ok ⟨request, found⟩ := by
    simp [WithdrawQueue.lookup, found, pure, Except.pure]
  simp only [settleQueuedRequest, bind_ok, check_ok, exists_const, looked, Except.ok.injEq, exists_eq_left']
  exact ⟨solvent.closed, by rw [solvent.settled]; rfl, trivial, pays⟩

theorem escrowed_isSome {cap : ID} {tranche : Tranche} {held : Held} (member : held ∈ v.claims)
    (place : held.place = .commitment cap tranche) : (v.escrowed cap tranche).isSome := by
  have located : (v.claims.findIdx? fun held => held.place = .commitment cap tranche).isSome := by
    rw [List.findIdx?_isSome, List.any_eq_true]
    exact ⟨held, member, by simpa using place⟩
  obtain ⟨index, found⟩ := Option.isSome_iff_exists.mp located
  obtain ⟨bound, _⟩ := List.findIdx?_eq_some_iff_getElem.mp found
  simp only [escrowed, found, Option.bind_eq_bind, Option.bind_some, List.getElem?_eq_getElem bound]
  rfl

theorem Solvent.withdraws {cap : ID} {tranche : Tranche} {held : Held} (solvent : v.Solvent pool)
    (member : held ∈ v.claims) (place : held.place = .commitment cap tranche) :
    ∃ next, v.withdrawCommitmentSettled cap = .ok next := by
  have slot : (v.slotOf cap).isSome := by
    have here := escrowed_isSome member place
    unfold slotOf
    rw [Option.isSome_or, Option.isSome_or]
    cases tranche <;> simp [here]
  obtain ⟨⟨index, other⟩, found⟩ := Option.isSome_iff_exists.mp slot
  refine ⟨{ v with claims := v.claims.set index { other with place := .wallet } }, ?_⟩
  simp only [withdrawCommitmentSettled, bind_ok, check_ok, exists_const, need_ok, Prod.exists, pure_ok]
  exact ⟨solvent.closed, by rw [solvent.settled]; rfl, index, other, found, rfl⟩

theorem Solvent.claims (solvent : v.Solvent pool) (positive : 0 < pool.curatorFeesAccrued) :
    ∃ next, v.claimSettlementCuratorFees v.curatorCapId v.config.accountingAsset = .ok next := by
  have funded := solvent.funded
  rw [freeBalance] at funded
  simp only [claimSettlementCuratorFees, assertCurrentCap, bind_ok, check_ok, exists_const, need_ok, take_ok,
    Purse.takeBalanceInternal, pure_ok]
  exact ⟨_, trivial, pool, solvent.settled, trivial, positive, _, ⟨by omega, by omega, rfl⟩, rfl⟩

def Sure (v : TradingVault Obj) : Prop := ∀ pool, v.settlement = some pool → v.Solvent pool

theorem Sure.of_solvent (solvent : v.Solvent pool) : v.Sure := by
  intro other settled
  cases solvent.settled.symm.trans settled
  exact solvent

theorem Sure.carry (before : v.Sure) (settlement : next.settlement = v.settlement)
    (closed : v.state = .closed → next.state = .closed) (moved : Reshuffled v next)
    (accounting : next.config.accountingAsset = v.config.accountingAsset)
    (grew : v.settlement.isSome → v.state = .closed →
      v.freeBalance v.config.accountingAsset ≤ next.freeBalance v.config.accountingAsset) : next.Sure := by
  intro pool settled
  rw [settlement] at settled
  have solvent := before pool settled
  exact solvent.carry (closed solvent.closed) settlement moved.supply.generation moved.outstanding accounting
    (grew (by rw [settled]; rfl) solvent.closed)

theorem Sure.synced (before : v.Sure) (frame : SyncFrame v next) : next.Sure := by
  intro pool settled
  rw [frame.settlement] at settled
  exact (before pool settled).synced frame

end TradingVault

variable {Obj : Type} {v next : TradingVault Obj}

open TradingVault

theorem Call.sure {env : Env} {c : Call Obj} (before : v.Sure) (kept : v.WellKept)
    (spared : ∀ source recipient amount, c = .mmRelease source recipient v.config.accountingAsset amount →
      v.settlement.isSome → amount = 0)
    (ran : c.run env v = .ok next) : next.Sure := by
  cases Call.effect ran with
  | quiet quiet =>
    refine before.carry quiet.settlement quiet.closed quiet.reshuffled quiet.accounting fun _ _ => ?_
    rw [freeBalance, freeBalance, quiet.purse]
  | session ran =>
    obtain ⟨purse, custody, queue, rfl, lanes, _, grew⟩ := session_ok ran
    refine before.carry rfl (fun closed => closed) (.of_same rfl (.refl _) rfl ?_) rfl fun _ closed => grew closed _
    rcases lanes with rfl | rfl <;> rfl
  | receivePosition stored =>
    exact before.carry rfl (fun closed => closed) (.of_same rfl (.refl _) rfl rfl) rfl fun _ _ => Nat.le_refl _
  | receiveCoin moved grew =>
    exact before.carry rfl (fun closed => closed) (.of_same rfl (.refl _) rfl rfl) rfl fun _ _ => grew _
  | @mmRelease source recipient t amount purse sound taken =>
    refine before.carry rfl (fun closed => closed) (.of_same rfl (.refl _) rfl rfl) rfl fun settled _ => ?_
    obtain ⟨_, _, balances⟩ := Purse.takeBalanceInternal_ok taken
    rw [freeBalance, freeBalance, balances]
    by_cases here : t = v.config.accountingAsset
    · subst here
      rw [Function.update_self, spared source recipient amount rfl settled]
      exact Nat.le_refl _
    · rw [Function.update_of_ne (Ne.symm here)]
  | returnExternal known mine stored =>
    exact before.carry rfl (fun closed => closed) (.of_same rfl (.refl _) rfl rfl) rfl fun _ _ => Purse.Grew.put stored _
  | redeemSettledPosition ran =>
    obtain ⟨rfl, p, found, pays⟩ := redeemSettledPosition_ok ran
    obtain ⟨pool, _, _, _, settled, _⟩ := paySettlement_ok pays
    obtain ⟨_, solvent⟩ := (redeeming found).solvent (before pool settled)
      (kept.claims _ (List.mem_of_getElem? found)) pays
    exact .of_solvent solvent
  | settleQueuedRequest ran =>
    obtain ⟨rfl, request, found, pays⟩ := settleQueuedRequest_ok ran
    obtain ⟨pool, _, _, _, settled, _⟩ := paySettlement_ok pays
    obtain ⟨_, solvent⟩ := (settling found).solvent (before pool settled) (kept.requests _ (Table.mem_of_get? found)) pays
    exact .of_solvent solvent
  | claimSettlementCuratorFees asset settled taken =>
    exact .of_solvent (claimSettlementCuratorFees_solvent (before _ settled) asset taken)

theorem Use.sure {env : Env} {a : Appraisal Obj} {u : Use} (before : v.Sure) (holds : v.SharesHold) (fits : Fits v a)
    (liquid : u = .snapshotSettlement → v.Liquid a) (ran : u.run env v a = .ok next) : next.Sure := by
  -- an open vault is not settled
  have opened : v.state = .opened → v.settlement = none := by
    intro state
    by_contra settled
    obtain ⟨pool, known⟩ := Option.ne_none_iff_exists'.mp settled
    cases state.symm.trans (before pool known).closed
  cases u with
  | crankAppraisal =>
    obtain ⟨_, _, rfl⟩ := crankAppraisal_ok ran
    exact before
  | crankCapital =>
    obtain ⟨_, _, _, _, syncs⟩ := crankCapital_ok ran
    exact before.synced (syncCapital_frame syncs)
  | deposit sender t amount att tranche id =>
    obtain ⟨_, _, _, deposited, rfl⟩ := deposit_ok ran
    obtain ⟨state, _, _, _, _, _, _, _, _, syncs, issued⟩ := depositInternal_ok deposited
    intro pool settled
    -- a deposit is for an open vault
    cases (opened state).symm.trans ((issued.settlement.trans (syncCapital_frame syncs).settlement).symm.trans settled)
  | depositIntoCommitment sender cap t amount att id =>
    obtain ⟨_, _, _, _, _, deposited, funds, rfl⟩ := depositIntoCommitment_ok ran
    obtain ⟨_, rfl, _⟩ := fundCommitment_ok funds
    obtain ⟨state, _, _, _, _, _, _, _, _, syncs, issued⟩ := depositInternal_ok deposited
    intro pool settled
    cases (opened state).symm.trans ((issued.settlement.trans (syncCapital_frame syncs).settlement).symm.trans settled)
  | releaseExternal cap t amount =>
    -- so are releases and resets
    obtain ⟨state, _, _, _, _, _, _, _, _, _, syncs, _, _, _, rfl⟩ := releaseExternal_ok ran
    intro pool settled
    cases (opened state).symm.trans ((syncCapital_frame syncs).settlement.symm.trans settled)
  | proposeJuniorReset =>
    obtain ⟨state, _, _, _, _, _, _, _, syncs, _, rfl⟩ := proposeJuniorReset_ok ran
    intro pool settled
    cases (opened state).symm.trans ((syncCapital_frame syncs).settlement.symm.trans settled)
  | executeJuniorReset sender t amount id =>
    obtain ⟨state, _, _, _, _, _, _, _, _, syncs, _, _, _, _, _, rfl⟩ := executeJuniorReset_ok ran
    intro pool settled
    cases (opened state).symm.trans ((syncCapital_frame syncs).settlement.symm.trans settled)
  | releaseCommitment cap shares id =>
    obtain ⟨running, _, synced, _, _, released, breached, _, syncs, splits, rfl⟩ := releaseCommitment_ok ran
    have kept : released.settlement = synced.settlement := by
      obtain ⟨_, _, _, rfl | ⟨_, _, _, rfl⟩⟩ := splitCommitment_ok splits <;> rfl
    intro pool settled
    have known := (kept.trans (syncCapital_frame syncs).settlement).symm.trans settled
    -- a settled vault is closed, and pays its commitments by another call
    exact absurd (before pool known).closed running
  | snapshotSettlement => exact fun pool settled => snapshotSettlement_solvent holds fits (liquid rfl) ran settled

namespace World

variable {w after : World Obj}

/-- What a run must keep to. A snapshot is taken of an appraisal in which only the free
accounting balance has value. After it, the market maker draws nothing of the accounting
asset, and a batch from before the closing pays no better than the pool. -/
def Orderly (w : World Obj) : Action Obj → Prop
  | .use index .snapshotSettlement => ∀ a, w.appraisals[index]? = some a → w.vault.Liquid a
  | .call (.mmRelease _ _ t amount) => t = w.vault.config.accountingAsset → w.vault.settlement.isSome → amount = 0
  | .fulfillNext index _ _ => ∀ f pool, w.fulfillments[index]? = some f → w.vault.settlement = some pool → NoBetter f pool
  | _ => True

theorem Moves.sure {action : Action Obj} {next : TradingVault Obj} (moves : Moves w action next) (before : w.vault.Sure)
    (holds : w.vault.SharesHold) (fits : ∀ a ∈ w.appraisals, Fits w.vault a) (orderly : w.Orderly action) : next.Sure := by
  cases moves with
  | @call c next calls =>
    refine Call.sure before holds.kept ?_ calls
    rintro source recipient amount rfl settled
    exact orderly rfl settled
  | @use index u a next found uses =>
    refine Use.sure before holds (fits a (List.mem_of_getElem? found)) ?_ uses
    rintro rfl
    exact orderly a found
  | beginFulfillment found begins =>
    obtain ⟨_, _, _, _, _, _, syncs, _, _⟩ := beginFulfillment_ok begins
    exact before.synced (syncCapital_frame syncs)
  | fulfillNext found fulfills =>
    intro pool settled
    have known : w.vault.settlement = some pool := by
      rw [← settled]
      exact (fulfillNext_settlement fulfills).symm
    exact fulfillNext_solvent (before pool known) holds.kept (orderly _ pool found known) fulfills
  | still => exact before

theorem orderly_sure {g : Genesis} {created : World Obj} {actions : List (Action Obj)}
    (creates : createVault g = .ok created) (orderly : Along step Orderly created actions)
    (ran : exec step created actions = .ok w) : w.vault.Sure ∧ w.vault.SharesHold := by
  obtain ⟨_, _, _, _, _, _, unsettled, _, _, none, _⟩ := createVault_ok creates
  have holds := exec_invariant_along step Orderly
    (fun w => w.vault.Sure ∧ w.vault.SharesHold ∧ ∀ a ∈ w.appraisals, Fits w.vault a)
    (fun _ _ _ before orderly ran => ⟨(step_moves ran).sure before.1 before.2.1 before.2.2 orderly,
      (step_moves ran).sharesHold before.2.1, step_fits before.2.2 ran⟩)
    ⟨fun pool settled => (nomatch unsettled.symm.trans settled), createVault_sharesHold creates, by simp [none]⟩ orderly ran
  exact ⟨holds.1, holds.2.1⟩

/-- In every orderly run, a settled vault holds the entitlements of all positions and
requests and the curator's fees, and each of them can be claimed. -/
theorem settlement_covers_claims {g : Genesis} {created : World Obj} {actions : List (Action Obj)} {pool : SettlementPool}
    (creates : createVault g = .ok created) (orderly : Along step Orderly created actions)
    (ran : exec step created actions = .ok w) (settled : w.vault.settlement = some pool) :
    w.vault.entitlements pool + pool.curatorFeesAccrued ≤ w.vault.freeBalance w.vault.config.accountingAsset ∧
      (∀ index p, w.vault.claims[index]? = some ⟨p, .wallet⟩ →
        ∃ next, w.vault.redeemSettledPosition w.env.cfg w.vault.config.accountingAsset index = .ok next) ∧
      (∀ cap tranche held, held ∈ w.vault.claims → held.place = .commitment cap tranche →
        ∃ next, w.vault.withdrawCommitmentSettled cap = .ok next) ∧
      (∀ seq request, w.vault.queue.requests.get? seq = some request →
        ∃ next, w.vault.settleQueuedRequest w.env.cfg w.vault.config.accountingAsset seq = .ok next) ∧
      (0 < pool.curatorFeesAccrued → ∃ next,
        w.vault.claimSettlementCuratorFees w.vault.curatorCapId w.vault.config.accountingAsset = .ok next) := by
  obtain ⟨sure, holds⟩ := orderly_sure creates orderly ran
  have solvent := sure pool settled
  have funded := solvent.funded
  have entitlements := entitlements_le holds.kept solvent.generation
  exact ⟨by omega, fun _ _ found => solvent.redeems holds.kept _ found, fun _ _ _ member place => solvent.withdraws member place,
    fun _ _ found => solvent.settles holds.kept _ found, fun positive => solvent.claims positive⟩

end World

namespace Sample

def settled : List (Action Unit) :=
  deposit 1000 .untranched 10 ++
    [.call (.splitPosition 0 400000000 12), .call (.requestWithdraw 7 1 "USDC"), .call (.initiateClose 2),
      .call .finalizeClose, .beginAppraisal "USDC", .use 0 .snapshotSettlement]

def orderlyTest (w : World Unit) : Action Unit → Bool
  | .use index .snapshotSettlement => w.appraisals[index]?.all fun a =>
    a.legs.all fun leg => leg.balanceType = some w.vault.config.accountingAsset || leg.value = 0
  | .call (.mmRelease _ _ _ _) => false
  | .fulfillNext _ _ _ => false
  | _ => true

theorem orderlyTest_sound {w : World Unit} {action : Action Unit} (passed : orderlyTest w action = true) :
    w.Orderly action := by
  unfold orderlyTest at passed
  split at passed
  case h_1 index =>
    intro a found leg member other
    rw [found, Option.all_some] at passed
    have checked := List.all_eq_true.mp passed leg member
    simpa [other] using checked
  case h_2 => cases passed
  case h_3 => cases passed
  case h_4 snapshot release fulfill =>
    unfold World.Orderly
    split
    · exact absurd rfl (snapshot _)
    · exact absurd rfl (release _ _ _ _)
    · exact absurd rfl (fulfill _ _ _)
    · trivial

end Sample

/-- After the position is redeemed, the queued request is still covered. -/
theorem World.settlement_covers_claims_redeemed :
    ∃ w : World Unit, World.play (Sample.genesis .untranched)
        (Sample.settled ++ [.call (.redeemSettledPosition "USDC" 0)]) = .ok w ∧
      ∃ pool, w.vault.settlement = some pool ∧
        w.vault.entitlements pool + pool.curatorFeesAccrued ≤ w.vault.freeBalance w.vault.config.accountingAsset ∧
        ∃ next, w.vault.settleQueuedRequest w.env.cfg w.vault.config.accountingAsset 0 = .ok next := by
  refine exists_ok (fun w => w.vault.settlement.isSome && (w.vault.queue.requests.get? 0).isSome) (by decide +kernel) ?_
  intro w ran passed
  obtain ⟨settles, queued⟩ := Bool.and_eq_true_iff.mp passed
  obtain ⟨pool, settled⟩ := Option.isSome_iff_exists.mp settles
  obtain ⟨request, found⟩ := Option.isSome_iff_exists.mp queued
  obtain ⟨created, creates, plays⟩ := bind_ok.mp ran
  have orderly : Along World.step World.Orderly created (Sample.settled ++ [.call (.redeemSettledPosition "USDC" 0)]) := by
    refine along_of_test World.step (fun _ _ _ (_ : True) _ => trivial)
      (fun _ _ _ passed => Sample.orderlyTest_sound passed) trivial ?_
    cases creates
    decide +kernel
  have covers := World.settlement_covers_claims creates orderly plays settled
  exact ⟨pool, settled, covers.1, covers.2.2.2.1 0 request found⟩

/-- The market maker draws the whole balance of a settled vault; nobody can redeem. -/
theorem World.settled_vault_drained :
    ∃ w : World Unit, World.play (Sample.genesis .untranched) (Sample.settled ++
        [.call (.configure 2 (.setMmReleaseEnabled true)), .call (.mmRelease 1 1 "USDC" 1000)]) = .ok w ∧
      w.vault.settlement = some ⟨0, 0, 1000, 1000000000, 0, 0⟩ ∧
      w.vault.entitlements ⟨0, 0, 1000, 1000000000, 0, 0⟩ = 1000 ∧ w.vault.freeBalance "USDC" = 0 ∧
      (w.vault.redeemSettledPosition w.env.cfg "USDC" 0).toOption.isNone ∧
      (w.vault.settleQueuedRequest w.env.cfg "USDC" 0).toOption.isNone := by
  refine exists_ok (fun w => decide (w.vault.settlement = some ⟨0, 0, 1000, 1000000000, 0, 0⟩ ∧
    w.vault.entitlements ⟨0, 0, 1000, 1000000000, 0, 0⟩ = 1000 ∧ w.vault.freeBalance "USDC" = 0 ∧
      (w.vault.redeemSettledPosition w.env.cfg "USDC" 0).toOption.isNone ∧
      (w.vault.settleQueuedRequest w.env.cfg "USDC" 0).toOption.isNone)) (by decide +kernel) ?_
  intro w _ passed
  exact of_decide_eq_true passed

end SuiOptions.Vault
