import SuiOptions.Exchange.Discharge

/-! The obligation path and the classic path are one settlement.

An obligation opened, discharged in any order and finished leaves the session that
the classic call leaves, and one of the two succeeds exactly when the other does.
-/

set_option autoImplicit false

namespace SuiOptions.Exchange

open Execution Move

/-! ### Complete lists of legs -/

def allLegs : List Leg := [.provide .base, .provide .quote, .collect .base, .collect .quote]

/-- Each leg once, and each side is paid after the other has paid in. -/
def Complete (legs : List Leg) : Prop :=
  legs.Perm allLegs ∧ ∀ side : Side, [Leg.provide side.other, .collect side].Sublist legs

theorem mem_allLegs (leg : Leg) : leg ∈ allLegs := by
  rcases leg with side | side <;> cases side <;> decide

namespace Session

theorem markAll_apply (done : LegsDone) (legs : List Leg) (leg : Leg) :
    markAll done legs leg = (done leg || decide (leg ∈ legs)) := by
  induction legs generalizing done with
  | nil => simp [markAll]
  | cons first rest ih =>
    have head : markAll done (first :: rest) leg = markAll (done.mark first) rest leg := rfl
    rw [head, ih]
    by_cases here : leg = first
    · subst here
      simp [LegsDone.mark]
    · simp [LegsDone.mark, here]

theorem inOrder_of_complete {legs : List Leg} (complete : Complete legs) : inOrder (fun _ => false) legs = true := by
  have enumerated : ∀ legs ∈ List.permutations' allLegs, [Leg.provide .quote, .collect .base].Sublist legs →
      [Leg.provide .base, .collect .quote].Sublist legs → inOrder (fun _ => false) legs = true := by decide
  exact enumerated legs (List.mem_permutations'.mpr complete.1) (complete.2 .base) (complete.2 .quote)

theorem markAll_of_complete {legs : List Leg} (complete : Complete legs) :
    markAll (fun _ => false) legs = fun _ => true := by
  funext leg
  rw [markAll_apply, Bool.false_or]
  exact decide_eq_true (complete.1.mem_iff.mpr (mem_allLegs leg))

end Session

namespace SettlementRegistry

variable {reg next : SettlementRegistry}

theorem depositFee_iff {side : Side} {amount : Nat} : reg.depositFee side amount = .ok next ↔
    reg.feeVault side + amount < u64Bound ∧
      next = { reg with feeVault := Function.update reg.feeVault side (reg.feeVault side + amount) } := by
  simp only [depositFee, addU64, bind_ok, fit_ok, pure_ok]
  constructor
  · rintro ⟨total, ⟨small, rfl⟩, rfl⟩
    exact ⟨small, rfl⟩
  · rintro ⟨small, rfl⟩
    exact ⟨_, ⟨small, rfl⟩, rfl⟩

def withFees (reg : SettlementRegistry) (fee : Side → Nat) : SettlementRegistry :=
  { reg with feeVault := fun side => reg.feeVault side + fee side }

theorem withFees_eq (fee : Side → Nat) (side : Side) :
    reg.withFees fee = { reg with
      feeVault := Function.update (Function.update reg.feeVault side.other (reg.feeVault side.other + fee side.other)) side
        (reg.feeVault side + fee side) } := by
  have vaults : (fun which => reg.feeVault which + fee which) = Function.update
      (Function.update reg.feeVault side.other (reg.feeVault side.other + fee side.other)) side
      (reg.feeVault side + fee side) := by
    funext which
    rcases side.eq_or_other which with rfl | rfl
    · simp
    · simp [side.other_ne]
  rw [withFees, vaults]

theorem depositFees_iff {side : Side} {fee : Side → Nat} :
    (∃ middle, reg.depositFee side.other (fee side.other) = .ok middle ∧ middle.depositFee side (fee side) = .ok next) ↔
      (∀ which, reg.feeVault which + fee which < u64Bound) ∧ next = reg.withFees fee := by
  rw [withFees_eq fee side]
  constructor
  · rintro ⟨middle, first, second⟩
    obtain ⟨left, rfl⟩ := depositFee_iff.mp first
    obtain ⟨right, rfl⟩ := depositFee_iff.mp second
    simp only [Function.update_of_ne (Ne.symm side.other_ne)] at right
    refine ⟨fun which => ?_, by simp only [Function.update_of_ne (Ne.symm side.other_ne)]⟩
    rcases side.eq_or_other which with rfl | rfl
    · exact right
    · exact left
  · rintro ⟨small, rfl⟩
    refine ⟨_, depositFee_iff.mpr ⟨small side.other, rfl⟩, depositFee_iff.mpr ⟨?_, ?_⟩⟩
    · simp only [Function.update_of_ne (Ne.symm side.other_ne)]
      exact small side
    · simp only [Function.update_of_ne (Ne.symm side.other_ne)]

/-- A fill is recorded alike whatever the vaults hold. -/
theorem recordFill_withFees (fee : Side → Nat) {digest : Bytes} {amount cap expiryMs total : Nat} :
    (reg.withFees fee).recordFill digest amount cap expiryMs = .ok (total, next) ↔
      ∃ recorded, reg.recordFill digest amount cap expiryMs = .ok (total, recorded) ∧ next = recorded.withFees fee := by
  simp only [recordFill, withFees, bind_ok, check_ok, pure_ok, exists_const, Prod.mk.injEq]
  constructor
  · rintro ⟨sum, added, within, rfl, rfl⟩
    exact ⟨_, ⟨sum, added, within, rfl, rfl⟩, rfl⟩
  · rintro ⟨_, ⟨sum, added, within, rfl, rfl⟩, rfl⟩
    exact ⟨sum, added, within, rfl, rfl⟩

end SettlementRegistry

/-- The fees of a fill by the vault they go to: the taker's in the maker's token, the maker's in the taker's. -/
def FillTerms.fee (terms : FillTerms) (side which : Side) : Nat := if which = side then terms.takerFee else terms.makerFee

theorem fillTerms_small {reg : SettlementRegistry} {ord : Order} {hash : Bytes} {takerFillAmount : Nat} {taker : Address}
    {terms : FillTerms} (ran : fillTerms reg ord hash takerFillAmount taker = .ok terms) :
    terms.fillT < u64Bound ∧ terms.fillM < u64Bound := by
  unfold fillTerms at ran
  obtain ⟨remaining, left, ran⟩ := bind_ok.mp ran
  obtain ⟨-, ran⟩ := check_bind_ok.mp ran
  obtain ⟨fillM, priced, ran⟩ := bind_ok.mp ran
  obtain ⟨makerFee, -, ran⟩ := bind_ok.mp ran
  obtain ⟨takerFee, -, produced⟩ := bind_ok.mp ran
  cases produced
  obtain ⟨-, rfl⟩ := sub_ok.mp left
  obtain ⟨num, -, priced⟩ := bind_ok.mp priced
  obtain ⟨quotient, -, cast⟩ := bind_ok.mp priced
  obtain ⟨small, rfl⟩ := fit_ok.mp cast
  have signed : ord.takerAmount.toNat < u64Bound := ord.takerAmount.toNat_lt
  refine ⟨?_, small⟩
  simp only
  omega

namespace Session

variable {st next : Session} {index : Nat} {ob : FillObligation}

def settle (index : Nat) (legs : List Leg) (st : Session) : Result Error Session := do
  let discharged ← exec (discharge index) st legs
  let market ← discharged.market.finish index
  pure { discharged with market }

def settled (st : Session) (index : Nat) (ob : FillObligation) : Session where
  market := { st.market with
    registry := st.market.registry.withFees ob.fee
    managers := st.managersWith (st.cellsAfter ob fun _ => true)
    obligations := st.market.obligations.eraseIdx index
    events := st.market.events ++ ob.fills.map fun fill => { fill with registry := ob.registryId }
    tally := st.tallyAfter ob fun _ => true }
  purse side := (st.cellsAfter ob (fun _ => true) .bearer side).getD 0

theorem finish_after (found : st.market.obligations[index]? = some ob) (fresh : ob.Fresh)
    (registry : ob.registryId = st.market.registry.id) {market : Market} :
    (st.after index ob fun _ => true).market.finish index = .ok market ↔
      (∀ side, st.market.registry.feeVault side + ob.fee side < u64Bound) ∧ market = (st.settled index ob).market := by
  have here : (st.after index ob fun _ => true).market.obligations[index]? = some (ob.doneWith fun _ => true) :=
    after_obligation found
  have pool : ∀ side, (ob.doneWith fun _ => true).pool side = ob.fee side := by
    intro side
    have owes := fresh.owes side
    simp only [FillObligation.doneWith, if_true]
    omega
  have erased : (st.market.obligations.set index (ob.doneWith fun _ => true)).eraseIdx index =
      st.market.obligations.eraseIdx index := List.eraseIdx_set_eq
  constructor
  · intro ran
    obtain ⟨other, present, ran⟩ := bind_ok.mp ran
    cases here.symm.trans (Market.obligation_ok present)
    obtain ⟨-, ran⟩ := check_bind_ok.mp ran
    obtain ⟨-, ran⟩ := check_bind_ok.mp ran
    obtain ⟨-, ran⟩ := check_bind_ok.mp ran
    obtain ⟨-, ran⟩ := check_bind_ok.mp ran
    obtain ⟨first, base, ran⟩ := bind_ok.mp ran
    obtain ⟨second, quote, produced⟩ := bind_ok.mp ran
    cases produced
    rw [pool] at base quote
    have vaults : ∃ middle, st.market.registry.depositFee Side.quote.other (ob.fee Side.quote.other) = .ok middle ∧
        middle.depositFee .quote (ob.fee .quote) = .ok second := ⟨first, base, quote⟩
    obtain ⟨small, rfl⟩ := SettlementRegistry.depositFees_iff.mp vaults
    refine ⟨small, ?_⟩
    simp only [settled, after, withFunds, staged, erased]
    rfl
  · rintro ⟨small, rfl⟩
    have vaults : ∃ middle, st.market.registry.depositFee Side.quote.other (ob.fee Side.quote.other) = .ok middle ∧
        middle.depositFee .quote (ob.fee .quote) = .ok (st.market.registry.withFees ob.fee) :=
      SettlementRegistry.depositFees_iff.mpr ⟨small, rfl⟩
    obtain ⟨first, base, quote⟩ := vaults
    refine bind_ok.mpr ⟨_, need_ok.mpr here, check_bind_ok.mpr ⟨registry, check_bind_ok.mpr ⟨⟨rfl, rfl, rfl, rfl⟩, ?_⟩⟩⟩
    refine check_bind_ok.mpr ⟨pool .base, check_bind_ok.mpr ⟨pool .quote, ?_⟩⟩
    rw [pool, pool]
    refine bind_ok.mpr ⟨first, base, bind_ok.mpr ⟨_, quote, ?_⟩⟩
    simp only [settled, after, withFunds, staged, erased]
    rfl

/-- A complete list of legs and the end of the obligation, from the state in which it was opened. -/
theorem settle_ok (found : st.market.obligations[index]? = some ob) (fresh : ob.Fresh)
    (registry : ob.registryId = st.market.registry.id) {legs : List Leg} (complete : Complete legs) :
    settle index legs st = .ok next ↔ (∀ leg, st.Funded ob leg) ∧
      (∀ side, st.market.registry.feeVault side + ob.fee side < u64Bound) ∧ next = st.settled index ob := by
  have discharged : ∀ {final : Session}, exec (discharge index) st legs = .ok final ↔
      (∀ leg, st.Funded ob leg) ∧ final = st.after index ob fun _ => true := by
    intro final
    have none : LegsDone.Possible fun _ => false := nofun
    have runs : exec (discharge index) (st.after index ob fun _ => false) legs = .ok final ↔ _ :=
      exec_discharge found fresh none
    rw [after_none found fresh, inOrder_of_complete complete, markAll_of_complete complete] at runs
    rw [runs]
    constructor
    · rintro ⟨-, funded, rfl⟩
      exact ⟨fun leg => funded leg (complete.1.mem_iff.mpr (mem_allLegs leg)), rfl⟩
    · rintro ⟨funded, rfl⟩
      exact ⟨rfl, fun leg _ => funded leg, rfl⟩
  constructor
  · intro ran
    obtain ⟨final, executed, ran⟩ := bind_ok.mp ran
    obtain ⟨market, finished, produced⟩ := bind_ok.mp ran
    cases produced
    obtain ⟨funded, rfl⟩ := discharged.mp executed
    obtain ⟨small, rfl⟩ := (finish_after found fresh registry).mp finished
    exact ⟨funded, small, rfl⟩
  · rintro ⟨funded, small, rfl⟩
    refine bind_ok.mpr ⟨_, discharged.mpr ⟨funded, rfl⟩, bind_ok.mpr ⟨_, ?_, rfl⟩⟩
    exact (finish_after found fresh registry).mpr ⟨small, rfl⟩

/-! ### Fills of one order -/

variable (natives : Natives)

/-- The classic fill, with the coin of the transaction. -/
def fillClassic (side : Side) (makerBmId : ID) (orderBytes signature publicKey : Bytes)
    (takerFillAmount minMakerAmountOut : Nat) (st : Session) : Result Error Session := do
  let (out, change, market) ← st.market.fillWith natives side makerBmId orderBytes signature publicKey
    (st.purse side.other) takerFillAmount minMakerAmountOut
  pure { market, purse := fun which => if which = side then st.purse side + out else change }

/-- The same fill through an obligation. -/
def fillByLegs (legs : List Leg) (side : Side) (makerBmId : ID) (orderBytes signature publicKey : Bytes)
    (takerFillAmount minMakerAmountOut : Nat) (st : Session) : Result Error Session := do
  let market ← st.market.beginFillImpl natives side makerBmId orderBytes signature publicKey takerFillAmount
    minMakerAmountOut
  settle st.market.obligations.length legs { st with market }

structure FillReady (st : Session) (side : Side) (makerBmId : ID) (orderBytes signature publicKey : Bytes)
    (takerFillAmount minMakerAmountOut : Nat) (bm : BalanceManager) (ord : Order) (hash : Bytes) (terms : FillTerms)
    (total : Nat) (reg : SettlementRegistry) (held : Nat) : Prop where
  manager : st.market.managers makerBmId = some bm
  quoted : st.market.quoteFill natives side makerBmId bm orderBytes signature publicKey takerFillAmount
    minMakerAmountOut = .ok (ord, hash, terms)
  recorded : st.market.registry.recordFill hash terms.fillT ord.takerAmount.toNat ord.expiryMs.toNat = .ok (total, reg)
  makerFee : terms.makerFee ≤ terms.fillT
  takerFee : terms.takerFee ≤ terms.fillM
  coin : terms.fillT ≤ st.purse side.other
  holds : bm.balances (st.market.registry.token side) = some held
  enough : terms.fillM ≤ held
  room : (bm.balances (st.market.registry.token side.other)).getD 0 + (terms.fillT - terms.makerFee) < u64Bound
  vaults : ∀ which, st.market.registry.feeVault which + terms.fee side which < u64Bound

def filled (st : Session) (side : Side) (makerBmId : ID) (bm : BalanceManager) (ord : Order) (hash : Bytes)
    (terms : FillTerms) (total : Nat) (reg : SettlementRegistry) (held : Nat) : Session where
  market := { st.market with
    registry := reg.withFees (terms.fee side)
    managers := Function.update st.market.managers makerBmId (some { bm with
      balances := Function.update
        (Function.update bm.balances (st.market.registry.token side.other)
          (some ((bm.balances (st.market.registry.token side.other)).getD 0 + (terms.fillT - terms.makerFee))))
        (st.market.registry.token side) (some (held - terms.fillM)) })
    events := st.market.events ++ [{ st.market.pendingFill side ord hash terms total with registry := reg.id }]
    tally := note st.market.tally hash ⟨terms.fillT, terms.fillM, (terms.fillT - terms.makerFee) + terms.makerFee⟩ }
  purse which := if which = side then st.purse side + (terms.fillM - terms.takerFee) else st.purse side.other - terms.fillT

variable {natives} {side : Side} {makerBmId : ID} {orderBytes signature publicKey : Bytes}
  {takerFillAmount minMakerAmountOut : Nat}

theorem fillClassic_ok :
    fillClassic natives side makerBmId orderBytes signature publicKey takerFillAmount minMakerAmountOut st = .ok next ↔
      ∃ bm ord hash terms total reg held,
        FillReady natives st side makerBmId orderBytes signature publicKey takerFillAmount minMakerAmountOut bm ord hash
          terms total reg held ∧
        next = st.filled side makerBmId bm ord hash terms total reg held := by
  have apart : st.market.registry.token side ≠ st.market.registry.token side.other := by
    cases side with
    | base => exact st.market.registry.distinct
    | quote => exact Ne.symm st.market.registry.distinct
  -- the fees go into the vaults of both tokens, in an order that does not matter
  have vaults : ∀ {terms : FillTerms} {second : SettlementRegistry},
      (∃ first, st.market.registry.depositFee side.other terms.makerFee = .ok first ∧
        first.depositFee side terms.takerFee = .ok second) ↔
      (∀ which, st.market.registry.feeVault which + terms.fee side which < u64Bound) ∧
        second = st.market.registry.withFees (terms.fee side) := by
    intro terms second
    have otherFee : terms.fee side side.other = terms.makerFee := if_neg side.other_ne
    have sideFee : terms.fee side side = terms.takerFee := if_pos rfl
    rw [← otherFee, ← sideFee]
    exact SettlementRegistry.depositFees_iff
  constructor
  · intro ran
    obtain ⟨⟨out, change, market⟩, moved, produced⟩ := bind_ok.mp ran
    cases produced
    unfold Market.fillWith at moved
    -- the checks of the entry point, in their order
    obtain ⟨bm, present, moved⟩ := bind_ok.mp moved
    obtain ⟨⟨ord, hash, terms⟩, quoted, moved⟩ := bind_ok.mp moved
    obtain ⟨coin, moved⟩ := check_bind_ok.mp moved
    obtain ⟨makerFee, moved⟩ := check_bind_ok.mp moved
    obtain ⟨first, feeOther, moved⟩ := bind_ok.mp moved
    obtain ⟨credited, credit, moved⟩ := bind_ok.mp moved
    obtain ⟨debited, debit, moved⟩ := bind_ok.mp moved
    obtain ⟨takerFee, moved⟩ := check_bind_ok.mp moved
    obtain ⟨second, feeSide, moved⟩ := bind_ok.mp moved
    obtain ⟨⟨total, third⟩, recorded, produced⟩ := bind_ok.mp moved
    cases produced
    obtain ⟨small, rfl⟩ := vaults.mp ⟨first, feeOther, feeSide⟩
    -- the fill is recorded after the fees, which leave its record alone
    obtain ⟨reg, entered, rfl⟩ := (SettlementRegistry.recordFill_withFees _).mp recorded
    have tokens : first.token = st.market.registry.token := (SettlementRegistry.depositFee_ok feeOther).token
    rw [tokens] at credit debit
    obtain ⟨room, rfl⟩ := BalanceManager.credit_iff.mp credit
    obtain ⟨held, holds, enough, rfl⟩ := BalanceManager.debit_iff.mp debit
    simp only [Function.update_of_ne apart] at holds
    exact ⟨bm, ord, hash, terms, total, reg, held, ⟨Market.manager_ok present, quoted, entered, makerFee, takerFee, coin, holds,
      enough, room, small⟩, rfl⟩
  · rintro ⟨bm, ord, hash, terms, total, reg, held, ready, rfl⟩
    -- the same checks, passed
    obtain ⟨first, feeOther, feeSide⟩ := vaults.mpr ⟨ready.vaults, rfl⟩
    have tokens : first.token = st.market.registry.token := (SettlementRegistry.depositFee_ok feeOther).token
    have credit := BalanceManager.credit_iff.mpr ⟨ready.room, rfl⟩
    have recorded := (SettlementRegistry.recordFill_withFees (terms.fee side)).mpr ⟨reg, ready.recorded, rfl⟩
    refine bind_ok.mpr ⟨(_, _, _), ?_, rfl⟩
    refine bind_ok.mpr ⟨bm, need_ok.mpr ready.manager, bind_ok.mpr ⟨(ord, hash, terms), ready.quoted, ?_⟩⟩
    refine check_bind_ok.mpr ⟨ready.coin, check_bind_ok.mpr ⟨ready.makerFee, bind_ok.mpr ⟨first, feeOther, ?_⟩⟩⟩
    rw [tokens]
    refine bind_ok.mpr ⟨_, credit, bind_ok.mpr ⟨_, BalanceManager.debit_iff.mpr ⟨held, ?_, ready.enough, rfl⟩, ?_⟩⟩
    · simp only [Function.update_of_ne apart]
      exact ready.holds
    · refine check_bind_ok.mpr ⟨ready.takerFee, bind_ok.mpr ⟨_, feeSide, bind_ok.mpr ⟨(total, _), recorded, rfl⟩⟩⟩

theorem managersWith_same {cells : EscrowBinding → Side → Option Nat} {id : ID}
    (same : cells (.manager id) = st.funds (.manager id)) : st.managersWith cells id = st.market.managers id := by
  have before : st.managersWith st.funds id = st.market.managers id := congrFun managersWith_funds id
  rw [← before, managersWith, managersWith, same]

theorem managersWith_one {cells : EscrowBinding → Side → Option Nat} {id : ID} {bm : BalanceManager}
    (found : st.market.managers id = some bm) (others : ∀ other, other ≠ id → cells (.manager other) = st.funds (.manager other)) :
    st.managersWith cells = Function.update st.market.managers id (some { bm with
      balances := balancesWith st.market.registry.token (cells (.manager id)) bm.balances }) := by
  funext other
  by_cases same : other = id
  · subst same
    rw [Function.update_self, managersWith_some cells found]
  · rw [Function.update_of_ne same, managersWith_same (others other same)]

theorem balancesWith_eq {token : Side → String} (distinct : token .base ≠ token .quote) (cells : Side → Option Nat)
    (balances : String → Option Nat) (side : Side) :
    balancesWith token cells balances =
      Function.update (Function.update balances (token side.other) (cells side.other)) (token side) (cells side) := by
  funext t
  by_cases here : t = token side
  · subst here
    rw [balancesWith_token distinct, Function.update_self]
  · rw [Function.update_of_ne here]
    by_cases there : t = token side.other
    · subst there
      rw [balancesWith_token distinct, Function.update_self]
    · rw [Function.update_of_ne there]
      cases side with
      | base => exact (if_neg here).trans (if_neg there)
      | quote => exact (if_neg there).trans (if_neg here)

section Opened

variable (st : Session) (side : Side) (makerBmId : ID) (ord : Order) (hash : Bytes) (terms : FillTerms) (total : Nat)
  (reg : SettlementRegistry)

def openFill : FillObligation :=
  Market.fillObligation side makerBmId reg.id terms (terms.fillT - terms.makerFee) (terms.fillM - terms.takerFee)
    (st.market.pendingFill side ord hash terms total)

/-- The session in which a fill has been opened. -/
def opened : Session :=
  { st with market := { st.market with
      registry := reg
      obligations := st.market.obligations ++ [st.openFill side makerBmId ord hash terms total reg]
      tally := note st.market.tally hash ⟨terms.fillT, 0, 0⟩ } }

theorem openFill_maker : (st.openFill side makerBmId ord hash terms total reg).leg side =
    ⟨.manager makerBmId, terms.fillM, terms.fillT - terms.makerFee, false, false⟩ := if_pos rfl

theorem openFill_taker : (st.openFill side makerBmId ord hash terms total reg).leg side.other =
    ⟨.bearer, terms.fillT, terms.fillM - terms.takerFee, false, false⟩ := if_neg side.other_ne

theorem openFill_orderOf (which : Side) : (st.openFill side makerBmId ord hash terms total reg).orderOf which =
    if which = side then some hash else none := by
  have sold := st.market.pendingFill_side side ord hash terms total
  rcases side.eq_or_other which with rfl | rfl
  · simp [FillObligation.orderOf, openFill, Market.fillObligation, sold]
    rfl
  · simp [FillObligation.orderOf, openFill, Market.fillObligation, sold, side.other_ne, Ne.symm side.other_ne]

variable {st side makerBmId ord hash terms total reg} {bm : BalanceManager}

theorem openFill_fresh (small : terms.fillT < u64Bound ∧ terms.fillM < u64Bound) (makerFee : terms.makerFee ≤ terms.fillT)
    (takerFee : terms.takerFee ≤ terms.fillM) : (st.openFill side makerBmId ord hash terms total reg).Fresh := by
  constructor
  case unprovided => intro which; simp only [openFill, Market.fillObligation]; split <;> rfl
  case uncollected => intro which; simp only [openFill, Market.fillObligation]; split <;> rfl
  case empty => intro which; rfl
  case apart => cases side <;> simp [openFill, Market.fillObligation]
  case owes =>
    intro which
    rcases side.eq_or_other which with rfl | rfl
    · simp [openFill, Market.fillObligation, which.other_ne, takerFee]
    · simp [openFill, Market.fillObligation, side.other_ne, makerFee]
  case small =>
    intro which
    simp only [openFill, Market.fillObligation]
    split
    · exact small.2
    · exact small.1

theorem opened_obligation : (st.opened side makerBmId ord hash terms total reg).market.obligations[st.market.obligations.length]? =
    some (st.openFill side makerBmId ord hash terms total reg) := List.getElem?_concat_length

theorem beginFillImpl_ok {market : Market} :
    st.market.beginFillImpl natives side makerBmId orderBytes signature publicKey takerFillAmount minMakerAmountOut =
        .ok market ↔
      ∃ bm ord hash terms total reg, st.market.managers makerBmId = some bm ∧
        st.market.quoteFill natives side makerBmId bm orderBytes signature publicKey takerFillAmount minMakerAmountOut =
          .ok (ord, hash, terms) ∧
        st.market.registry.recordFill hash terms.fillT ord.takerAmount.toNat ord.expiryMs.toNat = .ok (total, reg) ∧
        terms.makerFee ≤ terms.fillT ∧ terms.takerFee ≤ terms.fillM ∧
        market = (st.opened side makerBmId ord hash terms total reg).market := by
  constructor
  · intro ran
    unfold Market.beginFillImpl at ran
    obtain ⟨bm, present, ran⟩ := bind_ok.mp ran
    obtain ⟨⟨ord, hash, terms⟩, quoted, ran⟩ := bind_ok.mp ran
    obtain ⟨⟨total, reg⟩, recorded, ran⟩ := bind_ok.mp ran
    obtain ⟨makerDue, makerNet, ran⟩ := bind_ok.mp ran
    obtain ⟨takerDue, takerNet, produced⟩ := bind_ok.mp ran
    cases produced
    obtain ⟨makerFee, rfl⟩ := sub_ok.mp makerNet
    obtain ⟨takerFee, rfl⟩ := sub_ok.mp takerNet
    exact ⟨bm, ord, hash, terms, total, reg, Market.manager_ok present, quoted, recorded, makerFee, takerFee, rfl⟩
  · rintro ⟨bm, ord, hash, terms, total, reg, present, quoted, recorded, makerFee, takerFee, rfl⟩
    refine bind_ok.mpr ⟨bm, need_ok.mpr present, bind_ok.mpr ⟨(ord, hash, terms), quoted, ?_⟩⟩
    refine bind_ok.mpr ⟨(total, reg), recorded, bind_ok.mpr ⟨_, sub_ok.mpr ⟨makerFee, rfl⟩, ?_⟩⟩
    exact bind_ok.mpr ⟨_, sub_ok.mpr ⟨takerFee, rfl⟩, rfl⟩

theorem opened_funds_manager (present : st.market.managers makerBmId = some bm)
    (token : reg.token = st.market.registry.token) (which : Side) :
    (st.opened side makerBmId ord hash terms total reg).funds (.manager makerBmId) which =
      bm.balances (st.market.registry.token which) := by
  simp [funds, opened, present, token]

/-- The four legs of a fill can be paid when the coin, the manager and the manager's other balance allow it. -/
theorem funded_fill (present : st.market.managers makerBmId = some bm) (token : reg.token = st.market.registry.token) :
    (∀ leg, (st.opened side makerBmId ord hash terms total reg).Funded
        (st.openFill side makerBmId ord hash terms total reg) leg) ↔
      terms.fillT ≤ st.purse side.other ∧
        (bm.balances (st.market.registry.token side.other)).getD 0 + (terms.fillT - terms.makerFee) < u64Bound ∧
        ∃ held, bm.balances (st.market.registry.token side) = some held ∧ terms.fillM ≤ held := by
  have known : (st.opened side makerBmId ord hash terms total reg).Known (.manager makerBmId) := ⟨bm, present⟩
  have coin : ∀ which, (st.opened side makerBmId ord hash terms total reg).funds .bearer which = some (st.purse which) :=
    fun _ => rfl
  constructor
  · intro funded
    have coins := funded (.provide side.other)
    have sold := funded (.provide side)
    have bought := funded (.collect side)
    simp only [Funded, openFill_maker, openFill_taker, coin, opened_funds_manager present token, Option.some.injEq] at coins sold bought
    obtain ⟨-, _, rfl, enough⟩ := coins
    exact ⟨enough, bought.2 (by simp), sold.2⟩
  · rintro ⟨enough, room, held, holds, full⟩ leg
    cases leg with
    | provide which =>
      rcases side.eq_or_other which with rfl | rfl
      · simp only [Funded, openFill_maker, opened_funds_manager present token]
        exact ⟨known, held, holds, full⟩
      · simp only [Funded, openFill_taker, coin]
        exact ⟨trivial, _, rfl, enough⟩
    | collect which =>
      rcases side.eq_or_other which with rfl | rfl
      · simp only [Funded, openFill_maker, opened_funds_manager present token]
        exact ⟨known, fun _ => room⟩
      · simp only [Funded, openFill_taker]
        exact ⟨trivial, fun managed => absurd rfl managed⟩

theorem tallyAfter_fill : (st.opened side makerBmId ord hash terms total reg).tallyAfter
    (st.openFill side makerBmId ord hash terms total reg) (fun _ => true) =
      note st.market.tally hash ⟨terms.fillT, terms.fillM, (terms.fillT - terms.makerFee) + terms.makerFee⟩ := by
  funext other
  have gross : (st.openFill side makerBmId ord hash terms total reg).gross side =
      (terms.fillT - terms.makerFee) + terms.makerFee := by
    simp [FillObligation.gross, openFill, Market.fillObligation, side.other_ne]
  have owes : ((st.openFill side makerBmId ord hash terms total reg).leg side).owes = terms.fillM := by
    rw [openFill_maker]
  simp only [tallyAfter, noted, openFill_orderOf, note_apply, opened]
  by_cases same : hash = other
  · subst same
    cases side <;> simp [Tally.add, gross, owes]
  · cases side <;> simp [Tally.add, same]

theorem managersWith_fill (present : st.market.managers makerBmId = some bm) (token : reg.token = st.market.registry.token)
    {held : Nat} (holds : bm.balances (st.market.registry.token side) = some held) :
    (st.opened side makerBmId ord hash terms total reg).managersWith
        ((st.opened side makerBmId ord hash terms total reg).cellsAfter
          (st.openFill side makerBmId ord hash terms total reg) fun _ => true) =
      (st.filled side makerBmId bm ord hash terms total reg held).market.managers := by
  have others : ∀ other, other ≠ makerBmId → (st.opened side makerBmId ord hash terms total reg).cellsAfter
      (st.openFill side makerBmId ord hash terms total reg) (fun _ => true) (.manager other) =
        (st.opened side makerBmId ord hash terms total reg).funds (.manager other) := by
    intro other apart
    funext which
    rcases side.eq_or_other which with rfl | rfl
    · simp [cellsAfter, openFill_maker, openFill_taker, apart]
    · simp [cellsAfter, openFill_maker, openFill_taker, apart]
  have there : (st.opened side makerBmId ord hash terms total reg).market.managers makerBmId = some bm := present
  rw [managersWith_one there others, balancesWith_eq (st.opened side makerBmId ord hash terms total reg).market.registry.distinct _ _ side]
  simp only [cellsAfter, openFill_maker, openFill_taker, opened_funds_manager present token, holds, Side.other_other,
    if_true, reduceCtorEq, if_false, Option.map_some]
  simp only [opened, filled, token]

theorem purse_fill (which : Side) : ((st.opened side makerBmId ord hash terms total reg).cellsAfter
    (st.openFill side makerBmId ord hash terms total reg) (fun _ => true) .bearer which).getD 0 =
      if which = side then st.purse side + (terms.fillM - terms.takerFee) else st.purse side.other - terms.fillT := by
  rcases side.eq_or_other which with rfl | rfl
  · simp [cellsAfter, openFill_maker, openFill_taker, funds, opened]
  · simp [cellsAfter, openFill_taker, funds, opened, side.other_ne]

theorem settled_fill (present : st.market.managers makerBmId = some bm) (token : reg.token = st.market.registry.token)
    {held : Nat} (holds : bm.balances (st.market.registry.token side) = some held) :
    (st.opened side makerBmId ord hash terms total reg).settled st.market.obligations.length
        (st.openFill side makerBmId ord hash terms total reg) =
      st.filled side makerBmId bm ord hash terms total reg held := by
  have erased : (st.opened side makerBmId ord hash terms total reg).market.obligations.eraseIdx
      st.market.obligations.length = st.market.obligations := by
    simp [opened, List.eraseIdx_append_of_length_le]
  unfold settled
  rw [tallyAfter_fill, managersWith_fill present token holds, erased]
  simp only [purse_fill]
  rfl

end Opened

/-- The fill through an obligation, whatever the order of its legs. -/
theorem fillByLegs_ok {legs : List Leg} (complete : Complete legs) :
    fillByLegs natives legs side makerBmId orderBytes signature publicKey takerFillAmount minMakerAmountOut st =
        .ok next ↔
      ∃ bm ord hash terms total reg held,
        FillReady natives st side makerBmId orderBytes signature publicKey takerFillAmount minMakerAmountOut bm ord hash
          terms total reg held ∧
        next = st.filled side makerBmId bm ord hash terms total reg held := by
  -- complete legs settle an opened fill exactly when its cells are funded and its vaults have room
  have settles : ∀ {bm : BalanceManager} {ord : Order} {hash : Bytes} {terms : FillTerms} {total : Nat}
      {reg : SettlementRegistry},
      st.market.quoteFill natives side makerBmId bm orderBytes signature publicKey takerFillAmount minMakerAmountOut =
        .ok (ord, hash, terms) →
      st.market.registry.recordFill hash terms.fillT ord.takerAmount.toNat ord.expiryMs.toNat = .ok (total, reg) →
      terms.makerFee ≤ terms.fillT → terms.takerFee ≤ terms.fillM →
      (settle st.market.obligations.length legs (st.opened side makerBmId ord hash terms total reg) = .ok next ↔
        (∀ leg, (st.opened side makerBmId ord hash terms total reg).Funded
          (st.openFill side makerBmId ord hash terms total reg) leg) ∧
        (∀ which, reg.feeVault which + terms.fee side which < u64Bound) ∧
        next = (st.opened side makerBmId ord hash terms total reg).settled st.market.obligations.length
          (st.openFill side makerBmId ord hash terms total reg)) := by
    intro bm ord hash terms total reg quoted recorded makerFee takerFee
    -- the amounts of a quoted fill are of 64 bits
    have small : terms.fillT < u64Bound ∧ terms.fillM < u64Bound := by
      obtain ⟨⟨_, _⟩, -, quoted⟩ := bind_ok.mp quoted
      obtain ⟨terms', priced, quoted⟩ := bind_ok.mp quoted
      obtain ⟨net, -, quoted⟩ := bind_ok.mp quoted
      obtain ⟨-, produced⟩ := check_bind_ok.mp quoted
      cases produced
      exact fillTerms_small priced
    exact settle_ok opened_obligation (openFill_fresh small makerFee takerFee) rfl complete
  constructor
  · intro ran
    obtain ⟨market, began, settled⟩ := bind_ok.mp ran
    obtain ⟨bm, ord, hash, terms, total, reg, present, quoted, recorded, makerFee, takerFee, rfl⟩ :=
      beginFillImpl_ok.mp began
    obtain ⟨-, -, same⟩ := SettlementRegistry.recordFill_ok recorded
    -- recording a fill leaves tokens and vaults of the registry
    have token : reg.token = st.market.registry.token := by rw [same]
    have vault : reg.feeVault = st.market.registry.feeVault := by rw [same]
    obtain ⟨funded, vaults, rfl⟩ := (settles quoted recorded makerFee takerFee).mp settled
    obtain ⟨coin, room, held, holds, enough⟩ := (funded_fill present token).mp funded
    rw [vault] at vaults
    exact ⟨bm, ord, hash, terms, total, reg, held,
      ⟨present, quoted, recorded, makerFee, takerFee, coin, holds, enough, room, vaults⟩, settled_fill present token holds⟩
  · rintro ⟨bm, ord, hash, terms, total, reg, held, ready, rfl⟩
    obtain ⟨-, -, same⟩ := SettlementRegistry.recordFill_ok ready.recorded
    have token : reg.token = st.market.registry.token := by rw [same]
    have vault : reg.feeVault = st.market.registry.feeVault := by rw [same]
    have vaults := ready.vaults
    rw [← vault] at vaults
    have began := beginFillImpl_ok.mpr ⟨bm, ord, hash, terms, total, reg, ready.manager, ready.quoted, ready.recorded,
      ready.makerFee, ready.takerFee, rfl⟩
    refine bind_ok.mpr ⟨_, began, (settles ready.quoted ready.recorded ready.makerFee ready.takerFee).mpr ⟨?_, vaults, ?_⟩⟩
    · exact (funded_fill ready.manager token).mpr ⟨ready.coin, ready.room, held, ready.holds, ready.enough⟩
    · exact (settled_fill ready.manager token ready.holds).symm

end Session

end SuiOptions.Exchange
