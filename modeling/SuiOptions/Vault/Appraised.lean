import SuiOptions.Vault.Supply

/-! What a consumed appraisal has counted.

A free balance cannot move without the mutation sequence, so an appraisal that
passes the staleness check counted every balance as it is. The custody has no
such sequence: its objects are counted right as long as no valued one is taken
out. -/

set_option autoImplicit false

namespace SuiOptions.Vault

open Execution Move
open Exchange (ID Address DomainState)

variable {Obj : Type}

/-! ### Funds between two vaults -/

structure CashFrame (v next : TradingVault Obj) : Prop where
  funds : next.purse = v.purse ∧ next.exposure = v.exposure ∨ v.purse.mutationSeq < next.purse.mutationSeq
  accounting : next.config.accountingAsset = v.config.accountingAsset

namespace CashFrame

variable {v next last : TradingVault Obj}

theorem refl (v : TradingVault Obj) : CashFrame v v := ⟨Or.inl ⟨rfl, rfl⟩, rfl⟩

theorem trans (early : CashFrame v next) (late : CashFrame next last) : CashFrame v last := by
  refine ⟨?_, late.accounting.trans early.accounting⟩
  rcases early.funds with ⟨purse, exposure⟩ | early
  · rcases late.funds with ⟨purse', exposure'⟩ | late
    · exact Or.inl ⟨purse'.trans purse, exposure'.trans exposure⟩
    · exact Or.inr (purse ▸ late)
  · rcases late.funds with ⟨purse', _⟩ | late
    · exact Or.inr (purse' ▸ early)
    · exact Or.inr (Nat.lt_trans early late)

/-- A vault with the same external account, whose purse moved by its own rules. -/
theorem of_moved (moved : v.purse.Moved next.purse) (external : next.external = v.external)
    (config : next.config = v.config) : CashFrame v next := by
  refine ⟨?_, by rw [config]⟩
  rcases moved with same | later
  · exact Or.inl ⟨same, by rw [TradingVault.exposure, TradingVault.exposure, external]⟩
  · exact Or.inr later

theorem of_sync (frame : TradingVault.SyncFrame v next) : CashFrame v next :=
  of_moved (Or.inl frame.purse) frame.external frame.config

end CashFrame

variable {v next : TradingVault Obj}

open TradingVault

theorem paySettlement_cashFrame {cfg : VaultProtocolConfig} {t : TypeName} {tranche : Tranche}
    {generation shares basis : Nat} (ran : v.paySettlement cfg t tranche generation shares basis = .ok next) :
    CashFrame v next := by
  obtain ⟨_, _, _, _, _, _, _, _, _, _, moved, rfl⟩ := paySettlement_ok ran
  exact .of_moved moved rfl rfl

theorem Call.cashFrame {env : Env} {c : Call Obj} (ran : c.run env v = .ok next) : CashFrame v next := by
  cases Call.effect ran with
  | quiet quiet => exact ⟨Or.inl ⟨quiet.purse, quiet.exposure⟩, quiet.accounting⟩
  | session ran =>
    obtain ⟨purse, custody, queue, rfl, _, moved, _⟩ := session_ok ran
    exact .of_moved moved rfl rfl
  | receivePosition stored => exact .of_moved (.refl _) rfl rfl
  | receiveCoin moved grew => exact .of_moved moved rfl rfl
  | mmRelease sound taken => exact .of_moved (.take taken) rfl rfl
  | returnExternal known mine stored =>
    have seq := (Purse.putBalanceInternal_ok stored).1
    exact ⟨Or.inr (by dsimp only; omega), rfl⟩
  | redeemSettledPosition ran =>
    obtain ⟨_, _, _, pays⟩ := redeemSettledPosition_ok ran
    have paid := paySettlement_cashFrame pays
    exact ⟨paid.funds, paid.accounting⟩
  | settleQueuedRequest ran =>
    obtain ⟨_, _, _, pays⟩ := settleQueuedRequest_ok ran
    have paid := paySettlement_cashFrame pays
    exact ⟨paid.funds, paid.accounting⟩
  | claimSettlementCuratorFees asset settled taken => exact .of_moved (.take taken) rfl rfl

theorem Issued.cashFrame {tranche : Tranche} {t : TypeName} {amount value nav seniorNav juniorNav : Nat}
    {position : VaultPosition} (issued : Issued v tranche t amount value nav seniorNav juniorNav next position) :
    CashFrame v next := .of_moved (.put issued.stored) issued.external issued.config

theorem depositInternal_cashFrame {cfg : VaultProtocolConfig} {lp : DomainState} {sender : Address} {a : Appraisal Obj}
    {t : TypeName} {amount now navAfter : Nat} {att : Option PriceAttestation} {tranche : Tranche} {id : ID}
    {position : VaultPosition}
    (ran : v.depositInternal cfg lp sender a t amount att tranche now id = .ok (next, position, navAfter)) :
    CashFrame v next := by
  obtain ⟨_, _, _, _, _, _, _, _, _, syncs, issued⟩ := depositInternal_ok ran
  exact .trans (.of_sync (syncCapital_frame syncs)) (Issued.cashFrame issued)

theorem Use.cashFrame {env : Env} {a : Appraisal Obj} {u : Use} (ran : u.run env v a = .ok next) : CashFrame v next := by
  cases u with
  | crankAppraisal =>
    obtain ⟨_, _, rfl⟩ := crankAppraisal_ok ran
    exact .refl _
  | crankCapital =>
    obtain ⟨_, _, _, _, syncs⟩ := crankCapital_ok ran
    exact .of_sync (syncCapital_frame syncs)
  | deposit sender t amount att tranche id =>
    obtain ⟨_, _, _, deposited, rfl⟩ := deposit_ok ran
    exact .trans (depositInternal_cashFrame deposited) (.of_moved (.refl _) rfl rfl)
  | depositIntoCommitment sender cap t amount att id =>
    obtain ⟨_, _, _, _, _, deposited, funds, rfl⟩ := depositIntoCommitment_ok ran
    obtain ⟨_, rfl, _⟩ := fundCommitment_ok funds
    exact .trans (depositInternal_cashFrame deposited) (.of_moved (.refl _) rfl rfl)
  | releaseExternal cap t amount =>
    obtain ⟨_, _, _, synced, _, _, _, _, purse, _, syncs, _, _, taken, rfl⟩ := releaseExternal_ok ran
    have seq := (Purse.takeBalanceInternal_ok taken).2.1
    exact .trans (.of_sync (syncCapital_frame syncs)) ⟨Or.inr (by dsimp only; omega), rfl⟩
  | proposeJuniorReset =>
    obtain ⟨_, _, _, _, _, _, _, _, syncs, _, rfl⟩ := proposeJuniorReset_ok ran
    exact .trans (.of_sync (syncCapital_frame syncs)) (.of_moved (.refl _) rfl rfl)
  | executeJuniorReset sender t amount id =>
    obtain ⟨_, _, _, _, _, _, _, _, _, syncs, _, stored, _, _, _, rfl⟩ := executeJuniorReset_ok ran
    exact .trans (.of_sync (syncCapital_frame syncs)) (.of_moved (.put stored) rfl rfl)
  | releaseCommitment cap shares id =>
    obtain ⟨_, _, _, _, _, _, _, _, syncs, splits, rfl⟩ := releaseCommitment_ok ran
    refine .trans (.of_sync (syncCapital_frame syncs)) ?_
    obtain ⟨_, _, _, rfl | ⟨_, _, _, rfl⟩⟩ := splitCommitment_ok splits
    · exact .of_moved (.refl _) rfl rfl
    · exact .of_moved (.refl _) rfl rfl
  | snapshotSettlement =>
    obtain ⟨_, _, _, _, _, _, _, syncs, _, rfl⟩ := snapshotSettlement_ok ran
    exact .trans (.of_sync (syncCapital_frame syncs)) (.of_moved (.refl _) rfl rfl)

theorem payOut_cashFrame {t : TypeName} {amount : Nat} (ran : v.payOut t amount = .ok next) : CashFrame v next := by
  obtain ⟨purse, rfl, _, _, moved⟩ := payOut_ok ran
  exact .of_moved moved rfl rfl

theorem fulfillNext_cashFrame {cfg : VaultProtocolConfig} {f : Fulfillment} {p : TypeName} {now : Nat} {id : ID}
    {outcome : Option Receipt} (ran : v.fulfillNext cfg f p now id = .ok (next, outcome)) : CashFrame v next := by
  rcases fulfillNext_ok ran with ⟨rfl, _⟩ | ⟨receipt, _, paid⟩
  · exact .of_moved (.refl _) rfl rfl
  · obtain ⟨curatorNet, burned, minted, cut, _, burns, mints, cuts, pays⟩ := settleRequest_ok paid.settled
    have burning : CashFrame v burned := by
      rcases burnShares_ok burns with ⟨_, rfl⟩ | ⟨_, _, _, rfl⟩
      · exact .of_moved (.refl _) rfl rfl
      · exact .of_moved (.refl _) rfl rfl
    have minting : CashFrame burned minted := by
      rcases mintFee_ok mints with rfl | ⟨_, _, _, _, credits⟩
      · exact .refl _
      · obtain ⟨_, rfl, _⟩ := creditCommitment_ok credits
        exact .of_moved (.refl _) rfl rfl
    have sequenced : CashFrame minted { minted with capitalSeq := minted.capitalSeq + 1 } := .of_moved (.refl _) rfl rfl
    exact ((burning.trans minting).trans sequenced).trans ((payOut_cashFrame cuts).trans (payOut_cashFrame pays))

/-! ### Objects in custody -/

theorem Custody.store_ok {c after : Custody Obj} {adapter : TypeName} {id : ID} {object : Obj}
    (ran : c.store adapter id object = .ok after) :
    id ∉ c.objects.map (·.id) ∧ after.objects = c.objects ++ [⟨id, adapter, object⟩] := by
  unfold Custody.store at ran
  split at ran
  case isTrue fresh =>
    rw [pure_ok] at ran
    subst ran
    exact ⟨fresh, rfl⟩
  case isFalse => cases ran

theorem Custody.mem_remove {c : Custody Obj} {id : ID} (present : (c.find id).isSome) {o : Custodied Obj}
    (member : o ∈ c.objects) (other : o.id ≠ id) : o ∈ (c.remove id present).objects :=
  (List.mem_eraseP_of_neg (by simpa using other)).mpr member

/-- An object stays in custody unless a session takes it. -/
theorem sessionOps_keep {adapter : TypeName} {forced : Bool} {ops : List (SessionOp Obj)} {o : Custodied Obj}
    (ran : exec (fun w op => w.sessionOp adapter forced op) v ops = .ok next)
    (member : o ∈ v.custody.objects) (untaken : .takePosition o.id ∉ ops) : o ∈ next.custody.objects := by
  refine exec_invariant_only (fun (w : TradingVault Obj) op => w.sessionOp adapter forced op)
    (fun op => op ≠ .takePosition o.id) (fun w => o ∈ w.custody.objects) ?_ member ?_ ran
  case refine_2 =>
    rintro op within rfl
    exact untaken within
  intro w op after held other stepped
  cases op with
  | take t amount =>
    simp only [sessionOp, bind_ok, check_ok, exists_const] at stepped
    obtain ⟨_, _, rfl⟩ := take_ok.mp stepped.2.2
    exact held
  | put t amount =>
    simp only [sessionOp] at stepped
    split at stepped
    · rw [pure_ok] at stepped
      subst stepped
      exact held
    · obtain ⟨_, _, rfl⟩ := put_ok.mp stepped
      exact held
  | putPosition id object =>
    obtain ⟨custody, stored, rfl⟩ := storePositionInternal_ok stepped
    dsimp only
    rw [(Custody.store_ok stored).2]
    exact List.mem_append_left _ held
  | takePosition id =>
    simp only [sessionOp, takePosition] at stepped
    split at stepped
    case isTrue present =>
      simp only [bind_ok, check_ok, exists_const, pure_ok] at stepped
      obtain ⟨_, rfl⟩ := stepped
      exact Custody.mem_remove present held (fun same => other (same ▸ rfl))
    case isFalse => cases stepped

theorem session_keeps {kind : SessionKind} {adapters : List TypeName} {adapter : TypeName} {now : Nat}
    {ops : List (SessionOp Obj)} {o : Custodied Obj} (member : o ∈ v.custody.objects)
    (untaken : .takePosition o.id ∉ ops) (ran : v.session kind adapters adapter now ops = .ok next) :
    o ∈ next.custody.objects := by
  simp only [session, bind_ok, Prod.exists] at ran
  obtain ⟨opened, forced, opens, moves⟩ := ran
  rcases (openSession_ok opens).1 with rfl | rfl
  · exact sessionOps_keep moves member untaken
  · exact sessionOps_keep moves member untaken

def Call.takes : Call Obj → List ID
  | .session _ _ ops => ops.filterMap fun op =>
    match op with
    | .takePosition taken => some taken
    | _ => none
  | _ => []

theorem Call.keeps {env : Env} {c : Call Obj} {o : Custodied Obj} (member : o ∈ v.custody.objects)
    (untaken : o.id ∉ c.takes) (ran : c.run env v = .ok next) : o ∈ next.custody.objects := by
  cases Call.effect ran with
  | quiet quiet =>
    rw [quiet.custody]
    exact member
  | session ran =>
    refine session_keeps member (fun within => untaken ?_) ran
    exact List.mem_filterMap.mpr ⟨_, within, rfl⟩
  | receivePosition stored =>
    dsimp only
    rw [(Custody.store_ok stored).2]
    exact List.mem_append_left _ member
  | receiveCoin moved grew => exact member
  | mmRelease sound taken => exact member
  | returnExternal known mine stored => exact member
  | redeemSettledPosition ran =>
    obtain ⟨_, _, _, pays⟩ := redeemSettledPosition_ok ran
    obtain ⟨_, _, _, _, _, _, _, _, _, _, _, rfl⟩ := paySettlement_ok pays
    exact member
  | settleQueuedRequest ran =>
    obtain ⟨_, _, _, pays⟩ := settleQueuedRequest_ok ran
    obtain ⟨_, _, _, _, _, _, _, _, _, _, _, rfl⟩ := paySettlement_ok pays
    exact member
  | claimSettlementCuratorFees asset settled taken => exact member

/-! ### Appraisals in the making -/

def Leg.positionId : Leg Obj → Option ID
  | .position valued _ _ => some valued
  | _ => none

def Leg.balanceType : Leg Obj → Option TypeName
  | .balance t _ _ => some t
  | _ => none

def Leg.equityValue : Leg Obj → Option Nat
  | .equity value => some value
  | _ => none

/-- What an appraisal says of the balances, while the mutation sequence stands. -/
structure Current (v : TradingVault Obj) (a : Appraisal Obj) : Prop where
  amounts : ∀ t amount value, .balance t amount value ∈ a.legs → amount = v.freeBalance t
  complete : ∀ t, 0 < v.freeBalance t → t ∈ a.remainingTypes ∨ t ∈ a.legs.filterMap Leg.balanceType
  remaining : ∀ t ∈ a.remainingTypes, t ∈ v.purse.assetTypes
  listed : ∀ t ∈ a.legs.filterMap Leg.balanceType, t = v.config.accountingAsset ∨ t ∈ v.purse.assetTypes
  external : a.externalPending = true ∨ (∃ equity, .equity equity ∈ a.legs) ↔ 0 < v.exposure

/-- An appraisal adds up its legs, each once, and is current while the mutation sequence stands. -/
structure Fits (v : TradingVault Obj) (a : Appraisal Obj) : Prop where
  total : a.totalValue = (a.legs.map Leg.value).sum
  positions : a.legs.filterMap Leg.positionId = a.appraisedPositions
  once : a.appraisedPositions.Nodup
  types : (a.legs.filterMap Leg.balanceType).Nodup
  pending : a.remainingTypes.Nodup
  apart : ∀ t ∈ a.remainingTypes, t ∉ a.legs.filterMap Leg.balanceType
  snapshot : a.mutationSeqSnapshot ≤ v.purse.mutationSeq
  current : a.mutationSeqSnapshot = v.purse.mutationSeq → Current v a
  /-- The accounting asset is valued first, at par. -/
  first : v.config.accountingAsset ∉ a.remainingTypes
  par : ∀ amount value, .balance v.config.accountingAsset amount value ∈ a.legs → value = amount
  unrecorded : a.externalPending = true → a.legs.filterMap Leg.equityValue = []
  recorded : (a.legs.filterMap Leg.equityValue).length ≤ 1

/-- Whatever moves funds outdates an appraisal. -/
theorem Fits.carry {a : Appraisal Obj} (fits : Fits v a) (frame : CashFrame v next) : Fits next a := by
  refine ⟨fits.total, fits.positions, fits.once, fits.types, fits.pending, fits.apart, ?_, fun stands => ?_,
    frame.accounting ▸ fits.first, frame.accounting ▸ fits.par, fits.unrecorded, fits.recorded⟩
  · rcases frame.funds with ⟨purse, _⟩ | later
    · rw [purse]
      exact fits.snapshot
    · exact Nat.le_trans fits.snapshot (Nat.le_of_lt later)
  · rcases frame.funds with ⟨purse, exposure⟩ | later
    · rw [purse] at stands
      have current := fits.current stands
      refine ⟨?_, ?_, ?_, ?_, ?_⟩
      · simpa only [freeBalance, purse] using current.amounts
      · simpa only [freeBalance, purse] using current.complete
      · simpa only [purse] using current.remaining
      · simpa only [purse, frame.accounting] using current.listed
      · simpa only [exposure] using current.external
    · have := fits.snapshot
      omega

theorem beginAppraisal_fits {t : TypeName} {a : Appraisal Obj} (ran : v.beginAppraisal t = .ok a) : Fits v a := by
  simp only [beginAppraisal, bind_ok, check_ok, exists_const, pure_ok] at ran
  obtain ⟨asset, rfl⟩ := ran
  refine ⟨by simp [Leg.value], rfl, List.nodup_nil, by simp [Leg.balanceType], v.purse.distinct.erase _, ?_,
    Nat.le_refl _, fun _ => ⟨?_, ?_, ?_, ?_, ?_⟩, v.purse.distinct.not_mem_erase, ?_, fun _ => rfl,
    Nat.zero_le _⟩
  · intro u member
    have parts := (v.purse.distinct.mem_erase_iff).mp member
    simpa [Leg.balanceType, asset] using parts.1
  · simp
    rintro _ _ _ rfl rfl _
    rfl
  · intro u positive
    by_cases here : u = t
    · exact Or.inr (by simp [Leg.balanceType, here])
    · rw [← asset]
      exact Or.inl ((List.mem_erase_of_ne here).mpr (v.purse.listed u positive))
  · exact fun u member => List.mem_of_mem_erase member
  · intro u member
    exact Or.inl (by simpa [Leg.balanceType, asset] using member)
  · simp [TradingVault.exposure]
    cases v.external <;> simp
  · intro amount value member
    cases List.mem_singleton.mp member
    rfl

theorem appraiseBalance_fits {cfg : VaultProtocolConfig} {a grown : Appraisal Obj} {t : TypeName} {att : PriceAttestation}
    {now : Nat} (fits : Fits v a) (ran : v.appraiseBalance cfg a t att now = .ok grown) : Fits v grown := by
  simp only [appraiseBalance, addU128, bind_ok, check_ok, exists_const, fit_ok, pure_ok] at ran
  obtain ⟨left, _, _, value, _, _, ⟨_, rfl⟩, rfl⟩ := ran
  -- the balance of one more type is valued
  have types : (a.legs ++ [Leg.balance t (v.freeBalance t) value]).filterMap Leg.balanceType =
      a.legs.filterMap Leg.balanceType ++ [t] := by
    rw [List.filterMap_append]
    rfl
  refine ⟨?_, ?_, fits.once, ?_, fits.pending.erase t, ?_, fits.snapshot, fun stands => ?_,
    fun member => fits.first (List.mem_of_mem_erase member), ?_, ?_, ?_⟩
  · simp [fits.total, Leg.value]
  · rw [← fits.positions, List.filterMap_append]
    simp [Leg.positionId]
  · rw [types]
    refine List.nodup_append.mpr ⟨fits.types, by simp, ?_⟩
    -- a type that is valued twice would have been pending still
    rintro u known w only rfl
    exact fits.apart t left (List.mem_singleton.mp only ▸ known)
  · intro u member
    have parts := fits.pending.mem_erase_iff.mp member
    rw [types, List.mem_append, List.mem_singleton]
    rintro (known | same)
    · exact fits.apart u parts.2 known
    · exact parts.1 same
  · have current := fits.current stands
    refine ⟨?_, ?_, ?_, ?_, ?_⟩
    · intro u amount worth member
      rcases List.mem_append.mp member with old | new
      · exact current.amounts u amount worth old
      · cases List.mem_singleton.mp new
        rfl
    · intro u positive
      rw [types]
      -- a positive balance is pending, or among the valued ones
      by_cases here : u = t
      · exact Or.inr (List.mem_append_right _ (by simp [here]))
      · rcases current.complete u positive with pending | valued
        · exact Or.inl ((List.mem_erase_of_ne here).mpr pending)
        · exact Or.inr (List.mem_append_left _ valued)
    · exact fun u member => current.remaining u (List.mem_of_mem_erase member)
    · intro u member
      rw [types, List.mem_append, List.mem_singleton] at member
      rcases member with old | rfl
      · exact current.listed u old
      · exact Or.inr (current.remaining u left)
    · simpa using current.external
  · intro amount worth member
    rcases List.mem_append.mp member with old | new
    · exact fits.par amount worth old
    · cases List.mem_singleton.mp new
      -- the accounting asset was the first leg, and is not pending any more
      exact absurd left fits.first
  · simpa [Leg.equityValue] using fits.unrecorded
  · rw [List.filterMap_append, List.length_append]
    exact fits.recorded

/-- Object and equity legs leave the balances of an appraisal as they are. -/
theorem Current.of_same {a grown : Appraisal Obj} (current : Current v a)
    (remaining : grown.remainingTypes = a.remainingTypes)
    (balances : ∀ t amount value, .balance t amount value ∈ grown.legs → .balance t amount value ∈ a.legs)
    (types : grown.legs.filterMap Leg.balanceType = a.legs.filterMap Leg.balanceType)
    (external : grown.externalPending = true ∨ (∃ equity, .equity equity ∈ grown.legs) ↔
      a.externalPending = true ∨ ∃ equity, .equity equity ∈ a.legs) : Current v grown := by
  refine ⟨fun t amount value member => current.amounts t amount value (balances t amount value member), ?_, ?_, ?_, ?_⟩
  · rw [remaining, types]
    exact current.complete
  · rw [remaining]
    exact current.remaining
  · rw [types]
    exact current.listed
  · exact external.trans current.external

theorem recordPositionValue_ok {a grown : Appraisal Obj} {witness : TypeName} {id : ID} {value : Nat}
    (ran : v.recordPositionValue a witness id value = .ok grown) :
    ∃ o ∈ v.custody.objects, o.id = id ∧ id ∉ a.appraisedPositions ∧
      { a with
        totalValue := a.totalValue + value
        appraisedPositions := a.appraisedPositions ++ [id]
        legs := a.legs ++ [.position id o.object value] } = grown := by
  simp only [recordPositionValue, addU128, bind_ok, need_ok, check_ok, exists_const, fit_ok, pure_ok] at ran
  obtain ⟨o, found, _, fresh, _, ⟨_, rfl⟩, rfl⟩ := ran
  have named := List.find?_some found
  exact ⟨o, List.mem_of_find?_eq_some found, by simpa using named, fresh, rfl⟩

theorem recordPositionValue_fits {a grown : Appraisal Obj} {witness : TypeName} {id : ID} {value : Nat} (fits : Fits v a)
    (ran : v.recordPositionValue a witness id value = .ok grown) : Fits v grown := by
  obtain ⟨o, _, _, fresh, rfl⟩ := recordPositionValue_ok ran
  have types : (a.legs ++ [Leg.position id o.object value]).filterMap Leg.balanceType =
      a.legs.filterMap Leg.balanceType := by
    rw [List.filterMap_append]
    simp [Leg.balanceType]
  refine ⟨?_, ?_, ?_, ?_, fits.pending, ?_, fits.snapshot, fun stands => ?_, fits.first,
    fun amount worth member => fits.par amount worth (by simpa using member),
    by simpa [Leg.equityValue] using fits.unrecorded, ?_⟩
  · simp [fits.total, Leg.value]
  · rw [List.filterMap_append, fits.positions]
    rfl
  · refine List.nodup_append.mpr ⟨fits.once, by simp, ?_⟩
    rintro x known y only rfl
    exact fresh (List.mem_singleton.mp only ▸ known)
  · rw [types]
    exact fits.types
  · rw [types]
    exact fits.apart
  · refine (fits.current stands).of_same rfl ?_ types ?_
    · intro t amount worth member
      simpa using member
    · simp
  · rw [List.filterMap_append, List.length_append]
    exact fits.recorded

theorem recordExternalEquity_fits {oracles : List TypeName} {a grown : Appraisal Obj} {oracle : TypeName} {equity : Nat}
    (fits : Fits v a) (ran : v.recordExternalEquity oracles a oracle equity = .ok grown) : Fits v grown := by
  simp only [recordExternalEquity, addU128, bind_ok, need_ok, check_ok, exists_const, fit_ok, pure_ok] at ran
  obtain ⟨ext, _, _, _, pending, _, ⟨_, rfl⟩, rfl⟩ := ran
  have types : (a.legs ++ [Leg.equity equity]).filterMap Leg.balanceType = a.legs.filterMap Leg.balanceType := by
    rw [List.filterMap_append]
    simp [Leg.balanceType]
  refine ⟨?_, ?_, fits.once, ?_, fits.pending, ?_, fits.snapshot, fun stands => ?_, fits.first,
    fun amount worth member => fits.par amount worth (by simpa using member), by simp, ?_⟩
  · simp [fits.total, Leg.value]
  · rw [← fits.positions, List.filterMap_append]
    simp [Leg.positionId]
  · rw [types]
    exact fits.types
  · rw [types]
    exact fits.apart
  · refine (fits.current stands).of_same rfl ?_ types ?_
    · intro t amount worth member
      simpa using member
    · simp [pending]
  · rw [List.filterMap_append, fits.unrecorded pending]
    exact Nat.le_refl _

/-! ### Every step -/

theorem Use.custody {env : Env} {a : Appraisal Obj} {u : Use} (ran : u.run env v a = .ok next) :
    next.custody = v.custody := by
  cases u with
  | crankAppraisal =>
    obtain ⟨_, _, rfl⟩ := crankAppraisal_ok ran
    rfl
  | crankCapital =>
    obtain ⟨_, _, _, _, syncs⟩ := crankCapital_ok ran
    exact (syncCapital_frame syncs).custody
  | deposit sender t amount att tranche id =>
    obtain ⟨_, _, _, deposited, rfl⟩ := deposit_ok ran
    obtain ⟨_, _, _, _, _, _, _, _, _, syncs, issued⟩ := depositInternal_ok deposited
    exact issued.custody.trans (syncCapital_frame syncs).custody
  | depositIntoCommitment sender cap t amount att id =>
    obtain ⟨_, _, _, _, _, deposited, funds, rfl⟩ := depositIntoCommitment_ok ran
    obtain ⟨_, rfl, _⟩ := fundCommitment_ok funds
    obtain ⟨_, _, _, _, _, _, _, _, _, syncs, issued⟩ := depositInternal_ok deposited
    exact issued.custody.trans (syncCapital_frame syncs).custody
  | releaseExternal cap t amount =>
    obtain ⟨_, _, _, _, _, _, _, _, _, _, syncs, _, _, _, rfl⟩ := releaseExternal_ok ran
    exact (syncCapital_frame syncs).custody
  | proposeJuniorReset =>
    obtain ⟨_, _, _, _, _, _, _, _, syncs, _, rfl⟩ := proposeJuniorReset_ok ran
    exact (syncCapital_frame syncs).custody
  | executeJuniorReset sender t amount id =>
    obtain ⟨_, _, _, _, _, _, _, _, _, syncs, _, _, _, _, _, rfl⟩ := executeJuniorReset_ok ran
    exact (syncCapital_frame syncs).custody
  | releaseCommitment cap shares id =>
    obtain ⟨_, _, _, _, _, _, _, _, syncs, splits, rfl⟩ := releaseCommitment_ok ran
    obtain ⟨_, _, _, rfl | ⟨_, _, _, rfl⟩⟩ := splitCommitment_ok splits
    · exact (syncCapital_frame syncs).custody
    · exact (syncCapital_frame syncs).custody
  | snapshotSettlement =>
    obtain ⟨_, _, _, _, _, _, _, syncs, _, rfl⟩ := snapshotSettlement_ok ran
    exact (syncCapital_frame syncs).custody

theorem fulfillNext_custody {cfg : VaultProtocolConfig} {f : Fulfillment} {p : TypeName} {now : Nat} {id : ID}
    {outcome : Option Receipt} (ran : v.fulfillNext cfg f p now id = .ok (next, outcome)) :
    next.custody = v.custody := by
  rcases fulfillNext_ok ran with ⟨rfl, _⟩ | ⟨receipt, _, paid⟩
  · rfl
  · obtain ⟨curatorNet, burned, minted, cut, _, burns, mints, cuts, pays⟩ := settleRequest_ok paid.settled
    have burning : burned.custody = v.custody := by
      rcases burnShares_ok burns with ⟨_, rfl⟩ | ⟨_, _, _, rfl⟩ <;> rfl
    have minting : minted.custody = burned.custody := by
      rcases mintFee_ok mints with rfl | ⟨_, _, _, _, credits⟩
      · rfl
      · obtain ⟨_, rfl, _⟩ := creditCommitment_ok credits
        rfl
    obtain ⟨_, rfl, _⟩ := payOut_ok cuts
    obtain ⟨_, rfl, _⟩ := payOut_ok pays
    exact minting.trans burning

namespace World

variable {w after : World Obj}

inductive Made (w : World Obj) (a : Appraisal Obj) : Prop where
  | begun {t : TypeName} : w.vault.beginAppraisal t = .ok a → Made w a
  | balance {old : Appraisal Obj} {t : TypeName} {att : PriceAttestation} : old ∈ w.appraisals →
      w.vault.appraiseBalance w.env.cfg old t att w.env.now = .ok a → Made w a
  | position {old : Appraisal Obj} {witness : TypeName} {id : ID} {value : Nat} : old ∈ w.appraisals →
      w.vault.recordPositionValue old witness id value = .ok a → Made w a
  | equity {old : Appraisal Obj} {oracle : TypeName} {value : Nat} : old ∈ w.appraisals →
      w.vault.recordExternalEquity w.env.oracles old oracle value = .ok a → Made w a

theorem valued_appraisals {index : Nat} {valuation : Appraisal Obj → Result Error (Appraisal Obj)}
    (ran : w.valued index valuation = .ok after)
    (made : ∀ old ∈ w.appraisals, ∀ a, valuation old = .ok a → Made w a) :
    after.vault = w.vault ∧ ∀ a ∈ after.appraisals, a ∈ w.appraisals ∨ Made w a := by
  obtain ⟨old, grown, found, values, rfl⟩ := valued_ok ran
  refine ⟨rfl, fun a member => ?_⟩
  rcases List.mem_or_eq_of_mem_set member with known | rfl
  · exact Or.inl known
  · exact Or.inr (made old (List.mem_of_getElem? found) a values)

theorem Moves.cashFrame {action : Action Obj} {next : TradingVault Obj} (moves : Moves w action next) :
    CashFrame w.vault next := by
  cases moves with
  | call calls => exact Call.cashFrame calls
  | use found uses => exact Use.cashFrame uses
  | beginFulfillment found begins =>
    obtain ⟨_, _, _, _, _, _, syncs, _, _⟩ := beginFulfillment_ok begins
    exact .of_sync (syncCapital_frame syncs)
  | fulfillNext found fulfills => exact fulfillNext_cashFrame fulfills
  | still => exact .refl _

theorem step_appraisals {action : Action Obj} (ran : w.step action = .ok after) :
    (∀ a ∈ after.appraisals, a ∈ w.appraisals) ∨
      after.vault = w.vault ∧ ∀ a ∈ after.appraisals, a ∈ w.appraisals ∨ Made w a := by
  cases action with
  | call c =>
    simp only [step, bind_ok, pure_ok] at ran
    obtain ⟨_, _, rfl⟩ := ran
    exact Or.inl fun a member => member
  | use index u =>
    simp only [step, bind_ok, pure_ok] at ran
    obtain ⟨_, _, _, _, rfl⟩ := ran
    exact Or.inl fun a member => List.mem_of_mem_eraseIdx member
  | beginAppraisal t =>
    simp only [step, bind_ok, pure_ok] at ran
    obtain ⟨begun, begins, rfl⟩ := ran
    refine Or.inr ⟨rfl, fun a member => ?_⟩
    rcases List.mem_append.mp member with old | new
    · exact Or.inl old
    · rw [List.mem_singleton.mp new]
      exact Or.inr (.begun begins)
  | appraiseBalance index t att =>
    exact Or.inr (valued_appraisals ran fun old member a values => .balance member values)
  | recordPositionValue index witness id value =>
    exact Or.inr (valued_appraisals ran fun old member a values => .position member values)
  | recordExternalEquity index oracle equity =>
    exact Or.inr (valued_appraisals ran fun old member a values => .equity member values)
  | beginFulfillment index atts =>
    simp only [step, bind_ok, pure_ok, Prod.exists] at ran
    obtain ⟨_, _, _, _, _, rfl⟩ := ran
    exact Or.inl fun a member => List.mem_of_mem_eraseIdx member
  | fulfillNext index p id =>
    simp only [step, bind_ok, pure_ok, Prod.exists] at ran
    obtain ⟨_, _, _, _, _, rfl⟩ := ran
    exact Or.inl fun a member => member
  | endFulfillment index =>
    simp only [step, bind_ok, pure_ok] at ran
    obtain ⟨_, _, rfl⟩ := ran
    exact Or.inl fun a member => member
  | administer cfg adapters oracles lp =>
    simp only [step, pure_ok] at ran
    subst ran
    exact Or.inl fun a member => member
  | nextTransaction now =>
    simp only [step, bind_ok, check_ok, exists_const, pure_ok] at ran
    obtain ⟨_, _, rfl⟩ := ran
    exact Or.inl fun a member => member

theorem Made.fits {a : Appraisal Obj} (made : Made w a) (before : ∀ a ∈ w.appraisals, Fits w.vault a) : Fits w.vault a := by
  cases made with
  | begun begins => exact beginAppraisal_fits begins
  | balance old values => exact appraiseBalance_fits (before _ old) values
  | position old values => exact recordPositionValue_fits (before _ old) values
  | equity old values => exact recordExternalEquity_fits (before _ old) values

theorem step_fits {action : Action Obj} (before : ∀ a ∈ w.appraisals, Fits w.vault a) (ran : w.step action = .ok after) :
    ∀ a ∈ after.appraisals, Fits after.vault a := by
  rcases step_appraisals ran with old | ⟨same, made⟩
  · exact fun a member => (before a (old a member)).carry (step_moves ran).cashFrame
  · intro a member
    rw [same]
    rcases made a member with known | new
    · exact before a known
    · exact new.fits before

theorem Reachable.fits (reachable : w.Reachable) : ∀ a ∈ w.appraisals, Fits w.vault a := by
  obtain ⟨g, actions, played⟩ := reachable
  obtain ⟨created, creates, ran⟩ := bind_ok.mp played
  refine exec_invariant step (fun w => ∀ a ∈ w.appraisals, Fits w.vault a)
    (fun _ _ _ before ran => step_fits before ran) ?_ ran
  obtain ⟨_, _, _, _, _, _, _, _, _, none, _⟩ := createVault_ok creates
  simp [none]

/-! ### Custody under an appraisal -/

/-- No object that an open appraisal has valued is taken out of custody. -/
def Untouched (w : World Obj) : Action Obj → Prop
  | .call c => ∀ a ∈ w.appraisals, ∀ id ∈ c.takes, id ∉ a.appraisedPositions
  | _ => True

def InCustody (v : TradingVault Obj) (a : Appraisal Obj) : Prop :=
  ∀ id object value, .position id object value ∈ a.legs → ∃ tag, ⟨id, tag, object⟩ ∈ v.custody.objects

theorem Moves.keeps {action : Action Obj} {next : TradingVault Obj} {o : Custodied Obj} (moves : Moves w action next)
    (member : o ∈ w.vault.custody.objects) (untaken : ∀ c, action = .call c → o.id ∉ c.takes) :
    o ∈ next.custody.objects := by
  cases moves with
  | call calls => exact Call.keeps member (untaken _ rfl) calls
  | use found uses => exact (Use.custody uses).symm ▸ member
  | beginFulfillment found begins =>
    obtain ⟨_, _, _, _, _, _, syncs, _, _⟩ := beginFulfillment_ok begins
    exact (syncCapital_frame syncs).custody.symm ▸ member
  | fulfillNext found fulfills => exact (fulfillNext_custody fulfills).symm ▸ member
  | still => exact member

theorem Made.inCustody {a : Appraisal Obj} (made : Made w a) (before : ∀ a ∈ w.appraisals, InCustody w.vault a) :
    InCustody w.vault a := by
  cases made with
  | begun begins =>
    simp only [beginAppraisal, bind_ok, check_ok, exists_const, pure_ok] at begins
    obtain ⟨_, rfl⟩ := begins
    intro id object value member
    simp at member
  | balance old values =>
    simp only [appraiseBalance, bind_ok, check_ok, exists_const, pure_ok] at values
    obtain ⟨_, _, _, _, _, _, _, rfl⟩ := values
    intro id object value member
    exact before _ old id object value (by simpa using member)
  | position old values =>
    obtain ⟨o, held, rfl, _, rfl⟩ := recordPositionValue_ok values
    intro id object value member
    rcases List.mem_append.mp member with known | new
    · exact before _ old id object value known
    · cases List.mem_singleton.mp new
      exact ⟨o.tag, held⟩
  | equity old values =>
    simp only [recordExternalEquity, bind_ok, need_ok, check_ok, exists_const, pure_ok] at values
    obtain ⟨_, _, _, _, _, _, _, rfl⟩ := values
    intro id object value member
    exact before _ old id object value (by simpa using member)

theorem step_inCustody {action : Action Obj} (fits : ∀ a ∈ w.appraisals, Fits w.vault a)
    (before : ∀ a ∈ w.appraisals, InCustody w.vault a) (untouched : Untouched w action) (ran : w.step action = .ok after) :
    ∀ a ∈ after.appraisals, InCustody after.vault a := by
  rcases step_appraisals ran with old | ⟨same, made⟩
  · intro a member id object value leg
    obtain ⟨tag, held⟩ := before a (old a member) id object value leg
    refine ⟨tag, (step_moves ran).keeps held ?_⟩
    rintro c rfl taken
    have valued : id ∈ a.appraisedPositions := by
      rw [← (fits a (old a member)).positions]
      exact List.mem_filterMap.mpr ⟨_, leg, rfl⟩
    exact untouched a (old a member) id taken valued
  · intro a member
    rw [same]
    rcases made a member with known | new
    · exact before a known
    · exact new.inCustody before

/-- An appraisal of exactly what the vault holds: each object in custody and each free balance,
as they are, once. -/
structure Exact (v : TradingVault Obj) (a : Appraisal Obj) : Prop where
  total : a.totalValue = (a.legs.map Leg.value).sum
  positions : ∀ id, id ∈ a.legs.filterMap Leg.positionId ↔ id ∈ v.custody.objects.map (·.id)
  objects : InCustody v a
  positionsOnce : (a.legs.filterMap Leg.positionId).Nodup
  balances : ∀ t, 0 < v.freeBalance t → ∃ value, .balance t (v.freeBalance t) value ∈ a.legs
  amounts : ∀ t amount value, .balance t amount value ∈ a.legs → amount = v.freeBalance t
  balancesOnce : (a.legs.filterMap Leg.balanceType).Nodup

theorem consumeAppraisal_ok {a : Appraisal Obj} {nav : Nat} (ran : v.consumeAppraisal a = .ok nav) :
    a.remainingTypes = [] ∧ a.externalPending = false ∧ a.appraisedPositions.length = v.custody.positionCount ∧
      a.mutationSeqSnapshot = v.purse.mutationSeq ∧ a.totalValue = nav := by
  simp only [consumeAppraisal, bind_ok, check_ok, exists_const, pure_ok] at ran
  obtain ⟨types, external, length, count, _, seq, _, total⟩ := ran
  exact ⟨types, external, length.trans count, seq, total⟩

theorem consumed_exact {a : Appraisal Obj} {nav : Nat} (fits : Fits v a) (held : InCustody v a)
    (consumed : v.consumeAppraisal a = .ok nav) : Exact v a := by
  obtain ⟨types, _, length, seq, _⟩ := consumeAppraisal_ok consumed
  have current := fits.current seq
  have inside : a.appraisedPositions ⊆ v.custody.objects.map (·.id) := by
    intro id member
    rw [← fits.positions] at member
    obtain ⟨leg, within, same⟩ := List.mem_filterMap.mp member
    cases leg with
    | position valued object value =>
      cases same
      obtain ⟨tag, present⟩ := held _ object value within
      exact List.mem_map.mpr ⟨_, present, rfl⟩
    | balance t amount value => cases same
    | equity value => cases same
  -- distinct ids, as many as the custody has: the counts decide
  have perm : a.appraisedPositions.Perm (v.custody.objects.map (·.id)) := by
    refine (List.subperm_of_subset fits.once inside).perm_of_length_le ?_
    exact Nat.le_of_eq (by rw [List.length_map, ← v.custody.counted, length])
  refine ⟨fits.total, fun id => ?_, held, ?_, fun t positive => ?_, current.amounts, fits.types⟩
  · rw [fits.positions]
    exact perm.mem_iff
  · rw [fits.positions]
    exact fits.once
  · rcases current.complete t positive with pending | valued
    · rw [types] at pending
      cases pending
    · obtain ⟨leg, within, same⟩ := List.mem_filterMap.mp valued
      cases leg with
      | balance u amount value =>
        cases same
        exact ⟨value, current.amounts _ amount value within ▸ within⟩
      | position valued object value => cases same
      | equity value => cases same

/-- In every run that takes no valued object out of custody, every appraisal that can be
consumed counted exactly what the vault holds. -/
theorem consumed_appraisal_exact {g : Genesis} {created : World Obj} {actions : List (Action Obj)}
    (creates : createVault g = .ok created) (untouched : Along step Untouched created actions)
    (ran : exec step created actions = .ok w) {a : Appraisal Obj} (opened : a ∈ w.appraisals) {nav : Nat}
    (consumed : w.vault.consumeAppraisal a = .ok nav) : nav = (a.legs.map Leg.value).sum ∧ Exact w.vault a := by
  obtain ⟨_, _, _, _, _, _, _, _, _, none, _⟩ := createVault_ok creates
  have holds := exec_invariant_along step Untouched
    (fun w => (∀ a ∈ w.appraisals, Fits w.vault a) ∧ ∀ a ∈ w.appraisals, InCustody w.vault a)
    (fun _ _ _ before untouched ran => ⟨step_fits before.1 ran, step_inCustody before.1 before.2 untouched ran⟩)
    (by simp [none]) untouched ran
  have fits := holds.1 a opened
  exact ⟨(consumeAppraisal_ok consumed).2.2.2.2.symm.trans fits.total, consumed_exact fits (holds.2 a opened) consumed⟩

end World

namespace Sample

/-- An object that is not valued yet is taken back, and another one arrives in its place. -/
def valuing : List (Action Nat) :=
  [.call (.receivePosition "Adapter" 19 4), .call (.receivePosition "Adapter" 20 5), .beginAppraisal "USDC",
    .recordPositionValue 0 "Adapter" 20 500, .call (.session (.curator 2) "Adapter" [.takePosition 19]),
    .call (.receivePosition "VaultMm" 21 6), .recordPositionValue 0 "VaultMm" 21 600]

def swapping : List (Action Nat) :=
  [.call (.receivePosition "Adapter" 20 5), .beginAppraisal "USDC", .recordPositionValue 0 "Adapter" 20 500,
    .call (.session (.curator 2) "Adapter" [.takePosition 20]), .call (.receivePosition "VaultMm" 21 6)]

def untouchedTest (w : World Nat) : Action Nat → Bool
  | .call c => w.appraisals.all fun a => c.takes.all fun id => id ∉ a.appraisedPositions
  | _ => true

theorem untouchedTest_sound {w : World Nat} {action : Action Nat} (passed : untouchedTest w action = true) :
    World.Untouched w action := by
  cases action with
  | call c =>
    intro a member taken within
    have checked := List.all_eq_true.mp (List.all_eq_true.mp passed a member) taken within
    exact of_decide_eq_true checked
  | _ => trivial

end Sample

/-- The two objects in custody, one of which arrived after the appraisal began, are counted once each. -/
theorem World.consumed_appraisal_exact_of_two :
    ∃ w : World Nat, World.play (Sample.genesis .untranched) (Sample.deposit 1000 .untranched 10 ++ Sample.valuing) = .ok w ∧
      ∃ a ∈ w.appraisals, ∃ nav, w.vault.consumeAppraisal a = .ok nav ∧ nav = (a.legs.map Leg.value).sum ∧
        World.Exact w.vault a := by
  refine exists_ok
    (fun w => w.appraisals.any fun a => (w.vault.consumeAppraisal a).toOption.isSome) (by decide +kernel) ?_
  intro w ran passed
  obtain ⟨a, opened, consumes⟩ := List.any_eq_true.mp passed
  obtain ⟨created, creates, plays⟩ := bind_ok.mp ran
  have untouched : Along World.step World.Untouched created (Sample.deposit 1000 .untranched 10 ++ Sample.valuing) := by
    refine along_of_test World.step (fun _ _ _ (_ : True) _ => trivial)
      (fun _ _ _ passed => Sample.untouchedTest_sound passed) trivial ?_
    cases creates
    decide +kernel
  obtain ⟨nav, consumed⟩ := toOption_isSome.mp consumes
  exact ⟨a, opened, nav, consumed, World.consumed_appraisal_exact creates untouched plays opened consumed⟩

/-- The object that left is counted and the one that came is not. -/
theorem World.consumed_appraisal_misses :
    ∃ w : World Nat, World.play (Sample.genesis .untranched) Sample.swapping = .ok w ∧
      ∃ a ∈ w.appraisals, w.vault.consumeAppraisal a = .ok 500 ∧ a.appraisedPositions = [20] ∧
        w.vault.custody.objects.map (·.id) = [21] := by
  refine exists_ok
    (fun w => w.appraisals.any fun a => decide ((w.vault.consumeAppraisal a).toOption = some 500) &&
      decide (a.appraisedPositions = [20] ∧ w.vault.custody.objects.map (·.id) = [21])) (by decide +kernel) ?_
  intro w _ passed
  obtain ⟨a, opened, both⟩ := List.any_eq_true.mp passed
  obtain ⟨consumes, sets⟩ := Bool.and_eq_true_iff.mp both
  exact ⟨a, opened, toOption_eq_some.mp (of_decide_eq_true consumes), of_decide_eq_true sets⟩

end SuiOptions.Vault
