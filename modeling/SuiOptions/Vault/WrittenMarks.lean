import SuiOptions.Core.PutBucket
import SuiOptions.Lib.Rounding
import SuiOptions.Vault.Valuation

/-! The marks of written option positions: `appraise_call_position` and
`appraise_put_position` of `vault_mm.move`.

A mark takes the part of a position that the cursor has passed as settled and the rest
at the cheaper of its two outcomes. No cursor that comes later makes the position worth
less, but for the roundings.
-/

set_option autoImplicit false

namespace SuiOptions.Vault

open Execution Move Ranges
open SuiOptions.Core (Bucket PutBucket Position exercisedUnits halfUp applyStrikeCeil applyStrikeFloor)
open Exchange (ID)

inductive MarkError where
  | bucketMismatch | priceAssetMismatch | missingAttestation | valueOverflow | amountOverflow | spreadPosition
  | vault (why : Error)
  | bucket (why : Core.Error)
  -- the framework's, for a custodied object of another type
  | fieldTypeMismatch
  deriving DecidableEq, Repr

variable {Obj ι : Type} [DecidableEq ι]

def vaultMm : TypeName := "VaultMm"

def TradingVault.checkAttestation (v : TradingVault Obj) (cfg : VaultProtocolConfig) (att : PriceAttestation) (now : Nat) :
    Result Error Unit := do
  check (att.quoteAsset = v.config.accountingAsset) .priceAssetMismatch
  TradingVault.assertAttestationFresh cfg att now

/-- `borrow_position<Position>`; `view` tells the position objects from the other ones. -/
def TradingVault.borrowPosition (v : TradingVault Obj) (view : Obj → Option (Position ι)) (id : ID) :
    Result MarkError (Position ι) := do
  let c ← need (v.custody.find id) (.code (.vault .positionMissing))
  need (view c.object) (.code .fieldTypeMismatch)

def splitRanges (r : Range) (cursor : Nat) : Result MarkError (Nat × Nat) := do
  let amount ← sub r.stop r.start
  let exercised := exercisedUnits cursor r
  let unexercised ← sub amount exercised
  check (exercised < u64Bound ∧ unexercised < u64Bound) .amountOverflow
  pure (exercised, unexercised)

section Marks

variable (v : TradingVault Obj) (cfg : VaultProtocolConfig) (view : Obj → Option (Position ι))

def valueInDeposit (asset : TypeName) (amount : Nat) (att : Option PriceAttestation) (now : Nat) : Result MarkError Nat :=
  if amount = 0 then pure 0
  else if asset = v.config.accountingAsset then pure amount
  else do
    let a ← need att (.code .missingAttestation)
    check (a.asset = asset) .priceAssetMismatch
    within .vault (v.checkAttestation cfg a now)
    within .vault (castU128 (amount * a.price / priceScale))

/-- `u` and `s` are the underlying and the settlement type. -/
def appraiseCallPosition (u s : TypeName) (a : Appraisal Obj) (bucketId : ι) (bucket : Bucket ι) (positionId : ID)
    (underlyingAtt settlementAtt : Option PriceAttestation) (now : Nat) : Result MarkError (Appraisal Obj) := do
  let pos ← v.borrowPosition view positionId
  check (pos.bucketId = bucketId) .bucketMismatch
  check (bucket.overlapsSpread pos.range.start pos.range.stop = false) .spreadPosition
  let (exercised, unexercised) ← splitRanges pos.range bucket.exerciseCursor
  let exercisedS ← within .bucket (bucket.requiredSettlement exercised)
  let value ← valueInDeposit v cfg s exercisedS settlementAtt now
  let value ← (if 0 < unexercised then do
      let spotValue ← valueInDeposit v cfg u unexercised underlyingAtt now
      let strikeS ← within .bucket (bucket.requiredSettlement unexercised)
      let strikeValue ← valueInDeposit v cfg s strikeS settlementAtt now
      addU128 value (min spotValue strikeValue)
    else pure value)
  check (value < u64Bound) .valueOverflow
  within .vault (v.recordPositionValue a vaultMm positionId value)

def appraisePutPosition (u s : TypeName) (a : Appraisal Obj) (bucketId : ι) (bucket : PutBucket ι) (positionId : ID)
    (underlyingAtt settlementAtt : Option PriceAttestation) (now : Nat) : Result MarkError (Appraisal Obj) := do
  let pos ← v.borrowPosition view positionId
  check (pos.bucketId = bucketId) .bucketMismatch
  check (bucket.overlapsSpread pos.range.start pos.range.stop = false) .spreadPosition
  let (exercised, unexercised) ← splitRanges pos.range bucket.exerciseCursor
  let value ← valueInDeposit v cfg u exercised underlyingAtt now
  let value ← (if 0 < unexercised then do
      let collateralS ← within .bucket (bucket.requiredCollateral unexercised)
      let spotValue ← valueInDeposit v cfg u unexercised underlyingAtt now
      let collateralValue ← valueInDeposit v cfg s collateralS settlementAtt now
      addU128 value (min spotValue collateralValue)
    else pure value)
  check (value < u64Bound) .valueOverflow
  within .vault (v.recordPositionValue a vaultMm positionId value)

end Marks

/-! ### What a redemption pays -/

/-- Underlying and settlement for a written range, without the machine bounds. -/
def callRedemption (b : Bucket ι) (r : Range) : Nat × Nat :=
  (r.size - exercisedUnits b.exerciseCursor r, halfUp (exercisedUnits b.exerciseCursor r) b.strike b.strikeScale)

def putRedemption (b : PutBucket ι) (r : Range) : Nat × Nat :=
  (exercisedUnits b.exerciseCursor r, (r.size - exercisedUnits b.exerciseCursor r) * b.strike / 10 ^ b.strikeScale)

def paidOut (b next : Bucket ι) : Nat × Nat :=
  (b.underlyingBalance - next.underlyingBalance, b.settlementBalance - next.settlementBalance)

theorem redeemPosition_pays {now : Nat} {id : ι} {b next : Bucket ι} {p : Position ι}
    (ran : b.redeemPosition now id p = .ok next) : paidOut b next = callRedemption b p.range := by
  obtain ⟨_, _, _, owed, priced, backed, funded, rfl⟩ := Bucket.redeemPosition_ok ran
  obtain ⟨_, _, _, rfl⟩ := Core.applyStrike_ok.mp priced
  simp only [paidOut, callRedemption, Nat.sub_sub_self backed, Nat.sub_sub_self funded]

theorem put_redeemPosition_pays {now : Nat} {id : ι} {b next : PutBucket ι} {p : Position ι}
    (ran : b.redeemPosition now id p = .ok next) : paidOut b.toBucket next.toBucket = putRedemption b p.range := by
  obtain ⟨_, _, _, owed, priced, backed, funded, rfl⟩ := PutBucket.redeemPosition_ok ran
  obtain ⟨_, _, _, rfl⟩ := Core.applyStrikeFloor_ok.mp priced
  simp only [paidOut, putRedemption, Nat.sub_sub_self backed, Nat.sub_sub_self funded]

theorem splitRanges_ok {cursor : Nat} {r : Range} {parts : Nat × Nat} (split : splitRanges r cursor = .ok parts) :
    parts = (exercisedUnits cursor r, r.size - exercisedUnits cursor r) := by
  simp only [splitRanges, bind_ok, check_ok, exists_const, sub_ok, pure_ok] at split
  obtain ⟨_, ⟨_, rfl⟩, _, ⟨_, rfl⟩, _, rfl⟩ := split
  rfl

/-! ### Marks at a market's prices -/

section Worth

variable (m : Market Obj)

/-- What coins of a bucket are worth in accounting units. -/
def Market.proceeds (v : TradingVault Obj) (u s : TypeName) (coins : Nat × Nat) : Nat :=
  m.worth v.config.accountingAsset u coins.1 + m.worth v.config.accountingAsset s coins.2

def Market.rate (accounting t : TypeName) : ℚ := if t = accounting then 1 else m.price t / priceScale

theorem Market.worth_rounds (accounting t : TypeName) : Rounds (m.rate accounting t) 0 (m.worth accounting t) := by
  unfold Market.rate Market.worth
  split
  · exact ⟨fun n => by simp, fun n => by simp⟩
  · have rounds := Rounds.of_div (K := ℚ) (m.price t) 0 (by decide : 0 < priceScale)
    simpa using rounds

section Strike

variable (strike scale : Nat)

theorem halfUp_rounds : Rounds (strike / (10 ^ scale : Nat) : ℚ) ((10 ^ scale / 2 : Nat) / (10 ^ scale : Nat))
    fun units => halfUp units strike scale := Rounds.of_div strike (10 ^ scale / 2) (by positivity)

theorem ceil_rounds : Rounds (strike / (10 ^ scale : Nat) : ℚ) ((10 ^ scale - 1 : Nat) / (10 ^ scale : Nat))
    fun units => (units * strike + 10 ^ scale - 1) / 10 ^ scale := by
  have positive : 0 < 10 ^ scale := by positivity
  have rounds := Rounds.of_div (K := ℚ) strike (10 ^ scale - 1) positive
  simpa only [Nat.add_sub_assoc positive] using rounds

theorem floor_rounds : Rounds (strike / (10 ^ scale : Nat) : ℚ) 0 fun units => units * strike / 10 ^ scale := by
  have rounds := Rounds.of_div (K := ℚ) strike 0 (by positivity : 0 < 10 ^ scale)
  simpa using rounds

theorem bias_le {part : Nat} (within : part ≤ 10 ^ scale) : (part / (10 ^ scale : Nat) : ℚ) ≤ 1 + 0 := by
  rw [add_zero]
  exact div_le_one_of_le₀ (Nat.cast_le.mpr within) (Nat.cast_nonneg _)

end Strike

variable {m} {v : TradingVault Obj} {cfg : VaultProtocolConfig}

theorem valueInDeposit_ok {asset : TypeName} {amount now value : Nat} {att : Option PriceAttestation}
    (priced : ∀ x ∈ att, x.price = m.price asset) (ran : valueInDeposit v cfg asset amount att now = .ok value) :
    value = m.worth v.config.accountingAsset asset amount := by
  unfold valueInDeposit at ran
  unfold Market.worth
  split at ran
  · rename_i none
    cases pure_ok.mp ran
    subst none
    simp
  · split at ran
    · cases pure_ok.mp ran
      rw [if_pos ‹_›]
    · simp only [bind_ok, need_ok, check_ok, exists_const, within_ok, castU128, fit_ok] at ran
      obtain ⟨att, given, _, _, _, _, rfl⟩ := ran
      rw [if_neg ‹_›, priced att given]

theorem valueInDeposit_par {asset : TypeName} {amount now value : Nat} {att : Option PriceAttestation}
    (accounting : asset = v.config.accountingAsset) (ran : valueInDeposit v cfg asset amount att now = .ok value) :
    value = amount := by
  unfold valueInDeposit at ran
  by_cases none : amount = 0
  · rw [if_pos none] at ran
    rw [none]
    exact (pure_ok.mp ran).symm
  · rw [if_neg none, if_pos accounting] at ran
    exact (pure_ok.mp ran).symm

variable {view : Obj → Option (Position ι)} {u s : TypeName} {a grown : Appraisal Obj} {bucketId : ι} {positionId : ID}
  {underlyingAtt settlementAtt : Option PriceAttestation} {now : Nat} {c : Custodied Obj} {p : Position ι}

omit [DecidableEq ι] in
theorem borrowPosition_ok (held : v.custody.find positionId = some c) (viewed : view c.object = some p) {pos : Position ι}
    (ran : v.borrowPosition view positionId = .ok pos) : pos = p := by
  simp only [TradingVault.borrowPosition, bind_ok, need_ok, held, Option.some.injEq] at ran
  obtain ⟨_, rfl, viewed'⟩ := ran
  rw [viewed] at viewed'
  exact (Option.some.inj viewed').symm

theorem recorded_ok {value : Nat} (ran : within MarkError.vault (v.recordPositionValue a vaultMm positionId value) = .ok grown) :
    grown.totalValue = a.totalValue + value := by
  obtain ⟨_, _, _, _, rfl⟩ := recordPositionValue_ok (within_ok.mp ran)
  rfl

/-- The value that `appraise_call_position` records. -/
theorem appraiseCallPosition_ok {b : Bucket ι} (accounting : s = v.config.accountingAsset)
    (priced : ∀ x ∈ underlyingAtt, x.price = m.price u) (held : v.custody.find positionId = some c)
    (viewed : view c.object = some p)
    (ran : appraiseCallPosition v cfg view u s a bucketId b positionId underlyingAtt settlementAtt now = .ok grown) :
    grown.totalValue = a.totalValue + (halfUp (exercisedUnits b.exerciseCursor p.range) b.strike b.strikeScale +
      min (m.worth v.config.accountingAsset u (p.range.size - exercisedUnits b.exerciseCursor p.range))
        (halfUp (p.range.size - exercisedUnits b.exerciseCursor p.range) b.strike b.strikeScale)) := by
  obtain ⟨pos, borrowed, ran⟩ := bind_ok.mp ran
  obtain rfl := borrowPosition_ok held viewed borrowed
  obtain ⟨_, ran⟩ := check_bind_ok.mp ran
  obtain ⟨_, ran⟩ := check_bind_ok.mp ran
  obtain ⟨parts, split, ran⟩ := bind_ok.mp ran
  obtain rfl := splitRanges_ok split
  obtain ⟨exercisedS, strike, ran⟩ := bind_ok.mp ran
  obtain ⟨_, _, _, rfl⟩ := Core.applyStrike_ok.mp (within_ok.mp strike)
  obtain ⟨value, valued, ran⟩ := bind_ok.mp ran
  obtain rfl := valueInDeposit_par accounting valued
  obtain ⟨total, summed, ran⟩ := bind_ok.mp ran
  obtain ⟨_, ran⟩ := check_bind_ok.mp ran
  rw [recorded_ok ran]
  split at summed
  · obtain ⟨spot, spotted, summed⟩ := bind_ok.mp summed
    obtain ⟨strikeS, struck, summed⟩ := bind_ok.mp summed
    obtain ⟨strikeValue, settled, summed⟩ := bind_ok.mp summed
    obtain ⟨_, _, _, rfl⟩ := Core.applyStrike_ok.mp (within_ok.mp struck)
    obtain rfl := valueInDeposit_par accounting settled
    obtain rfl := valueInDeposit_ok priced spotted
    obtain ⟨_, rfl⟩ := fit_ok.mp summed
    rfl
  · rename_i none
    cases pure_ok.mp summed
    rw [Nat.eq_zero_of_not_pos none, m.worth_zero, Nat.zero_min, Nat.add_zero]

/-- The value that `appraise_put_position` records. -/
theorem appraisePutPosition_ok {b : PutBucket ι} (accounting : s = v.config.accountingAsset)
    (priced : ∀ x ∈ underlyingAtt, x.price = m.price u) (held : v.custody.find positionId = some c)
    (viewed : view c.object = some p)
    (ran : appraisePutPosition v cfg view u s a bucketId b positionId underlyingAtt settlementAtt now = .ok grown) :
    grown.totalValue = a.totalValue +
      (m.worth v.config.accountingAsset u (exercisedUnits b.exerciseCursor p.range) +
        min (m.worth v.config.accountingAsset u (p.range.size - exercisedUnits b.exerciseCursor p.range))
          (((p.range.size - exercisedUnits b.exerciseCursor p.range) * b.strike + 10 ^ b.strikeScale - 1) /
            10 ^ b.strikeScale)) := by
  obtain ⟨pos, borrowed, ran⟩ := bind_ok.mp ran
  obtain rfl := borrowPosition_ok held viewed borrowed
  obtain ⟨_, ran⟩ := check_bind_ok.mp ran
  obtain ⟨_, ran⟩ := check_bind_ok.mp ran
  obtain ⟨parts, split, ran⟩ := bind_ok.mp ran
  obtain rfl := splitRanges_ok split
  obtain ⟨value, valued, ran⟩ := bind_ok.mp ran
  obtain rfl := valueInDeposit_ok priced valued
  obtain ⟨total, summed, ran⟩ := bind_ok.mp ran
  obtain ⟨_, ran⟩ := check_bind_ok.mp ran
  rw [recorded_ok ran]
  split at summed
  · obtain ⟨collateralS, posted, summed⟩ := bind_ok.mp summed
    obtain ⟨spot, spotted, summed⟩ := bind_ok.mp summed
    obtain ⟨collateralValue, settled, summed⟩ := bind_ok.mp summed
    obtain ⟨_, _, _, rfl⟩ := Core.applyStrikeCeil_ok.mp (within_ok.mp posted)
    obtain rfl := valueInDeposit_par accounting settled
    obtain rfl := valueInDeposit_ok priced spotted
    obtain ⟨_, rfl⟩ := fit_ok.mp summed
    rfl
  · rename_i none
    cases pure_ok.mp summed
    rw [Nat.eq_zero_of_not_pos none, m.worth_zero, Nat.zero_min, Nat.add_zero]

/-- A bucket at a later time. -/
structure Advanced (b later : Bucket ι) : Prop where
  strike : later.strike = b.strike
  strikeScale : later.strikeScale = b.strikeScale
  cursor : b.exerciseCursor ≤ later.exerciseCursor

/-- The mark of a written call or put exceeds by two accounting units at most what its redemption pays at any later
cursor, at the price of the mark. -/
theorem marks_conservative (m : Market Obj) (accounting : s = v.config.accountingAsset)
    (priced : ∀ x ∈ underlyingAtt, x.price = m.price u) (held : v.custody.find positionId = some c)
    (viewed : view c.object = some p) :
    (∀ b later : Bucket ι, Advanced b later →
      appraiseCallPosition v cfg view u s a bucketId b positionId underlyingAtt settlementAtt now = .ok grown →
      grown.totalValue ≤ a.totalValue + m.proceeds v u s (callRedemption later p.range) + 2 ∧
        ∀ ended next, later.redeemPosition ended bucketId p = .ok next → paidOut later next = callRedemption later p.range) ∧
    (∀ b later : PutBucket ι, Advanced b.toBucket later.toBucket →
      appraisePutPosition v cfg view u s a bucketId b positionId underlyingAtt settlementAtt now = .ok grown →
      grown.totalValue ≤ a.totalValue + m.proceeds v u s (putRedemption later p.range) + 2 ∧
        ∀ ended next, later.redeemPosition ended bucketId p = .ok next →
          paidOut later.toBucket next.toBucket = putRedemption later p.range) := by
  have worth := m.worth_rounds v.config.accountingAsset u
  have par : ∀ amount, m.worth v.config.accountingAsset s amount = amount := fun amount => if_pos accounting
  constructor
  · intro b later advanced ran
    refine ⟨?_, fun ended next => redeemPosition_pays⟩
    rw [appraiseCallPosition_ok accounting priced held viewed ran]
    have strike := halfUp_rounds b.strike b.strikeScale
    have half : 10 ^ b.strikeScale / 2 ≤ 10 ^ b.strikeScale := Nat.div_le_self _ _
    have bound := strike.mark_le worth worth (bias_le _ half) (by norm_num)
      (Core.exercisedUnits_mono advanced.cursor p.range) (Core.exercisedUnits_le later.exerciseCursor p.range)
    rw [min_comm] at bound
    simp only [Market.proceeds, callRedemption, par, advanced.strike, advanced.strikeScale]
    omega
  · intro b later advanced ran
    refine ⟨?_, fun ended next => put_redeemPosition_pays⟩
    rw [appraisePutPosition_ok accounting priced held viewed ran]
    have collateral := ceil_rounds b.strike b.strikeScale
    have part : 10 ^ b.strikeScale - 1 ≤ 10 ^ b.strikeScale := Nat.sub_le _ _
    have bound := worth.mark_le collateral (floor_rounds b.strike b.strikeScale) (by norm_num) (bias_le _ part)
      (Core.exercisedUnits_mono advanced.cursor p.range) (Core.exercisedUnits_le later.exerciseCursor p.range)
    simp only [Market.proceeds, putRedemption, par, advanced.strike, advanced.strikeScale]
    omega

end Worth

namespace Sample

theorem spot_positive : 0 < 2 * priceScale := by decide

def spot : PriceAttestation := ⟨"SUI", "USDC", 2 * priceScale, 1000, spot_positive⟩

def optionPrices : Market (Position Nat) := ⟨fun _ => 2 * priceScale, fun _ => 0, 0⟩

def written : Position Nat := ⟨0, ⟨0, 10⟩⟩

def marking : List (Action (Position Nat)) := [.call (.receivePosition "VaultMm" 21 written), .beginAppraisal "USDC"]

/-- Calls or puts at 2.5 dollars, so many of them exercised. -/
def bucket (exercised : Nat) : Bucket Nat :=
  { Bucket.create ⟨90000, 25, 1⟩ with totalWritten := 10, exerciseCursor := exercised }

def putBucket (exercised : Nat) : PutBucket Nat := ⟨bucket exercised, 0⟩

theorem advanced : Advanced (bucket 3) (bucket 8) := ⟨rfl, rfl, by decide⟩

end Sample

/-- Three units are exercised at the mark, eight at the redemption. -/
theorem marks_conservative_written :
    ∃ w, World.play (Sample.genesis .untranched) Sample.marking = .ok w ∧ ∃ a ∈ w.appraisals, ∃ called put,
      appraiseCallPosition w.vault Sample.cfg some "SUI" "USDC" a 0 (Sample.bucket 3) 21 (some Sample.spot) none 1000 =
        .ok called ∧
      called.totalValue ≤ a.totalValue + Sample.optionPrices.proceeds w.vault "SUI" "USDC"
        (callRedemption (Sample.bucket 8) Sample.written.range) + 2 ∧
      appraisePutPosition w.vault Sample.cfg some "SUI" "USDC" a 0 (Sample.putBucket 3) 21 (some Sample.spot) none 1000 =
        .ok put ∧
      put.totalValue ≤ a.totalValue + Sample.optionPrices.proceeds w.vault "SUI" "USDC"
        (putRedemption (Sample.putBucket 8) Sample.written.range) + 2 := by
  refine exists_ok (fun w => (decide (w.vault.config.accountingAsset = "USDC") &&
    (w.vault.custody.find 21).any fun c => c.object = Sample.written) && w.appraisals.any fun a =>
      (appraiseCallPosition w.vault Sample.cfg some "SUI" "USDC" a 0 (Sample.bucket 3) 21 (some Sample.spot) none
        1000).toOption.isSome &&
      (appraisePutPosition w.vault Sample.cfg some "SUI" "USDC" a 0 (Sample.putBucket 3) 21 (some Sample.spot) none
        1000).toOption.isSome) (by decide +kernel) ?_
  intro w ran passed
  obtain ⟨kept, marked⟩ := Bool.and_eq_true_iff.mp passed
  obtain ⟨accounting, custodied⟩ := Bool.and_eq_true_iff.mp kept
  obtain ⟨c, held, object⟩ := (Option.any_eq_true _ _).mp custodied
  obtain ⟨a, opened, both⟩ := List.any_eq_true.mp marked
  obtain ⟨calls, puts⟩ := Bool.and_eq_true_iff.mp both
  obtain ⟨called, call⟩ := toOption_isSome.mp calls
  obtain ⟨put, posted⟩ := toOption_isSome.mp puts
  have settles : "USDC" = w.vault.config.accountingAsset := (of_decide_eq_true accounting).symm
  have priced : ∀ x ∈ some Sample.spot, x.price = Sample.optionPrices.price "SUI" := by
    rintro x ⟨⟩
    rfl
  have viewed : (some : Position Nat → Option (Position Nat)) c.object = some Sample.written :=
    congrArg some (of_decide_eq_true object)
  refine ⟨a, opened, called, put, call, ?_, posted, ?_⟩
  · exact ((marks_conservative Sample.optionPrices settles priced held viewed).1 _ _ Sample.advanced call).1
  · exact ((marks_conservative Sample.optionPrices settles priced held viewed).2 _ _ Sample.advanced posted).1

end SuiOptions.Vault
