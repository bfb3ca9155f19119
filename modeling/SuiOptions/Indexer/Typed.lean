import SuiOptions.Indexer.Apply

/-! The Rust types of the fields.

The model's numbers are natural numbers. What an event brings is of the width its field
has in the source, and `apply_event` keeps every field of every view within its own. -/

set_option autoImplicit false

namespace SuiOptions.Indexer

open Words

/-! ### Views -/

structure AccountState.Fits (a : AccountState) : Prop where
  owner : MaybeWord 256 a.owner

structure BucketState.Fits (b : BucketState) : Prop where
  strike : Word 128 b.strike
  strikeScale : Word 8 b.strikeScale
  expiryMs : Word 64 b.expiryMs
  totalWritten : Word 128 b.totalWritten
  exerciseCursor : Word 128 b.exerciseCursor

structure DeepBookPoolState.Fits (p : DeepBookPoolState) : Prop where
  poolId : Word 256 p.poolId
  tickSize : Word 64 p.tickSize
  lotSize : Word 64 p.lotSize
  minSize : Word 64 p.minSize
  takerFee : Word 64 p.takerFee
  makerFee : Word 64 p.makerFee

structure ExchangeMarketState.Fits (m : ExchangeMarketState) : Prop where
  registryId : Word 256 m.registryId

structure PositionState.Fits (p : PositionState) : Prop where
  bucketId : Word 256 p.bucketId
  objectId : Word 256 p.objectId
  recipient : Word 256 p.recipient
  rangeStart : Word 128 p.rangeStart
  rangeEnd : Word 128 p.rangeEnd

structure RfqState.Fits (rfq : RfqState) : Prop where
  metaId : MaybeWord 256 rfq.metaId
  bucketId : MaybeWord 256 rfq.bucketId
  origin : Word 256 rfq.origin
  amount : Word 64 rfq.amount
  reservePremium : Word 64 rfq.reservePremium
  deadlineMs : Word 64 rfq.deadlineMs
  bestPremium : MaybeWord 64 rfq.bestPremium
  bestBidder : MaybeWord 256 rfq.bestBidder
  winner : MaybeWord 256 rfq.winner
  netPremium : MaybeWord 64 rfq.netPremium
  positionId : MaybeWord 256 rfq.positionId
  grossPremium : MaybeWord 64 rfq.grossPremium
  fee : MaybeWord 64 rfq.fee

structure VaultState.Fits (v : VaultState) : Prop where
  round : Word 64 v.round
  currentBucket : MaybeWord 256 v.currentBucket
  latestPps : MaybeWord 128 v.latestPps
  totalShares : Word 64 v.totalShares
  pendingDeposits : Word 64 v.pendingDeposits
  mgmtFeeBpsAnnual : MaybeWord 64 v.mgmtFeeBpsAnnual
  perfFeeBps : MaybeWord 64 v.perfFeeBps
  roundMs : MaybeWord 64 v.roundMs
  sellingWindowMs : MaybeWord 64 v.sellingWindowMs
  minStrikeBpsOverSpot : MaybeWord 64 v.minStrikeBpsOverSpot
  maxStrikeBpsOverSpot : MaybeWord 64 v.maxStrikeBpsOverSpot

structure VaultRoundState.Fits (r : VaultRoundState) : Prop where
  bucketId : MaybeWord 256 r.bucketId
  strike : MaybeWord 128 r.strike
  strikeScale : MaybeWord 8 r.strikeScale
  expiryMs : MaybeWord 64 r.expiryMs
  pps : MaybeWord 128 r.pps
  aum : MaybeWord 64 r.aum
  shares : MaybeWord 64 r.shares
  premiumCollected : MaybeWord 64 r.premiumCollected
  mgmtFee : MaybeWord 64 r.mgmtFee
  perfFee : MaybeWord 64 r.perfFee
  finalizedAtMs : MaybeWord 64 r.finalizedAtMs

structure ReceiptState.Fits (r : ReceiptState) : Prop where
  amount : Word 64 r.amount
  settled : Word 64 r.settled

structure TradingVaultState.Fits (v : TradingVaultState) : Prop where
  creator : Word 256 v.creator
  curator : Word 256 v.curator
  curatorCapId : Word 256 v.curatorCapId
  lockupMs : Word 64 v.lockupMs
  curatorFeeBps : Word 64 v.curatorFeeBps
  unwindGraceMs : Word 64 v.unwindGraceMs
  totalShares : Word 128 v.totalShares
  positionCount : Word 64 v.positionCount
  pendingWithdrawals : Word 64 v.pendingWithdrawals
  latestPpsE12 : MaybeWord 128 v.latestPpsE12
  updatedAtMs : Word 64 v.updatedAtMs
  externalExposure : Word 64 v.externalExposure
  latestExternalEquity : MaybeWord 64 v.latestExternalEquity
  externalEquityUpdatedAtMs : MaybeWord 64 v.externalEquityUpdatedAtMs
  latestNav : MaybeWord 128 v.latestNav
  navUpdatedAtMs : MaybeWord 64 v.navUpdatedAtMs
  structureCode : Word 8 v.structureCode
  seniorHurdleBpsAnnual : Word 64 v.seniorHurdleBpsAnnual
  targetJuniorBps : Word 64 v.targetJuniorBps
  maintenanceJuniorBps : Word 64 v.maintenanceJuniorBps
  upsideCode : Word 8 v.upsideCode
  residualParticipationBps : Word 64 v.residualParticipationBps
  totalReturnCapBps : Word 64 v.totalReturnCapBps
  termsVersion : Word 64 v.termsVersion
  seniorShares : Word 128 v.seniorShares
  juniorShares : Word 128 v.juniorShares
  seniorClaim : Word 128 v.seniorClaim
  seniorPrincipalBasis : Word 128 v.seniorPrincipalBasis
  seniorNav : MaybeWord 128 v.seniorNav
  juniorNav : MaybeWord 128 v.juniorNav
  latestSeniorPpsE12 : MaybeWord 128 v.latestSeniorPpsE12
  latestJuniorPpsE12 : MaybeWord 128 v.latestJuniorPpsE12
  riskState : Word 8 v.riskState
  impairedSinceMs : MaybeWord 64 v.impairedSinceMs
  activeJuniorGeneration : Word 64 v.activeJuniorGeneration
  resetOldGeneration : MaybeWord 64 v.resetOldGeneration
  resetProposedAtMs : MaybeWord 64 v.resetProposedAtMs
  resetExecutableAtMs : MaybeWord 64 v.resetExecutableAtMs
  resetRecordedNav : MaybeWord 128 v.resetRecordedNav
  resetRecordedSeniorClaim : MaybeWord 128 v.resetRecordedSeniorClaim
  resetRecordedRequiredDeposit : MaybeWord 64 v.resetRecordedRequiredDeposit
  settlementFinalNav : MaybeWord 128 v.settlementFinalNav
  seniorPool : MaybeWord 64 v.seniorPool
  seniorSupply : MaybeWord 128 v.seniorSupply
  juniorPool : MaybeWord 64 v.juniorPool
  juniorSupply : MaybeWord 128 v.juniorSupply
  settlementSnapshotAtMs : MaybeWord 64 v.settlementSnapshotAtMs
  settlementRedeemed : Word 128 v.settlementRedeemed
  seniorLaneHead : Word 64 v.seniorLaneHead
  seniorLaneTail : Word 64 v.seniorLaneTail
  juniorLaneHead : Word 64 v.juniorLaneHead
  juniorLaneTail : Word 64 v.juniorLaneTail

structure VaultPositionState.Fits (p : VaultPositionState) : Prop where
  vaultId : Word 256 p.vaultId
  tranche : Word 8 p.tranche
  capitalGeneration : Word 64 p.capitalGeneration
  shares : Word 128 p.shares
  costBasis : Word 64 p.costBasis
  lockedUntilMs : Word 64 p.lockedUntilMs
  parentPositionId : MaybeWord 256 p.parentPositionId
  mergedInto : MaybeWord 256 p.mergedInto
  queuedGlobalSeq : MaybeWord 64 p.queuedGlobalSeq
  createdAtMs : Word 64 p.createdAtMs
  updatedAtMs : Word 64 p.updatedAtMs

structure TradingVaultPositionState.Fits (p : TradingVaultPositionState) : Prop where
  storedAtMs : Word 64 p.storedAtMs
  removedAtMs : MaybeWord 64 p.removedAtMs
  lastValue : MaybeWord 64 p.lastValue
  lastAppraisedAtMs : MaybeWord 64 p.lastAppraisedAtMs

/-- Every key and every field is of the width of its Rust type, and a position stands under its bucket and start. -/
structure Views.Fits (views : Views) : Prop where
  accounts : views.accounts.All fun id a => Word 256 id ∧ a.Fits
  buckets : views.buckets.All fun id b => Word 256 id ∧ b.Fits
  positions : views.positions.All fun key p => key = (p.bucketId, p.rangeStart) ∧ p.Fits
  deepbookPools : views.deepbookPools.All fun id p => Word 256 id ∧ p.Fits
  exchangeMarkets : views.exchangeMarkets.All fun id m => Word 256 id ∧ m.Fits
  rfqs : views.rfqs.All fun id rfq => Word 256 id ∧ rfq.Fits
  vaults : views.vaults.All fun id v => Word 256 id ∧ v.Fits
  vaultRounds : views.vaultRounds.All fun key r => Word 256 key.1 ∧ Word 64 key.2 ∧ r.Fits
  vaultReceipts : views.vaultReceipts.All fun key r => Word 256 key.1 ∧ Word 64 key.2.2.1 ∧ r.Fits
  tradingVaults : views.tradingVaults.All fun id v => Word 256 id ∧ v.Fits
  tradingVaultPositions : views.tradingVaultPositions.All fun key p => Word 256 key.1 ∧ Word 256 key.2 ∧ p.Fits
  vaultPositions : views.vaultPositions.All fun id p => Word 256 id ∧ p.Fits

/-! ### Events -/

def BucketCreated.Fits (b : BucketCreated) : Prop :=
  Word 256 b.bucketId ∧ Word 128 b.strike ∧ Word 8 b.strikeScale ∧ Word 64 b.expiryMs

structure WriteExecuted.Fits (w : WriteExecuted) : Prop where
  bucketId : Word 256 w.bucketId
  positionId : Word 256 w.positionId
  positionRecipient : Word 256 w.positionRecipient
  rangeStart : Word 128 w.rangeStart
  rangeEnd : Word 128 w.rangeEnd

structure AuctionCreated.Fits (a : AuctionCreated) : Prop where
  auctionId : Word 256 a.auctionId
  origin : Word 256 a.origin
  amount : Word 64 a.amount
  reserveBid : Word 64 a.reserveBid
  deadlineMs : Word 64 a.deadlineMs

structure RfqCreated.Fits (r : RfqCreated) : Prop where
  rfqId : Word 256 r.rfqId
  auctionId : Word 256 r.auctionId
  bucketId : Word 256 r.bucketId
  origin : Word 256 r.origin
  amount : Word 64 r.amount
  reservePremium : Word 64 r.reservePremium

structure RfqSettled.Fits (s : RfqSettled) : Prop where
  rfqId : Word 256 s.rfqId
  auctionId : Word 256 s.auctionId
  bucketId : Word 256 s.bucketId
  winner : Word 256 s.winner
  positionId : Word 256 s.positionId
  positionRecipient : Word 256 s.positionRecipient
  grossPremium : Word 64 s.grossPremium
  fee : Word 64 s.fee
  netPremium : Word 64 s.netPremium
  rangeStart : Word 128 s.rangeStart
  rangeEnd : Word 128 s.rangeEnd

structure VaultRfqSettled.Fits (s : VaultRfqSettled) : Prop where
  auctionId : Word 256 s.auctionId
  bucketId : Word 256 s.bucketId
  vaultId : Word 256 s.vaultId
  winner : Word 256 s.winner
  positionId : Word 256 s.positionId
  grossPremium : Word 64 s.grossPremium
  fee : Word 64 s.fee
  netPremium : Word 64 s.netPremium
  rangeStart : Word 128 s.rangeStart
  rangeEnd : Word 128 s.rangeEnd

structure VaultConfig.Fits (c : VaultConfig) : Prop where
  mgmtFeeBpsAnnual : Word 64 c.mgmtFeeBpsAnnual
  perfFeeBps : Word 64 c.perfFeeBps
  roundMs : Word 64 c.roundMs
  sellingWindowMs : Word 64 c.sellingWindowMs
  minStrikeBpsOverSpot : Word 64 c.minStrikeBpsOverSpot
  maxStrikeBpsOverSpot : Word 64 c.maxStrikeBpsOverSpot

structure VaultBucketSelected.Fits (s : VaultBucketSelected) : Prop where
  vaultId : Word 256 s.vaultId
  round : Word 64 s.round
  bucketId : Word 256 s.bucketId
  strike : Word 128 s.strike
  strikeScale : Word 8 s.strikeScale
  expiryMs : Word 64 s.expiryMs

structure VaultRoundFinalized.Fits (f : VaultRoundFinalized) : Prop where
  vaultId : Word 256 f.vaultId
  /-- The vault counts the round behind it in 64 bits too. -/
  round : Word 64 (f.round + 1)
  pps : Word 128 f.pps
  aum : Word 64 f.aum
  shares : Word 64 f.shares
  premiumCollected : Word 64 f.premiumCollected

structure TvVaultCreated.Fits (v : TvVaultCreated) : Prop where
  vaultId : Word 256 v.vaultId
  creator : Word 256 v.creator
  curatorCapId : Word 256 v.curatorCapId
  lockupMs : Word 64 v.lockupMs
  curatorFeeBps : Word 64 v.curatorFeeBps
  unwindGraceMs : Word 64 v.unwindGraceMs
  structureCode : Word 8 v.structureCode
  seniorHurdleBpsAnnual : Word 64 v.seniorHurdleBpsAnnual
  targetJuniorBps : Word 64 v.targetJuniorBps
  maintenanceJuniorBps : Word 64 v.maintenanceJuniorBps
  upsideCode : Word 8 v.upsideCode
  residualParticipationBps : Word 64 v.residualParticipationBps
  totalReturnCapBps : Word 64 v.totalReturnCapBps
  termsVersion : Word 64 v.termsVersion

structure TvPositionMinted.Fits (m : TvPositionMinted) : Prop where
  vaultId : Word 256 m.vaultId
  positionId : Word 256 m.positionId
  tranche : Word 8 m.tranche
  shares : Word 128 m.shares
  costBasis : Word 64 m.costBasis
  lockedUntilMs : Word 64 m.lockedUntilMs
  capitalGeneration : Word 64 m.capitalGeneration

structure TvPositionSplit.Fits (s : TvPositionSplit) : Prop where
  vaultId : Word 256 s.vaultId
  parentId : Word 256 s.parentId
  childId : Word 256 s.childId
  parentShares : Word 128 s.parentShares
  parentBasis : Word 64 s.parentBasis
  childShares : Word 128 s.childShares
  childBasis : Word 64 s.childBasis

structure TvCapitalSynced.Fits (c : TvCapitalSynced) : Prop where
  totalNav : Word 128 c.totalNav
  seniorNav : Word 128 c.seniorNav
  juniorNav : Word 128 c.juniorNav
  seniorClaim : Word 128 c.seniorClaim
  seniorShares : Word 128 c.seniorShares
  juniorShares : Word 128 c.juniorShares
  riskState : Word 8 c.riskState
  activeJuniorGeneration : Word 64 c.activeJuniorGeneration

structure TvJuniorResetProposed.Fits (p : TvJuniorResetProposed) : Prop where
  oldGeneration : Word 64 p.oldGeneration
  proposedAtMs : Word 64 p.proposedAtMs
  executableAtMs : Word 64 p.executableAtMs
  totalNav : Word 128 p.totalNav
  seniorClaim : Word 128 p.seniorClaim
  requiredDeposit : Word 64 p.requiredDeposit

structure TvSettlementSnapshot.Fits (s : TvSettlementSnapshot) : Prop where
  finalNav : Word 128 s.finalNav
  seniorPool : Word 64 s.seniorPool
  seniorSupply : Word 128 s.seniorSupply
  juniorPool : Word 64 s.juniorPool
  juniorSupply : Word 128 s.juniorSupply
  activeJuniorGeneration : Word 64 s.activeJuniorGeneration

/-- What the event brings into a view is of the width its field has. -/
def ChainEvent.Fits : ChainEvent → Prop
  | .bucketCreated b | .putBucketCreated b => b.Fits
  | .writeExecuted w | .putWriteExecuted w => w.Fits
  | .exercised e | .putExercised e => Word 128 e.cursorAfter
  | .collateralizedWrite w | .putCollateralizedWrite w => Word 128 w.rangeEnd
  | .signerCreated a => Word 256 a.signerId ∧ Word 256 a.owner
  | .deepBookPoolCreated p => Word 256 p.bucketId ∧ p.toDeepBookPoolState.Fits
  | .optionMarketListed m => Word 256 m.bucket ∧ Word 256 m.registry
  | .auctionCreated a => a.Fits
  | .auctionBid b => Word 256 b.bidder ∧ Word 64 b.amount ∧ Word 64 b.deadlineMs
  | .auctionSettled s => Word 256 s.auctionId ∧ Word 256 s.bidder
  | .auctionUnfilled auctionId => Word 256 auctionId
  | .rfqCreated r | .putRfqCreated r => r.Fits
  | .rfqSettled s | .putRfqSettled s => s.Fits
  | .rfqExpiredUnsold e | .putRfqExpiredUnsold e => Word 256 e.rfqId ∧ Word 256 e.auctionId ∧ Word 256 e.bucketId
  | .vaultRfqSettled s => s.Fits
  | .vaultRfqUnsold u => Word 256 u.auctionId ∧ Word 256 u.bucketId ∧ Word 256 u.vaultId
  | .swapRfqSettled s => Word 256 s.swapId ∧ Word 256 s.vaultId ∧ Word 256 s.winner
  | .swapRfqUnfilled u => Word 256 u.swapId ∧ Word 256 u.vaultId
  | .vaultCreated v => Word 256 v.vaultId ∧ v.toVaultConfig.Fits
  | .vaultConfigApplied c => c.toVaultConfig.Fits
  | .vaultDeposit m | .instantWithdraw m | .sharesClaimed m | .withdrawInitiated m | .withdrawCompleted m =>
    Word 256 m.vaultId ∧ Word 64 m.round
  | .vaultBucketSelected s => s.Fits
  | .vaultFeesCharged f => Word 256 f.vaultId ∧ Word 64 f.round ∧ Word 64 f.mgmtFee ∧ Word 64 f.perfFee
  | .vaultRoundFinalized f => f.Fits
  | .tvVaultCreated v => v.Fits
  | .tvCuratorRotated r => Word 256 r.newCapId ∧ Word 256 r.recipient
  | .tvDeposited d => Word 128 d.trancheShares
  | .tvWithdrawRequested w => Word 64 w.globalSeq
  | .tvWithdrawFulfilled w => Word 128 w.trancheShares
  | .tvPositionMinted m => m.Fits
  | .tvPositionSplit s => s.Fits
  | .tvPositionMerged m =>
    Word 256 m.keptId ∧ Word 128 m.shares ∧ Word 64 m.costBasis ∧ Word 64 m.lockedUntilMs
  | .tvCapitalSynced c => c.Fits
  | .tvRiskStateChanged r => Word 8 r.newState ∧ Word 64 r.timestampMs
  | .tvJuniorResetProposed p => p.Fits
  | .tvJuniorResetExecuted e => Word 64 e.newGeneration ∧ Word 128 e.postJuniorNav
  | .tvSettlementSnapshot s => s.Fits
  | .tvPositionStored p => Word 256 p.vaultId ∧ Word 256 p.positionId
  | .tvPositionAppraised a => Word 64 a.value
  | .tvVaultAppraised _ totalValue => Word 128 totalValue
  | .tvExternalReleased r | .tvExternalReturned r => Word 64 r.exposure
  | .equityPosted p => Word 64 p.equity
  | _ => True

/-! ### One state -/

theorem BucketState.Fits.create {b : BucketCreated} {kind : OptionKind} (fits : b.Fits) :
    (BucketState.create b kind).Fits := by
  obtain ⟨-, strike, strikeScale, expiryMs⟩ := fits
  exact ⟨strike, strikeScale, expiryMs, Word.zero 128, Word.zero 128⟩

theorem RfqState.Fits.blank : RfqState.blank.Fits := by
  constructor <;> simp [RfqState.blank, ObjectId.zero]

theorem VaultState.Fits.configure {v : VaultState} {c : VaultConfig} (h : v.Fits) (fits : c.Fits) :
    (v.configure c).Fits :=
  { h with
    mgmtFeeBpsAnnual := maybeWord_some.mpr fits.mgmtFeeBpsAnnual
    perfFeeBps := maybeWord_some.mpr fits.perfFeeBps
    roundMs := maybeWord_some.mpr fits.roundMs
    sellingWindowMs := maybeWord_some.mpr fits.sellingWindowMs
    minStrikeBpsOverSpot := maybeWord_some.mpr fits.minStrikeBpsOverSpot
    maxStrikeBpsOverSpot := maybeWord_some.mpr fits.maxStrikeBpsOverSpot }

theorem VaultState.Fits.create {v : VaultCreated} (fits : v.toVaultConfig.Fits) : (VaultState.create v).Fits where
  round := Word.zero 64
  currentBucket := maybeWord_none 256
  latestPps := maybeWord_none 128
  totalShares := Word.zero 64
  pendingDeposits := Word.zero 64
  mgmtFeeBpsAnnual := maybeWord_some.mpr fits.mgmtFeeBpsAnnual
  perfFeeBps := maybeWord_some.mpr fits.perfFeeBps
  roundMs := maybeWord_some.mpr fits.roundMs
  sellingWindowMs := maybeWord_some.mpr fits.sellingWindowMs
  minStrikeBpsOverSpot := maybeWord_some.mpr fits.minStrikeBpsOverSpot
  maxStrikeBpsOverSpot := maybeWord_some.mpr fits.maxStrikeBpsOverSpot

theorem VaultRoundState.Fits.default : VaultRoundState.default.Fits := by
  constructor <;> simp [VaultRoundState.default]

theorem ReceiptState.Fits.default : ReceiptState.default.Fits := ⟨Word.zero 64, Word.zero 64⟩

namespace RfqState.Fits

variable {rfq : RfqState}

theorem created {r : RfqCreated} {kind : AuctionKind} (h : rfq.Fits) (fits : r.Fits) : (rfq.created r kind).Fits :=
  { h with
    metaId := maybeWord_some.mpr fits.rfqId
    bucketId := maybeWord_some.mpr fits.bucketId
    origin := fits.origin
    amount := fits.amount
    reservePremium := fits.reservePremium }

theorem settle {s : RfqSettled} {kind : AuctionKind} (h : rfq.Fits) (fits : s.Fits) : (rfq.settle s kind).Fits :=
  { h with
    metaId := maybeWord_some.mpr fits.rfqId
    bucketId := maybeWord_some.mpr fits.bucketId
    winner := maybeWord_some.mpr fits.winner
    netPremium := maybeWord_some.mpr fits.netPremium
    positionId := maybeWord_some.mpr fits.positionId
    grossPremium := maybeWord_some.mpr fits.grossPremium
    fee := maybeWord_some.mpr fits.fee }

theorem vaultSettle {s : VaultRfqSettled} (h : rfq.Fits) (fits : s.Fits) : (rfq.vaultSettle s).Fits :=
  { h with
    bucketId := maybeWord_some.mpr fits.bucketId
    origin := fits.vaultId
    winner := maybeWord_some.mpr fits.winner
    netPremium := maybeWord_some.mpr fits.netPremium
    positionId := maybeWord_some.mpr fits.positionId
    grossPremium := maybeWord_some.mpr fits.grossPremium
    fee := maybeWord_some.mpr fits.fee }

end RfqState.Fits

namespace TradingVaultState

variable {v : TradingVaultState} {timestampMs : Nat}

theorem pps_word (value shares : Nat) : Word 128 (pps value shares) :=
  (saturatingMul_word 128 _ _).le (Nat.div_le_self _ _)

namespace Fits

theorem ite {P : Prop} [Decidable P] {first second : TradingVaultState} (yes : first.Fits) (no : second.Fits) :
    (if P then first else second).Fits := by
  split
  · exact yes
  · exact no

theorem observeTrancheFlow {tranche trancheShares value shares : Nat} (h : v.Fits) (word : Word 128 trancheShares) :
    (v.observeTrancheFlow tranche trancheShares value shares).Fits := by
  have side : (if tranche = trancheSenior then { v with seniorShares := trancheShares }
      else { v with juniorShares := trancheShares }).Fits :=
    ite { h with seniorShares := word } { h with juniorShares := word }
  have total : ∀ w : TradingVaultState, w.Fits →
      ({ w with totalShares := saturatingAdd 128 w.seniorShares w.juniorShares } : TradingVaultState).Fits :=
    fun w fits => { fits with totalShares := saturatingAdd_word 128 _ _ }
  have price : MaybeWord 128 (some (pps value shares)) := maybeWord_some.mpr (pps_word value shares)
  have flow := total _ side
  exact ite (ite { flow with latestSeniorPpsE12 := price }
    (ite { flow with latestJuniorPpsE12 := price } { flow with latestPpsE12 := price })) flow

theorem bumpLane {cursor globalSeq : Nat} (word : Word 64 cursor) :
    Word 64 (TradingVaultState.bumpLane cursor globalSeq) :=
  word.max (saturatingAdd_word 64 _ _)

theorem bumpTail {senior : Bool} {globalSeq : Nat} (h : v.Fits) : (v.bumpTail senior globalSeq).Fits := by
  unfold TradingVaultState.bumpTail
  split
  · exact { h with seniorLaneTail := bumpLane h.seniorLaneTail }
  · exact { h with juniorLaneTail := bumpLane h.juniorLaneTail }

theorem bumpHead {senior : Bool} {globalSeq : Nat} (h : v.Fits) : (v.bumpHead senior globalSeq).Fits := by
  unfold TradingVaultState.bumpHead
  split
  · exact { h with seniorLaneHead := bumpLane h.seniorLaneHead }
  · exact { h with juniorLaneHead := bumpLane h.juniorLaneHead }

theorem impairedSince {riskState atMs : Nat} (h : v.Fits) (word : Word 64 atMs) :
    MaybeWord 64 (v.impairedSince riskState atMs) := by
  unfold TradingVaultState.impairedSince
  split
  · exact maybeWord_some.mpr word
  · split
    · exact maybeWord_none 64
    · exact h.impairedSinceMs

theorem fromCreated {c : TvVaultCreated} (fits : c.Fits) (time : Word 64 timestampMs) :
    (fromCreated c timestampMs).Fits := by
  constructor <;> simp only [TradingVaultState.fromCreated, Word.zero, maybeWord_none, time]
  exacts [fits.creator, fits.creator, fits.curatorCapId, fits.lockupMs, fits.curatorFeeBps, fits.unwindGraceMs,
    fits.structureCode, fits.seniorHurdleBpsAnnual, fits.targetJuniorBps, fits.maintenanceJuniorBps, fits.upsideCode,
    fits.residualParticipationBps, fits.totalReturnCapBps, fits.termsVersion]

theorem deposited {d : TvDeposited} (h : v.Fits) (word : Word 128 d.trancheShares) : (v.deposited d).Fits := by
  have flow : (v.observeTrancheFlow d.tranche d.trancheShares d.value d.shares).Fits := h.observeTrancheFlow word
  exact ite { flow with seniorPrincipalBasis := saturatingAdd_word 128 _ _ } flow

theorem withdrawRequested {w : TvWithdrawRequested} (h : v.Fits) : (v.withdrawRequested w).Fits := by
  have counted : ({ v with pendingWithdrawals := saturatingAdd 64 v.pendingWithdrawals 1 } : TradingVaultState).Fits :=
    { h with pendingWithdrawals := saturatingAdd_word 64 _ _ }
  exact counted.bumpTail

theorem withdrawFulfilled {w : TvWithdrawFulfilled} (h : v.Fits) (word : Word 128 w.trancheShares) :
    (v.withdrawFulfilled w).Fits := by
  have counted : ({ v with pendingWithdrawals := v.pendingWithdrawals - 1 } : TradingVaultState).Fits :=
    { h with pendingWithdrawals := h.pendingWithdrawals.sub 1 }
  have flow : (({ v with pendingWithdrawals := v.pendingWithdrawals - 1 } : TradingVaultState).observeTrancheFlow
      w.tranche w.trancheShares w.value w.shares).Fits := counted.observeTrancheFlow word
  exact bumpHead (ite { flow with seniorPrincipalBasis := flow.seniorPrincipalBasis.sub _ } flow)

theorem capitalSynced {c : TvCapitalSynced} (h : v.Fits) (fits : c.Fits) (time : Word 64 timestampMs) :
    (v.capitalSynced c timestampMs).Fits := by
  have synced : ({ v with
      latestNav := some c.totalNav
      navUpdatedAtMs := some timestampMs
      seniorNav := some c.seniorNav
      juniorNav := some c.juniorNav
      seniorClaim := c.seniorClaim
      seniorShares := c.seniorShares
      juniorShares := c.juniorShares
      totalShares := saturatingAdd 128 c.seniorShares c.juniorShares
      impairedSinceMs := v.impairedSince c.riskState timestampMs
      riskState := c.riskState
      activeJuniorGeneration := c.activeJuniorGeneration
      curatorCommitmentBreached := c.curatorCommitmentBreached } : TradingVaultState).Fits :=
    { h with
      latestNav := maybeWord_some.mpr fits.totalNav
      navUpdatedAtMs := maybeWord_some.mpr time
      seniorNav := maybeWord_some.mpr fits.seniorNav
      juniorNav := maybeWord_some.mpr fits.juniorNav
      seniorClaim := fits.seniorClaim
      seniorShares := fits.seniorShares
      juniorShares := fits.juniorShares
      totalShares := saturatingAdd_word 128 _ _
      impairedSinceMs := h.impairedSince time
      riskState := fits.riskState
      activeJuniorGeneration := fits.activeJuniorGeneration }
  have price : ∀ {value shares : Nat}, MaybeWord 128 (some (pps value shares)) := maybeWord_some.mpr (pps_word _ _)
  have junior : ∀ w : TradingVaultState, w.Fits → (if 0 < c.juniorShares then
      { w with latestJuniorPpsE12 := some (pps c.juniorNav c.juniorShares) } else w).Fits :=
    fun w fits => ite { fits with latestJuniorPpsE12 := price } fits
  exact ite (ite { synced with latestPpsE12 := price } synced)
    (junior _ (ite { synced with latestSeniorPpsE12 := price } synced))

theorem clearReset (h : v.Fits) : v.clearReset.Fits :=
  { h with
    resetOldGeneration := maybeWord_none 64
    resetProposedAtMs := maybeWord_none 64
    resetExecutableAtMs := maybeWord_none 64
    resetRecordedNav := maybeWord_none 128
    resetRecordedSeniorClaim := maybeWord_none 128
    resetRecordedRequiredDeposit := maybeWord_none 64 }

theorem resetProposed {p : TvJuniorResetProposed} (h : v.Fits) (fits : p.Fits) : (v.resetProposed p).Fits :=
  { h with
    resetOldGeneration := maybeWord_some.mpr fits.oldGeneration
    resetProposedAtMs := maybeWord_some.mpr fits.proposedAtMs
    resetExecutableAtMs := maybeWord_some.mpr fits.executableAtMs
    resetRecordedNav := maybeWord_some.mpr fits.totalNav
    resetRecordedSeniorClaim := maybeWord_some.mpr fits.seniorClaim
    resetRecordedRequiredDeposit := maybeWord_some.mpr fits.requiredDeposit }

theorem resetExecuted {e : TvJuniorResetExecuted} (h : v.Fits) (generation : Word 64 e.newGeneration)
    (nav : Word 128 e.postJuniorNav) : (v.resetExecuted e).Fits := by
  have scale : Word 128 ppsScale := by decide
  have recapitalised : ({ v with
      activeJuniorGeneration := e.newGeneration
      juniorNav := some e.postJuniorNav
      latestJuniorPpsE12 := some ppsScale } : TradingVaultState).Fits :=
    { h with
      activeJuniorGeneration := generation
      juniorNav := maybeWord_some.mpr nav
      latestJuniorPpsE12 := maybeWord_some.mpr scale }
  exact recapitalised.clearReset

theorem settlementSnapshot {s : TvSettlementSnapshot} (h : v.Fits) (fits : s.Fits) (time : Word 64 timestampMs) :
    (v.settlementSnapshot s timestampMs).Fits :=
  { h with
    settlementFinalNav := maybeWord_some.mpr fits.finalNav
    seniorPool := maybeWord_some.mpr fits.seniorPool
    seniorSupply := maybeWord_some.mpr fits.seniorSupply
    juniorPool := maybeWord_some.mpr fits.juniorPool
    juniorSupply := maybeWord_some.mpr fits.juniorSupply
    settlementSnapshotAtMs := maybeWord_some.mpr time
    activeJuniorGeneration := fits.activeJuniorGeneration }

theorem settlementRedeem {r : TvSettlementRedeemed} (h : v.Fits) : (v.settlementRedeem r).Fits := by
  have redeemed : ({ v with settlementRedeemed := saturatingAdd 128 v.settlementRedeemed r.entitlement } :
      TradingVaultState).Fits := { h with settlementRedeemed := saturatingAdd_word 128 _ _ }
  exact ite (bumpHead { redeemed with pendingWithdrawals := redeemed.pendingWithdrawals.sub 1 }) redeemed

end Fits

end TradingVaultState

namespace VaultPositionState.Fits

variable {p : VaultPositionState} {timestampMs : Nat}

theorem fromMinted {m : TvPositionMinted} (fits : m.Fits) (time : Word 64 timestampMs) :
    (VaultPositionState.fromMinted m timestampMs).Fits where
  vaultId := fits.vaultId
  tranche := fits.tranche
  capitalGeneration := fits.capitalGeneration
  shares := fits.shares
  costBasis := fits.costBasis
  lockedUntilMs := fits.lockedUntilMs
  parentPositionId := maybeWord_none 256
  mergedInto := maybeWord_none 256
  queuedGlobalSeq := maybeWord_none 64
  createdAtMs := time
  updatedAtMs := time

theorem minted {m : TvPositionMinted} (h : p.Fits) (fits : m.Fits) (time : Word 64 timestampMs) :
    (p.minted m timestampMs).Fits :=
  { h with
    tranche := fits.tranche
    capitalGeneration := fits.capitalGeneration
    shares := fits.shares
    costBasis := fits.costBasis
    lockedUntilMs := fits.lockedUntilMs
    updatedAtMs := time }

theorem inherited {parent : Option VaultPositionState} (fits : ∀ p ∈ parent, p.Fits) {width start : Nat}
    {field : VaultPositionState → Nat} (each : ∀ p : VaultPositionState, p.Fits → Word width (field p))
    (word : Word width start) :
    Word width ((parent.map field).getD start) := by
  cases parent with
  | none => exact word
  | some p => exact each p (fits p rfl)

theorem fromSplit {s : TvPositionSplit} {parent : Option VaultPositionState} (fits : s.Fits)
    (time : Word 64 timestampMs) (parentFits : ∀ p ∈ parent, p.Fits) :
    (VaultPositionState.fromSplit s parent timestampMs).Fits where
  vaultId := fits.vaultId
  tranche := inherited parentFits (fun _ h => h.tranche) (Word.zero 8)
  capitalGeneration := inherited parentFits (fun _ h => h.capitalGeneration) (Word.zero 64)
  shares := fits.childShares
  costBasis := fits.childBasis
  lockedUntilMs := inherited parentFits (fun _ h => h.lockedUntilMs) (Word.zero 64)
  parentPositionId := maybeWord_none 256
  mergedInto := maybeWord_none 256
  queuedGlobalSeq := maybeWord_none 64
  createdAtMs := (inherited parentFits (fun _ h => h.createdAtMs) time).max time
  updatedAtMs := time

theorem mark {status : PositionStatus} (h : p.Fits) (time : Word 64 timestampMs) : (p.mark status timestampMs).Fits :=
  { h with updatedAtMs := time }

end VaultPositionState.Fits

/-! ### Every event -/

namespace Views.Fits

variable {views : Views} {timestampMs : Nat}

theorem default : Views.default.Fits := by
  constructor <;> exact BTreeMap.All.empty

theorem onBucket {bucketId : ObjectId} {f : BucketState → BucketState} (h : views.Fits)
    (kept : ∀ b : BucketState, b.Fits → (f b).Fits) : (views.onBucket bucketId f).Fits :=
  { h with buckets := h.buckets.modify fun b _ fits => ⟨fits.1, kept b fits.2⟩ }

theorem onRfq {auctionId : ObjectId} {f : RfqState → RfqState} (h : views.Fits) (id : Word 256 auctionId)
    (kept : ∀ rfq : RfqState, rfq.Fits → (f rfq).Fits) : (views.onRfq auctionId f).Fits :=
  { h with rfqs := h.rfqs.entry ⟨id, .blank⟩ fun rfq fits => ⟨id, kept rfq fits.2⟩ }

theorem onVault {vaultId : ObjectId} {f : VaultState → VaultState} (h : views.Fits)
    (kept : ∀ v : VaultState, v.Fits → (f v).Fits) : (views.onVault vaultId f).Fits :=
  { h with vaults := h.vaults.modify fun v _ fits => ⟨fits.1, kept v fits.2⟩ }

theorem onRound {vaultId : ObjectId} {round : Nat} {f : VaultRoundState → VaultRoundState} (h : views.Fits)
    (id : Word 256 vaultId) (number : Word 64 round) (kept : ∀ r : VaultRoundState, r.Fits → (f r).Fits) :
    (views.onRound vaultId round f).Fits :=
  { h with vaultRounds := h.vaultRounds.entry ⟨id, number, .default⟩ fun r fits => ⟨id, number, kept r fits.2.2⟩ }

theorem onReceipt {m : ReceiptMoved} {kind : ReceiptKind} {f : ReceiptState → ReceiptState} (h : views.Fits)
    (moved : Word 256 m.vaultId ∧ Word 64 m.round) (kept : ∀ r : ReceiptState, r.Fits → (f r).Fits) :
    (views.onReceipt m kind f).Fits :=
  { h with vaultReceipts :=
      h.vaultReceipts.entry ⟨moved.1, moved.2, .default⟩ fun r fits => ⟨moved.1, moved.2, kept r fits.2.2⟩ }

theorem onTradingVault {vaultId : ObjectId} {f : TradingVaultState → TradingVaultState} (h : views.Fits)
    (time : Word 64 timestampMs) (kept : ∀ v : TradingVaultState, v.Fits → (f v).Fits) :
    (views.onTradingVault vaultId timestampMs f).Fits :=
  { h with tradingVaults := h.tradingVaults.modify fun v _ fits =>
      ⟨fits.1, { kept v fits.2 with updatedAtMs := time }⟩ }

theorem onCustodied {vaultId positionId : ObjectId} {f : TradingVaultPositionState → TradingVaultPositionState}
    (h : views.Fits) (kept : ∀ p : TradingVaultPositionState, p.Fits → (f p).Fits) :
    (views.onCustodied vaultId positionId f).Fits :=
  { h with tradingVaultPositions :=
      h.tradingVaultPositions.modify fun p _ fits => ⟨fits.1, fits.2.1, kept p fits.2.2⟩ }

theorem onVaultPosition {positionId : ObjectId} {f : VaultPositionState → VaultPositionState} (h : views.Fits)
    (kept : ∀ p : VaultPositionState, p.Fits → (f p).Fits) : (views.onVaultPosition positionId f).Fits :=
  { h with vaultPositions := h.vaultPositions.modify fun p _ fits => ⟨fits.1, kept p fits.2⟩ }

theorem consumeQueued {vaultId : ObjectId} {globalSeq : Nat} (h : views.Fits) (time : Word 64 timestampMs) :
    (views.consumeQueued vaultId globalSeq timestampMs).Fits := by
  unfold Views.consumeQueued
  split
  · exact h.onVaultPosition fun p fits => fits.mark time
  · exact h

theorem addPosition {p : PositionState} (h : views.Fits) (fits : p.Fits) : (views.addPosition p).Fits :=
  { h with positions := h.positions.insert ⟨rfl, fits⟩ }

theorem dropPosition {bucketId : ObjectId} {rangeStart : Nat} (h : views.Fits) :
    (views.dropPosition bucketId rangeStart).Fits :=
  { h with positions := h.positions.remove }

theorem classifyAuction (h : views.Fits) (a : AuctionCreated) : MaybeWord 256 (Indexer.classifyAuction views a).2 := by
  unfold Indexer.classifyAuction
  cases found : views.vaults.get? a.origin with
  | none => exact maybeWord_none 256
  | some vault =>
    have bucket := (h.vaults a.origin vault found).2.currentBucket
    simp only
    split
    · exact bucket
    · split
      · exact bucket
      · split <;> exact maybeWord_none 256

theorem auctionCreated {a : AuctionCreated} (h : views.Fits) (fits : a.Fits) :
    (applyEvent timestampMs views (.auctionCreated a)).Fits :=
  { h with rfqs := h.rfqs.insert ⟨fits.auctionId, { RfqState.Fits.blank with
      bucketId := h.classifyAuction a
      origin := fits.origin
      amount := fits.amount
      reservePremium := fits.reserveBid
      deadlineMs := fits.deadlineMs }⟩ }

theorem tvPositionSplit {s : TvPositionSplit} (h : views.Fits) (fits : s.Fits) (time : Word 64 timestampMs) :
    (applyEvent timestampMs views (.tvPositionSplit s)).Fits := by
  have parentFits : ∀ p ∈ views.vaultPositions.get? s.parentId, p.Fits := fun p found =>
    (h.vaultPositions s.parentId p found).2
  have parent : (views.onVaultPosition s.parentId fun p => p.splitParent s timestampMs).Fits :=
    h.onVaultPosition fun p held => { held with
      shares := fits.parentShares
      costBasis := fits.parentBasis
      updatedAtMs := time }
  have child : ∀ p : VaultPositionState, p.Fits → (p.splitChild s timestampMs).Fits := fun p held => { held with
    shares := fits.childShares
    costBasis := fits.childBasis
    parentPositionId := maybeWord_some.mpr fits.parentId
    updatedAtMs := time }
  exact { parent with
    vaultPositions := parent.vaultPositions.entry ⟨fits.childId, .fromSplit fits time parentFits⟩ fun p held =>
      ⟨fits.childId, child p held.2⟩ }

theorem vaultDeposit {d : ReceiptMoved} (h : views.Fits) (fits : Word 256 d.vaultId ∧ Word 64 d.round) :
    (applyEvent timestampMs views (.vaultDeposit d)).Fits := by
  have pending : (views.onVault d.vaultId fun v =>
      { v with pendingDeposits := saturatingAdd 64 v.pendingDeposits d.amount }).Fits :=
    h.onVault fun v held => { held with pendingDeposits := saturatingAdd_word 64 _ _ }
  exact pending.onReceipt fits fun r held => { held with amount := saturatingAdd_word 64 _ _ }

theorem instantWithdraw {w : ReceiptMoved} (h : views.Fits) (fits : Word 256 w.vaultId ∧ Word 64 w.round) :
    (applyEvent timestampMs views (.instantWithdraw w)).Fits := by
  have pending :
      (views.onVault w.vaultId fun v => { v with pendingDeposits := v.pendingDeposits - w.amount }).Fits :=
    h.onVault fun v held => { held with pendingDeposits := held.pendingDeposits.sub _ }
  exact pending.onReceipt fits fun r held => { held with settled := saturatingAdd_word 64 _ _ }

theorem vaultBucketSelected {s : VaultBucketSelected} (h : views.Fits) (fits : s.Fits) :
    (applyEvent timestampMs views (.vaultBucketSelected s)).Fits := by
  have bucketId : MaybeWord 256 (some s.bucketId) := maybeWord_some.mpr (fits.bucketId)
  have selected :
      (views.onVault s.vaultId fun v => { v with currentBucket := some s.bucketId, round := s.round }).Fits :=
    h.onVault fun v held => { held with currentBucket := bucketId, round := fits.round }
  exact selected.onRound fits.vaultId fits.round fun r held => { held with
    bucketId := bucketId
    strike := maybeWord_some.mpr fits.strike
    strikeScale := maybeWord_some.mpr fits.strikeScale
    expiryMs := maybeWord_some.mpr fits.expiryMs }

theorem vaultRoundFinalized {f : VaultRoundFinalized} (h : views.Fits) (fits : f.Fits) (time : Word 64 timestampMs) :
    (applyEvent timestampMs views (.vaultRoundFinalized f)).Fits := by
  have after : Word 64 (f.round + 1) := fits.round
  have pps : MaybeWord 128 (some f.pps) := maybeWord_some.mpr (fits.pps)
  have finalized : (views.onVault f.vaultId fun v => { v with
      round := f.round + 1
      currentBucket := none
      latestPps := some f.pps
      totalShares := saturatingAdd 64 (f.shares - f.sharesBurned) f.sharesMinted
      pendingDeposits := v.pendingDeposits - f.depositsProcessed }).Fits :=
    h.onVault fun v held => { held with
      round := after
      currentBucket := maybeWord_none 256
      latestPps := pps
      totalShares := saturatingAdd_word 64 _ _
      pendingDeposits := held.pendingDeposits.sub _ }
  exact finalized.onRound fits.vaultId (after.le (Nat.le_succ _)) fun r held => { held with
    pps := pps
    aum := maybeWord_some.mpr fits.aum
    shares := maybeWord_some.mpr fits.shares
    premiumCollected := maybeWord_some.mpr fits.premiumCollected
    finalizedAtMs := maybeWord_some.mpr time }

theorem tvPositionMerged {m : TvPositionMerged} (h : views.Fits) (fits : (ChainEvent.tvPositionMerged m).Fits)
    (time : Word 64 timestampMs) :
    (applyEvent timestampMs views (.tvPositionMerged m)).Fits := by
  obtain ⟨keptId, shares, costBasis, lockedUntilMs⟩ := fits
  have kept : (views.onVaultPosition m.keptId fun p => p.mergeKept m timestampMs).Fits :=
    h.onVaultPosition fun p held => { held with
      shares := shares
      costBasis := costBasis
      lockedUntilMs := lockedUntilMs
      updatedAtMs := time }
  exact kept.onVaultPosition fun p held =>
    { held with mergedInto := maybeWord_some.mpr keptId, updatedAtMs := time }

theorem tvPositionStored {p : TvPositionStored} (h : views.Fits) (fits : Word 256 p.vaultId ∧ Word 256 p.positionId)
    (time : Word 64 timestampMs) :
    (applyEvent timestampMs views (.tvPositionStored p)).Fits := by
  have counted : (views.onTradingVault p.vaultId timestampMs fun v =>
      { v with positionCount := saturatingAdd 64 v.positionCount 1 }).Fits :=
    h.onTradingVault time fun v held => { held with positionCount := saturatingAdd_word 64 _ _ }
  have stored : (⟨p.adapter, true, timestampMs, none, none, none⟩ : TradingVaultPositionState).Fits :=
    ⟨time, maybeWord_none 64, maybeWord_none 64, maybeWord_none 64⟩
  exact { counted with tradingVaultPositions := counted.tradingVaultPositions.insert ⟨fits.1, fits.2, stored⟩ }

theorem tvPositionRemoved {vaultId positionId : ObjectId} (h : views.Fits) (time : Word 64 timestampMs) :
    (applyEvent timestampMs views (.tvPositionRemoved vaultId positionId)).Fits := by
  have counted :
      (views.onTradingVault vaultId timestampMs fun v => { v with positionCount := v.positionCount - 1 }).Fits :=
    h.onTradingVault time fun v held => { held with positionCount := held.positionCount.sub 1 }
  exact counted.onCustodied fun p held => { held with removedAtMs := maybeWord_some.mpr time }

theorem step (time : Word 64 timestampMs) (event : ChainEvent) (h : views.Fits) (fits : event.Fits) :
    (applyEvent timestampMs views event).Fits := by
  cases event with
  | bucketCreated b | putBucketCreated b =>
    exact { h with buckets := h.buckets.insert ⟨fits.1, .create fits⟩ }
  | writeExecuted w | putWriteExecuted w =>
    have written : (views.onBucket w.bucketId fun b => { b with totalWritten := w.rangeEnd }).Fits :=
      h.onBucket fun b held => { held with totalWritten := WriteExecuted.Fits.rangeEnd fits }
    exact written.addPosition ⟨fits.bucketId, fits.positionId, fits.positionRecipient, fits.rangeStart, fits.rangeEnd⟩
  | exercised e | putExercised e => exact h.onBucket fun b held => { held with exerciseCursor := fits }
  | redeemed _ | putRedeemed _ => exact h.dropPosition
  | bucketCleaned _ | putBucketCleaned _ | bucketInvalidated _ | putBucketInvalidated _ | bucketRevalidated _
  | putBucketRevalidated _ => exact h.onBucket fun b held => { held with }
  | collateralizedWrite w | putCollateralizedWrite w =>
    exact h.onBucket fun b held => { held with totalWritten := fits }
  | signerCreated a =>
    have owner : MaybeWord 256 (some a.owner) := maybeWord_some.mpr fits.2
    exact { h with accounts := h.accounts.entry ⟨fits.1, ⟨maybeWord_none 256⟩⟩ fun _ _ => ⟨fits.1, ⟨owner⟩⟩ }
  | signingKeyRotated r => exact { h with accounts := h.accounts.modify fun a _ held => ⟨held.1, ⟨held.2.owner⟩⟩ }
  | deepBookPoolCreated p => exact { h with deepbookPools := h.deepbookPools.entry fits fun _ held => held }
  | optionMarketListed m =>
    exact { h with exchangeMarkets := h.exchangeMarkets.entry ⟨fits.1, ⟨fits.2⟩⟩ fun _ held => held }
  | auctionCreated a => exact h.auctionCreated fits
  | auctionBid b =>
    obtain ⟨bidder, amount, deadlineMs⟩ := fits
    exact { h with rfqs := h.rfqs.modify fun rfq _ held => ⟨held.1, { held.2 with
      bestPremium := maybeWord_some.mpr amount
      bestBidder := maybeWord_some.mpr bidder
      deadlineMs := deadlineMs }⟩ }
  | auctionSettled s => exact h.onRfq fits.1 fun rfq held => { held with winner := maybeWord_some.mpr fits.2 }
  | auctionUnfilled auctionId => exact h.onRfq fits fun rfq held => { held with }
  | rfqCreated r | putRfqCreated r => exact h.onRfq fits.auctionId fun rfq held => held.created fits
  | rfqSettled s | putRfqSettled s =>
    have settled : ∀ kind, (views.onRfq s.auctionId fun rfq => rfq.settle s kind).Fits := fun kind =>
      h.onRfq (RfqSettled.Fits.auctionId fits) fun rfq held => held.settle fits
    exact (settled _).addPosition ⟨fits.bucketId, fits.positionId, fits.positionRecipient, fits.rangeStart, fits.rangeEnd⟩
  | rfqExpiredUnsold e | putRfqExpiredUnsold e =>
    obtain ⟨rfqId, auctionId, bucketId⟩ := fits
    exact h.onRfq auctionId fun rfq held =>
      { held with metaId := maybeWord_some.mpr rfqId, bucketId := maybeWord_some.mpr bucketId }
  | vaultRfqSettled s =>
    have settled : (views.onRfq s.auctionId fun rfq => rfq.vaultSettle s).Fits :=
      h.onRfq (VaultRfqSettled.Fits.auctionId fits) fun rfq held => held.vaultSettle fits
    exact settled.addPosition ⟨fits.bucketId, fits.positionId, fits.vaultId, fits.rangeStart, fits.rangeEnd⟩
  | vaultRfqUnsold u =>
    obtain ⟨auctionId, bucketId, vaultId⟩ := fits
    exact h.onRfq auctionId fun rfq held => { held with bucketId := maybeWord_some.mpr bucketId, origin := vaultId }
  | swapRfqSettled s =>
    obtain ⟨swapId, vaultId, winner⟩ := fits
    exact h.onRfq swapId fun rfq held => { held with origin := vaultId, winner := maybeWord_some.mpr winner }
  | swapRfqUnfilled u => exact h.onRfq fits.1 fun rfq held => { held with origin := fits.2 }
  | vaultCreated v => exact { h with vaults := h.vaults.insert ⟨fits.1, .create fits.2⟩ }
  | vaultConfigApplied c => exact h.onVault fun v held => held.configure fits
  | vaultDeposit d => exact h.vaultDeposit fits
  | instantWithdraw w => exact h.instantWithdraw fits
  | sharesClaimed c | withdrawCompleted c =>
    exact h.onReceipt fits fun r held => { held with settled := saturatingAdd_word 64 _ _ }
  | withdrawInitiated w => exact h.onReceipt fits fun r held => { held with amount := saturatingAdd_word 64 _ _ }
  | vaultBucketSelected s => exact h.vaultBucketSelected fits
  | vaultFeesCharged f =>
    obtain ⟨vaultId, round, mgmtFee, perfFee⟩ := fits
    exact h.onRound vaultId round fun r held =>
      { held with mgmtFee := maybeWord_some.mpr mgmtFee, perfFee := maybeWord_some.mpr perfFee }
  | vaultRoundFinalized f => exact h.vaultRoundFinalized fits time
  | vaultDepositsPaused _ _ => exact h.onVault fun v held => { held with }
  | tvVaultCreated v =>
    exact { h with tradingVaults := h.tradingVaults.insert ⟨fits.vaultId, .fromCreated fits time⟩ }
  | tvVaultClosing _ | tvVaultClosed _ | tvDepositsPaused _ _ | tvMmReleaseToggled _ _ =>
    exact h.onTradingVault time fun v held => { held with }
  | tvCuratorRotated r =>
    exact h.onTradingVault time fun v held => { held with curatorCapId := fits.1, curator := fits.2 }
  | tvDeposited d => exact h.onTradingVault time fun v held => held.deposited fits
  | tvWithdrawRequested w =>
    have requested : (views.onTradingVault w.vaultId timestampMs fun v => v.withdrawRequested w).Fits :=
      h.onTradingVault time fun v held => held.withdrawRequested
    exact requested.onVaultPosition fun p held => .mark { held with queuedGlobalSeq := maybeWord_some.mpr fits } time
  | tvWithdrawFulfilled w =>
    exact (h.onTradingVault time fun v held => held.withdrawFulfilled fits).consumeQueued time
  | tvPositionMinted m =>
    exact { h with vaultPositions := h.vaultPositions.entry ⟨fits.positionId, .fromMinted fits time⟩ fun p held =>
        ⟨fits.positionId, held.2.minted fits time⟩ }
  | tvPositionSplit s => exact h.tvPositionSplit fits time
  | tvPositionMerged m => exact h.tvPositionMerged fits time
  | tvWipedPositionBurned _ => exact h.onVaultPosition fun p held => held.mark time
  | tvCapitalSynced c => exact h.onTradingVault time fun v held => held.capitalSynced fits time
  | tvRiskStateChanged r => exact h.onTradingVault time fun v held =>
      { held with impairedSinceMs := held.impairedSince fits.2, riskState := fits.1 }
  | tvJuniorResetProposed p => exact h.onTradingVault time fun v held => held.resetProposed fits
  | tvJuniorResetCancelled _ => exact h.onTradingVault time fun v held => held.clearReset
  | tvJuniorResetExecuted e => exact h.onTradingVault time fun v held => held.resetExecuted fits.1 fits.2
  | tvSettlementSnapshot s => exact h.onTradingVault time fun v held => held.settlementSnapshot fits time
  | tvSettlementRedeemed r =>
    have redeemed : (views.onTradingVault r.vaultId timestampMs fun v => v.settlementRedeem r).Fits :=
      h.onTradingVault time fun v held => held.settlementRedeem
    exact redeemed.onVaultPosition fun p held => held.mark time
  | tvPositionStored p => exact h.tvPositionStored fits time
  | tvPositionRemoved _ _ => exact h.tvPositionRemoved time
  | tvPositionAppraised a => exact h.onCustodied fun p held =>
      { held with lastValue := maybeWord_some.mpr fits, lastAppraisedAtMs := maybeWord_some.mpr time }
  | tvVaultAppraised _ totalValue => exact h.onTradingVault time fun v held =>
      { held with latestNav := maybeWord_some.mpr fits, navUpdatedAtMs := maybeWord_some.mpr time }
  | tvExternalAccountSet _ _ => exact h.onTradingVault time fun v held => { held with }
  | tvExternalAccountCleared _ =>
    exact h.onTradingVault time fun v held => { held with externalExposure := Word.zero 64 }
  | tvExternalReleased _ | tvExternalReturned _ =>
    exact h.onTradingVault time fun v held => { held with externalExposure := fits }
  | equityPosted p => exact h.onTradingVault time fun v held =>
      { held with
        latestExternalEquity := maybeWord_some.mpr fits
        externalEquityUpdatedAtMs := maybeWord_some.mpr time }
  | _ => exact h

theorem steps (time : Word 64 timestampMs) {events : List ChainEvent} (h : views.Fits)
    (fits : ∀ e ∈ events, e.Fits) :
    (applyEvents timestampMs views events).Fits := by
  induction events generalizing views with
  | nil => exact h
  | cons event events ih =>
    obtain ⟨first, later⟩ := List.forall_mem_cons.mp fits
    exact ih (h.step time event first) later

end Views.Fits

end SuiOptions.Indexer
