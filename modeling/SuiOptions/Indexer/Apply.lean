import SuiOptions.Indexer.Event
import SuiOptions.ProtocolTypes.Asset

/-! How an event changes the views: `apply_event` and its helpers. -/

set_option autoImplicit false

namespace SuiOptions.Indexer

open Words

def AssetType.toCanonical (asset : AssetType) : List Char := ProtocolTypes.canonicalizeMoveType asset

def classifyAuction (inner : Views) (a : AuctionCreated) : AuctionKind × Option ObjectId :=
  match inner.vaults.get? a.origin with
  | none => (.unknown, none)
  | some vault =>
    let escrow := a.escrowType.toCanonical
    let bid := a.bidType.toCanonical
    let underlying := vault.underlyingType.toCanonical
    let settlement := vault.settlementType.toCanonical
    if escrow = underlying ∧ bid = settlement then (.call, vault.currentBucket)
    else if escrow = settlement ∧ bid = settlement then (.put, vault.currentBucket)
    else if escrow = settlement ∧ bid = underlying then (.swap, none)
    else (.unknown, none)

def BucketState.create (b : BucketCreated) (kind : OptionKind) : BucketState where
  assetType := b.assetType
  settlementType := b.settlementType
  callType := b.coinType
  strike := b.strike
  strikeScale := b.strikeScale
  expiryMs := b.expiryMs
  totalWritten := 0
  exerciseCursor := 0
  cleaned := false
  invalidated := false
  optionKind := kind

def PositionState.written (w : WriteExecuted) (kind : OptionKind) : PositionState :=
  ⟨w.bucketId, w.positionId, w.positionRecipient, w.rangeStart, w.rangeEnd, kind⟩

def PositionState.settled (s : RfqSettled) (kind : OptionKind) : PositionState :=
  ⟨s.bucketId, s.positionId, s.positionRecipient, s.rangeStart, s.rangeEnd, kind⟩

/-- The minted position stays with the vault, whose id stands for the recipient. -/
def PositionState.vaultSettled (s : VaultRfqSettled) : PositionState :=
  ⟨s.bucketId, s.positionId, s.vaultId, s.rangeStart, s.rangeEnd, .call⟩

def VaultState.create (v : VaultCreated) : VaultState where
  underlyingType := v.underlyingType
  settlementType := v.settlementType
  shareType := v.shareType
  round := 0
  currentBucket := none
  latestPps := none
  totalShares := 0
  pendingDeposits := 0
  depositsPaused := false
  mgmtFeeBpsAnnual := some v.mgmtFeeBpsAnnual
  perfFeeBps := some v.perfFeeBps
  roundMs := some v.roundMs
  sellingWindowMs := some v.sellingWindowMs
  minStrikeBpsOverSpot := some v.minStrikeBpsOverSpot
  maxStrikeBpsOverSpot := some v.maxStrikeBpsOverSpot

def VaultState.configure (v : VaultState) (c : VaultConfig) : VaultState :=
  { v with
    mgmtFeeBpsAnnual := some c.mgmtFeeBpsAnnual
    perfFeeBps := some c.perfFeeBps
    roundMs := some c.roundMs
    sellingWindowMs := some c.sellingWindowMs
    minStrikeBpsOverSpot := some c.minStrikeBpsOverSpot
    maxStrikeBpsOverSpot := some c.maxStrikeBpsOverSpot }

namespace RfqState

def created (rfq : RfqState) (r : RfqCreated) (kind : AuctionKind) : RfqState :=
  { rfq with
    metaId := some r.rfqId
    bucketId := some r.bucketId
    origin := r.origin
    amount := r.amount
    reservePremium := r.reservePremium
    auctionKind := kind }

def settle (rfq : RfqState) (s : RfqSettled) (kind : AuctionKind) : RfqState :=
  { rfq with
    metaId := some s.rfqId
    bucketId := some s.bucketId
    auctionKind := kind
    status := .settled
    winner := some s.winner
    netPremium := some s.netPremium
    positionId := some s.positionId
    grossPremium := some s.grossPremium
    fee := some s.fee }

def expire (rfq : RfqState) (e : RfqExpiredUnsold) (kind : AuctionKind) : RfqState :=
  { rfq with
    metaId := some e.rfqId
    bucketId := some e.bucketId
    auctionKind := kind
    status := .expiredUnsold }

def vaultSettle (rfq : RfqState) (s : VaultRfqSettled) : RfqState :=
  { rfq with
    bucketId := some s.bucketId
    origin := s.vaultId
    auctionKind := .call
    status := .settled
    winner := some s.winner
    netPremium := some s.netPremium
    positionId := some s.positionId
    grossPremium := some s.grossPremium
    fee := some s.fee }

def vaultUnsold (rfq : RfqState) (u : VaultRfqUnsold) : RfqState :=
  { rfq with
    bucketId := some u.bucketId
    origin := u.vaultId
    auctionKind := .call
    status := .expiredUnsold }

end RfqState

namespace TradingVaultState

def fromCreated (v : TvVaultCreated) (timestampMs : Nat) : TradingVaultState where
  accountingAsset := v.accountingAsset
  creator := v.creator
  curator := v.creator
  curatorCapId := v.curatorCapId
  state := .isOpen
  lockupMs := v.lockupMs
  curatorFeeBps := v.curatorFeeBps
  unwindGraceMs := v.unwindGraceMs
  depositsPaused := false
  mmReleaseEnabled := false
  totalShares := 0
  positionCount := 0
  pendingWithdrawals := 0
  latestPpsE12 := none
  updatedAtMs := timestampMs
  externalAccount := none
  externalExposure := 0
  latestExternalEquity := none
  externalEquityUpdatedAtMs := none
  latestNav := none
  navUpdatedAtMs := none
  structureCode := v.structureCode
  seniorHurdleBpsAnnual := v.seniorHurdleBpsAnnual
  targetJuniorBps := v.targetJuniorBps
  maintenanceJuniorBps := v.maintenanceJuniorBps
  upsideCode := v.upsideCode
  residualParticipationBps := v.residualParticipationBps
  totalReturnCapBps := v.totalReturnCapBps
  termsVersion := v.termsVersion
  specHash := if v.specHash = [] then none else some v.specHash
  seniorShares := 0
  juniorShares := 0
  seniorClaim := 0
  seniorPrincipalBasis := 0
  seniorNav := none
  juniorNav := none
  latestSeniorPpsE12 := none
  latestJuniorPpsE12 := none
  riskState := 0
  curatorCommitmentBreached := false
  impairedSinceMs := none
  activeJuniorGeneration := 0
  resetOldGeneration := none
  resetProposedAtMs := none
  resetExecutableAtMs := none
  resetRecordedNav := none
  resetRecordedSeniorClaim := none
  resetRecordedRequiredDeposit := none
  settled := false
  settlementFinalNav := none
  seniorPool := none
  seniorSupply := none
  juniorPool := none
  juniorSupply := none
  settlementSnapshotAtMs := none
  settlementRedeemed := 0
  seniorLaneHead := 0
  seniorLaneTail := 0
  juniorLaneHead := 0
  juniorLaneTail := 0

/-- An observed price per share, in 1e-12 units and net of the share offset. -/
def pps (value shares : Nat) : Nat := saturatingMul 128 (saturatingMul 128 value ppsScale) shareOffset / shares

def observeTrancheFlow (v : TradingVaultState) (tranche trancheShares value shares : Nat) : TradingVaultState :=
  let v := if tranche = trancheSenior then { v with seniorShares := trancheShares }
    else { v with juniorShares := trancheShares }
  let v := { v with totalShares := saturatingAdd 128 v.seniorShares v.juniorShares }
  if 0 < value ∧ 0 < shares then
    if tranche = trancheSenior then { v with latestSeniorPpsE12 := some (pps value shares) }
    else if tranche = trancheJunior then { v with latestJuniorPpsE12 := some (pps value shares) }
    else { v with latestPpsE12 := some (pps value shares) }
  else v

def bumpLane (cursor globalSeq : Nat) : Nat := max cursor (saturatingAdd 64 globalSeq 1)

def bumpTail (v : TradingVaultState) (senior : Bool) (globalSeq : Nat) : TradingVaultState :=
  if senior then { v with seniorLaneTail := bumpLane v.seniorLaneTail globalSeq }
  else { v with juniorLaneTail := bumpLane v.juniorLaneTail globalSeq }

def bumpHead (v : TradingVaultState) (senior : Bool) (globalSeq : Nat) : TradingVaultState :=
  if senior then { v with seniorLaneHead := bumpLane v.seniorLaneHead globalSeq }
  else { v with juniorLaneHead := bumpLane v.juniorLaneHead globalSeq }

/-- The time of entering `Impaired`, kept while the vault stays there. -/
def impairedSince (v : TradingVaultState) (riskState atMs : Nat) : Option Nat :=
  if riskState = riskImpaired ∧ v.riskState ≠ riskImpaired then some atMs
  else if riskState ≠ riskImpaired then none
  else v.impairedSinceMs

def touch (v : TradingVaultState) (timestampMs : Nat) : TradingVaultState := { v with updatedAtMs := timestampMs }

def deposited (v : TradingVaultState) (d : TvDeposited) : TradingVaultState :=
  let v := v.observeTrancheFlow d.tranche d.trancheShares d.value d.shares
  if d.tranche = trancheSenior then
    { v with seniorPrincipalBasis := saturatingAdd 128 v.seniorPrincipalBasis d.value }
  else v

def withdrawRequested (v : TradingVaultState) (w : TvWithdrawRequested) : TradingVaultState :=
  { v with pendingWithdrawals := saturatingAdd 64 v.pendingWithdrawals 1 }.bumpTail (w.lane = laneSenior) w.globalSeq

def withdrawFulfilled (v : TradingVaultState) (w : TvWithdrawFulfilled) : TradingVaultState :=
  let v := { v with pendingWithdrawals := v.pendingWithdrawals - 1 }
  let v := v.observeTrancheFlow w.tranche w.trancheShares w.value w.shares
  let v := if w.tranche = trancheSenior then { v with seniorPrincipalBasis := v.seniorPrincipalBasis - w.basis } else v
  v.bumpHead (w.lane = laneSenior) w.globalSeq

def capitalSynced (v : TradingVaultState) (c : TvCapitalSynced) (timestampMs : Nat) : TradingVaultState :=
  let v := { v with
    latestNav := some c.totalNav
    navUpdatedAtMs := some timestampMs
    seniorNav := some c.seniorNav
    juniorNav := some c.juniorNav
    seniorClaim := c.seniorClaim
    seniorShares := c.seniorShares
    juniorShares := c.juniorShares
    totalShares := saturatingAdd 128 c.seniorShares c.juniorShares
    impairedSinceMs := v.impairedSince c.riskState timestampMs
    riskState := c.riskState
    activeJuniorGeneration := c.activeJuniorGeneration
    curatorCommitmentBreached := c.curatorCommitmentBreached }
  if v.structureCode = 0 then
    if 0 < c.juniorShares then { v with latestPpsE12 := some (pps c.totalNav c.juniorShares) } else v
  else
    let v := if 0 < c.seniorShares then { v with latestSeniorPpsE12 := some (pps c.seniorNav c.seniorShares) } else v
    if 0 < c.juniorShares then { v with latestJuniorPpsE12 := some (pps c.juniorNav c.juniorShares) } else v

def riskStateChanged (v : TradingVaultState) (r : TvRiskStateChanged) : TradingVaultState :=
  { v with impairedSinceMs := v.impairedSince r.newState r.timestampMs, riskState := r.newState }

def resetProposed (v : TradingVaultState) (p : TvJuniorResetProposed) : TradingVaultState :=
  { v with
    resetOldGeneration := some p.oldGeneration
    resetProposedAtMs := some p.proposedAtMs
    resetExecutableAtMs := some p.executableAtMs
    resetRecordedNav := some p.totalNav
    resetRecordedSeniorClaim := some p.seniorClaim
    resetRecordedRequiredDeposit := some p.requiredDeposit }

def clearReset (v : TradingVaultState) : TradingVaultState :=
  { v with
    resetOldGeneration := none
    resetProposedAtMs := none
    resetExecutableAtMs := none
    resetRecordedNav := none
    resetRecordedSeniorClaim := none
    resetRecordedRequiredDeposit := none }

def resetExecuted (v : TradingVaultState) (e : TvJuniorResetExecuted) : TradingVaultState :=
  { v with
    activeJuniorGeneration := e.newGeneration
    juniorNav := some e.postJuniorNav
    latestJuniorPpsE12 := some ppsScale }.clearReset

def settlementSnapshot (v : TradingVaultState) (s : TvSettlementSnapshot) (timestampMs : Nat) : TradingVaultState :=
  { v with
    settled := true
    settlementFinalNav := some s.finalNav
    seniorPool := some s.seniorPool
    seniorSupply := some s.seniorSupply
    juniorPool := some s.juniorPool
    juniorSupply := some s.juniorSupply
    settlementSnapshotAtMs := some timestampMs
    activeJuniorGeneration := s.activeJuniorGeneration }

def settlementRedeem (v : TradingVaultState) (r : TvSettlementRedeemed) : TradingVaultState :=
  let v := { v with settlementRedeemed := saturatingAdd 128 v.settlementRedeemed r.entitlement }
  if r.fromQueue then
    { v with pendingWithdrawals := v.pendingWithdrawals - 1 }.bumpHead (r.tranche = trancheSenior) r.globalSeq
  else v

end TradingVaultState

namespace VaultPositionState

def fromMinted (m : TvPositionMinted) (timestampMs : Nat) : VaultPositionState where
  vaultId := m.vaultId
  tranche := m.tranche
  capitalGeneration := m.capitalGeneration
  shares := m.shares
  costBasis := m.costBasis
  lockedUntilMs := m.lockedUntilMs
  status := .live
  parentPositionId := none
  mergedInto := none
  queuedGlobalSeq := none
  createdAtMs := timestampMs
  updatedAtMs := timestampMs

def minted (p : VaultPositionState) (m : TvPositionMinted) (timestampMs : Nat) : VaultPositionState :=
  { p with
    tranche := m.tranche
    capitalGeneration := m.capitalGeneration
    shares := m.shares
    costBasis := m.costBasis
    lockedUntilMs := m.lockedUntilMs
    updatedAtMs := timestampMs }

/-- The child row of a split whose mint was not seen: it takes after its parent. -/
def fromSplit (s : TvPositionSplit) (parent : Option VaultPositionState) (timestampMs : Nat) : VaultPositionState where
  vaultId := s.vaultId
  tranche := (parent.map (·.tranche)).getD trancheUntranched
  capitalGeneration := (parent.map (·.capitalGeneration)).getD 0
  shares := s.childShares
  costBasis := s.childBasis
  lockedUntilMs := (parent.map (·.lockedUntilMs)).getD 0
  status := .live
  parentPositionId := none
  mergedInto := none
  queuedGlobalSeq := none
  createdAtMs := max ((parent.map (·.createdAtMs)).getD timestampMs) timestampMs
  updatedAtMs := timestampMs

def splitParent (p : VaultPositionState) (s : TvPositionSplit) (timestampMs : Nat) : VaultPositionState :=
  { p with shares := s.parentShares, costBasis := s.parentBasis, updatedAtMs := timestampMs }

def splitChild (p : VaultPositionState) (s : TvPositionSplit) (timestampMs : Nat) : VaultPositionState :=
  { p with
    shares := s.childShares
    costBasis := s.childBasis
    parentPositionId := some s.parentId
    updatedAtMs := timestampMs }

def mergeKept (p : VaultPositionState) (m : TvPositionMerged) (timestampMs : Nat) : VaultPositionState :=
  { p with
    shares := m.shares
    costBasis := m.costBasis
    lockedUntilMs := m.lockedUntilMs
    updatedAtMs := timestampMs }

def mergeAway (p : VaultPositionState) (m : TvPositionMerged) (timestampMs : Nat) : VaultPositionState :=
  { p with status := .consumed, mergedInto := some m.keptId, updatedAtMs := timestampMs }

def mark (p : VaultPositionState) (status : PositionStatus) (timestampMs : Nat) : VaultPositionState :=
  { p with status := status, updatedAtMs := timestampMs }

def queue (p : VaultPositionState) (globalSeq timestampMs : Nat) : VaultPositionState :=
  { p with queuedGlobalSeq := some globalSeq }.mark .queued timestampMs

end VaultPositionState

def queuedPosition (inner : Views) (vaultId : ObjectId) (globalSeq : Nat) : Option ObjectId :=
  (inner.vaultPositions.find? fun _ p => p.vaultId = vaultId ∧ p.queuedGlobalSeq = some globalSeq).map (·.1)

namespace Views

def onBucket (inner : Views) (bucketId : ObjectId) (f : BucketState → BucketState) : Views :=
  { inner with buckets := inner.buckets.modify bucketId f }

def onRfq (inner : Views) (auctionId : ObjectId) (f : RfqState → RfqState) : Views :=
  { inner with rfqs := inner.rfqs.entry auctionId RfqState.blank f }

def onVault (inner : Views) (vaultId : ObjectId) (f : VaultState → VaultState) : Views :=
  { inner with vaults := inner.vaults.modify vaultId f }

def onRound (inner : Views) (vaultId : ObjectId) (round : Nat) (f : VaultRoundState → VaultRoundState) : Views :=
  { inner with vaultRounds := inner.vaultRounds.entry (vaultId, round) VaultRoundState.default f }

def onReceipt (inner : Views) (m : ReceiptMoved) (kind : ReceiptKind) (f : ReceiptState → ReceiptState) : Views :=
  { inner with vaultReceipts := inner.vaultReceipts.entry (m.vaultId, m.owner, m.round, kind) ReceiptState.default f }

def onTradingVault (inner : Views) (vaultId : ObjectId) (timestampMs : Nat)
    (f : TradingVaultState → TradingVaultState) : Views :=
  { inner with tradingVaults := inner.tradingVaults.modify vaultId fun v => (f v).touch timestampMs }

def onCustodied (inner : Views) (vaultId positionId : ObjectId)
    (f : TradingVaultPositionState → TradingVaultPositionState) : Views :=
  { inner with tradingVaultPositions := inner.tradingVaultPositions.modify (vaultId, positionId) f }

def onVaultPosition (inner : Views) (positionId : ObjectId) (f : VaultPositionState → VaultPositionState) : Views :=
  { inner with vaultPositions := inner.vaultPositions.modify positionId f }

def consumeQueued (inner : Views) (vaultId : ObjectId) (globalSeq timestampMs : Nat) : Views :=
  match queuedPosition inner vaultId globalSeq with
  | some positionId => inner.onVaultPosition positionId fun p => p.mark .consumed timestampMs
  | none => inner

def addPosition (inner : Views) (p : PositionState) : Views :=
  { inner with positions := inner.positions.insert (p.bucketId, p.rangeStart) p }

def dropPosition (inner : Views) (bucketId : ObjectId) (rangeStart : Nat) : Views :=
  { inner with positions := inner.positions.remove (bucketId, rangeStart) }

end Views

def applyEvent (timestampMs : Nat) (inner : Views) : ChainEvent → Views
  | .bucketCreated b => { inner with buckets := inner.buckets.insert b.bucketId (.create b .call) }
  | .writeExecuted w =>
    (inner.onBucket w.bucketId fun b => { b with totalWritten := w.rangeEnd }).addPosition (.written w .call)
  | .exercised e => inner.onBucket e.bucketId fun b => { b with exerciseCursor := e.cursorAfter }
  | .redeemed r => inner.dropPosition r.bucketId r.rangeStart
  | .bucketCleaned bucketId => inner.onBucket bucketId fun b => { b with cleaned := true }
  | .bucketInvalidated i => inner.onBucket i.bucketId fun b => { b with invalidated := true }
  | .bucketRevalidated r => inner.onBucket r.bucketId fun b => { b with invalidated := false }
  | .signerCreated a => { inner with accounts := inner.accounts.entry a.signerId .default fun _ =>
      ⟨some a.owner, a.signingPubkey, some a.signingScheme⟩ }
  | .signingKeyRotated r => { inner with accounts := inner.accounts.modify r.signerId fun acct =>
      { acct with signingPubkey := r.newPubkey, signingScheme := some r.newScheme } }
  -- The first pool of a bucket, and its first market, win.
  | .deepBookPoolCreated p =>
    { inner with deepbookPools := inner.deepbookPools.entry p.bucketId p.toDeepBookPoolState id }
  | .optionMarketListed m =>
    { inner with exchangeMarkets := inner.exchangeMarkets.entry m.bucket ⟨m.registry, m.isPut⟩ id }
  | .collateralizedWrite w => inner.onBucket w.bucketId fun b => { b with totalWritten := w.rangeEnd }
  | .auctionCreated a =>
    let (kind, bucketId) := classifyAuction inner a
    { inner with rfqs := inner.rfqs.insert a.auctionId { RfqState.blank with
        bucketId := bucketId
        origin := a.origin
        amount := a.amount
        reservePremium := a.reserveBid
        deadlineMs := a.deadlineMs
        auctionKind := kind } }
  | .auctionBid b => { inner with rfqs := inner.rfqs.modify b.auctionId fun rfq =>
      { rfq with bestPremium := some b.amount, bestBidder := some b.bidder, deadlineMs := b.deadlineMs } }
  | .auctionSettled s => inner.onRfq s.auctionId fun rfq => { rfq with status := .settled, winner := some s.bidder }
  | .auctionUnfilled auctionId => inner.onRfq auctionId fun rfq => { rfq with status := .expiredUnsold }
  | .rfqCreated r => inner.onRfq r.auctionId fun rfq => rfq.created r .call
  | .rfqSettled s => (inner.onRfq s.auctionId fun rfq => rfq.settle s .call).addPosition (.settled s .call)
  | .rfqExpiredUnsold e => inner.onRfq e.auctionId fun rfq => rfq.expire e .call
  | .vaultRfqSettled s => (inner.onRfq s.auctionId fun rfq => rfq.vaultSettle s).addPosition (.vaultSettled s)
  | .vaultRfqUnsold u => inner.onRfq u.auctionId fun rfq => rfq.vaultUnsold u
  | .swapRfqSettled s => inner.onRfq s.swapId fun rfq =>
      { rfq with origin := s.vaultId, auctionKind := .swap, status := .settled, winner := some s.winner }
  | .swapRfqUnfilled u => inner.onRfq u.swapId fun rfq =>
      { rfq with origin := u.vaultId, auctionKind := .swap, status := .expiredUnsold }
  | .vaultCreated v => { inner with vaults := inner.vaults.insert v.vaultId (.create v) }
  | .vaultConfigApplied c => inner.onVault c.vaultId fun v => v.configure c.toVaultConfig
  | .vaultDeposit d =>
    (inner.onVault d.vaultId fun v => { v with pendingDeposits := saturatingAdd 64 v.pendingDeposits d.amount }).onReceipt
      d receiptDeposit fun r => { r with amount := saturatingAdd 64 r.amount d.amount }
  | .instantWithdraw w =>
    (inner.onVault w.vaultId fun v => { v with pendingDeposits := v.pendingDeposits - w.amount }).onReceipt
      w receiptDeposit fun r => { r with settled := saturatingAdd 64 r.settled w.amount }
  | .sharesClaimed c => inner.onReceipt c receiptDeposit fun r => { r with settled := saturatingAdd 64 r.settled c.amount }
  | .withdrawInitiated w =>
    inner.onReceipt w receiptWithdraw fun r => { r with amount := saturatingAdd 64 r.amount w.amount }
  | .withdrawCompleted w =>
    inner.onReceipt w receiptWithdraw fun r => { r with settled := saturatingAdd 64 r.settled w.amount }
  | .vaultBucketSelected s =>
    (inner.onVault s.vaultId fun v => { v with currentBucket := some s.bucketId, round := s.round }).onRound
      s.vaultId s.round fun r => { r with
        bucketId := some s.bucketId
        strike := some s.strike
        strikeScale := some s.strikeScale
        expiryMs := some s.expiryMs }
  | .vaultFeesCharged f => inner.onRound f.vaultId f.round fun r =>
      { r with mgmtFee := some f.mgmtFee, perfFee := some f.perfFee }
  | .vaultRoundFinalized f =>
    (inner.onVault f.vaultId fun v => { v with
        round := f.round + 1
        currentBucket := none
        latestPps := some f.pps
        totalShares := saturatingAdd 64 (f.shares - f.sharesBurned) f.sharesMinted
        pendingDeposits := v.pendingDeposits - f.depositsProcessed }).onRound
      f.vaultId f.round fun r => { r with
        pps := some f.pps
        aum := some f.aum
        shares := some f.shares
        premiumCollected := some f.premiumCollected
        finalizedAtMs := some timestampMs }
  | .vaultDepositsPaused vaultId paused => inner.onVault vaultId fun v => { v with depositsPaused := paused }
  | .putBucketCreated b => { inner with buckets := inner.buckets.insert b.bucketId (.create b .put) }
  | .putWriteExecuted w =>
    (inner.onBucket w.bucketId fun b => { b with totalWritten := w.rangeEnd }).addPosition (.written w .put)
  | .putExercised e => inner.onBucket e.bucketId fun b => { b with exerciseCursor := e.cursorAfter }
  | .putRedeemed r => inner.dropPosition r.bucketId r.rangeStart
  | .putBucketCleaned bucketId => inner.onBucket bucketId fun b => { b with cleaned := true }
  | .putBucketInvalidated i => inner.onBucket i.bucketId fun b => { b with invalidated := true }
  | .putBucketRevalidated r => inner.onBucket r.bucketId fun b => { b with invalidated := false }
  | .putCollateralizedWrite w => inner.onBucket w.bucketId fun b => { b with totalWritten := w.rangeEnd }
  | .putRfqCreated r => inner.onRfq r.auctionId fun rfq => rfq.created r .put
  | .putRfqSettled s => (inner.onRfq s.auctionId fun rfq => rfq.settle s .put).addPosition (.settled s .put)
  | .putRfqExpiredUnsold e => inner.onRfq e.auctionId fun rfq => rfq.expire e .put
  | .tvVaultCreated v =>
    { inner with tradingVaults := inner.tradingVaults.insert v.vaultId (.fromCreated v timestampMs) }
  | .tvVaultClosing vaultId => inner.onTradingVault vaultId timestampMs fun v => { v with state := .closing }
  | .tvVaultClosed vaultId => inner.onTradingVault vaultId timestampMs fun v => { v with state := .closed }
  | .tvDepositsPaused vaultId paused =>
    inner.onTradingVault vaultId timestampMs fun v => { v with depositsPaused := paused }
  | .tvMmReleaseToggled vaultId enabled =>
    inner.onTradingVault vaultId timestampMs fun v => { v with mmReleaseEnabled := enabled }
  | .tvCuratorRotated r => inner.onTradingVault r.vaultId timestampMs fun v =>
      { v with curatorCapId := r.newCapId, curator := r.recipient }
  | .tvDeposited d => inner.onTradingVault d.vaultId timestampMs fun v => v.deposited d
  | .tvWithdrawRequested w =>
    (inner.onTradingVault w.vaultId timestampMs fun v => v.withdrawRequested w).onVaultPosition w.positionId fun p =>
      p.queue w.globalSeq timestampMs
  | .tvWithdrawFulfilled w =>
    (inner.onTradingVault w.vaultId timestampMs fun v => v.withdrawFulfilled w).consumeQueued w.vaultId w.globalSeq
      timestampMs
  | .tvPositionMinted m =>
    { inner with vaultPositions :=
        inner.vaultPositions.entry m.positionId (.fromMinted m timestampMs) fun p => p.minted m timestampMs }
  | .tvPositionSplit s =>
    let parent := inner.vaultPositions.get? s.parentId
    let inner := inner.onVaultPosition s.parentId fun p => p.splitParent s timestampMs
    { inner with vaultPositions := inner.vaultPositions.entry s.childId (.fromSplit s parent timestampMs) fun p =>
        p.splitChild s timestampMs }
  | .tvPositionMerged m =>
    (inner.onVaultPosition m.keptId fun p => p.mergeKept m timestampMs).onVaultPosition m.mergedId fun p =>
      p.mergeAway m timestampMs
  | .tvWipedPositionBurned positionId => inner.onVaultPosition positionId fun p => p.mark .burned timestampMs
  | .tvCapitalSynced c => inner.onTradingVault c.vaultId timestampMs fun v => v.capitalSynced c timestampMs
  | .tvRiskStateChanged r => inner.onTradingVault r.vaultId timestampMs fun v => v.riskStateChanged r
  | .tvJuniorResetProposed p => inner.onTradingVault p.vaultId timestampMs fun v => v.resetProposed p
  | .tvJuniorResetCancelled vaultId => inner.onTradingVault vaultId timestampMs fun v => v.clearReset
  | .tvJuniorResetExecuted e => inner.onTradingVault e.vaultId timestampMs fun v => v.resetExecuted e
  | .tvSettlementSnapshot s => inner.onTradingVault s.vaultId timestampMs fun v => v.settlementSnapshot s timestampMs
  | .tvSettlementRedeemed r =>
    (inner.onTradingVault r.vaultId timestampMs fun v => v.settlementRedeem r).onVaultPosition r.positionId fun p =>
      p.mark .settled timestampMs
  | .tvPositionStored p =>
    let inner := inner.onTradingVault p.vaultId timestampMs fun v =>
      { v with positionCount := saturatingAdd 64 v.positionCount 1 }
    { inner with tradingVaultPositions :=
        inner.tradingVaultPositions.insert (p.vaultId, p.positionId) ⟨p.adapter, true, timestampMs, none, none, none⟩ }
  | .tvPositionRemoved vaultId positionId =>
    (inner.onTradingVault vaultId timestampMs fun v => { v with positionCount := v.positionCount - 1 }).onCustodied
      vaultId positionId fun p => { p with active := false, removedAtMs := some timestampMs }
  | .tvPositionAppraised a => inner.onCustodied a.vaultId a.positionId fun p =>
      { p with lastValue := some a.value, lastAppraisedAtMs := some timestampMs }
  | .tvVaultAppraised vaultId totalValue => inner.onTradingVault vaultId timestampMs fun v =>
      { v with latestNav := some totalValue, navUpdatedAtMs := some timestampMs }
  | .tvExternalAccountSet vaultId account =>
    inner.onTradingVault vaultId timestampMs fun v => { v with externalAccount := some account }
  | .tvExternalAccountCleared vaultId =>
    inner.onTradingVault vaultId timestampMs fun v => { v with externalAccount := none, externalExposure := 0 }
  | .tvExternalReleased r => inner.onTradingVault r.vaultId timestampMs fun v => { v with externalExposure := r.exposure }
  | .tvExternalReturned r => inner.onTradingVault r.vaultId timestampMs fun v => { v with externalExposure := r.exposure }
  | .equityPosted p => inner.onTradingVault p.vaultId timestampMs fun v =>
      { v with latestExternalEquity := some p.equity, externalEquityUpdatedAtMs := some timestampMs }
  -- Log-only: these move no view, offset closes and spreads among them.
  | .expiredOptionBurned _ _ | .putExpiredOptionBurned _ _ | .treasuryWithdrawn _ | .deepBookOrderFilled _
  | .exchangeOptionFill _ | .offsetClosed _ _ | .spreadWritten _ | .spreadUnwound _ _ | .spreadClosed _
  | .spreadRedeemed _ | .putSpreadWritten _ | .putSpreadExercised _ | .putSpreadClosed _ | .putSpreadRedeemed _
  | .volPosted _ | .logOnly _ => inner

def applyEvents (timestampMs : Nat) (inner : Views) (events : List ChainEvent) : Views :=
  events.foldl (applyEvent timestampMs) inner

end SuiOptions.Indexer
