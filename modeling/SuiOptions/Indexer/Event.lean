import SuiOptions.Indexer.State

/-! The chain events the indexer decodes: `protocol-types/src/events.rs`.

An event keeps the fields that the views, the rows or the participant edges read,
and the ranges and cursors that the spread events carry unread. A put event with
the fields of its call sibling shares the sibling's structure. -/

set_option autoImplicit false

namespace SuiOptions.Indexer

structure BucketCreated where
  bucketId : ObjectId
  assetType : AssetType
  settlementType : AssetType
  /-- The call coin's type, or the put coin's. -/
  coinType : AssetType
  expiryMs : Nat
  strike : Nat
  strikeScale : Nat

structure WriteExecuted where
  bucketId : ObjectId
  signerId : ObjectId
  signerTokenRecipient : SuiAddress
  executor : SuiAddress
  positionId : ObjectId
  positionRecipient : SuiAddress
  coinRecipient : SuiAddress
  grossPremium : Nat
  rangeStart : Nat
  rangeEnd : Nat

structure Exercised where
  bucketId : ObjectId
  exerciser : SuiAddress
  cursorAfter : Nat

structure Redeemed where
  bucketId : ObjectId
  redeemer : SuiAddress
  rangeStart : Nat

structure CollateralizedWrite where
  bucketId : ObjectId
  writer : SuiAddress
  rangeEnd : Nat

/-- `BucketInvalidated` and `BucketRevalidated`. -/
structure BucketFlagged where
  bucketId : ObjectId
  admin : SuiAddress

structure SignerCreated where
  signerId : ObjectId
  owner : SuiAddress
  signingScheme : SigningScheme
  signingPubkey : List UInt8

structure SigningKeyRotated where
  signerId : ObjectId
  newScheme : SigningScheme
  newPubkey : List UInt8

structure DeepBookPoolCreated extends DeepBookPoolState where
  bucketId : ObjectId

structure OptionMarketListed where
  bucket : ObjectId
  registry : ObjectId
  isPut : Bool

structure AuctionCreated where
  auctionId : ObjectId
  origin : ObjectId
  escrowType : AssetType
  bidType : AssetType
  amount : Nat
  reserveBid : Nat
  deadlineMs : Nat

structure AuctionBid where
  auctionId : ObjectId
  bidder : SuiAddress
  tokenRecipient : SuiAddress
  amount : Nat
  deadlineMs : Nat

structure AuctionSettled where
  auctionId : ObjectId
  bidder : SuiAddress
  tokenRecipient : SuiAddress

structure RfqCreated where
  rfqId : ObjectId
  auctionId : ObjectId
  bucketId : ObjectId
  origin : ObjectId
  amount : Nat
  reservePremium : Nat

structure RfqSettled where
  rfqId : ObjectId
  auctionId : ObjectId
  bucketId : ObjectId
  winner : SuiAddress
  coinRecipient : SuiAddress
  positionId : ObjectId
  positionRecipient : SuiAddress
  grossPremium : Nat
  fee : Nat
  netPremium : Nat
  rangeStart : Nat
  rangeEnd : Nat

structure RfqExpiredUnsold where
  rfqId : ObjectId
  auctionId : ObjectId
  bucketId : ObjectId

structure VaultRfqSettled where
  auctionId : ObjectId
  bucketId : ObjectId
  vaultId : ObjectId
  winner : SuiAddress
  callRecipient : SuiAddress
  positionId : ObjectId
  grossPremium : Nat
  fee : Nat
  netPremium : Nat
  rangeStart : Nat
  rangeEnd : Nat

structure VaultRfqUnsold where
  auctionId : ObjectId
  bucketId : ObjectId
  vaultId : ObjectId

structure SwapRfqSettled where
  swapId : ObjectId
  vaultId : ObjectId
  winner : SuiAddress

structure SwapRfqUnfilled where
  swapId : ObjectId
  vaultId : ObjectId

structure VaultConfig where
  mgmtFeeBpsAnnual : Nat
  perfFeeBps : Nat
  roundMs : Nat
  sellingWindowMs : Nat
  minStrikeBpsOverSpot : Nat
  maxStrikeBpsOverSpot : Nat

structure VaultCreated extends VaultConfig where
  vaultId : ObjectId
  underlyingType : AssetType
  settlementType : AssetType
  shareType : AssetType

structure VaultConfigApplied extends VaultConfig where
  vaultId : ObjectId

/-- The events that move a receipt: whose it is and by how much. The amount of a
withdrawal is its shares. -/
structure ReceiptMoved where
  vaultId : ObjectId
  owner : SuiAddress
  round : Nat
  amount : Nat

structure VaultBucketSelected where
  vaultId : ObjectId
  round : Nat
  bucketId : ObjectId
  strike : Nat
  strikeScale : Nat
  expiryMs : Nat

structure VaultFeesCharged where
  vaultId : ObjectId
  round : Nat
  mgmtFee : Nat
  perfFee : Nat

structure VaultRoundFinalized where
  vaultId : ObjectId
  round : Nat
  pps : Nat
  aum : Nat
  shares : Nat
  premiumCollected : Nat
  sharesBurned : Nat
  depositsProcessed : Nat
  sharesMinted : Nat

structure TvVaultCreated where
  vaultId : ObjectId
  creator : SuiAddress
  curatorCapId : ObjectId
  accountingAsset : AssetType
  lockupMs : Nat
  curatorFeeBps : Nat
  unwindGraceMs : Nat
  structureCode : Nat
  seniorHurdleBpsAnnual : Nat
  targetJuniorBps : Nat
  maintenanceJuniorBps : Nat
  upsideCode : Nat
  residualParticipationBps : Nat
  totalReturnCapBps : Nat
  termsVersion : Nat
  specHash : List UInt8

structure TvCuratorRotated where
  vaultId : ObjectId
  newCapId : ObjectId
  recipient : SuiAddress

structure TvDeposited where
  vaultId : ObjectId
  depositor : SuiAddress
  tranche : Nat
  value : Nat
  shares : Nat
  trancheShares : Nat

structure TvWithdrawRequested where
  vaultId : ObjectId
  globalSeq : Nat
  lane : Nat
  positionId : ObjectId
  recipient : SuiAddress

structure TvWithdrawFulfilled where
  vaultId : ObjectId
  globalSeq : Nat
  lane : Nat
  recipient : SuiAddress
  tranche : Nat
  shares : Nat
  value : Nat
  basis : Nat
  trancheShares : Nat

structure TvPositionMinted where
  vaultId : ObjectId
  positionId : ObjectId
  tranche : Nat
  shares : Nat
  costBasis : Nat
  lockedUntilMs : Nat
  capitalGeneration : Nat

structure TvPositionSplit where
  vaultId : ObjectId
  parentId : ObjectId
  childId : ObjectId
  parentShares : Nat
  parentBasis : Nat
  childShares : Nat
  childBasis : Nat

structure TvPositionMerged where
  keptId : ObjectId
  mergedId : ObjectId
  shares : Nat
  costBasis : Nat
  lockedUntilMs : Nat

structure TvCapitalSynced where
  vaultId : ObjectId
  totalNav : Nat
  seniorNav : Nat
  juniorNav : Nat
  seniorClaim : Nat
  seniorShares : Nat
  juniorShares : Nat
  riskState : Nat
  activeJuniorGeneration : Nat
  curatorCommitmentBreached : Bool

structure TvRiskStateChanged where
  vaultId : ObjectId
  newState : Nat
  timestampMs : Nat

structure TvJuniorResetProposed where
  vaultId : ObjectId
  oldGeneration : Nat
  proposedAtMs : Nat
  executableAtMs : Nat
  totalNav : Nat
  seniorClaim : Nat
  requiredDeposit : Nat

structure TvJuniorResetExecuted where
  vaultId : ObjectId
  newGeneration : Nat
  recapitalizer : SuiAddress
  postJuniorNav : Nat

structure TvSettlementSnapshot where
  vaultId : ObjectId
  finalNav : Nat
  seniorPool : Nat
  seniorSupply : Nat
  juniorPool : Nat
  juniorSupply : Nat
  activeJuniorGeneration : Nat

structure TvSettlementRedeemed where
  vaultId : ObjectId
  positionId : ObjectId
  fromQueue : Bool
  globalSeq : Nat
  recipient : SuiAddress
  tranche : Nat
  entitlement : Nat

structure TvPositionStored where
  vaultId : ObjectId
  positionId : ObjectId
  adapter : AssetType

structure TvPositionAppraised where
  vaultId : ObjectId
  positionId : ObjectId
  value : Nat

/-- `TvExternalReleased` and `TvExternalReturned`; `TvExternalAccountSet` names an
account and no exposure. -/
structure TvExternalMoved where
  vaultId : ObjectId
  account : SuiAddress
  exposure : Nat

structure EquityPosted where
  vaultId : ObjectId
  poster : SuiAddress
  equity : Nat

structure RangeClosed where
  bucketId : ObjectId
  caller : SuiAddress

structure SpreadWritten where
  bucketId : ObjectId
  longBucketId : ObjectId
  writer : SuiAddress
  rangeStart : Nat
  rangeEnd : Nat

structure PutSpreadExercised where
  bucketId : ObjectId
  longBucketId : ObjectId
  exerciser : SuiAddress
  cursor : Nat

structure Filled where
  firstSide : SuiAddress
  secondSide : SuiAddress

inductive LogOnly where
  | feeUpdated | vaultPositionRedeemed | vaultConfigUpdated
  | tvCommitmentReleased | tvSettlementCuratorFeesClaimed | tvSessionSettled
  | tvDepositAssetAdded | tvDepositAssetRemoved | tvHaircutsSet | tvPayoutAssetAmended
  | tvExchangeCustodyCreated | tvVaultQuoteFilled | tvQuoteAdapterAdded | tvQuoteAdapterRemoved
  | tvAdapterAllowed | tvAdapterDisallowed | tvOracleAllowed | tvOracleDisallowed
  | tvProtocolConfigUpdated | tvCollateralReleased | tvCustodyCreated | tvPoolAllowed | tvPoolDisallowed
  | tvRfqOpened | tvRfqSettled | tvPositionRedeemed | tvMmCoinExercised | tvMmOffsetClosed
  | tvMmCoinReleased | tvTakerSwapExecuted | tvBidPlaced | tvBidReclaimed | tvBidRedeemed

inductive ChainEvent where
  | bucketCreated (b : BucketCreated)
  | writeExecuted (w : WriteExecuted)
  | exercised (e : Exercised)
  | redeemed (r : Redeemed)
  | expiredOptionBurned (bucketId : ObjectId) (burner : SuiAddress)
  | bucketCleaned (bucketId : ObjectId)
  | bucketInvalidated (i : BucketFlagged)
  | bucketRevalidated (r : BucketFlagged)
  | signerCreated (a : SignerCreated)
  | signingKeyRotated (r : SigningKeyRotated)
  | treasuryWithdrawn (recipient : SuiAddress)
  | deepBookPoolCreated (p : DeepBookPoolCreated)
  | deepBookOrderFilled (f : Filled)
  | optionMarketListed (m : OptionMarketListed)
  | exchangeOptionFill (f : Filled)
  | collateralizedWrite (w : CollateralizedWrite)
  | auctionCreated (a : AuctionCreated)
  | auctionBid (b : AuctionBid)
  | auctionSettled (s : AuctionSettled)
  | auctionUnfilled (auctionId : ObjectId)
  | rfqCreated (r : RfqCreated)
  | rfqSettled (s : RfqSettled)
  | rfqExpiredUnsold (e : RfqExpiredUnsold)
  | vaultRfqSettled (s : VaultRfqSettled)
  | vaultRfqUnsold (u : VaultRfqUnsold)
  | swapRfqSettled (s : SwapRfqSettled)
  | swapRfqUnfilled (u : SwapRfqUnfilled)
  | vaultCreated (v : VaultCreated)
  | vaultDeposit (d : ReceiptMoved)
  | instantWithdraw (w : ReceiptMoved)
  | sharesClaimed (c : ReceiptMoved)
  | withdrawInitiated (w : ReceiptMoved)
  | withdrawCompleted (w : ReceiptMoved)
  | vaultBucketSelected (s : VaultBucketSelected)
  | vaultFeesCharged (f : VaultFeesCharged)
  | vaultRoundFinalized (f : VaultRoundFinalized)
  | vaultDepositsPaused (vaultId : ObjectId) (paused : Bool)
  | vaultConfigApplied (c : VaultConfigApplied)
  | putBucketCreated (b : BucketCreated)
  | putWriteExecuted (w : WriteExecuted)
  | putExercised (e : Exercised)
  | putRedeemed (r : Redeemed)
  | putExpiredOptionBurned (bucketId : ObjectId) (burner : SuiAddress)
  | putBucketCleaned (bucketId : ObjectId)
  | putBucketInvalidated (i : BucketFlagged)
  | putBucketRevalidated (r : BucketFlagged)
  | putCollateralizedWrite (w : CollateralizedWrite)
  | putRfqCreated (r : RfqCreated)
  | putRfqSettled (s : RfqSettled)
  | putRfqExpiredUnsold (e : RfqExpiredUnsold)
  | tvVaultCreated (v : TvVaultCreated)
  | tvVaultClosing (vaultId : ObjectId)
  | tvVaultClosed (vaultId : ObjectId)
  | tvDepositsPaused (vaultId : ObjectId) (paused : Bool)
  | tvMmReleaseToggled (vaultId : ObjectId) (enabled : Bool)
  | tvCuratorRotated (r : TvCuratorRotated)
  | tvDeposited (d : TvDeposited)
  | tvWithdrawRequested (w : TvWithdrawRequested)
  | tvWithdrawFulfilled (w : TvWithdrawFulfilled)
  | tvPositionMinted (m : TvPositionMinted)
  | tvPositionSplit (s : TvPositionSplit)
  | tvPositionMerged (m : TvPositionMerged)
  | tvWipedPositionBurned (positionId : ObjectId)
  | tvCapitalSynced (c : TvCapitalSynced)
  | tvRiskStateChanged (r : TvRiskStateChanged)
  | tvJuniorResetProposed (p : TvJuniorResetProposed)
  | tvJuniorResetCancelled (vaultId : ObjectId)
  | tvJuniorResetExecuted (e : TvJuniorResetExecuted)
  | tvSettlementSnapshot (s : TvSettlementSnapshot)
  | tvSettlementRedeemed (r : TvSettlementRedeemed)
  | tvPositionStored (p : TvPositionStored)
  | tvPositionRemoved (vaultId positionId : ObjectId)
  | tvPositionAppraised (a : TvPositionAppraised)
  | tvVaultAppraised (vaultId : ObjectId) (totalValue : Nat)
  | tvExternalAccountSet (vaultId : ObjectId) (account : SuiAddress)
  | tvExternalAccountCleared (vaultId : ObjectId)
  | tvExternalReleased (r : TvExternalMoved)
  | tvExternalReturned (r : TvExternalMoved)
  | equityPosted (p : EquityPosted)
  | offsetClosed (c : RangeClosed) (isPut : Bool)
  | spreadWritten (w : SpreadWritten)
  | spreadUnwound (u : RangeClosed) (longBucketId : ObjectId)
  | spreadClosed (c : RangeClosed)
  | spreadRedeemed (r : RangeClosed)
  | putSpreadWritten (w : SpreadWritten)
  | putSpreadExercised (e : PutSpreadExercised)
  | putSpreadClosed (c : RangeClosed)
  | putSpreadRedeemed (r : RangeClosed)
  | volPosted (poster : SuiAddress)
  | logOnly (kind : LogOnly)

end SuiOptions.Indexer
