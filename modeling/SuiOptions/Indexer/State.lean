import SuiOptions.Lib.BTreeMap
import SuiOptions.Lib.Words
import SuiOptions.Move.Runtime

/-! The materialised views of the indexer: `store/mod.rs`.

An object id or address is the number its 32 bytes spell, so that maps order ids
as the source does; hexadecimal columns and keys hold the id itself. Words are
natural numbers and the saturating operations name their width. -/

set_option autoImplicit false

namespace SuiOptions.Indexer

open Move

abbrev ObjectId := Nat

abbrev SuiAddress := Nat

abbrev AssetType := List Char

def ObjectId.zero : ObjectId := 0

inductive OptionKind where
  | call | put
  deriving DecidableEq, Repr

inductive AuctionKind where
  | call | put | swap | unknown
  deriving DecidableEq, Repr

inductive SigningScheme where
  | ed25519 | secp256k1 | secp256r1
  deriving DecidableEq, Repr

structure AccountState where
  owner : Option SuiAddress
  signingPubkey : List UInt8
  signingScheme : Option SigningScheme
  deriving DecidableEq

def AccountState.default : AccountState := ⟨none, [], none⟩

structure BucketState where
  assetType : AssetType
  settlementType : AssetType
  callType : AssetType
  strike : Nat
  strikeScale : Nat
  expiryMs : Nat
  totalWritten : Nat
  exerciseCursor : Nat
  cleaned : Bool
  invalidated : Bool
  optionKind : OptionKind
  deriving DecidableEq

structure DeepBookPoolState where
  poolId : ObjectId
  baseAssetType : AssetType
  quoteAssetType : AssetType
  tickSize : Nat
  lotSize : Nat
  minSize : Nat
  takerFee : Nat
  makerFee : Nat
  deriving DecidableEq

structure ExchangeMarketState where
  registryId : ObjectId
  isPut : Bool
  deriving DecidableEq

structure PositionState where
  bucketId : ObjectId
  objectId : ObjectId
  recipient : SuiAddress
  rangeStart : Nat
  rangeEnd : Nat
  optionKind : OptionKind
  deriving DecidableEq

inductive RfqStatus where
  | isOpen | settled | expiredUnsold
  deriving DecidableEq, Repr

structure RfqState where
  metaId : Option ObjectId
  bucketId : Option ObjectId
  origin : ObjectId
  amount : Nat
  reservePremium : Nat
  deadlineMs : Nat
  bestPremium : Option Nat
  bestBidder : Option SuiAddress
  status : RfqStatus
  winner : Option SuiAddress
  netPremium : Option Nat
  positionId : Option ObjectId
  grossPremium : Option Nat
  fee : Option Nat
  auctionKind : AuctionKind
  deriving DecidableEq

def RfqState.blank : RfqState where
  metaId := none
  bucketId := none
  origin := ObjectId.zero
  amount := 0
  reservePremium := 0
  deadlineMs := 0
  bestPremium := none
  bestBidder := none
  status := .isOpen
  winner := none
  netPremium := none
  positionId := none
  grossPremium := none
  fee := none
  auctionKind := .unknown

structure VaultState where
  underlyingType : AssetType
  settlementType : AssetType
  shareType : AssetType
  round : Nat
  currentBucket : Option ObjectId
  latestPps : Option Nat
  totalShares : Nat
  pendingDeposits : Nat
  depositsPaused : Bool
  mgmtFeeBpsAnnual : Option Nat
  perfFeeBps : Option Nat
  roundMs : Option Nat
  sellingWindowMs : Option Nat
  minStrikeBpsOverSpot : Option Nat
  maxStrikeBpsOverSpot : Option Nat
  deriving DecidableEq

structure VaultRoundState where
  bucketId : Option ObjectId
  strike : Option Nat
  strikeScale : Option Nat
  expiryMs : Option Nat
  pps : Option Nat
  aum : Option Nat
  shares : Option Nat
  premiumCollected : Option Nat
  mgmtFee : Option Nat
  perfFee : Option Nat
  finalizedAtMs : Option Nat
  deriving DecidableEq

def VaultRoundState.default : VaultRoundState :=
  ⟨none, none, none, none, none, none, none, none, none, none, none⟩

structure ReceiptState where
  amount : Nat
  settled : Nat
  deriving DecidableEq

def ReceiptState.default : ReceiptState := ⟨0, 0⟩

abbrev ReceiptKind := Bool

def receiptDeposit : ReceiptKind := false

def receiptWithdraw : ReceiptKind := true

abbrev ReceiptKey := ObjectId × SuiAddress × Nat × ReceiptKind

instance : Std.TransOrd ReceiptKey := inferInstance

def shareOffset : Nat := 1000000

def ppsScale : Nat := 1000000000000

inductive TradingVaultStatus where
  | isOpen | closing | closed
  deriving DecidableEq, Repr

structure TradingVaultState where
  accountingAsset : AssetType
  creator : SuiAddress
  curator : SuiAddress
  curatorCapId : ObjectId
  state : TradingVaultStatus
  lockupMs : Nat
  curatorFeeBps : Nat
  unwindGraceMs : Nat
  depositsPaused : Bool
  mmReleaseEnabled : Bool
  totalShares : Nat
  positionCount : Nat
  pendingWithdrawals : Nat
  latestPpsE12 : Option Nat
  updatedAtMs : Nat
  externalAccount : Option SuiAddress
  externalExposure : Nat
  latestExternalEquity : Option Nat
  externalEquityUpdatedAtMs : Option Nat
  latestNav : Option Nat
  navUpdatedAtMs : Option Nat
  structureCode : Nat
  seniorHurdleBpsAnnual : Nat
  targetJuniorBps : Nat
  maintenanceJuniorBps : Nat
  upsideCode : Nat
  residualParticipationBps : Nat
  totalReturnCapBps : Nat
  termsVersion : Nat
  specHash : Option (List UInt8)
  seniorShares : Nat
  juniorShares : Nat
  seniorClaim : Nat
  seniorPrincipalBasis : Nat
  seniorNav : Option Nat
  juniorNav : Option Nat
  latestSeniorPpsE12 : Option Nat
  latestJuniorPpsE12 : Option Nat
  riskState : Nat
  curatorCommitmentBreached : Bool
  impairedSinceMs : Option Nat
  activeJuniorGeneration : Nat
  resetOldGeneration : Option Nat
  resetProposedAtMs : Option Nat
  resetExecutableAtMs : Option Nat
  resetRecordedNav : Option Nat
  resetRecordedSeniorClaim : Option Nat
  resetRecordedRequiredDeposit : Option Nat
  settled : Bool
  settlementFinalNav : Option Nat
  seniorPool : Option Nat
  seniorSupply : Option Nat
  juniorPool : Option Nat
  juniorSupply : Option Nat
  settlementSnapshotAtMs : Option Nat
  settlementRedeemed : Nat
  seniorLaneHead : Nat
  seniorLaneTail : Nat
  juniorLaneHead : Nat
  juniorLaneTail : Nat

def trancheUntranched : Nat := 0

def trancheSenior : Nat := 1

def trancheJunior : Nat := 2

def laneSenior : Nat := 0

def riskImpaired : Nat := 2

inductive PositionStatus where
  | live | queued | consumed | settled | burned
  deriving DecidableEq, Repr

structure VaultPositionState where
  vaultId : ObjectId
  tranche : Nat
  capitalGeneration : Nat
  shares : Nat
  costBasis : Nat
  lockedUntilMs : Nat
  status : PositionStatus
  parentPositionId : Option ObjectId
  mergedInto : Option ObjectId
  queuedGlobalSeq : Option Nat
  createdAtMs : Nat
  updatedAtMs : Nat
  deriving DecidableEq

structure TradingVaultPositionState where
  adapter : AssetType
  active : Bool
  storedAtMs : Nat
  removedAtMs : Option Nat
  lastValue : Option Nat
  lastAppraisedAtMs : Option Nat
  deriving DecidableEq

/-- The maps of `Inner`; what `hydrate` replaces. -/
@[ext]
structure Views where
  accounts : BTreeMap ObjectId AccountState
  buckets : BTreeMap ObjectId BucketState
  positions : BTreeMap (ObjectId × Nat) PositionState
  deepbookPools : BTreeMap ObjectId DeepBookPoolState
  exchangeMarkets : BTreeMap ObjectId ExchangeMarketState
  rfqs : BTreeMap ObjectId RfqState
  vaults : BTreeMap ObjectId VaultState
  vaultRounds : BTreeMap (ObjectId × Nat) VaultRoundState
  vaultReceipts : BTreeMap ReceiptKey ReceiptState
  tradingVaults : BTreeMap ObjectId TradingVaultState
  tradingVaultPositions : BTreeMap (ObjectId × ObjectId) TradingVaultPositionState
  vaultPositions : BTreeMap ObjectId VaultPositionState

def Views.default : Views := ⟨∅, ∅, ∅, ∅, ∅, ∅, ∅, ∅, ∅, ∅, ∅, ∅⟩

structure Inner extends Views where
  nextSequence : Nat

def Inner.default : Inner := { Views.default with nextSequence := 1 }

end SuiOptions.Indexer
