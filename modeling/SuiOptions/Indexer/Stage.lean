import SuiOptions.Indexer.Rows

/-! What a checkpoint persists: `stage_batch`, `apply_checkpoint` and `hydrate`.

A table is a map from its primary key, taken before the ids in it become text: `toHex`
keeps them apart. What is read back is the columns. -/

set_option autoImplicit false

namespace SuiOptions.Indexer

structure RfqBidRow where
  rfqId : Text
  sequence : Nat
  bidder : Text
  callRecipient : Text
  premium : BigDecimal
  auctionKind : AuctionKind
  deriving DecidableEq

structure IndexedEventRow where
  sequence : Nat
  checkpoint : Nat
  txDigest : TxDigest
  eventIndex : Nat
  timestampMs : Nat
  payload : ChainEvent

inductive Role where
  | positionRecipient | callTokenRecipient | putTokenRecipient | signerTokenRecipient | executor | signerAccountOwner
  | exerciser | redeemer | burner | admin | accountOwner | treasuryRecipient | writer | bidder | tokenRecipient | winner
  | callRecipient | putRecipient | depositor | owner | deepbookTakerBm | deepbookMakerBm | maker | taker | creator
  | curator | withdrawer | recapitalizer | externalAccount | poster | closer | caller
  deriving DecidableEq, Repr

structure EventParticipantRow where
  sequence : Nat
  address : Text
  role : Role
  deriving DecidableEq

structure CheckpointBatch where
  checkpoint : Nat
  lastSequence : Nat
  events : List IndexedEventRow
  accounts : List (ObjectId × AccountRow)
  buckets : List (ObjectId × BucketRow)
  deepbookPools : List (ObjectId × DeepBookPoolRow)
  exchangeMarkets : List (ObjectId × ExchangeMarketLinkRow)
  positionUpserts : List ((ObjectId × Nat) × PositionRow)
  positionDeletes : List (ObjectId × Nat)
  eventParticipants : List EventParticipantRow
  rfqs : List (ObjectId × RfqRow)
  rfqBids : List RfqBidRow
  vaults : List (ObjectId × VaultRow)
  vaultRounds : List ((ObjectId × Nat) × VaultRoundRow)
  vaultReceipts : List (ReceiptKey × VaultReceiptRow)
  tradingVaults : List (ObjectId × TradingVaultRow)
  tradingVaultPositions : List ((ObjectId × ObjectId) × TradingVaultPositionRow)
  vaultPositions : List (ObjectId × VaultPositionRow)

def CheckpointBatch.empty (checkpoint lastSequence : Nat) : CheckpointBatch where
  checkpoint := checkpoint
  lastSequence := lastSequence
  events := []
  accounts := []
  buckets := []
  deepbookPools := []
  exchangeMarkets := []
  positionUpserts := []
  positionDeletes := []
  eventParticipants := []
  rfqs := []
  rfqBids := []
  vaults := []
  vaultRounds := []
  vaultReceipts := []
  tradingVaults := []
  tradingVaultPositions := []
  vaultPositions := []

/-- The snapshot of one entry of a view; an absent entry stages nothing. -/
def snapshot {κ σ ρ : Type} [Ord κ] [Std.TransOrd κ] (row : κ → σ → Nat → ρ) (view : BTreeMap κ σ) (key : κ)
    (sequence : Nat) : List (κ × ρ) :=
  match view.get? key with
  | some state => [(key, row key state sequence)]
  | none => []

section Staging

variable (inner : Views) (sequence : Nat) (batch : CheckpointBatch)

def stageAccount (accountId : ObjectId) : CheckpointBatch :=
  { batch with accounts := batch.accounts ++ snapshot accountRow inner.accounts accountId sequence }

def stageBucket (bucketId : ObjectId) : CheckpointBatch :=
  { batch with buckets := batch.buckets ++ snapshot bucketRow inner.buckets bucketId sequence }

def stageRfq (auctionId : ObjectId) : CheckpointBatch :=
  { batch with rfqs := batch.rfqs ++ snapshot rfqRow inner.rfqs auctionId sequence }

def stageVault (vaultId : ObjectId) : CheckpointBatch :=
  { batch with vaults := batch.vaults ++ snapshot vaultRow inner.vaults vaultId sequence }

def stageVaultRound (vaultId : ObjectId) (round : Nat) : CheckpointBatch :=
  { batch with vaultRounds := batch.vaultRounds ++ snapshot vaultRoundRow inner.vaultRounds (vaultId, round) sequence }

def stageReceipt (m : ReceiptMoved) (kind : ReceiptKind) : CheckpointBatch :=
  { batch with vaultReceipts :=
      batch.vaultReceipts ++ snapshot receiptRow inner.vaultReceipts (m.vaultId, m.owner, m.round, kind) sequence }

def stageTradingVault (vaultId : ObjectId) : CheckpointBatch :=
  { batch with tradingVaults := batch.tradingVaults ++ snapshot tradingVaultRow inner.tradingVaults vaultId sequence }

def stageTradingVaultPosition (vaultId positionId : ObjectId) : CheckpointBatch :=
  { batch with tradingVaultPositions :=
      batch.tradingVaultPositions ++ snapshot tradingVaultPositionRow inner.tradingVaultPositions (vaultId, positionId) sequence }

def stageVaultPosition (positionId : ObjectId) : CheckpointBatch :=
  { batch with vaultPositions := batch.vaultPositions ++ snapshot vaultPositionRow inner.vaultPositions positionId sequence }

def stagePosition (key : ObjectId × Nat) (row : PositionRow) : CheckpointBatch :=
  { batch with positionUpserts := batch.positionUpserts ++ [(key, row)] }

def stageDelete (bucketId : ObjectId) (rangeStart : Nat) : CheckpointBatch :=
  { batch with positionDeletes := batch.positionDeletes ++ [(bucketId, rangeStart)] }

/-- Staged only when the recorded pool is the event's: the first pool wins. -/
def stagePool (p : DeepBookPoolCreated) (timestampMs : Nat) : CheckpointBatch :=
  if (inner.deepbookPools.get? p.bucketId).map (·.poolId) = some p.poolId then
    { batch with deepbookPools := batch.deepbookPools ++
        [(p.bucketId, deepbookPoolRow p batch.checkpoint timestampMs sequence)] }
  else batch

def stageMarket (m : OptionMarketListed) : CheckpointBatch :=
  if (inner.exchangeMarkets.get? m.bucket).map (·.registryId) = some m.registry then
    { batch with exchangeMarkets := batch.exchangeMarkets ++ [(m.bucket, exchangeMarketRow m sequence)] }
  else batch

def stageBid (b : AuctionBid) : CheckpointBatch :=
  { batch with rfqBids := batch.rfqBids ++
      [⟨toHex b.auctionId, sequence, toHex b.bidder, toHex b.tokenRecipient, u64ToBigdecimal b.amount,
        ((inner.rfqs.get? b.auctionId).map (·.auctionKind)).getD .unknown⟩] }

end Staging

/-- `stage_event_into_batch`, called with the views as `apply_event` left them. -/
def stageEventIntoBatch (inner : Views) (sequence : Nat) (txDigest : TxDigest) (timestampMs : Nat)
    (batch : CheckpointBatch) : ChainEvent → CheckpointBatch
  | .bucketCreated b => stageBucket inner sequence batch b.bucketId
  | .writeExecuted w =>
    stagePosition (stageBucket inner sequence batch w.bucketId) (w.bucketId, w.rangeStart)
      (writePositionRow w .call sequence txDigest timestampMs)
  | .exercised e => stageBucket inner sequence batch e.bucketId
  | .redeemed r => stageDelete batch r.bucketId r.rangeStart
  | .bucketCleaned bucketId => stageBucket inner sequence batch bucketId
  | .bucketInvalidated i => stageBucket inner sequence batch i.bucketId
  | .bucketRevalidated r => stageBucket inner sequence batch r.bucketId
  | .signerCreated a => stageAccount inner sequence batch a.signerId
  | .signingKeyRotated r => stageAccount inner sequence batch r.signerId
  | .deepBookPoolCreated p => stagePool inner sequence batch p timestampMs
  | .optionMarketListed m => stageMarket inner sequence batch m
  | .collateralizedWrite w => stageBucket inner sequence batch w.bucketId
  | .auctionCreated a => stageRfq inner sequence batch a.auctionId
  | .auctionBid b => stageBid inner sequence (stageRfq inner sequence batch b.auctionId) b
  | .auctionSettled s => stageRfq inner sequence batch s.auctionId
  | .auctionUnfilled auctionId => stageRfq inner sequence batch auctionId
  | .rfqCreated r => stageRfq inner sequence batch r.auctionId
  | .rfqSettled s =>
    stagePosition (stageRfq inner sequence batch s.auctionId) (s.bucketId, s.rangeStart)
      (settledPositionRow s .call sequence txDigest timestampMs)
  | .rfqExpiredUnsold e => stageRfq inner sequence batch e.auctionId
  | .vaultRfqSettled s =>
    stagePosition (stageRfq inner sequence batch s.auctionId) (s.bucketId, s.rangeStart)
      (vaultSettledPositionRow s sequence txDigest timestampMs)
  | .vaultRfqUnsold u => stageRfq inner sequence batch u.auctionId
  | .swapRfqSettled s => stageRfq inner sequence batch s.swapId
  | .swapRfqUnfilled u => stageRfq inner sequence batch u.swapId
  | .vaultCreated v => stageVault inner sequence batch v.vaultId
  | .vaultDeposit d => stageReceipt inner sequence (stageVault inner sequence batch d.vaultId) d receiptDeposit
  | .instantWithdraw w => stageReceipt inner sequence (stageVault inner sequence batch w.vaultId) w receiptDeposit
  | .sharesClaimed c => stageReceipt inner sequence batch c receiptDeposit
  | .withdrawInitiated w => stageReceipt inner sequence batch w receiptWithdraw
  | .withdrawCompleted w => stageReceipt inner sequence batch w receiptWithdraw
  | .vaultBucketSelected s =>
    stageVaultRound inner sequence (stageVault inner sequence batch s.vaultId) s.vaultId s.round
  | .vaultFeesCharged f => stageVaultRound inner sequence batch f.vaultId f.round
  | .vaultRoundFinalized f =>
    stageVaultRound inner sequence (stageVault inner sequence batch f.vaultId) f.vaultId f.round
  | .vaultDepositsPaused vaultId _ => stageVault inner sequence batch vaultId
  | .vaultConfigApplied c => stageVault inner sequence batch c.vaultId
  | .putBucketCreated b => stageBucket inner sequence batch b.bucketId
  | .putWriteExecuted w =>
    stagePosition (stageBucket inner sequence batch w.bucketId) (w.bucketId, w.rangeStart)
      (writePositionRow w .put sequence txDigest timestampMs)
  | .putExercised e => stageBucket inner sequence batch e.bucketId
  | .putRedeemed r => stageDelete batch r.bucketId r.rangeStart
  | .putBucketCleaned bucketId => stageBucket inner sequence batch bucketId
  | .putBucketInvalidated i => stageBucket inner sequence batch i.bucketId
  | .putBucketRevalidated r => stageBucket inner sequence batch r.bucketId
  | .putCollateralizedWrite w => stageBucket inner sequence batch w.bucketId
  | .putRfqCreated r => stageRfq inner sequence batch r.auctionId
  | .putRfqSettled s =>
    stagePosition (stageRfq inner sequence batch s.auctionId) (s.bucketId, s.rangeStart)
      (settledPositionRow s .put sequence txDigest timestampMs)
  | .putRfqExpiredUnsold e => stageRfq inner sequence batch e.auctionId
  | .tvVaultCreated v => stageTradingVault inner sequence batch v.vaultId
  | .tvVaultClosing vaultId => stageTradingVault inner sequence batch vaultId
  | .tvVaultClosed vaultId => stageTradingVault inner sequence batch vaultId
  | .tvDepositsPaused vaultId _ => stageTradingVault inner sequence batch vaultId
  | .tvMmReleaseToggled vaultId _ => stageTradingVault inner sequence batch vaultId
  | .tvCuratorRotated r => stageTradingVault inner sequence batch r.vaultId
  | .tvDeposited d => stageTradingVault inner sequence batch d.vaultId
  | .tvWithdrawRequested w =>
    stageVaultPosition inner sequence (stageTradingVault inner sequence batch w.vaultId) w.positionId
  | .tvWithdrawFulfilled w =>
    let batch := stageTradingVault inner sequence batch w.vaultId
    -- The fulfilment looks its position up once more, by the recorded sequence.
    match queuedPosition inner w.vaultId w.globalSeq with
    | some positionId => stageVaultPosition inner sequence batch positionId
    | none => batch
  | .tvPositionMinted m => stageVaultPosition inner sequence batch m.positionId
  | .tvPositionSplit s =>
    stageVaultPosition inner sequence (stageVaultPosition inner sequence batch s.parentId) s.childId
  | .tvPositionMerged m =>
    stageVaultPosition inner sequence (stageVaultPosition inner sequence batch m.keptId) m.mergedId
  | .tvWipedPositionBurned positionId => stageVaultPosition inner sequence batch positionId
  | .tvCapitalSynced c => stageTradingVault inner sequence batch c.vaultId
  | .tvRiskStateChanged r => stageTradingVault inner sequence batch r.vaultId
  | .tvJuniorResetProposed p => stageTradingVault inner sequence batch p.vaultId
  | .tvJuniorResetCancelled vaultId => stageTradingVault inner sequence batch vaultId
  | .tvJuniorResetExecuted e => stageTradingVault inner sequence batch e.vaultId
  | .tvSettlementSnapshot s => stageTradingVault inner sequence batch s.vaultId
  | .tvSettlementRedeemed r =>
    stageVaultPosition inner sequence (stageTradingVault inner sequence batch r.vaultId) r.positionId
  | .tvPositionStored p =>
    stageTradingVaultPosition inner sequence (stageTradingVault inner sequence batch p.vaultId) p.vaultId p.positionId
  | .tvPositionRemoved vaultId positionId =>
    stageTradingVaultPosition inner sequence (stageTradingVault inner sequence batch vaultId) vaultId positionId
  | .tvPositionAppraised a => stageTradingVaultPosition inner sequence batch a.vaultId a.positionId
  | .tvVaultAppraised vaultId _ => stageTradingVault inner sequence batch vaultId
  | .tvExternalAccountSet vaultId _ => stageTradingVault inner sequence batch vaultId
  | .tvExternalAccountCleared vaultId => stageTradingVault inner sequence batch vaultId
  | .tvExternalReleased r => stageTradingVault inner sequence batch r.vaultId
  | .tvExternalReturned r => stageTradingVault inner sequence batch r.vaultId
  | .equityPosted p => stageTradingVault inner sequence batch p.vaultId
  | .expiredOptionBurned _ _ | .putExpiredOptionBurned _ _ | .treasuryWithdrawn _ | .deepBookOrderFilled _
  | .exchangeOptionFill _ | .offsetClosed _ _ | .spreadWritten _ | .spreadUnwound _ _ | .spreadClosed _
  | .spreadRedeemed _ | .putSpreadWritten _ | .putSpreadExercised _ | .putSpreadClosed _ | .putSpreadRedeemed _
  | .volPosted _ | .logOnly _ => batch

def accountOwner (inner : Views) (accountId : ObjectId) : Option SuiAddress :=
  (inner.accounts.get? accountId).bind (·.owner)

/-- `collect_participants`: the addresses an event touches, each with its role. -/
def participants (inner : Views) : ChainEvent → List (SuiAddress × Role)
  | .writeExecuted w =>
    [(w.positionRecipient, .positionRecipient), (w.coinRecipient, .callTokenRecipient),
      (w.signerTokenRecipient, .signerTokenRecipient), (w.executor, .executor)] ++
    (accountOwner inner w.signerId).toList.map fun owner => (owner, .signerAccountOwner)
  | .exercised e => [(e.exerciser, .exerciser)]
  | .redeemed r => [(r.redeemer, .redeemer)]
  | .expiredOptionBurned _ burner => [(burner, .burner)]
  | .bucketInvalidated i => [(i.admin, .admin)]
  | .bucketRevalidated r => [(r.admin, .admin)]
  | .signerCreated a => [(a.owner, .accountOwner)]
  | .signingKeyRotated r => (accountOwner inner r.signerId).toList.map fun owner => (owner, .accountOwner)
  | .treasuryWithdrawn recipient => [(recipient, .treasuryRecipient)]
  | .collateralizedWrite w => [(w.writer, .writer)]
  | .auctionBid b => [(b.bidder, .bidder), (b.tokenRecipient, .tokenRecipient)]
  | .auctionSettled s => [(s.bidder, .winner), (s.tokenRecipient, .tokenRecipient)]
  | .rfqSettled s =>
    [(s.winner, .winner), (s.coinRecipient, .callRecipient), (s.positionRecipient, .positionRecipient)]
  | .vaultRfqSettled s => [(s.winner, .winner), (s.callRecipient, .callRecipient)]
  | .vaultDeposit d => [(d.owner, .depositor)]
  | .sharesClaimed c => [(c.owner, .owner)]
  | .withdrawInitiated w => [(w.owner, .owner)]
  | .withdrawCompleted w => [(w.owner, .owner)]
  | .instantWithdraw w => [(w.owner, .owner)]
  | .swapRfqSettled s => [(s.winner, .winner)]
  | .deepBookOrderFilled f => [(f.firstSide, .deepbookTakerBm), (f.secondSide, .deepbookMakerBm)]
  | .exchangeOptionFill f => [(f.firstSide, .maker), (f.secondSide, .taker)]
  | .putWriteExecuted w =>
    [(w.positionRecipient, .positionRecipient), (w.coinRecipient, .putTokenRecipient),
      (w.signerTokenRecipient, .signerTokenRecipient), (w.executor, .executor)] ++
    (accountOwner inner w.signerId).toList.map fun owner => (owner, .signerAccountOwner)
  | .putExercised e => [(e.exerciser, .exerciser)]
  | .putRedeemed r => [(r.redeemer, .redeemer)]
  | .putExpiredOptionBurned _ burner => [(burner, .burner)]
  | .putBucketInvalidated i => [(i.admin, .admin)]
  | .putBucketRevalidated r => [(r.admin, .admin)]
  | .putCollateralizedWrite w => [(w.writer, .writer)]
  | .putRfqSettled s =>
    [(s.winner, .winner), (s.coinRecipient, .putRecipient), (s.positionRecipient, .positionRecipient)]
  | .tvVaultCreated v => [(v.creator, .creator), (v.creator, .curator)]
  | .tvDeposited d => [(d.depositor, .depositor)]
  | .tvWithdrawRequested w => [(w.recipient, .withdrawer)]
  | .tvWithdrawFulfilled w => [(w.recipient, .withdrawer)]
  | .tvCuratorRotated r => [(r.recipient, .curator)]
  | .tvJuniorResetExecuted r => [(r.recapitalizer, .recapitalizer)]
  | .tvSettlementRedeemed r => [(r.recipient, .redeemer)]
  | .tvExternalAccountSet _ account => [(account, .externalAccount)]
  | .tvExternalReleased r => [(r.account, .externalAccount)]
  | .tvExternalReturned r => [(r.account, .externalAccount)]
  | .equityPosted p => [(p.poster, .poster)]
  | .offsetClosed c _ => [(c.caller, .closer)]
  | .spreadWritten w => [(w.writer, .writer)]
  | .spreadUnwound u _ => [(u.caller, .caller)]
  | .spreadClosed c => [(c.caller, .closer)]
  | .spreadRedeemed r => [(r.caller, .redeemer)]
  | .putSpreadWritten w => [(w.writer, .writer)]
  | .putSpreadExercised e => [(e.exerciser, .exerciser)]
  | .putSpreadClosed c => [(c.caller, .closer)]
  | .putSpreadRedeemed r => [(r.caller, .redeemer)]
  | .volPosted poster => [(poster, .poster)]
  | _ => []

def collectParticipants (inner : Views) (event : ChainEvent) (sequence : Nat) (batch : CheckpointBatch) :
    CheckpointBatch :=
  { batch with eventParticipants := batch.eventParticipants ++
      (participants inner event).map fun (address, role) => ⟨sequence, toHex address, role⟩ }

structure DecodedEvent where
  event : ChainEvent
  txDigest : TxDigest
  eventIndex : Nat

structure Checkpoint where
  sequenceNumber : Nat
  timestampMs : Nat
  events : List DecodedEvent

/-- The body of the loop of `stage_batch`. -/
def stageEvent (timestampMs : Nat) (staged : Inner × CheckpointBatch) (e : DecodedEvent) : Inner × CheckpointBatch :=
  let (inner, batch) := staged
  let sequence := inner.nextSequence
  let views := applyEvent timestampMs inner.toViews e.event
  let batch := stageEventIntoBatch views sequence e.txDigest timestampMs batch e.event
  let batch := collectParticipants views e.event sequence batch
  ({ views with nextSequence := sequence + 1 },
    { batch with events :=
        batch.events ++ [⟨sequence, batch.checkpoint, e.txDigest, e.eventIndex, timestampMs, e.event⟩] })

def stageBatch (inner : Inner) (c : Checkpoint) : Inner × CheckpointBatch :=
  let (inner, batch) := c.events.foldl (stageEvent c.timestampMs) (inner, .empty c.sequenceNumber 0)
  (inner, { batch with lastSequence := inner.nextSequence - 1 })

structure ProgressRow where
  lastCheckpoint : Nat
  lastSequence : Nat
  deriving DecidableEq

structure Tables where
  events : List IndexedEventRow
  eventParticipants : List EventParticipantRow
  accounts : BTreeMap ObjectId AccountRow
  buckets : BTreeMap ObjectId BucketRow
  deepbookPools : BTreeMap ObjectId DeepBookPoolRow
  exchangeMarkets : BTreeMap ObjectId ExchangeMarketLinkRow
  positions : BTreeMap (ObjectId × Nat) PositionRow
  rfqs : BTreeMap ObjectId RfqRow
  rfqBids : List RfqBidRow
  vaults : BTreeMap ObjectId VaultRow
  vaultRounds : BTreeMap (ObjectId × Nat) VaultRoundRow
  vaultReceipts : BTreeMap ReceiptKey VaultReceiptRow
  tradingVaults : BTreeMap ObjectId TradingVaultRow
  tradingVaultPositions : BTreeMap (ObjectId × ObjectId) TradingVaultPositionRow
  vaultPositions : BTreeMap ObjectId VaultPositionRow
  progress : Option ProgressRow

def Tables.empty : Tables := ⟨[], [], ∅, ∅, ∅, ∅, ∅, ∅, [], ∅, ∅, ∅, ∅, ∅, ∅, none⟩

/-- Inserted unless the sequence or the place in the chain is taken. -/
def insertEvent (events : List IndexedEventRow) (row : IndexedEventRow) : List IndexedEventRow :=
  if events.any fun held => held.sequence = row.sequence ∨
      (held.checkpoint = row.checkpoint ∧ held.txDigest = row.txDigest ∧ held.eventIndex = row.eventIndex) then
    events
  else events ++ [row]

/-- A participant row refers to the event of its sequence: the insertion of a row
without one fails the transaction. -/
def insertParticipant (events : List IndexedEventRow) (rows : List EventParticipantRow) (row : EventParticipantRow) :
    Option (List EventParticipantRow) :=
  if row ∈ rows then some rows
  else if events.any fun held => held.sequence = row.sequence then some (rows ++ [row])
  else none

def insertBid (events : List IndexedEventRow) (rows : List RfqBidRow) (row : RfqBidRow) : Option (List RfqBidRow) :=
  if rows.any fun held => held.rfqId = row.rfqId ∧ held.sequence = row.sequence then some rows
  else if events.any fun held => held.sequence = row.sequence then some (rows ++ [row])
  else none

/-- `ON CONFLICT DO NOTHING` on the bucket and on the pool, whose bucket must have a row. -/
def insertPool (buckets : BTreeMap ObjectId BucketRow) (pools : BTreeMap ObjectId DeepBookPoolRow)
    (entry : ObjectId × DeepBookPoolRow) : Option (BTreeMap ObjectId DeepBookPoolRow) :=
  if (pools.get? entry.1).isSome ∨ (pools.find? fun _ row => row.poolId = entry.2.poolId).isSome then
    some pools
  else if (buckets.get? entry.1).isSome then some (pools.insert entry.1 entry.2)
  else none

def insertMarket (buckets : BTreeMap ObjectId BucketRow) (markets : BTreeMap ObjectId ExchangeMarketLinkRow)
    (entry : ObjectId × ExchangeMarketLinkRow) : Option (BTreeMap ObjectId ExchangeMarketLinkRow) :=
  if (markets.get? entry.1).isSome ∨
      (markets.find? fun _ row => row.registryId = entry.2.registryId).isSome then
    some markets
  else if (buckets.get? entry.1).isSome then some (markets.insert entry.1 entry.2)
  else none

/-- A conflict update that sets every column beside the key, which is the same. -/
def mergeAll {ρ : Type} (_ new : ρ) : ρ := new

def mergeBucket (held new : BucketRow) : BucketRow :=
  { held with
    totalWritten := new.totalWritten
    exerciseCursor := new.exerciseCursor
    cleaned := new.cleaned
    invalidated := new.invalidated
    updatedAtSeq := new.updatedAtSeq }

def mergePosition (held new : PositionRow) : PositionRow :=
  { held with
    rangeEnd := new.rangeEnd
    recipient := new.recipient
    updatedAtSeq := new.updatedAtSeq }

def mergeVault (held new : VaultRow) : VaultRow :=
  { held with
    round := new.round
    currentBucket := new.currentBucket
    latestPps := new.latestPps
    totalShares := new.totalShares
    pendingDeposits := new.pendingDeposits
    depositsPaused := new.depositsPaused
    updatedAtSeq := new.updatedAtSeq }

def mergeTradingVaultPosition (held new : TradingVaultPositionRow) : TradingVaultPositionRow :=
  { held with
    active := new.active
    removedAtMs := new.removedAtMs
    updatedAtSeq := new.updatedAtSeq
    lastValue := new.lastValue
    lastAppraisedAtMs := new.lastAppraisedAtMs }

def upserts {κ ρ : Type} [Ord κ] [Std.TransOrd κ] (merge : ρ → ρ → ρ) (table : BTreeMap κ ρ)
    (rows : List (κ × ρ)) : BTreeMap κ ρ :=
  rows.foldl (fun table entry => table.upsert entry.1 entry.2 merge) table

def persistPositions (table : BTreeMap (ObjectId × Nat) PositionRow) (rows : List ((ObjectId × Nat) × PositionRow))
    (deletes : List (ObjectId × Nat)) : BTreeMap (ObjectId × Nat) PositionRow :=
  deletes.foldl BTreeMap.remove (upserts mergePosition table rows)

/-- `apply_checkpoint`, one transaction: a failed statement leaves the tables as they
were. An empty batch only advances the progress. -/
def applyCheckpoint (tables : Tables) (batch : CheckpointBatch) : Option Tables := do
  let events := batch.events.foldl insertEvent tables.events
  let eventParticipants ← batch.eventParticipants.foldlM (insertParticipant events) tables.eventParticipants
  let buckets := upserts mergeBucket tables.buckets batch.buckets
  let deepbookPools ← batch.deepbookPools.foldlM (insertPool buckets) tables.deepbookPools
  let exchangeMarkets ← batch.exchangeMarkets.foldlM (insertMarket buckets) tables.exchangeMarkets
  let rfqBids ← batch.rfqBids.foldlM (insertBid events) tables.rfqBids
  return {
    events := events
    eventParticipants := eventParticipants
    accounts := upserts mergeAll tables.accounts batch.accounts
    buckets := buckets
    deepbookPools := deepbookPools
    exchangeMarkets := exchangeMarkets
    positions := persistPositions tables.positions batch.positionUpserts batch.positionDeletes
    rfqs := upserts mergeAll tables.rfqs batch.rfqs
    rfqBids := rfqBids
    vaults := upserts mergeVault tables.vaults batch.vaults
    vaultRounds := upserts mergeAll tables.vaultRounds batch.vaultRounds
    vaultReceipts := upserts mergeAll tables.vaultReceipts batch.vaultReceipts
    tradingVaults := upserts mergeAll tables.tradingVaults batch.tradingVaults
    tradingVaultPositions := upserts mergeTradingVaultPosition tables.tradingVaultPositions batch.tradingVaultPositions
    vaultPositions := upserts mergeAll tables.vaultPositions batch.vaultPositions
    progress := some ⟨batch.checkpoint, batch.lastSequence⟩ }

/-- The loop of `hydrate` over one table: each row goes under the key it reads as. -/
def hydrateRows {κ σ ρ : Type} [Ord κ] [Std.TransOrd κ] (intoState : ρ → Except RowError (κ × σ))
    (table : BTreeMap κ ρ) : Except RowError (BTreeMap κ σ) :=
  table.toList.foldlM (fun view entry => (intoState entry.2).map fun read => view.insert read.1 read.2) ∅

/-- `Repo::hydrate`: the first row that cannot be read ends it. -/
def Tables.hydrate (tables : Tables) : Except RowError Views := do
  let accounts ← hydrateRows AccountRow.intoState tables.accounts
  let buckets ← hydrateRows BucketRow.intoState tables.buckets
  let positions ← hydrateRows PositionRow.intoState tables.positions
  let deepbookPools ← hydrateRows DeepBookPoolRow.intoState tables.deepbookPools
  let exchangeMarkets ← hydrateRows ExchangeMarketLinkRow.intoState tables.exchangeMarkets
  let rfqs ← hydrateRows RfqRow.intoState tables.rfqs
  let vaults ← hydrateRows VaultRow.intoState tables.vaults
  let vaultRounds ← hydrateRows VaultRoundRow.intoState tables.vaultRounds
  let vaultReceipts ← hydrateRows VaultReceiptRow.intoState tables.vaultReceipts
  let tradingVaults ← hydrateRows TradingVaultRow.intoState tables.tradingVaults
  let tradingVaultPositions ← hydrateRows TradingVaultPositionRow.intoState tables.tradingVaultPositions
  let vaultPositions ← hydrateRows VaultPositionRow.intoState tables.vaultPositions
  return {
    accounts := accounts
    buckets := buckets
    positions := positions
    deepbookPools := deepbookPools
    exchangeMarkets := exchangeMarkets
    rfqs := rfqs
    vaults := vaults
    vaultRounds := vaultRounds
    vaultReceipts := vaultReceipts
    tradingVaults := tradingVaults
    tradingVaultPositions := tradingVaultPositions
    vaultPositions := vaultPositions }

/-- The indexer between two checkpoints: its memory and its database. -/
structure Worker where
  inner : Inner
  tables : Tables

def Worker.start : Worker := ⟨.default, .empty⟩

/-- `process_checkpoint` when the transaction commits. -/
def Worker.processCheckpoint (s : Worker) (c : Checkpoint) : Option Worker :=
  let (inner, batch) := stageBatch s.inner c
  (applyCheckpoint s.tables batch).map fun tables => ⟨inner, tables⟩

/-- A new process: `Store::hydrate` with the rows and the persisted progress. It does
not start where a row cannot be read. -/
def Worker.restart (s : Worker) : Except RowError Worker :=
  s.tables.hydrate.map fun views =>
    { s with inner := { views with nextSequence := (s.tables.progress.map (·.lastSequence)).getD 0 + 1 } }

def Worker.processAll (s : Worker) (checkpoints : List Checkpoint) : Option Worker :=
  checkpoints.foldlM Worker.processCheckpoint s

end SuiOptions.Indexer
