import SuiOptions.Exchange.CanonicalType
import SuiOptions.Indexer.Typed

/-! The rows of the tables: `db/models.rs` and the row functions of `store/mod.rs`.

Ids are text and large numbers decimals; words of 64 bits are stored in signed columns of
the same width. Reading a row checks its ids and decimals, and gives back the state that
was written. Text that a view holds as text is copied. -/

set_option autoImplicit false

namespace SuiOptions.Indexer

open Exchange (isAsciiHexdigit hexValue)
open Exchange.Path (hexValue_numeral)
open Move Text Words

abbrev Text := List Char

abbrev TxDigest := List Char

/-! ### Columns -/

inductive IdParseError where
  | notHex
  | wrongLength (got want : Nat)
  deriving DecidableEq

inductive RowError where
  | identifier (field : String) (text : Text) (e : IdParseError)
  | maybeIdentifier (field : String) (e : IdParseError)
  /-- A value that a word of the width does not hold. -/
  | doesntFit (value : Int) (width : Nat)
  | outOfRange (field : String) (value : Int)
  | invalidSigningScheme (value : Int) (account : Text)
  | unknownRfqStatus (tag : Text)
  deriving DecidableEq

@[simp] theorem ok_bind {α β : Type} (a : α) (f : α → Except RowError β) : (Except.ok a >>= f) = f a := rfl

def toHex (id : Nat) : Text := '0' :: 'x' :: numeral 16 lowerHex 64 id

def strip0x : Text → Text
  | '0' :: 'x' :: rest => rest
  | text => text

/-- `from_hex`: two digits a byte, in either case, and 32 bytes. -/
def fromHex (text : Text) : Except IdParseError Nat :=
  let stripped := strip0x text
  if stripped.all isAsciiHexdigit = false ∨ stripped.length % 2 = 1 then .error .notHex
  else if stripped.length / 2 ≠ 32 then .error (.wrongLength (stripped.length / 2) 32)
  else .ok (hexValue stripped)

def readId (field : String) (text : Text) : Except RowError Nat :=
  match fromHex text with
  | .ok id => .ok id
  | .error e => .error (.identifier field text e)

def readMaybeId (field : String) (text : Text) : Except RowError Nat :=
  match fromHex text with
  | .ok id => .ok id
  | .error e => .error (.maybeIdentifier field e)

/-- `map` and `transpose` -/
def readEach {α β : Type} (column : Option α) (read : α → Except RowError β) : Except RowError (Option β) :=
  match column with
  | none => .ok none
  | some value => (read value).map some

abbrev BigDecimal := Int

def u64ToBigdecimal (v : Nat) : BigDecimal := v

def u128ToBigdecimal (v : Nat) : BigDecimal := v

def bigdecimalTo (width : Nat) (v : BigDecimal) : Except RowError Nat :=
  if 0 ≤ v ∧ v < 2 ^ width then .ok v.toNat else .error (.doesntFit v width)

def bigdecimalToU64 (v : BigDecimal) : Except RowError Nat := bigdecimalTo 64 v

def bigdecimalToU128 (v : BigDecimal) : Except RowError Nat := bigdecimalTo 128 v

def asI64 (n : Nat) : Int := Int.bmod n (2 ^ 64)

def asI16 (n : Nat) : Int := Int.bmod n (2 ^ 16)

def asU64 (i : Int) : Nat := (i % 2 ^ 64).toNat

def asU8 (i : Int) : Nat := (i % 2 ^ 8).toNat

def tryU8 (field : String) (i : Int) : Except RowError Nat :=
  if 0 ≤ i ∧ i < 256 then .ok i.toNat else .error (.outOfRange field i)

def SigningScheme.asU8 : SigningScheme → Nat
  | .ed25519 => 0
  | .secp256k1 => 1
  | .secp256r1 => 2

def SigningScheme.fromU8 : Nat → Option SigningScheme
  | 0 => some .ed25519
  | 1 => some .secp256k1
  | 2 => some .secp256r1
  | _ => none

def readScheme (account : Text) (s : Int) : Except RowError SigningScheme :=
  match if 0 ≤ s ∧ s < 256 then SigningScheme.fromU8 s.toNat else none with
  | some scheme => .ok scheme
  | none => .error (.invalidSigningScheme s account)

def RfqStatus.tag : RfqStatus → Text
  | .isOpen => "open".toList
  | .settled => "settled".toList
  | .expiredUnsold => "expired_unsold".toList

def RfqStatus.fromStrTag (s : Text) : Except RowError RfqStatus :=
  if s = "open".toList then .ok .isOpen
  else if s = "settled".toList then .ok .settled
  else if s = "expired_unsold".toList then .ok .expiredUnsold
  else .error (.unknownRfqStatus s)

/-! ### What was written is read -/

section Columns

variable {field : String} {n : Nat} {o : Option Nat}

theorem toHex_digits (id : Nat) : (numeral 16 lowerHex 64 id).all isAsciiHexdigit = true := by
  have digits : ∀ d < 16, isAsciiHexdigit (lowerHex d) = true := by decide
  refine List.all_eq_true.mpr fun c member => ?_
  obtain ⟨d, small, rfl⟩ := mem_numeral (by decide) member
  exact digits d small

theorem fromHex_toHex (word : Word 256 n) : fromHex (toHex n) = .ok n := by
  have small : n < 16 ^ 64 := lt_of_lt_of_eq word (by decide)
  have length : (numeral 16 lowerHex 64 n).length = 64 := numeral_length ..
  simp only [fromHex, toHex, strip0x, toHex_digits, length, hexValue_numeral small]
  rfl

theorem toHex_inj {m : Nat} (first : Word 256 m) (second : Word 256 n) (same : toHex m = toHex n) : m = n := by
  have read := (fromHex_toHex first).symm.trans ((congrArg fromHex same).trans (fromHex_toHex second))
  exact Except.ok.inj read

theorem readId_toHex (word : Word 256 n) : readId field (toHex n) = .ok n := by
  rw [readId, fromHex_toHex word]

theorem readMaybeId_toHex (word : Word 256 n) : readMaybeId field (toHex n) = .ok n := by
  rw [readMaybeId, fromHex_toHex word]

theorem readEach_map {α β : Type} {column : Option β} {write : β → α} {read : α → Except RowError β}
    (each : ∀ b ∈ column, read (write b) = .ok b) : readEach (column.map write) read = .ok column := by
  cases column with
  | none => rfl
  | some b =>
    simp only [Option.map_some, readEach, each b rfl]
    rfl

theorem readEach_readId (words : MaybeWord 256 o) : readEach (o.map toHex) (readId field) = .ok o :=
  readEach_map fun _ member => readId_toHex (words _ member)

theorem readEach_toHex (words : MaybeWord 256 o) : readEach (o.map toHex) (readMaybeId field) = .ok o :=
  readEach_map fun _ member => readMaybeId_toHex (words _ member)

theorem bigdecimalTo_of {width : Nat} (word : Word width n) : bigdecimalTo width n = .ok n := by
  have small : (n : Int) < 2 ^ width := by exact_mod_cast word
  rw [bigdecimalTo, if_pos ⟨Int.natCast_nonneg n, small⟩, Int.toNat_natCast]

theorem bigdecimalToU64_of (word : Word 64 n) : bigdecimalToU64 (u64ToBigdecimal n) = .ok n := bigdecimalTo_of word

theorem bigdecimalToU128_of (word : Word 128 n) : bigdecimalToU128 (u128ToBigdecimal n) = .ok n :=
  bigdecimalTo_of word

theorem readEach_u64 (words : MaybeWord 64 o) : readEach (o.map u64ToBigdecimal) bigdecimalToU64 = .ok o :=
  readEach_map fun _ member => bigdecimalToU64_of (words _ member)

theorem readEach_u128 (words : MaybeWord 128 o) : readEach (o.map u128ToBigdecimal) bigdecimalToU128 = .ok o :=
  readEach_map fun _ member => bigdecimalToU128_of (words _ member)

theorem asU64_asI64 (word : Word 64 n) : asU64 (asI64 n) = n := by
  have small : n < 2 ^ 64 := word
  have width : (2 : Int) ^ 64 = (2 ^ 64 : Nat) := by norm_num
  unfold asU64 asI64
  rw [width, Int.bmod_emod, Int.emod_eq_of_lt (by omega) (by exact_mod_cast small), Int.toNat_natCast]

theorem map_asU64_asI64 (words : MaybeWord 64 o) : (o.map asI64).map asU64 = o := by
  cases o with
  | none => rfl
  | some n => rw [Option.map_some, Option.map_some, asU64_asI64 (words n rfl)]

theorem asI16_eq (word : Word 8 n) : asI16 n = n := by
  have small : n < 256 := word
  exact Int.bmod_eq_of_le (by omega) (by omega)

theorem asU8_asI16 (word : Word 8 n) : asU8 (asI16 n) = n := by
  have small : n < 256 := word
  rw [asI16_eq word, asU8]
  omega

theorem tryU8_asI16 (word : Word 8 n) : tryU8 field (asI16 n) = .ok n := by
  have small : n < 256 := word
  rw [asI16_eq word, tryU8, if_pos ⟨by omega, by omega⟩, Int.toNat_natCast]

theorem readEach_tryU8 (words : MaybeWord 8 o) : readEach (o.map asI16) (tryU8 field) = .ok o :=
  readEach_map fun _ member => tryU8_asI16 (words _ member)

theorem readEach_readScheme {account : Text} {scheme : Option SigningScheme} :
    readEach (scheme.map fun s => asI16 s.asU8) (readScheme account) = .ok scheme :=
  readEach_map fun s _ => by cases s <;> rfl

theorem RfqStatus.fromStrTag_tag (status : RfqStatus) : fromStrTag status.tag = .ok status := by
  cases status <;> rfl

end Columns

/-! ### Rows -/

structure AccountRow where
  accountId : Text
  owner : Option Text
  signingPubkey : List UInt8
  signingScheme : Option Int
  updatedAtSeq : Nat
  deriving DecidableEq

def accountRow (id : ObjectId) (state : AccountState) (sequence : Nat) : AccountRow where
  accountId := toHex id
  owner := state.owner.map toHex
  signingPubkey := state.signingPubkey
  signingScheme := state.signingScheme.map fun s => asI16 s.asU8
  updatedAtSeq := sequence

def AccountRow.intoState (row : AccountRow) : Except RowError (ObjectId × AccountState) := do
  let id ← readId "account_id" row.accountId
  let owner ← readEach row.owner (readId "owner")
  let signingScheme ← readEach row.signingScheme (readScheme row.accountId)
  return (id, {
    owner := owner
    signingPubkey := row.signingPubkey
    signingScheme := signingScheme })

theorem AccountRow.intoState_accountRow {id : ObjectId} {state : AccountState} {sequence : Nat}
    (known : Word 256 id) (fits : state.Fits) :
    (accountRow id state sequence).intoState = .ok (id, state) := by
  simp only [AccountRow.intoState, accountRow, readId_toHex known, readEach_readId fits.owner,
    readEach_readScheme, ok_bind]
  rfl

structure BucketRow where
  bucketId : Text
  assetType : AssetType
  settlementType : AssetType
  callType : AssetType
  strike : BigDecimal
  strikeScale : Int
  expiryMs : Int
  totalWritten : BigDecimal
  exerciseCursor : BigDecimal
  cleaned : Bool
  invalidated : Bool
  updatedAtSeq : Nat
  optionKind : OptionKind
  deriving DecidableEq

def bucketRow (id : ObjectId) (state : BucketState) (sequence : Nat) : BucketRow where
  bucketId := toHex id
  assetType := state.assetType
  settlementType := state.settlementType
  callType := state.callType
  strike := u128ToBigdecimal state.strike
  strikeScale := asI16 state.strikeScale
  expiryMs := asI64 state.expiryMs
  totalWritten := u128ToBigdecimal state.totalWritten
  exerciseCursor := u128ToBigdecimal state.exerciseCursor
  cleaned := state.cleaned
  invalidated := state.invalidated
  updatedAtSeq := sequence
  optionKind := state.optionKind

def BucketRow.intoState (row : BucketRow) : Except RowError (ObjectId × BucketState) := do
  let id ← readId "bucket_id" row.bucketId
  let strike ← bigdecimalToU128 row.strike
  let strikeScale ← tryU8 "strike_scale" row.strikeScale
  let totalWritten ← bigdecimalToU128 row.totalWritten
  let exerciseCursor ← bigdecimalToU128 row.exerciseCursor
  return (id, {
    assetType := row.assetType
    settlementType := row.settlementType
    callType := row.callType
    strike := strike
    strikeScale := strikeScale
    expiryMs := asU64 row.expiryMs
    totalWritten := totalWritten
    exerciseCursor := exerciseCursor
    cleaned := row.cleaned
    invalidated := row.invalidated
    optionKind := row.optionKind })

theorem BucketRow.intoState_bucketRow {id : ObjectId} {state : BucketState} {sequence : Nat}
    (known : Word 256 id) (fits : state.Fits) :
    (bucketRow id state sequence).intoState = .ok (id, state) := by
  simp only [BucketRow.intoState, bucketRow, readId_toHex known, bigdecimalToU128_of fits.strike,
    tryU8_asI16 fits.strikeScale, asU64_asI64 fits.expiryMs, bigdecimalToU128_of fits.totalWritten,
    bigdecimalToU128_of fits.exerciseCursor, ok_bind]
  rfl

structure DeepBookPoolRow where
  bucketId : Text
  poolId : Text
  baseAssetType : AssetType
  quoteAssetType : AssetType
  tickSize : Int
  lotSize : Int
  minSize : Int
  takerFee : Int
  makerFee : Int
  createdCheckpoint : Nat
  createdTimestampMs : Nat
  updatedAtSeq : Nat
  deriving DecidableEq

def deepbookPoolRow (p : DeepBookPoolCreated) (checkpoint timestampMs sequence : Nat) : DeepBookPoolRow where
  bucketId := toHex p.bucketId
  poolId := toHex p.poolId
  baseAssetType := p.baseAssetType
  quoteAssetType := p.quoteAssetType
  tickSize := asI64 p.tickSize
  lotSize := asI64 p.lotSize
  minSize := asI64 p.minSize
  takerFee := asI64 p.takerFee
  makerFee := asI64 p.makerFee
  createdCheckpoint := checkpoint
  createdTimestampMs := timestampMs
  updatedAtSeq := sequence

def DeepBookPoolRow.intoState (row : DeepBookPoolRow) : Except RowError (ObjectId × DeepBookPoolState) := do
  let bucket ← readId "deepbook bucket_id" row.bucketId
  let pool ← readId "deepbook pool_id" row.poolId
  return (bucket, {
    poolId := pool
    baseAssetType := row.baseAssetType
    quoteAssetType := row.quoteAssetType
    tickSize := asU64 row.tickSize
    lotSize := asU64 row.lotSize
    minSize := asU64 row.minSize
    takerFee := asU64 row.takerFee
    makerFee := asU64 row.makerFee })

theorem DeepBookPoolRow.intoState_deepbookPoolRow {p : DeepBookPoolCreated} {checkpoint timestampMs sequence : Nat}
    (known : Word 256 p.bucketId) (fits : p.toDeepBookPoolState.Fits) :
    (deepbookPoolRow p checkpoint timestampMs sequence).intoState = .ok (p.bucketId, p.toDeepBookPoolState) := by
  simp only [DeepBookPoolRow.intoState, deepbookPoolRow, readId_toHex known, readId_toHex fits.poolId,
    asU64_asI64 fits.tickSize, asU64_asI64 fits.lotSize, asU64_asI64 fits.minSize, asU64_asI64 fits.takerFee,
    asU64_asI64 fits.makerFee, ok_bind]
  rfl

structure ExchangeMarketLinkRow where
  bucketId : Text
  registryId : Text
  isPut : Bool
  updatedAtSeq : Nat
  deriving DecidableEq

def exchangeMarketRow (m : OptionMarketListed) (sequence : Nat) : ExchangeMarketLinkRow where
  bucketId := toHex m.bucket
  registryId := toHex m.registry
  isPut := m.isPut
  updatedAtSeq := sequence

def ExchangeMarketLinkRow.intoState (row : ExchangeMarketLinkRow) :
    Except RowError (ObjectId × ExchangeMarketState) := do
  let bucket ← readId "exchange market bucket_id" row.bucketId
  let registry ← readId "exchange market registry_id" row.registryId
  return (bucket, {
    registryId := registry
    isPut := row.isPut })

theorem ExchangeMarketLinkRow.intoState_exchangeMarketRow {m : OptionMarketListed} {sequence : Nat}
    (known : Word 256 m.bucket) (registry : Word 256 m.registry) :
    (exchangeMarketRow m sequence).intoState = .ok (m.bucket, ⟨m.registry, m.isPut⟩) := by
  simp only [ExchangeMarketLinkRow.intoState, exchangeMarketRow, readId_toHex known, readId_toHex registry, ok_bind]
  rfl

structure PositionRow where
  bucketId : Text
  rangeStart : BigDecimal
  rangeEnd : BigDecimal
  objectId : Text
  recipient : Text
  updatedAtSeq : Nat
  premiumReceived : BigDecimal
  mmAccountId : Text
  txDigest : TxDigest
  mintedAtMs : Int
  optionKind : OptionKind
  deriving DecidableEq

/-- `write_position_row` and `put_write_position_row` -/
def writePositionRow (w : WriteExecuted) (kind : OptionKind) (sequence : Nat) (txDigest : TxDigest)
    (mintedAtMs : Nat) : PositionRow where
  bucketId := toHex w.bucketId
  rangeStart := u128ToBigdecimal w.rangeStart
  rangeEnd := u128ToBigdecimal w.rangeEnd
  objectId := toHex w.positionId
  recipient := toHex w.positionRecipient
  updatedAtSeq := sequence
  premiumReceived := u64ToBigdecimal w.grossPremium
  mmAccountId := toHex w.signerId
  txDigest := txDigest
  mintedAtMs := asI64 mintedAtMs
  optionKind := kind

/-- `settled_position_row` and `put_settled_position_row`: no market maker is named. -/
def settledPositionRow (s : RfqSettled) (kind : OptionKind) (sequence : Nat) (txDigest : TxDigest)
    (mintedAtMs : Nat) : PositionRow where
  bucketId := toHex s.bucketId
  rangeStart := u128ToBigdecimal s.rangeStart
  rangeEnd := u128ToBigdecimal s.rangeEnd
  objectId := toHex s.positionId
  recipient := toHex s.positionRecipient
  updatedAtSeq := sequence
  premiumReceived := u64ToBigdecimal s.grossPremium
  mmAccountId := toHex ObjectId.zero
  txDigest := txDigest
  mintedAtMs := asI64 mintedAtMs
  optionKind := kind

/-- `vault_settled_position_row`: the vault id doubles as the recipient. -/
def vaultSettledPositionRow (s : VaultRfqSettled) (sequence : Nat) (txDigest : TxDigest)
    (mintedAtMs : Nat) : PositionRow where
  bucketId := toHex s.bucketId
  rangeStart := u128ToBigdecimal s.rangeStart
  rangeEnd := u128ToBigdecimal s.rangeEnd
  objectId := toHex s.positionId
  recipient := toHex s.vaultId
  updatedAtSeq := sequence
  premiumReceived := u64ToBigdecimal s.grossPremium
  mmAccountId := toHex ObjectId.zero
  txDigest := txDigest
  mintedAtMs := asI64 mintedAtMs
  optionKind := .call

def PositionRow.intoState (row : PositionRow) : Except RowError ((ObjectId × Nat) × PositionState) := do
  let bucket ← readId "bucket_id" row.bucketId
  let objectId ← readId "object_id" row.objectId
  let recipient ← readId "recipient" row.recipient
  let start ← bigdecimalToU128 row.rangeStart
  let rangeEnd ← bigdecimalToU128 row.rangeEnd
  return ((bucket, start), {
    bucketId := bucket
    objectId := objectId
    recipient := recipient
    rangeStart := start
    rangeEnd := rangeEnd
    optionKind := row.optionKind })

structure PositionRow.Shows (row : PositionRow) (p : PositionState) : Prop where
  bucketId : row.bucketId = toHex p.bucketId
  rangeStart : row.rangeStart = u128ToBigdecimal p.rangeStart
  rangeEnd : row.rangeEnd = u128ToBigdecimal p.rangeEnd
  objectId : row.objectId = toHex p.objectId
  recipient : row.recipient = toHex p.recipient
  optionKind : row.optionKind = p.optionKind

theorem PositionRow.Shows.intoState {row : PositionRow} {p : PositionState} (shows : row.Shows p) (fits : p.Fits) :
    row.intoState = .ok ((p.bucketId, p.rangeStart), p) := by
  simp only [PositionRow.intoState, shows.bucketId, shows.rangeStart, shows.rangeEnd, shows.objectId,
    shows.recipient,
    shows.optionKind, readId_toHex fits.bucketId, readId_toHex fits.objectId, readId_toHex fits.recipient,
    bigdecimalToU128_of fits.rangeStart, bigdecimalToU128_of fits.rangeEnd, ok_bind]
  rfl

structure RfqRow where
  rfqId : Text
  bucketId : Option Text
  origin : Text
  amount : BigDecimal
  reservePremium : BigDecimal
  deadlineMs : Int
  bestPremium : Option BigDecimal
  bestBidder : Option Text
  status : Text
  winner : Option Text
  netPremium : Option BigDecimal
  positionId : Option Text
  grossPremium : Option BigDecimal
  fee : Option BigDecimal
  updatedAtSeq : Nat
  auctionKind : AuctionKind
  metaId : Option Text
  deriving DecidableEq

def rfqRow (auctionId : ObjectId) (state : RfqState) (sequence : Nat) : RfqRow where
  rfqId := toHex auctionId
  bucketId := state.bucketId.map toHex
  origin := toHex state.origin
  amount := u64ToBigdecimal state.amount
  reservePremium := u64ToBigdecimal state.reservePremium
  deadlineMs := asI64 state.deadlineMs
  bestPremium := state.bestPremium.map u64ToBigdecimal
  bestBidder := state.bestBidder.map toHex
  status := state.status.tag
  winner := state.winner.map toHex
  netPremium := state.netPremium.map u64ToBigdecimal
  positionId := state.positionId.map toHex
  grossPremium := state.grossPremium.map u64ToBigdecimal
  fee := state.fee.map u64ToBigdecimal
  updatedAtSeq := sequence
  auctionKind := state.auctionKind
  metaId := state.metaId.map toHex

def RfqRow.intoState (row : RfqRow) : Except RowError (ObjectId × RfqState) := do
  let id ← readId "rfq_id" row.rfqId
  let metaId ← readEach row.metaId (readMaybeId "rfq meta_id")
  let bucketId ← readEach row.bucketId (readMaybeId "rfq bucket_id")
  let origin ← readId "rfq origin" row.origin
  let amount ← bigdecimalToU64 row.amount
  let reservePremium ← bigdecimalToU64 row.reservePremium
  let bestPremium ← readEach row.bestPremium bigdecimalToU64
  let bestBidder ← readEach row.bestBidder (readMaybeId ("rfq " ++ String.ofList row.rfqId ++ " address"))
  let status ← RfqStatus.fromStrTag row.status
  let winner ← readEach row.winner (readMaybeId ("rfq " ++ String.ofList row.rfqId ++ " address"))
  let netPremium ← readEach row.netPremium bigdecimalToU64
  let positionId ← readEach row.positionId (readMaybeId "rfq position_id")
  let grossPremium ← readEach row.grossPremium bigdecimalToU64
  let fee ← readEach row.fee bigdecimalToU64
  return (id, {
    metaId := metaId
    bucketId := bucketId
    origin := origin
    amount := amount
    reservePremium := reservePremium
    deadlineMs := asU64 row.deadlineMs
    bestPremium := bestPremium
    bestBidder := bestBidder
    status := status
    winner := winner
    netPremium := netPremium
    positionId := positionId
    grossPremium := grossPremium
    fee := fee
    auctionKind := row.auctionKind })

theorem RfqRow.intoState_rfqRow {id : ObjectId} {state : RfqState} {sequence : Nat}
    (known : Word 256 id) (fits : state.Fits) :
    (rfqRow id state sequence).intoState = .ok (id, state) := by
  simp only [RfqRow.intoState, rfqRow, readId_toHex known, RfqStatus.fromStrTag_tag, readEach_toHex fits.metaId,
    readEach_toHex fits.bucketId, readId_toHex fits.origin, bigdecimalToU64_of fits.amount,
    bigdecimalToU64_of fits.reservePremium, asU64_asI64 fits.deadlineMs, readEach_u64 fits.bestPremium,
    readEach_toHex fits.bestBidder, readEach_toHex fits.winner, readEach_u64 fits.netPremium,
    readEach_toHex fits.positionId, readEach_u64 fits.grossPremium, readEach_u64 fits.fee, ok_bind]
  rfl

structure VaultRow where
  vaultId : Text
  underlyingType : AssetType
  settlementType : AssetType
  shareType : AssetType
  round : Int
  currentBucket : Option Text
  latestPps : Option BigDecimal
  totalShares : BigDecimal
  pendingDeposits : BigDecimal
  depositsPaused : Bool
  updatedAtSeq : Nat
  mgmtFeeBpsAnnual : Option Int
  perfFeeBps : Option Int
  roundMs : Option Int
  sellingWindowMs : Option Int
  minStrikeBpsOverSpot : Option Int
  maxStrikeBpsOverSpot : Option Int
  deriving DecidableEq

def vaultRow (id : ObjectId) (state : VaultState) (sequence : Nat) : VaultRow where
  vaultId := toHex id
  underlyingType := state.underlyingType
  settlementType := state.settlementType
  shareType := state.shareType
  round := asI64 state.round
  currentBucket := state.currentBucket.map toHex
  latestPps := state.latestPps.map u128ToBigdecimal
  totalShares := u64ToBigdecimal state.totalShares
  pendingDeposits := u64ToBigdecimal state.pendingDeposits
  depositsPaused := state.depositsPaused
  updatedAtSeq := sequence
  mgmtFeeBpsAnnual := state.mgmtFeeBpsAnnual.map asI64
  perfFeeBps := state.perfFeeBps.map asI64
  roundMs := state.roundMs.map asI64
  sellingWindowMs := state.sellingWindowMs.map asI64
  minStrikeBpsOverSpot := state.minStrikeBpsOverSpot.map asI64
  maxStrikeBpsOverSpot := state.maxStrikeBpsOverSpot.map asI64

def VaultRow.intoState (row : VaultRow) : Except RowError (ObjectId × VaultState) := do
  let id ← readId "vault_id" row.vaultId
  let currentBucket ← readEach row.currentBucket (readMaybeId "vault current_bucket")
  let latestPps ← readEach row.latestPps bigdecimalToU128
  let totalShares ← bigdecimalToU64 row.totalShares
  let pendingDeposits ← bigdecimalToU64 row.pendingDeposits
  return (id, {
    underlyingType := row.underlyingType
    settlementType := row.settlementType
    shareType := row.shareType
    round := asU64 row.round
    currentBucket := currentBucket
    latestPps := latestPps
    totalShares := totalShares
    pendingDeposits := pendingDeposits
    depositsPaused := row.depositsPaused
    mgmtFeeBpsAnnual := row.mgmtFeeBpsAnnual.map asU64
    perfFeeBps := row.perfFeeBps.map asU64
    roundMs := row.roundMs.map asU64
    sellingWindowMs := row.sellingWindowMs.map asU64
    minStrikeBpsOverSpot := row.minStrikeBpsOverSpot.map asU64
    maxStrikeBpsOverSpot := row.maxStrikeBpsOverSpot.map asU64 })

theorem VaultRow.intoState_vaultRow {id : ObjectId} {state : VaultState} {sequence : Nat}
    (known : Word 256 id) (fits : state.Fits) :
    (vaultRow id state sequence).intoState = .ok (id, state) := by
  simp only [VaultRow.intoState, vaultRow, readId_toHex known, asU64_asI64 fits.round,
    readEach_toHex fits.currentBucket,
    readEach_u128 fits.latestPps, bigdecimalToU64_of fits.totalShares, bigdecimalToU64_of fits.pendingDeposits,
    map_asU64_asI64 fits.mgmtFeeBpsAnnual, map_asU64_asI64 fits.perfFeeBps, map_asU64_asI64 fits.roundMs,
    map_asU64_asI64 fits.sellingWindowMs, map_asU64_asI64 fits.minStrikeBpsOverSpot,
    map_asU64_asI64 fits.maxStrikeBpsOverSpot, ok_bind]
  rfl

structure VaultRoundRow where
  vaultId : Text
  round : Int
  bucketId : Option Text
  strike : Option BigDecimal
  strikeScale : Option Int
  expiryMs : Option Int
  pps : Option BigDecimal
  aum : Option BigDecimal
  shares : Option BigDecimal
  premiumCollected : Option BigDecimal
  mgmtFee : Option BigDecimal
  perfFee : Option BigDecimal
  finalizedAtMs : Option Int
  updatedAtSeq : Nat
  deriving DecidableEq

def vaultRoundRow (key : ObjectId × Nat) (state : VaultRoundState) (sequence : Nat) : VaultRoundRow where
  vaultId := toHex key.1
  round := asI64 key.2
  bucketId := state.bucketId.map toHex
  strike := state.strike.map u128ToBigdecimal
  strikeScale := state.strikeScale.map asI16
  expiryMs := state.expiryMs.map asI64
  pps := state.pps.map u128ToBigdecimal
  aum := state.aum.map u64ToBigdecimal
  shares := state.shares.map u64ToBigdecimal
  premiumCollected := state.premiumCollected.map u64ToBigdecimal
  mgmtFee := state.mgmtFee.map u64ToBigdecimal
  perfFee := state.perfFee.map u64ToBigdecimal
  finalizedAtMs := state.finalizedAtMs.map asI64
  updatedAtSeq := sequence

def VaultRoundRow.intoState (row : VaultRoundRow) : Except RowError ((ObjectId × Nat) × VaultRoundState) := do
  let id ← readId "round vault_id" row.vaultId
  let bucketId ← readEach row.bucketId (readMaybeId "round bucket_id")
  let strike ← readEach row.strike bigdecimalToU128
  let strikeScale ← readEach row.strikeScale (tryU8 "strike_scale")
  let pps ← readEach row.pps bigdecimalToU128
  let aum ← readEach row.aum bigdecimalToU64
  let shares ← readEach row.shares bigdecimalToU64
  let premiumCollected ← readEach row.premiumCollected bigdecimalToU64
  let mgmtFee ← readEach row.mgmtFee bigdecimalToU64
  let perfFee ← readEach row.perfFee bigdecimalToU64
  return ((id, asU64 row.round), {
    bucketId := bucketId
    strike := strike
    strikeScale := strikeScale
    expiryMs := row.expiryMs.map asU64
    pps := pps
    aum := aum
    shares := shares
    premiumCollected := premiumCollected
    mgmtFee := mgmtFee
    perfFee := perfFee
    finalizedAtMs := row.finalizedAtMs.map asU64 })

theorem VaultRoundRow.intoState_vaultRoundRow {key : ObjectId × Nat} {state : VaultRoundState} {sequence : Nat}
    (known : Word 256 key.1) (round : Word 64 key.2) (fits : state.Fits) :
    (vaultRoundRow key state sequence).intoState = .ok (key, state) := by
  simp only [VaultRoundRow.intoState, vaultRoundRow, readId_toHex known, asU64_asI64 round,
    readEach_toHex fits.bucketId,
    readEach_u128 fits.strike, readEach_tryU8 fits.strikeScale, map_asU64_asI64 fits.expiryMs,
    readEach_u128 fits.pps, readEach_u64 fits.aum, readEach_u64 fits.shares, readEach_u64 fits.premiumCollected,
    readEach_u64 fits.mgmtFee, readEach_u64 fits.perfFee, map_asU64_asI64 fits.finalizedAtMs, ok_bind]
  rfl

structure VaultReceiptRow where
  vaultId : Text
  owner : SuiAddress
  round : Int
  kind : ReceiptKind
  amount : BigDecimal
  settled : BigDecimal
  updatedAtSeq : Nat
  deriving DecidableEq

def receiptRow (key : ReceiptKey) (state : ReceiptState) (sequence : Nat) : VaultReceiptRow where
  vaultId := toHex key.1
  owner := key.2.1
  round := asI64 key.2.2.1
  kind := key.2.2.2
  amount := u64ToBigdecimal state.amount
  settled := u64ToBigdecimal state.settled
  updatedAtSeq := sequence

def VaultReceiptRow.intoState (row : VaultReceiptRow) : Except RowError (ReceiptKey × ReceiptState) := do
  let id ← readId "receipt vault_id" row.vaultId
  let amount ← bigdecimalToU64 row.amount
  let settled ← bigdecimalToU64 row.settled
  return ((id, row.owner, asU64 row.round, row.kind), {
    amount := amount
    settled := settled })

theorem VaultReceiptRow.intoState_receiptRow {key : ReceiptKey} {state : ReceiptState} {sequence : Nat}
    (known : Word 256 key.1) (round : Word 64 key.2.2.1) (fits : state.Fits) :
    (receiptRow key state sequence).intoState = .ok (key, state) := by
  simp only [VaultReceiptRow.intoState, receiptRow, readId_toHex known, asU64_asI64 round,
    bigdecimalToU64_of fits.amount,
    bigdecimalToU64_of fits.settled, ok_bind]
  rfl

structure TradingVaultRow where
  vaultId : Text
  accountingAsset : AssetType
  creator : Text
  curator : Text
  curatorCapId : Text
  state : TradingVaultStatus
  lockupMs : Int
  curatorFeeBps : Int
  unwindGraceMs : Int
  depositsPaused : Bool
  mmReleaseEnabled : Bool
  totalShares : BigDecimal
  positionCount : Int
  pendingWithdrawals : Int
  latestPpsE12 : Option BigDecimal
  updatedAtSeq : Nat
  updatedAtMs : Int
  externalAccount : Option SuiAddress
  externalExposure : Int
  latestExternalEquity : Option Int
  externalEquityUpdatedAtMs : Option Int
  latestNav : Option BigDecimal
  navUpdatedAtMs : Option Int
  structureCode : Int
  seniorHurdleBpsAnnual : Int
  targetJuniorBps : Int
  maintenanceJuniorBps : Int
  upsideCode : Int
  residualParticipationBps : Int
  totalReturnCapBps : Int
  termsVersion : Int
  specHash : Option (List UInt8)
  seniorShares : BigDecimal
  juniorShares : BigDecimal
  seniorClaim : BigDecimal
  seniorPrincipalBasis : BigDecimal
  seniorNav : Option BigDecimal
  juniorNav : Option BigDecimal
  latestSeniorPpsE12 : Option BigDecimal
  latestJuniorPpsE12 : Option BigDecimal
  riskState : Int
  curatorCommitmentBreached : Bool
  impairedSinceMs : Option Int
  activeJuniorGeneration : Int
  resetOldGeneration : Option Int
  resetProposedAtMs : Option Int
  resetExecutableAtMs : Option Int
  resetRecordedNav : Option BigDecimal
  resetRecordedSeniorClaim : Option BigDecimal
  resetRecordedRequiredDeposit : Option Int
  settled : Bool
  settlementFinalNav : Option BigDecimal
  seniorPool : Option Int
  seniorSupply : Option BigDecimal
  juniorPool : Option Int
  juniorSupply : Option BigDecimal
  settlementSnapshotAtMs : Option Int
  settlementRedeemed : BigDecimal
  seniorLaneHead : Int
  seniorLaneTail : Int
  juniorLaneHead : Int
  juniorLaneTail : Int
  deriving DecidableEq

def tradingVaultRow (id : ObjectId) (state : TradingVaultState) (sequence : Nat) : TradingVaultRow where
  vaultId := toHex id
  accountingAsset := state.accountingAsset
  creator := toHex state.creator
  curator := toHex state.curator
  curatorCapId := toHex state.curatorCapId
  state := state.state
  lockupMs := asI64 state.lockupMs
  curatorFeeBps := asI64 state.curatorFeeBps
  unwindGraceMs := asI64 state.unwindGraceMs
  depositsPaused := state.depositsPaused
  mmReleaseEnabled := state.mmReleaseEnabled
  totalShares := u128ToBigdecimal state.totalShares
  positionCount := asI64 state.positionCount
  pendingWithdrawals := asI64 state.pendingWithdrawals
  latestPpsE12 := state.latestPpsE12.map u128ToBigdecimal
  updatedAtSeq := sequence
  updatedAtMs := asI64 state.updatedAtMs
  externalAccount := state.externalAccount
  externalExposure := asI64 state.externalExposure
  latestExternalEquity := state.latestExternalEquity.map asI64
  externalEquityUpdatedAtMs := state.externalEquityUpdatedAtMs.map asI64
  latestNav := state.latestNav.map u128ToBigdecimal
  navUpdatedAtMs := state.navUpdatedAtMs.map asI64
  structureCode := asI16 state.structureCode
  seniorHurdleBpsAnnual := asI64 state.seniorHurdleBpsAnnual
  targetJuniorBps := asI64 state.targetJuniorBps
  maintenanceJuniorBps := asI64 state.maintenanceJuniorBps
  upsideCode := asI16 state.upsideCode
  residualParticipationBps := asI64 state.residualParticipationBps
  totalReturnCapBps := asI64 state.totalReturnCapBps
  termsVersion := asI64 state.termsVersion
  specHash := state.specHash
  seniorShares := u128ToBigdecimal state.seniorShares
  juniorShares := u128ToBigdecimal state.juniorShares
  seniorClaim := u128ToBigdecimal state.seniorClaim
  seniorPrincipalBasis := u128ToBigdecimal state.seniorPrincipalBasis
  seniorNav := state.seniorNav.map u128ToBigdecimal
  juniorNav := state.juniorNav.map u128ToBigdecimal
  latestSeniorPpsE12 := state.latestSeniorPpsE12.map u128ToBigdecimal
  latestJuniorPpsE12 := state.latestJuniorPpsE12.map u128ToBigdecimal
  riskState := asI16 state.riskState
  curatorCommitmentBreached := state.curatorCommitmentBreached
  impairedSinceMs := state.impairedSinceMs.map asI64
  activeJuniorGeneration := asI64 state.activeJuniorGeneration
  resetOldGeneration := state.resetOldGeneration.map asI64
  resetProposedAtMs := state.resetProposedAtMs.map asI64
  resetExecutableAtMs := state.resetExecutableAtMs.map asI64
  resetRecordedNav := state.resetRecordedNav.map u128ToBigdecimal
  resetRecordedSeniorClaim := state.resetRecordedSeniorClaim.map u128ToBigdecimal
  resetRecordedRequiredDeposit := state.resetRecordedRequiredDeposit.map asI64
  settled := state.settled
  settlementFinalNav := state.settlementFinalNav.map u128ToBigdecimal
  seniorPool := state.seniorPool.map asI64
  seniorSupply := state.seniorSupply.map u128ToBigdecimal
  juniorPool := state.juniorPool.map asI64
  juniorSupply := state.juniorSupply.map u128ToBigdecimal
  settlementSnapshotAtMs := state.settlementSnapshotAtMs.map asI64
  settlementRedeemed := u128ToBigdecimal state.settlementRedeemed
  seniorLaneHead := asI64 state.seniorLaneHead
  seniorLaneTail := asI64 state.seniorLaneTail
  juniorLaneHead := asI64 state.juniorLaneHead
  juniorLaneTail := asI64 state.juniorLaneTail

def TradingVaultRow.intoState (row : TradingVaultRow) : Except RowError (ObjectId × TradingVaultState) := do
  let id ← readId "trading vault_id" row.vaultId
  let creator ← readId "trading vault creator" row.creator
  let curator ← readId "trading vault curator" row.curator
  let curatorCapId ← readId "trading vault curator_cap_id" row.curatorCapId
  let totalShares ← bigdecimalToU128 row.totalShares
  let latestPpsE12 ← readEach row.latestPpsE12 bigdecimalToU128
  let latestNav ← readEach row.latestNav bigdecimalToU128
  let seniorShares ← bigdecimalToU128 row.seniorShares
  let juniorShares ← bigdecimalToU128 row.juniorShares
  let seniorClaim ← bigdecimalToU128 row.seniorClaim
  let seniorPrincipalBasis ← bigdecimalToU128 row.seniorPrincipalBasis
  let seniorNav ← readEach row.seniorNav bigdecimalToU128
  let juniorNav ← readEach row.juniorNav bigdecimalToU128
  let latestSeniorPpsE12 ← readEach row.latestSeniorPpsE12 bigdecimalToU128
  let latestJuniorPpsE12 ← readEach row.latestJuniorPpsE12 bigdecimalToU128
  let resetRecordedNav ← readEach row.resetRecordedNav bigdecimalToU128
  let resetRecordedSeniorClaim ← readEach row.resetRecordedSeniorClaim bigdecimalToU128
  let settlementFinalNav ← readEach row.settlementFinalNav bigdecimalToU128
  let seniorSupply ← readEach row.seniorSupply bigdecimalToU128
  let juniorSupply ← readEach row.juniorSupply bigdecimalToU128
  let settlementRedeemed ← bigdecimalToU128 row.settlementRedeemed
  return (id, {
    accountingAsset := row.accountingAsset
    creator := creator
    curator := curator
    curatorCapId := curatorCapId
    state := row.state
    lockupMs := asU64 row.lockupMs
    curatorFeeBps := asU64 row.curatorFeeBps
    unwindGraceMs := asU64 row.unwindGraceMs
    depositsPaused := row.depositsPaused
    mmReleaseEnabled := row.mmReleaseEnabled
    totalShares := totalShares
    positionCount := asU64 row.positionCount
    pendingWithdrawals := asU64 row.pendingWithdrawals
    latestPpsE12 := latestPpsE12
    updatedAtMs := asU64 row.updatedAtMs
    externalAccount := row.externalAccount
    externalExposure := asU64 row.externalExposure
    latestExternalEquity := row.latestExternalEquity.map asU64
    externalEquityUpdatedAtMs := row.externalEquityUpdatedAtMs.map asU64
    latestNav := latestNav
    navUpdatedAtMs := row.navUpdatedAtMs.map asU64
    structureCode := asU8 row.structureCode
    seniorHurdleBpsAnnual := asU64 row.seniorHurdleBpsAnnual
    targetJuniorBps := asU64 row.targetJuniorBps
    maintenanceJuniorBps := asU64 row.maintenanceJuniorBps
    upsideCode := asU8 row.upsideCode
    residualParticipationBps := asU64 row.residualParticipationBps
    totalReturnCapBps := asU64 row.totalReturnCapBps
    termsVersion := asU64 row.termsVersion
    specHash := row.specHash
    seniorShares := seniorShares
    juniorShares := juniorShares
    seniorClaim := seniorClaim
    seniorPrincipalBasis := seniorPrincipalBasis
    seniorNav := seniorNav
    juniorNav := juniorNav
    latestSeniorPpsE12 := latestSeniorPpsE12
    latestJuniorPpsE12 := latestJuniorPpsE12
    riskState := asU8 row.riskState
    curatorCommitmentBreached := row.curatorCommitmentBreached
    impairedSinceMs := row.impairedSinceMs.map asU64
    activeJuniorGeneration := asU64 row.activeJuniorGeneration
    resetOldGeneration := row.resetOldGeneration.map asU64
    resetProposedAtMs := row.resetProposedAtMs.map asU64
    resetExecutableAtMs := row.resetExecutableAtMs.map asU64
    resetRecordedNav := resetRecordedNav
    resetRecordedSeniorClaim := resetRecordedSeniorClaim
    resetRecordedRequiredDeposit := row.resetRecordedRequiredDeposit.map asU64
    settled := row.settled
    settlementFinalNav := settlementFinalNav
    seniorPool := row.seniorPool.map asU64
    seniorSupply := seniorSupply
    juniorPool := row.juniorPool.map asU64
    juniorSupply := juniorSupply
    settlementSnapshotAtMs := row.settlementSnapshotAtMs.map asU64
    settlementRedeemed := settlementRedeemed
    seniorLaneHead := asU64 row.seniorLaneHead
    seniorLaneTail := asU64 row.seniorLaneTail
    juniorLaneHead := asU64 row.juniorLaneHead
    juniorLaneTail := asU64 row.juniorLaneTail })

theorem TradingVaultRow.intoState_tradingVaultRow {id : ObjectId} {state : TradingVaultState} {sequence : Nat}
    (known : Word 256 id) (fits : state.Fits) :
    (tradingVaultRow id state sequence).intoState = .ok (id, state) := by
  simp only [TradingVaultRow.intoState, tradingVaultRow, readId_toHex known, readId_toHex fits.creator,
    readId_toHex fits.curator, readId_toHex fits.curatorCapId, asU64_asI64 fits.lockupMs,
    asU64_asI64 fits.curatorFeeBps, asU64_asI64 fits.unwindGraceMs, bigdecimalToU128_of fits.totalShares,
    asU64_asI64 fits.positionCount, asU64_asI64 fits.pendingWithdrawals, readEach_u128 fits.latestPpsE12,
    asU64_asI64 fits.updatedAtMs, asU64_asI64 fits.externalExposure, map_asU64_asI64 fits.latestExternalEquity,
    map_asU64_asI64 fits.externalEquityUpdatedAtMs, readEach_u128 fits.latestNav,
    map_asU64_asI64 fits.navUpdatedAtMs, asU8_asI16 fits.structureCode, asU64_asI64 fits.seniorHurdleBpsAnnual,
    asU64_asI64 fits.targetJuniorBps, asU64_asI64 fits.maintenanceJuniorBps, asU8_asI16 fits.upsideCode,
    asU64_asI64 fits.residualParticipationBps, asU64_asI64 fits.totalReturnCapBps, asU64_asI64 fits.termsVersion,
    bigdecimalToU128_of fits.seniorShares, bigdecimalToU128_of fits.juniorShares,
    bigdecimalToU128_of fits.seniorClaim, bigdecimalToU128_of fits.seniorPrincipalBasis,
    readEach_u128 fits.seniorNav, readEach_u128 fits.juniorNav, readEach_u128 fits.latestSeniorPpsE12,
    readEach_u128 fits.latestJuniorPpsE12, asU8_asI16 fits.riskState, map_asU64_asI64 fits.impairedSinceMs,
    asU64_asI64 fits.activeJuniorGeneration, map_asU64_asI64 fits.resetOldGeneration,
    map_asU64_asI64 fits.resetProposedAtMs, map_asU64_asI64 fits.resetExecutableAtMs,
    readEach_u128 fits.resetRecordedNav, readEach_u128 fits.resetRecordedSeniorClaim,
    map_asU64_asI64 fits.resetRecordedRequiredDeposit, readEach_u128 fits.settlementFinalNav,
    map_asU64_asI64 fits.seniorPool, readEach_u128 fits.seniorSupply, map_asU64_asI64 fits.juniorPool,
    readEach_u128 fits.juniorSupply, map_asU64_asI64 fits.settlementSnapshotAtMs,
    bigdecimalToU128_of fits.settlementRedeemed, asU64_asI64 fits.seniorLaneHead, asU64_asI64 fits.seniorLaneTail,
    asU64_asI64 fits.juniorLaneHead, asU64_asI64 fits.juniorLaneTail, ok_bind]
  rfl

structure VaultPositionRow where
  positionId : Text
  vaultId : Text
  tranche : Int
  capitalGeneration : Int
  shares : BigDecimal
  costBasis : BigDecimal
  lockedUntilMs : Int
  status : PositionStatus
  parentPositionId : Option Text
  mergedInto : Option Text
  queuedGlobalSeq : Option Int
  createdAtMs : Int
  updatedAtMs : Int
  updatedAtSeq : Nat
  deriving DecidableEq

def vaultPositionRow (id : ObjectId) (state : VaultPositionState) (sequence : Nat) : VaultPositionRow where
  positionId := toHex id
  vaultId := toHex state.vaultId
  tranche := asI16 state.tranche
  capitalGeneration := asI64 state.capitalGeneration
  shares := u128ToBigdecimal state.shares
  costBasis := u64ToBigdecimal state.costBasis
  lockedUntilMs := asI64 state.lockedUntilMs
  status := state.status
  parentPositionId := state.parentPositionId.map toHex
  mergedInto := state.mergedInto.map toHex
  queuedGlobalSeq := state.queuedGlobalSeq.map asI64
  createdAtMs := asI64 state.createdAtMs
  updatedAtMs := asI64 state.updatedAtMs
  updatedAtSeq := sequence

def VaultPositionRow.intoState (row : VaultPositionRow) : Except RowError (ObjectId × VaultPositionState) := do
  let position ← readId "vault position_id" row.positionId
  let vault ← readId "vault position vault_id" row.vaultId
  let shares ← bigdecimalToU128 row.shares
  let costBasis ← bigdecimalToU64 row.costBasis
  let parentPositionId ← readEach row.parentPositionId (readMaybeId "vault position parent_position_id")
  let mergedInto ← readEach row.mergedInto (readMaybeId "vault position merged_into")
  return (position, {
    vaultId := vault
    tranche := asU8 row.tranche
    capitalGeneration := asU64 row.capitalGeneration
    shares := shares
    costBasis := costBasis
    lockedUntilMs := asU64 row.lockedUntilMs
    status := row.status
    parentPositionId := parentPositionId
    mergedInto := mergedInto
    queuedGlobalSeq := row.queuedGlobalSeq.map asU64
    createdAtMs := asU64 row.createdAtMs
    updatedAtMs := asU64 row.updatedAtMs })

theorem VaultPositionRow.intoState_vaultPositionRow {id : ObjectId} {state : VaultPositionState} {sequence : Nat}
    (known : Word 256 id) (fits : state.Fits) :
    (vaultPositionRow id state sequence).intoState = .ok (id, state) := by
  simp only [VaultPositionRow.intoState, vaultPositionRow, readId_toHex known, readId_toHex fits.vaultId,
    asU8_asI16 fits.tranche, asU64_asI64 fits.capitalGeneration, bigdecimalToU128_of fits.shares,
    bigdecimalToU64_of fits.costBasis, asU64_asI64 fits.lockedUntilMs, readEach_toHex fits.parentPositionId,
    readEach_toHex fits.mergedInto, map_asU64_asI64 fits.queuedGlobalSeq, asU64_asI64 fits.createdAtMs,
    asU64_asI64 fits.updatedAtMs, ok_bind]
  rfl

structure TradingVaultPositionRow where
  vaultId : Text
  positionId : Text
  adapter : AssetType
  active : Bool
  storedAtMs : Int
  removedAtMs : Option Int
  updatedAtSeq : Nat
  lastValue : Option Int
  lastAppraisedAtMs : Option Int
  deriving DecidableEq

def tradingVaultPositionRow (key : ObjectId × ObjectId) (state : TradingVaultPositionState)
    (sequence : Nat) : TradingVaultPositionRow where
  vaultId := toHex key.1
  positionId := toHex key.2
  adapter := state.adapter
  active := state.active
  storedAtMs := asI64 state.storedAtMs
  removedAtMs := state.removedAtMs.map asI64
  updatedAtSeq := sequence
  lastValue := state.lastValue.map asI64
  lastAppraisedAtMs := state.lastAppraisedAtMs.map asI64

def TradingVaultPositionRow.intoState (row : TradingVaultPositionRow) :
    Except RowError ((ObjectId × ObjectId) × TradingVaultPositionState) := do
  let vault ← readId "tv position vault_id" row.vaultId
  let position ← readId "tv position_id" row.positionId
  return ((vault, position), {
    adapter := row.adapter
    active := row.active
    storedAtMs := asU64 row.storedAtMs
    removedAtMs := row.removedAtMs.map asU64
    lastValue := row.lastValue.map asU64
    lastAppraisedAtMs := row.lastAppraisedAtMs.map asU64 })

theorem TradingVaultPositionRow.intoState_tradingVaultPositionRow {key : ObjectId × ObjectId}
    {state : TradingVaultPositionState} {sequence : Nat}
    (vault : Word 256 key.1) (position : Word 256 key.2) (fits : state.Fits) :
    (tradingVaultPositionRow key state sequence).intoState = .ok (key, state) := by
  simp only [TradingVaultPositionRow.intoState, tradingVaultPositionRow, readId_toHex vault, readId_toHex position,
    asU64_asI64 fits.storedAtMs, map_asU64_asI64 fits.removedAtMs, map_asU64_asI64 fits.lastValue,
    map_asU64_asI64 fits.lastAppraisedAtMs, ok_bind]
  rfl

end SuiOptions.Indexer
