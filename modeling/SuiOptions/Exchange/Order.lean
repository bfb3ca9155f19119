import SuiOptions.Move.Runtime

/-! Signed orders: `order.move`, with the BCS readers it is written in.

An order is never stored. It is decoded from the bytes of the call, hashed
together with the registry it is signed for, and checked against a signature.
The hash and the two signature schemes are functions of the virtual machine and
stay parameters.
-/

set_option autoImplicit false

namespace SuiOptions.Exchange

open Execution Move

abbrev Bytes := List UInt8

abbrev Address := BitVec 256

/-- Membership tests on addresses and identifiers all run on this instance. -/
instance : LawfulBEq Address := inferInstance

/-- `sui::object::ID`, an address of its own. -/
abbrev ID := BitVec 256

/-- The abort codes of the exchange package and of what it calls. -/
inductive Error where
  -- `settlement.move`
  | paused | tokenMismatch | expired | takerRestricted | senderRestricted | badManager | saltVoided | cancelled
  | alreadyFilled | badSignature | zeroFill | slippage | notMaker | watermarkRegression | notCrossing
  | limitViolated | coinBelowMin | wrongEscrow | legAmountMismatch | alreadyProvided | alreadyCollected
  | notProvided | obligationIncomplete | registryMismatch | selfMatch
  -- `registry.move`
  | feeTooHigh | overfill
  -- `balance_manager.move`
  | notOwner | insufficientEscrow | tooManySigners | alreadyApproved | notApproved | depositRestricted | wrongCap
  -- `order.move`
  | trailingBytes | badSignatureLength | badPublicKeyLength | unsupportedScheme | notLowS
  -- `whitelist.move`
  | ingressPaused | ingressRestricted
  -- the framework: `bcs`, `string`, `address`, `balance`, `vec_set`, and what a transaction may not do
  | outOfRange | lenOutOfRange | invalidUtf8 | addressParse | notEnough | keyAlreadyExists | keyDoesNotExist
  | noSuchObject | aliasedObject | objectExists | openObligation | clockBackwards
  deriving DecidableEq, Repr

structure Natives where
  blake2b256 : Bytes → Bytes
  ed25519Verify : Bytes → Bytes → Bytes → Bool
  secp256k1Verify : Bytes → Bytes → Bytes → UInt8 → Bool

structure Order where
  makerToken : String
  takerToken : String
  makerAmount : UInt64
  takerAmount : UInt64
  maxFeeBps : UInt64
  maker : Address
  makerManagerId : ID
  taker : Address
  sender : Address
  expiryMs : UInt64
  salt : UInt64
  deriving DecidableEq

/-! ### Reading BCS -/

def ofLittleEndian : Bytes → Nat
  | [] => 0
  | byte :: rest => byte.toNat + 256 * ofLittleEndian rest

def ofBigEndian (bytes : Bytes) : Nat := ofLittleEndian bytes.reverse

/-- The first `count` bytes and the rest. -/
def peel (count : Nat) (bytes : Bytes) : Result Error (Bytes × Bytes) := do
  check (count ≤ bytes.length) .outOfRange
  pure (bytes.take count, bytes.drop count)

/-- The groups of seven bits of a length prefix, at most `room` of them. -/
def peelLengthGroups : Nat → Nat → Bytes → Result Error (Nat × Bytes)
  | 0, _, _ => .error (.code .lenOutOfRange)
  | _ + 1, _, [] => .error (.code .outOfRange)
  | room + 1, shift, byte :: rest =>
    let low := (byte.toNat % 128) * 2 ^ shift
    if byte.toNat < 128 then .ok (low, rest)
    else do
      let (high, rest) ← peelLengthGroups room (shift + 7) rest
      pure (low + high, rest)

/-- `bcs::peel_vec_u8`, with at most `groups` bytes of length. -/
def peelVecU8In (groups : Nat) (bytes : Bytes) : Result Error (Bytes × Bytes) := do
  let (length, rest) ← peelLengthGroups groups 0 bytes
  peel length rest

def peelU64 (bytes : Bytes) : Result Error (UInt64 × Bytes) := do
  let (word, rest) ← peel 8 bytes
  pure (UInt64.ofNat (ofLittleEndian word), rest)

def peelAddress (bytes : Bytes) : Result Error (Address × Bytes) := do
  let (word, rest) ← peel 32 bytes
  pure (BitVec.ofNat 256 (ofBigEndian word), rest)

def utf8 (bytes : Bytes) : Result Error String :=
  match String.fromUTF8? ⟨bytes.toArray⟩ with
  | some text => .ok text
  | none => .error (.code .invalidUtf8)

/-- `from_bytes`, with at most `groups` bytes for the length of a string. -/
def fromBytesIn (groups : Nat) (bytes : Bytes) : Result Error Order := do
  let (makerToken, rest) ← peelVecU8In groups bytes
  let makerToken ← utf8 makerToken
  let (takerToken, rest) ← peelVecU8In groups rest
  let takerToken ← utf8 takerToken
  let (makerAmount, rest) ← peelU64 rest
  let (takerAmount, rest) ← peelU64 rest
  let (maxFeeBps, rest) ← peelU64 rest
  let (maker, rest) ← peelAddress rest
  let (makerManagerId, rest) ← peelAddress rest
  let (taker, rest) ← peelAddress rest
  let (sender, rest) ← peelAddress rest
  let (expiryMs, rest) ← peelU64 rest
  let (salt, rest) ← peelU64 rest
  check (rest = []) .trailingBytes
  pure { makerToken, takerToken, makerAmount, takerAmount, maxFeeBps, maker, makerManagerId, taker, sender,
         expiryMs, salt }

/-- `bcs::peel_vec_length` reads five bytes at most. -/
def fromBytes (bytes : Bytes) : Result Error Order := fromBytesIn 5 bytes

/-! ### Writing BCS, and the digest -/

/-- The `count` low bytes of a number, least significant first. -/
def littleEndian : Nat → Nat → Bytes
  | 0, _ => []
  | count + 1, value => UInt8.ofNat (value % 256) :: littleEndian count (value / 256)

/-- A length prefix; `room` bounds its bytes, and ten are enough for 64 bits. -/
def lengthGroups : Nat → Nat → Bytes
  | 0, _ => []
  | room + 1, length =>
    if length < 128 then [UInt8.ofNat length]
    else UInt8.ofNat (length % 128 + 128) :: lengthGroups room (length / 128)

def vecBytes (bytes : Bytes) : Bytes := lengthGroups 10 bytes.length ++ bytes

def stringBytes (text : String) : Bytes := vecBytes text.toByteArray.data.toList

def u64Bytes (value : UInt64) : Bytes := littleEndian 8 value.toNat

def addressBytes (address : Address) : Bytes := (littleEndian 32 address.toNat).reverse

/-- `bcs::to_bytes(order)` -/
def Order.toBytes (order : Order) : Bytes :=
  stringBytes order.makerToken ++ stringBytes order.takerToken ++ u64Bytes order.makerAmount ++
    u64Bytes order.takerAmount ++ u64Bytes order.maxFeeBps ++ addressBytes order.maker ++
    addressBytes order.makerManagerId ++ addressBytes order.taker ++ addressBytes order.sender ++
    u64Bytes order.expiryMs ++ u64Bytes order.salt

def domainTag : Bytes := "SUI_HYBRID_EXCHANGE_ORDER".toByteArray.data.toList

def domainVersion : UInt8 := 1

def digestPreimage (order : Order) (registryId : ID) : Bytes :=
  domainTag ++ [domainVersion] ++ addressBytes registryId ++ order.toBytes

/-- The digest covers the canonical bytes of the order, whatever bytes it was decoded from. -/
def digest (natives : Natives) (order : Order) (registryId : ID) : Bytes :=
  natives.blake2b256 (digestPreimage order registryId)

/-! ### Signatures -/

def schemeEd25519 : UInt8 := 0x00

def schemeSecp256k1 : UInt8 := 0x01

def k1HashSha256 : UInt8 := 1

def intentPersonalMessage : Bytes := [0x03, 0x00, 0x00]

def secp256k1HalfOrder : Bytes :=
  [0x7f, 0xff, 0xff, 0xff, 0xff, 0xff, 0xff, 0xff, 0xff, 0xff, 0xff, 0xff, 0xff, 0xff, 0xff, 0xff,
   0x5d, 0x57, 0x6e, 0x73, 0x57, 0xa4, 0x50, 0x1d, 0xdf, 0xe9, 0x2f, 0x46, 0x68, 0x1b, 0x20, 0xa0]

def personalMessageDigest (natives : Natives) (message : Bytes) : Bytes :=
  natives.blake2b256 (intentPersonalMessage ++ vecBytes message)

/-- `address::from_bytes` takes exactly 32 bytes. -/
def addressOfBytes (bytes : Bytes) : Result Error Address := do
  check (bytes.length = 32) .addressParse
  pure (BitVec.ofNat 256 (ofBigEndian bytes))

def deriveAddress (natives : Natives) (flag : UInt8) (publicKey : Bytes) : Result Error Address :=
  addressOfBytes (natives.blake2b256 (flag :: publicKey))

/-- The byte-wise comparison of two strings of one length; equal strings pass. -/
def bytesLe : Bytes → Bytes → Bool
  | s :: left, h :: right => if s < h then true else if h < s then false else bytesLe left right
  | _, _ => true

def isLowS (sig64 : Bytes) : Bool := bytesLe (sig64.drop 32) secp256k1HalfOrder

def verifySignature (natives : Natives) (digest signature publicKey : Bytes) : Result Error (Bool × Address) := do
  check (signature.length = 65) .badSignatureLength
  let scheme := signature.headD 0
  let sig := signature.tail
  let signingDigest := personalMessageDigest natives digest
  if scheme = schemeEd25519 then
    check (publicKey.length = 32) .badPublicKeyLength
    let signer ← deriveAddress natives scheme publicKey
    pure (natives.ed25519Verify sig publicKey signingDigest, signer)
  else if scheme = schemeSecp256k1 then
    check (publicKey.length = 33) .badPublicKeyLength
    check (isLowS sig = true) .notLowS
    let signer ← deriveAddress natives scheme publicKey
    pure (natives.secp256k1Verify sig publicKey signingDigest k1HashSha256, signer)
  else .error (.code .unsupportedScheme)

end SuiOptions.Exchange
