import SuiOptions.Lib.Table
import SuiOptions.Vault.Capital

/-! The trading vault: the data of `vault.move` and `vault_position.move`, its
free balances, and appraisals.

The vault is generic in the objects it custodies. Counters of operations are
natural numbers. The position objects of the vault are kept with it, in the
escrow of a curator cap or in a wallet.
-/

set_option autoImplicit false

namespace SuiOptions.Vault

open Execution Move
open Exchange (ID Address)

inductive VaultState where
  | opened
  | closing
  | closed
  deriving DecidableEq, Repr

def maxHaircutBps : Nat := 500

structure VaultConfig where
  accountingAsset : TypeName
  depositAssets : List TypeName
  lockupMs : Nat
  curatorFeeBps : Nat
  unwindGraceMs : Nat
  entryHaircutBps : Nat
  exitHaircutBps : Nat
  quoteAdapters : List TypeName
  depositsPaused : Bool
  mmReleaseEnabled : Bool
  -- checked where the three are set
  feeBound : curatorFeeBps ≤ bpsDenom
  entryBound : entryHaircutBps ≤ maxHaircutBps
  exitBound : exitHaircutBps ≤ maxHaircutBps

/-- The protocol's configuration, as far as the vault reads it. Its setters bound the fees. -/
structure VaultProtocolConfig where
  enforceCuratorShare : Bool
  maxCuratorFeeBps : Nat
  protocolFeeBps : Nat
  maxPriceAgeMs : Nat
  maxDepositAssets : Nat
  paused : Bool
  registrarPubkey : List UInt8
  maxSeniorHurdleBps : Nat
  minTargetJuniorBps : Nat
  minMaintenanceJuniorBps : Nat
  minCuratorCommitmentBps : Nat
  curatorFeeBound : maxCuratorFeeBps ≤ bpsDenom
  protocolFeeBound : protocolFeeBps ≤ bpsDenom

/-- A price statement; `attest`, its only maker, refuses a zero price. -/
structure PriceAttestation where
  asset : TypeName
  quoteAsset : TypeName
  price : Nat
  timestampMs : Nat
  positive : 0 < price

def priceScale : Nat := 10 ^ 12

def shareOffset : Nat := 1000000

/-! ### Claims -/

structure VaultPosition where
  id : ID
  tranche : Tranche
  shares : Nat
  costBasis : Nat
  lockedUntilMs : Nat
  capitalGeneration : Nat
  deriving DecidableEq, Repr

/-- Where a position object is. An escrow slot is keyed by curator cap and tranche. -/
inductive Place where
  | wallet
  | commitment (capId : ID) (tranche : Tranche)
  deriving DecidableEq, Repr

structure Held where
  position : VaultPosition
  place : Place
  deriving DecidableEq, Repr

structure WithdrawRequest where
  positionId : ID
  recipient : Address
  tranche : Tranche
  capitalGeneration : Nat
  shares : Nat
  basis : Nat
  payoutAsset : TypeName
  requestedAtMs : Nat
  laneIdx : Nat
  deriving DecidableEq, Repr

/-- Requests are queued in two lanes; untranched ones ride in the junior lane. -/
inductive LaneCode where
  | senior
  | junior
  deriving DecidableEq, Repr

def laneCodeOf (tranche : Tranche) : LaneCode := if tranche = .senior then .senior else .junior

/-- One withdrawal lane: lane indices to global sequence numbers. -/
structure Lane where
  entries : Table Nat Nat
  head : Nat
  tail : Nat

def Lane.empty : Lane := ⟨[], 0, 0⟩

def Lane.skip (lane : Lane) : Nat → Nat → Nat
  | 0, head => head
  | fuel + 1, head => if lane.entries.contains head then head else lane.skip fuel (head + 1)

def Lane.advanced (lane : Lane) : Lane := { lane with head := lane.skip (lane.tail - lane.head) lane.head }

/-- `lane_head_seq`: the sequence number of the first entry. -/
def Lane.headSeq (lane : Lane) : Option Nat := lane.entries.get? lane.advanced.head

/-- The requests by global sequence number, with the lanes that order them. -/
structure WithdrawQueue where
  requests : Table Nat WithdrawRequest
  lanes : LaneCode → Lane
  nextGlobalSeq : Nat
  distinct : requests.Distinct
  below : ∀ entry ∈ requests, entry.1 < nextGlobalSeq
  bounded : ∀ code, ∀ entry ∈ (lanes code).entries, entry.1 < (lanes code).tail
  entered : ∀ entry ∈ requests,
    (lanes (laneCodeOf entry.2.tranche)).entries.get? entry.2.laneIdx = some entry.1

namespace WithdrawQueue

def empty : WithdrawQueue where
  requests := []
  lanes _ := .empty
  nextGlobalSeq := 0
  distinct := List.nodup_nil
  below := by simp
  bounded := by simp [Lane.empty]
  entered := by simp

variable (q : WithdrawQueue)

def laneHeadSeq (code : LaneCode) : Option Nat := (q.lanes code).headSeq

def advanced : WithdrawQueue := { q with lanes := fun code => (q.lanes code).advanced }

def numbered (request : WithdrawRequest) : WithdrawRequest :=
  { request with laneIdx := (q.lanes (laneCodeOf request.tranche)).tail }

theorem tail_fresh (code : LaneCode) : (q.lanes code).entries.get? (q.lanes code).tail = none := by
  by_contra present
  obtain ⟨seq, found⟩ := Option.ne_none_iff_exists'.mp present
  exact Nat.lt_irrefl _ (q.bounded code _ (Table.mem_of_get? found))

def pushLane (code : LaneCode) : LaneCode → Lane :=
  Function.update q.lanes code
    ⟨(q.lanes code).entries.add (q.lanes code).tail q.nextGlobalSeq, (q.lanes code).head, (q.lanes code).tail + 1⟩

theorem pushLane_bounded (code : LaneCode) :
    ∀ other, ∀ entry ∈ (q.pushLane code other).entries, entry.1 < (q.pushLane code other).tail := by
  intro other entry member
  by_cases here : other = code
  · subst here
    simp only [pushLane, Function.update_self, Table.add, List.mem_append, List.mem_singleton] at member ⊢
    rcases member with old | rfl
    · exact Nat.lt_succ_of_lt (q.bounded other entry old)
    · exact Nat.lt_succ_self _
  · rw [pushLane, Function.update_of_ne here] at member ⊢
    exact q.bounded other entry member

theorem pushLane_old (code : LaneCode) {entry : Nat × WithdrawRequest} (member : entry ∈ q.requests) :
    (q.pushLane code (laneCodeOf entry.2.tranche)).entries.get? entry.2.laneIdx = some entry.1 := by
  have known := q.entered entry member
  by_cases here : laneCodeOf entry.2.tranche = code
  · have other : entry.2.laneIdx ≠ (q.lanes code).tail := by
      intro same
      rw [here, same, q.tail_fresh] at known
      cases known
    rw [here] at known ⊢
    simp only [pushLane, Function.update_self]
    rw [Table.get?_add_of_ne other]
    exact known
  · rw [pushLane, Function.update_of_ne here]
    exact known

def push (request : WithdrawRequest) : WithdrawQueue where
  requests := q.requests.add q.nextGlobalSeq (q.numbered request)
  lanes := q.pushLane (laneCodeOf request.tranche)
  nextGlobalSeq := q.nextGlobalSeq + 1
  distinct := q.distinct.add fun entry member => Nat.ne_of_lt (q.below entry member)
  below := by
    intro entry member
    rcases List.mem_append.mp member with old | new
    · exact Nat.lt_succ_of_lt (q.below entry old)
    · rw [List.mem_singleton.mp new]
      exact Nat.lt_succ_self _
  bounded := q.pushLane_bounded _
  entered := by
    intro entry member
    rcases List.mem_append.mp member with old | new
    · exact q.pushLane_old _ old
    · rw [List.mem_singleton.mp new]
      simp only [numbered, pushLane, Function.update_self]
      exact Table.get?_add_self (q.tail_fresh _)

def dropLane (code : LaneCode) (laneIdx : Nat) : LaneCode → Lane :=
  Function.update q.lanes code { q.lanes code with entries := (q.lanes code).entries.remove laneIdx }

theorem dropLane_bounded (code : LaneCode) (laneIdx : Nat) :
    ∀ other, ∀ entry ∈ (q.dropLane code laneIdx other).entries, entry.1 < (q.dropLane code laneIdx other).tail := by
  intro other entry member
  by_cases here : other = code
  · subst here
    simp only [dropLane, Function.update_self] at member ⊢
    exact q.bounded other entry (Table.mem_of_mem_remove member)
  · rw [dropLane, Function.update_of_ne here] at member ⊢
    exact q.bounded other entry member

theorem dropLane_other {seq : Nat} {request : WithdrawRequest} (found : q.requests.get? seq = some request)
    {entry : Nat × WithdrawRequest} (member : entry ∈ q.requests) (differ : entry.1 ≠ seq) :
    (q.dropLane (laneCodeOf request.tranche) request.laneIdx (laneCodeOf entry.2.tranche)).entries.get?
      entry.2.laneIdx = some entry.1 := by
  have known := q.entered entry member
  have dropped := q.entered _ (Table.mem_of_get? found)
  by_cases here : laneCodeOf entry.2.tranche = laneCodeOf request.tranche
  · have other : entry.2.laneIdx ≠ request.laneIdx := by
      intro same
      rw [here, same, dropped] at known
      exact differ (Option.some.inj known).symm
    rw [here] at known ⊢
    simp only [dropLane, Function.update_self]
    rw [Table.get?_remove_of_ne other]
    exact known
  · rw [dropLane, Function.update_of_ne here]
    exact known

def lookup (seq : Nat) (why : Error) : Result Error { request // q.requests.get? seq = some request } :=
  if present : (q.requests.get? seq).isSome then
    pure ⟨(q.requests.get? seq).get present, (Option.some_get present).symm⟩
  else .error (.code why)

def drop (seq : Nat) (request : WithdrawRequest) (found : q.requests.get? seq = some request) : WithdrawQueue where
  requests := q.requests.remove seq
  lanes := q.dropLane (laneCodeOf request.tranche) request.laneIdx
  nextGlobalSeq := q.nextGlobalSeq
  distinct := q.distinct.remove
  below _ member := q.below _ (Table.mem_of_mem_remove member)
  bounded := q.dropLane_bounded _ _
  entered _ member :=
    q.dropLane_other found (Table.mem_of_mem_remove member) (Table.ne_of_mem_remove q.distinct member)

def repoint (seq : Nat) (request : WithdrawRequest) (found : q.requests.get? seq = some request)
    (payoutAsset : TypeName) : WithdrawQueue where
  requests := q.requests.set seq { request with payoutAsset }
  lanes := q.lanes
  nextGlobalSeq := q.nextGlobalSeq
  distinct := q.distinct.set
  below := by
    intro entry member
    rcases Table.mem_set member with ⟨old, _⟩ | rfl
    · exact q.below entry old
    · exact q.below (seq, request) (Table.mem_of_get? found)
  bounded := q.bounded
  entered := by
    intro entry member
    rcases Table.mem_set member with ⟨old, _⟩ | rfl
    · exact q.entered entry old
    · exact q.entered (seq, request) (Table.mem_of_get? found)

end WithdrawQueue

/-! ### Free balances -/

/-- A balance is a dynamic field that exists while it is positive, and its type is listed. -/
structure Purse where
  assetTypes : List TypeName
  balances : TypeName → Nat
  mutationSeq : Nat
  distinct : assetTypes.Nodup
  listed : ∀ t, 0 < balances t → t ∈ assetTypes

namespace Purse

def empty : Purse := ⟨[], fun _ => 0, 0, List.nodup_nil, by simp⟩

variable (purse : Purse)

def withType (t : TypeName) : List TypeName :=
  if t ∈ purse.assetTypes then purse.assetTypes else purse.assetTypes ++ [t]

theorem mem_withType {t u : TypeName} : u ∈ purse.withType t ↔ u ∈ purse.assetTypes ∨ u = t := by
  unfold withType
  split
  case isTrue known =>
    constructor
    · exact Or.inl
    · rintro (old | rfl)
      · exact old
      · exact known
  case isFalse => simp

theorem withType_nodup (t : TypeName) : (purse.withType t).Nodup := by
  unfold withType
  split
  case isTrue => exact purse.distinct
  case isFalse unknown =>
    refine List.nodup_append.mpr ⟨purse.distinct, by simp, ?_⟩
    rintro u known w only rfl
    exact unknown (List.mem_singleton.mp only ▸ known)

def putBalanceInternal (t : TypeName) (amount : Nat) : Result Error Purse := do
  let total ← addU64 (purse.balances t) amount
  pure
    { assetTypes := purse.withType t
      balances := Function.update purse.balances t total
      mutationSeq := purse.mutationSeq + 1
      distinct := purse.withType_nodup t
      listed := by
        intro u positive
        by_cases here : u = t
        · exact purse.mem_withType.mpr (Or.inr here)
        · rw [Function.update_of_ne here] at positive
          exact purse.mem_withType.mpr (Or.inl (purse.listed u positive)) }

def takeBalanceInternal (t : TypeName) (amount : Nat) : Result Error Purse := do
  check (0 < purse.balances t) .insufficientBalance
  check (amount ≤ purse.balances t) .insufficientBalance
  pure
    { assetTypes := if purse.balances t = amount then purse.assetTypes.erase t else purse.assetTypes
      balances := Function.update purse.balances t (purse.balances t - amount)
      mutationSeq := purse.mutationSeq + 1
      distinct := by
        split
        · exact purse.distinct.erase t
        · exact purse.distinct
      listed := by
        intro u positive
        by_cases here : u = t
        · subst here
          rw [Function.update_self] at positive
          rw [if_neg (by omega)]
          exact purse.listed u (by omega)
        · rw [Function.update_of_ne here] at positive
          have known := purse.listed u positive
          split
          · exact (List.mem_erase_of_ne here).mpr known
          · exact known }

end Purse

/-! ### The vault -/

structure ExternalAccount where
  account : Address
  equityOracle : TypeName
  budgetBps : Nat
  dailyReleaseBps : Nat
  exposure : Nat
  releasedInWindow : Nat
  windowStartMs : Nat
  deriving DecidableEq, Repr

structure SettlementPool where
  seniorPool : Nat
  seniorSupply : Nat
  juniorPool : Nat
  juniorSupply : Nat
  activeJuniorGeneration : Nat
  curatorFeesAccrued : Nat
  deriving DecidableEq, Repr

structure Custodied (Obj : Type) where
  id : ID
  tag : TypeName
  object : Obj

/-- The custodied objects, under distinct ids, with their count. -/
structure Custody (Obj : Type) where
  objects : List (Custodied Obj)
  positionCount : Nat
  distinct : (objects.map (·.id)).Nodup
  counted : positionCount = objects.length

namespace Custody

variable {Obj : Type} (c : Custody Obj)

def empty : Custody Obj := ⟨[], 0, List.nodup_nil, rfl⟩

def find (id : ID) : Option (Custodied Obj) := c.objects.find? fun o => o.id = id

/-- `store_position_internal`; a second object of one id cannot be stored. -/
def store (adapter : TypeName) (id : ID) (object : Obj) : Result Error (Custody Obj) :=
  if fresh : id ∉ c.objects.map (·.id) then
    pure
      { objects := c.objects ++ [⟨id, adapter, object⟩]
        positionCount := c.positionCount + 1
        distinct := by
          rw [List.map_append]
          refine List.nodup_append.mpr ⟨c.distinct, by simp, ?_⟩
          rintro x known y only rfl
          rw [List.mem_singleton.mp only] at known
          exact fresh known
        counted := by
          rw [List.length_append, c.counted]
          rfl }
  else .error (.code .keyAlreadyExists)

def remove (id : ID) (present : (c.find id).isSome) : Custody Obj where
  objects := c.objects.eraseP fun o => o.id = id
  positionCount := c.positionCount - 1
  distinct := c.distinct.sublist (List.eraseP_sublist.map _)
  counted := by
    obtain ⟨o, found⟩ := Option.isSome_iff_exists.mp present
    have same := List.find?_some found
    rw [List.length_eraseP_of_mem (List.mem_of_find?_eq_some found) same, c.counted]

end Custody

structure TradingVault (Obj : Type) where
  id : ID
  curatorCapId : ID
  state : VaultState
  config : VaultConfig
  capital : CapitalStructure
  book : TrancheBook
  purse : Purse
  custody : Custody Obj
  capitalSeq : Nat
  queue : WithdrawQueue
  curatorCommitmentBreached : Bool
  external : Option ExternalAccount
  settlement : Option SettlementPool
  claims : List Held

/-- One part of an appraisal: what was valued, as it was then, and its value. -/
inductive Leg (Obj : Type) where
  | balance (t : TypeName) (amount value : Nat)
  | position (id : ID) (object : Obj) (value : Nat)
  | equity (value : Nat)
  deriving DecidableEq

def Leg.value {Obj : Type} : Leg Obj → Nat
  | .balance _ _ value => value
  | .position _ _ value => value
  | .equity value => value

/-- The value of a vault in the making. The legs record what was valued; only proofs read them. -/
structure Appraisal (Obj : Type) where
  totalValue : Nat
  remainingTypes : List TypeName
  appraisedPositions : List ID
  positionTotal : Nat
  typesSnapshot : List TypeName
  mutationSeqSnapshot : Nat
  capitalSeqSnapshot : Nat
  externalPending : Bool
  legs : List (Leg Obj)

namespace TradingVault

variable {Obj : Type} (v : TradingVault Obj)

def assertCurrentCap (cap : ID) : Result Error Unit := check (cap = v.curatorCapId) .notCurator

def freeBalance (t : TypeName) : Nat := v.purse.balances t

def pendingWithdrawals : Nat := v.queue.requests.length

def commitmentTranche : Tranche := if v.capital.isTranched then .junior else .untranched

def escrowed (capId : ID) (tranche : Tranche) : Option (Nat × Held) := do
  let index ← v.claims.findIdx? fun held => held.place = .commitment capId tranche
  let held ← v.claims[index]?
  pure (index, held)

def wipedClaim (tranche : Tranche) (generation : Nat) : Bool :=
  tranche = .junior ∧ generation < v.book.activeJuniorGeneration

def isRiskOff : Bool := !v.book.isHealthy || v.curatorCommitmentBreached

def put (t : TypeName) (amount : Nat) : Result Error (TradingVault Obj) := do
  let purse ← v.purse.putBalanceInternal t amount
  pure { v with purse }

def take (t : TypeName) (amount : Nat) : Result Error (TradingVault Obj) := do
  let purse ← v.purse.takeBalanceInternal t amount
  pure { v with purse }

def storePositionInternal (adapter : TypeName) (id : ID) (object : Obj) : Result Error (TradingVault Obj) := do
  let custody ← v.custody.store adapter id object
  pure { v with custody }

/-! ### Appraisal -/

def beginAppraisal (t : TypeName) : Result Error (Appraisal Obj) := do
  check (t = v.config.accountingAsset) .depositAssetMismatch
  pure
    { totalValue := v.freeBalance t
      remainingTypes := v.purse.assetTypes.erase v.config.accountingAsset
      appraisedPositions := []
      positionTotal := v.custody.positionCount
      typesSnapshot := v.purse.assetTypes
      mutationSeqSnapshot := v.purse.mutationSeq
      capitalSeqSnapshot := v.capitalSeq
      externalPending := v.external.any fun ext => 0 < ext.exposure
      legs := [.balance t (v.freeBalance t) (v.freeBalance t)] }

/-- A price may come from the future, never from too long ago. -/
def assertAttestationFresh (cfg : VaultProtocolConfig) (att : PriceAttestation) (now : Nat) : Result Error Unit :=
  check (now - att.timestampMs ≤ cfg.maxPriceAgeMs) .priceStale

/-- The checks of an attestation of `t` in the accounting asset. -/
def assertAttestation (cfg : VaultProtocolConfig) (t : TypeName) (att : PriceAttestation) (now : Nat) :
    Result Error Unit := do
  check (att.asset = t) .priceAssetMismatch
  check (att.quoteAsset = v.config.accountingAsset) .priceAssetMismatch
  assertAttestationFresh cfg att now

def appraiseBalance (cfg : VaultProtocolConfig) (a : Appraisal Obj) (t : TypeName) (att : PriceAttestation) (now : Nat) :
    Result Error (Appraisal Obj) := do
  check (t ∈ a.remainingTypes) .alreadyAppraised
  v.assertAttestation cfg t att now
  let value ← mulDiv (v.freeBalance t) att.price priceScale
  let totalValue ← addU128 a.totalValue value
  pure { a with
    totalValue
    remainingTypes := a.remainingTypes.erase t
    legs := a.legs ++ [.balance t (v.freeBalance t) value] }

def recordPositionValue (a : Appraisal Obj) (witness : TypeName) (id : ID) (value : Nat) :
    Result Error (Appraisal Obj) := do
  let c ← need (v.custody.find id) (.code .positionMissing)
  check (c.tag = witness) .adapterNotAllowed
  check (id ∉ a.appraisedPositions) .alreadyAppraised
  let totalValue ← addU128 a.totalValue value
  pure { a with
    totalValue
    appraisedPositions := a.appraisedPositions ++ [id]
    legs := a.legs ++ [.position id c.object value] }

/-- The completeness and staleness checks, in their order; returns the value. -/
def consumeAppraisal (a : Appraisal Obj) : Result Error Nat := do
  check (a.remainingTypes = []) .appraisalIncomplete
  check (a.externalPending = false) .appraisalIncomplete
  check (a.appraisedPositions.length = a.positionTotal) .appraisalIncomplete
  check (a.positionTotal = v.custody.positionCount) .appraisalMismatch
  check (a.typesSnapshot = v.purse.assetTypes) .appraisalMismatch
  check (a.mutationSeqSnapshot = v.purse.mutationSeq) .appraisalMismatch
  check (a.capitalSeqSnapshot = v.capitalSeq) .appraisalMismatch
  pure a.totalValue

end TradingVault

end SuiOptions.Vault
