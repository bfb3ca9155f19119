import SuiOptions.Vault.State

/-! The capital sync, deposits and withdrawal requests.

Every path that consumes an appraisal syncs capital first: the hurdle accrues,
the waterfall splits the value, and the risk state and the commitment flag are
derived again.
-/

set_option autoImplicit false

namespace SuiOptions.Vault

open Execution Move
open Exchange (ID Address DomainState)

/-- `assert_ingress_allowed`: the pause, then the membership list where it is on. -/
def assertIngressAllowed (domain : DomainState) (who : Address) : Result Error Unit := do
  check (domain.paused = false) .ingressPaused
  check (domain.enabled = false ∨ who ∈ domain.members) .ingressRestricted

namespace VaultPosition

variable (p : VaultPosition)

def split (shares : Nat) (id : ID) : Result Error (VaultPosition × VaultPosition) := do
  check (0 < shares ∧ shares < p.shares) .invalidSplit
  let childBasis ← castU64 (p.costBasis * shares / p.shares)
  let left ← sub p.costBasis childBasis
  pure ({ p with shares := p.shares - shares, costBasis := left }, { p with id, shares, costBasis := childBasis })

def credit (shares basis : Nat) : Result Error VaultPosition := do
  let shares ← addU128 p.shares shares
  let costBasis ← addU64 p.costBasis basis
  pure { p with shares, costBasis }

def merge (other : VaultPosition) : Result Error VaultPosition := do
  check (other.tranche = p.tranche ∧ other.capitalGeneration = p.capitalGeneration) .mergeIncompatible
  let merged ← p.credit other.shares other.costBasis
  pure { merged with lockedUntilMs := max p.lockedUntilMs other.lockedUntilMs }

end VaultPosition

namespace TradingVault

variable {Obj : Type} (v : TradingVault Obj)

/-! ### Positions in wallets -/

def walletPosition (index : Nat) : Result Error VaultPosition := do
  let held ← need v.claims[index]? (.code .noSuchObject)
  check (held.place = .wallet) .noSuchObject
  pure held.position

def splitPosition (index shares : Nat) (id : ID) : Result Error (TradingVault Obj) := do
  let p ← v.walletPosition index
  let (parent, child) ← p.split shares id
  pure { v with claims := v.claims.set index ⟨parent, .wallet⟩ ++ [⟨child, .wallet⟩] }

def mergePositions (index other : Nat) : Result Error (TradingVault Obj) := do
  check (index ≠ other) .noSuchObject
  let p ← v.walletPosition index
  let q ← v.walletPosition other
  let merged ← p.merge q
  pure { v with claims := (v.claims.set index ⟨merged, .wallet⟩).eraseIdx other }

/-! ### Capital sync -/

def markedCommitment (nav juniorNav : Nat) : Result Error Nat :=
  match v.escrowed v.curatorCapId v.commitmentTranche with
  | none => pure 0
  | some (_, held) =>
    if v.wipedClaim held.position.tranche held.position.capitalGeneration then pure 0
    else claimValue held.position.shares (if v.capital.isTranched then juniorNav else nav)
      (v.book.supplyOf v.commitmentTranche) shareOffset

def commitmentBreached (cfg : VaultProtocolConfig) (nav juniorNav : Nat) : Result Error Bool :=
  if v.state ≠ .opened ∨ cfg.enforceCuratorShare = false ∨ cfg.minCuratorCommitmentBps = 0 ∨ nav = 0 then pure false
  else do
    let marked ← v.markedCommitment nav juniorNav
    let floor ← mulU128 cfg.minCuratorCommitmentBps nav
    pure (decide (marked * bpsDenom < floor))

def syncCapital (cfg : VaultProtocolConfig) (nav now : Nat) : Result Error (TradingVault Obj × Nat × Nat) := do
  let book ← v.book.accrue v.capital now
  let (seniorNav, juniorNav) ← TrancheBook.waterfall v.capital nav book.seniorClaim book.seniorPrincipalBasis
  let synced : TradingVault Obj := { v with book := book.updateRiskState v.capital nav juniorNav now }
  let curatorCommitmentBreached ← synced.commitmentBreached cfg nav juniorNav
  pure ({ synced with curatorCommitmentBreached, capitalSeq := v.capitalSeq + 1 }, seniorNav, juniorNav)

/-! ### Deposits -/

/-- A deposit in accounting units; the entry haircut is on other assets only. -/
def depositValue (cfg : VaultProtocolConfig) (t : TypeName) (amount : Nat) (att : Option PriceAttestation) (now : Nat) :
    Result Error Nat :=
  if t = v.config.accountingAsset then do
    check (att.isNone) .priceAssetMismatch
    pure amount
  else do
    let att ← need att (.code .attestationMissing)
    v.assertAttestation cfg t att now
    let gross ← mulDiv amount att.price priceScale
    let scaled ← mulU128 gross (bpsDenom - v.config.entryHaircutBps)
    check (0 < scaled / bpsDenom) .zeroAmount
    castU64 (scaled / bpsDenom)

def assertSeniorBuffer (tranche : Tranche) (value nav juniorNav : Nat) : Result Error Unit :=
  if tranche = .senior then do
    check (v.book.riskState = .healthy) .depositsBlockedByState
    let total ← addU128 nav value
    check (v.capital.targetJuniorBps * total ≤ juniorNav * bpsDenom) .seniorBufferBreached
  else pure ()

def trancheNav (tranche : Tranche) (nav seniorNav juniorNav : Nat) : Nat :=
  match tranche with
  | .senior => seniorNav
  | .junior => juniorNav
  | .untranched => nav

def generationOf (tranche : Tranche) : Nat := if tranche = .junior then v.book.activeJuniorGeneration else 0

def postJuniorNav (tranche : Tranche) (value juniorNav : Nat) : Result Error Nat :=
  if tranche = .senior then pure juniorNav else addU128 juniorNav value

/-- Price a deposit against its tranche, take the funds and mint the position. -/
def issue (cfg : VaultProtocolConfig) (tranche : Tranche) (t : TypeName) (amount value nav seniorNav juniorNav now : Nat)
    (id : ID) : Result Error (TradingVault Obj × VaultPosition × Nat) := do
  check (v.book.riskState ≠ .impaired ∧ v.book.riskState ≠ .resetPending) .depositsBlockedByState
  v.assertSeniorBuffer tranche value nav juniorNav
  check (v.book.supplyOf tranche = 0 ∨ 0 < trancheNav tranche nav seniorNav juniorNav) .vaultDead
  let shares ← sharesForValue value (trancheNav tranche nav seniorNav juniorNav) (v.book.supplyOf tranche) shareOffset
  check (0 < shares) .zeroAmount
  let purse ← v.purse.putBalanceInternal t amount
  let book ← v.book.onDeposit tranche value shares
  let lockedUntilMs ← addU64 now v.config.lockupMs
  let postNav ← addU128 nav value
  let postJunior ← postJuniorNav tranche value juniorNav
  let stored : TradingVault Obj := { v with purse, book, capitalSeq := v.capitalSeq + 1 }
  -- the sync ran before the deposit, which may push the commitment below its floor
  let curatorCommitmentBreached ← stored.commitmentBreached cfg postNav postJunior
  pure ({ stored with curatorCommitmentBreached },
    { id, tranche, shares, costBasis := value, lockedUntilMs, capitalGeneration := v.generationOf tranche }, postNav)

def depositInternal (cfg : VaultProtocolConfig) (lp : DomainState) (sender : Address) (a : Appraisal Obj) (t : TypeName)
    (amount : Nat) (att : Option PriceAttestation) (tranche : Tranche) (now : Nat) (id : ID) :
    Result Error (TradingVault Obj × VaultPosition × Nat) := do
  assertIngressAllowed lp sender
  check (cfg.paused = false) .protocolPaused
  check (v.state = .opened) .vaultNotOpen
  check (v.config.depositsPaused = false) .depositsPaused
  check (t ∈ v.config.depositAssets) .assetNotAllowed
  check (0 < amount) .zeroAmount
  check (v.capital.isTranched = decide (tranche ≠ .untranched)) .wrongTranche
  let value ← v.depositValue cfg t amount att now
  let nav ← v.consumeAppraisal a
  let (synced, seniorNav, juniorNav) ← v.syncCapital cfg nav now
  synced.issue cfg tranche t amount value nav seniorNav juniorNav now id

def deposit (cfg : VaultProtocolConfig) (lp : DomainState) (sender : Address) (a : Appraisal Obj) (t : TypeName)
    (amount : Nat) (att : Option PriceAttestation) (tranche : Tranche) (now : Nat) (id : ID) :
    Result Error (TradingVault Obj) := do
  let (w, position, _) ← v.depositInternal cfg lp sender a t amount att tranche now id
  pure { w with claims := w.claims ++ [⟨position, .wallet⟩] }

/-- Put a position into the escrow slot of the current cap, or merge it into what is there. -/
def fundCommitment (position : VaultPosition) : Result Error (TradingVault Obj) :=
  let place := Place.commitment v.curatorCapId v.commitmentTranche
  match v.escrowed v.curatorCapId v.commitmentTranche with
  | none => pure { v with claims := v.claims ++ [⟨position, place⟩] }
  | some (index, held) =>
    -- a commitment from before a reset is worth nothing for good
    if v.wipedClaim held.position.tranche held.position.capitalGeneration then
      pure { v with claims := v.claims.set index ⟨position, place⟩ }
    else do
      let merged ← held.position.merge position
      pure { v with claims := v.claims.set index ⟨merged, place⟩ }

def depositIntoCommitment (cfg : VaultProtocolConfig) (lp : DomainState) (sender : Address) (cap : ID)
    (a : Appraisal Obj) (t : TypeName) (amount : Nat) (att : Option PriceAttestation) (now : Nat) (id : ID) :
    Result Error (TradingVault Obj) := do
  v.assertCurrentCap cap
  let (w, position, navAfter) ← v.depositInternal cfg lp sender a t amount att v.commitmentTranche now id
  let funded ← w.fundCommitment position
  let (_, juniorNav) ← TrancheBook.waterfall w.capital navAfter w.book.seniorClaim w.book.seniorPrincipalBasis
  let curatorCommitmentBreached ← funded.commitmentBreached cfg navAfter juniorNav
  pure { funded with curatorCommitmentBreached }

/-! ### Withdrawal requests -/

def assertPayoutAsset (p : TypeName) : Result Error Unit := check (p ∈ v.config.depositAssets) .assetNotAllowed

/-- The position is consumed; its shares stay outstanding in the request. -/
def requestWithdraw (sender : Address) (index : Nat) (payoutAsset : TypeName) (now : Nat) :
    Result Error (TradingVault Obj) := do
  check (v.state ≠ .closed) .queueSettled
  let p ← v.walletPosition index
  v.assertPayoutAsset payoutAsset
  check (p.lockedUntilMs ≤ now) .stillLocked
  check (p.tranche = .junior → p.capitalGeneration = v.book.activeJuniorGeneration) .positionWiped
  let request : WithdrawRequest :=
    { positionId := p.id, recipient := sender, tranche := p.tranche, capitalGeneration := p.capitalGeneration
      shares := p.shares, basis := p.costBasis, payoutAsset, requestedAtMs := now, laneIdx := 0 }
  pure { v with claims := v.claims.eraseIdx index, queue := v.queue.push request }

def amendPayoutAsset (sender : Address) (seq : Nat) (payoutAsset : TypeName) : Result Error (TradingVault Obj) := do
  let request ← v.queue.lookup seq .requestMissing
  v.assertPayoutAsset payoutAsset
  check (request.val.recipient = sender) .notAuthorized
  pure { v with queue := v.queue.repoint seq request.val request.property payoutAsset }

/-! ### The deposit allowlist and the curator's settings -/

def configure (cap : ID) (change : VaultConfig → Result Error VaultConfig) : Result Error (TradingVault Obj) := do
  v.assertCurrentCap cap
  let config ← change v.config
  pure { v with config }

end TradingVault

namespace VaultConfig

variable (config : VaultConfig)

def addDepositAsset (cfg : VaultProtocolConfig) (t : TypeName) : Result Error VaultConfig := do
  check (t ∉ config.depositAssets) .configInvalid
  check (config.depositAssets.length < cfg.maxDepositAssets) .configInvalid
  pure { config with depositAssets := config.depositAssets ++ [t] }

def removeDepositAsset (t : TypeName) : Result Error VaultConfig := do
  check (t ≠ config.accountingAsset) .configInvalid
  check (t ∈ config.depositAssets) .configInvalid
  pure { config with depositAssets := config.depositAssets.erase t }

def setHaircuts (entryBps exitBps : Nat) : Result Error VaultConfig :=
  if bounds : entryBps ≤ maxHaircutBps ∧ exitBps ≤ maxHaircutBps then
    pure { config with
      entryHaircutBps := entryBps, exitHaircutBps := exitBps, entryBound := bounds.1, exitBound := bounds.2 }
  else .error (.code .configInvalid)

def addQuoteAdapter (adapter : TypeName) : Result Error VaultConfig := do
  check (adapter ∉ config.quoteAdapters) .configInvalid
  pure { config with quoteAdapters := config.quoteAdapters ++ [adapter] }

def removeQuoteAdapter (adapter : TypeName) : Result Error VaultConfig := do
  check (adapter ∈ config.quoteAdapters) .configInvalid
  pure { config with quoteAdapters := config.quoteAdapters.erase adapter }

def setDepositsPaused (paused : Bool) : Result Error VaultConfig := pure { config with depositsPaused := paused }

def setMmReleaseEnabled (enabled : Bool) : Result Error VaultConfig := pure { config with mmReleaseEnabled := enabled }

end VaultConfig

end SuiOptions.Vault
