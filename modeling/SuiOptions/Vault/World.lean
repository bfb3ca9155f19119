import SuiOptions.Vault.Lifecycle

/-! The vault as a transition system.

A state is the vault with what its calls read: the protocol's configuration,
the registries, the clock, and the hot potatoes open in the transaction. An
appraisal or a fulfillment must be used up before the transaction ends.
-/

set_option autoImplicit false

namespace SuiOptions.Vault

open Execution Move
open Exchange (ID Address DomainState)

structure Env where
  cfg : VaultProtocolConfig
  adapters : List TypeName
  oracles : List TypeName
  lp : DomainState
  now : Nat

structure World (Obj : Type) where
  vault : TradingVault Obj
  env : Env
  appraisals : List (Appraisal Obj)
  fulfillments : List Fulfillment

inductive Setting where
  | addDepositAsset (t : TypeName)
  | removeDepositAsset (t : TypeName)
  | setHaircuts (entryBps exitBps : Nat)
  | addQuoteAdapter (adapter : TypeName)
  | removeQuoteAdapter (adapter : TypeName)
  | setDepositsPaused (paused : Bool)
  | setMmReleaseEnabled (enabled : Bool)

def Setting.apply (setting : Setting) (cfg : VaultProtocolConfig) (config : VaultConfig) : Result Error VaultConfig :=
  match setting with
  | .addDepositAsset t => config.addDepositAsset cfg t
  | .removeDepositAsset t => config.removeDepositAsset t
  | .setHaircuts entryBps exitBps => config.setHaircuts entryBps exitBps
  | .addQuoteAdapter adapter => config.addQuoteAdapter adapter
  | .removeQuoteAdapter adapter => config.removeQuoteAdapter adapter
  | .setDepositsPaused paused => config.setDepositsPaused paused
  | .setMmReleaseEnabled enabled => config.setMmReleaseEnabled enabled

inductive Call (Obj : Type) where
  | splitPosition (index shares : Nat) (id : ID)
  | mergePositions (index other : Nat)
  | requestWithdraw (sender : Address) (index : Nat) (payoutAsset : TypeName)
  | amendPayoutAsset (sender : Address) (seq : Nat) (payoutAsset : TypeName)
  | session (kind : SessionKind) (adapter : TypeName) (ops : List (SessionOp Obj))
  | receivePosition (adapter : TypeName) (id : ID) (object : Obj)
  | receiveCoin (adapter t : TypeName) (amount : Nat)
  | mmRelease (source recipient : ID) (t : TypeName) (amount : Nat)
  | setExternalAccount (account : Address) (equityOracle : TypeName) (budgetBps dailyReleaseBps : Nat)
  | setExternalAccountAttested (cap : ID) (account : Address) (equityOracle : TypeName)
      (budgetBps dailyReleaseBps : Nat) (signed : Bool)
  | clearExternalAccount
  | returnExternal (sender : Address) (t : TypeName) (amount : Nat)
  | burnWipedPosition (index : Nat)
  | withdrawCommitmentSettled (cap : ID)
  | rotateCuratorByCurator (cap newCap : ID)
  | initiateClose (cap : ID)
  | initiateCloseAdmin
  | finalizeClose
  | redeemSettledPosition (t : TypeName) (index : Nat)
  | settleQueuedRequest (t : TypeName) (seq : Nat)
  | claimSettlementCuratorFees (cap : ID) (t : TypeName)
  | configure (cap : ID) (setting : Setting)

variable {Obj : Type}

def Call.run (env : Env) (v : TradingVault Obj) : Call Obj → Result Error (TradingVault Obj)
  | .splitPosition index shares id => v.splitPosition index shares id
  | .mergePositions index other => v.mergePositions index other
  | .requestWithdraw sender index payoutAsset => v.requestWithdraw sender index payoutAsset env.now
  | .amendPayoutAsset sender seq payoutAsset => v.amendPayoutAsset sender seq payoutAsset
  | .session kind adapter ops => v.session kind env.adapters adapter env.now ops
  | .receivePosition adapter id object => v.receivePosition env.adapters adapter id object
  | .receiveCoin adapter t amount => v.receiveCoin env.adapters adapter t amount
  | .mmRelease source recipient t amount => v.mmRelease source recipient t amount
  | .setExternalAccount account equityOracle budgetBps dailyReleaseBps =>
    v.setExternalAccount env.oracles account equityOracle budgetBps dailyReleaseBps
  | .setExternalAccountAttested cap account equityOracle budgetBps dailyReleaseBps signed =>
    v.setExternalAccountAttested env.cfg env.oracles cap account equityOracle budgetBps dailyReleaseBps signed
  | .clearExternalAccount => v.clearExternalAccount
  | .returnExternal sender t amount => v.returnExternal sender t amount
  | .burnWipedPosition index => v.burnWipedPosition index
  | .withdrawCommitmentSettled cap => v.withdrawCommitmentSettled cap
  | .rotateCuratorByCurator cap newCap => v.rotateCuratorByCurator cap newCap
  | .initiateClose cap => v.initiateClose cap
  | .initiateCloseAdmin => v.initiateCloseInternal
  | .finalizeClose => v.finalizeClose
  | .redeemSettledPosition t index => v.redeemSettledPosition env.cfg t index
  | .settleQueuedRequest t seq => v.settleQueuedRequest env.cfg t seq
  | .claimSettlementCuratorFees cap t => v.claimSettlementCuratorFees cap t
  | .configure cap setting => v.configure cap (setting.apply env.cfg)

inductive Use where
  | crankAppraisal
  | crankCapital
  | deposit (sender : Address) (t : TypeName) (amount : Nat) (att : Option PriceAttestation) (tranche : Tranche) (id : ID)
  | depositIntoCommitment (sender : Address) (cap : ID) (t : TypeName) (amount : Nat) (att : Option PriceAttestation)
      (id : ID)
  | releaseExternal (cap : ID) (t : TypeName) (amount : Nat)
  | proposeJuniorReset
  | executeJuniorReset (sender : Address) (t : TypeName) (amount : Nat) (id : ID)
  | releaseCommitment (cap : ID) (shares : Nat) (id : ID)
  | snapshotSettlement

namespace TradingVault

variable (v : TradingVault Obj)

def crankAppraisal (a : Appraisal Obj) : Result Error (TradingVault Obj) := do
  let _ ← v.consumeAppraisal a
  pure v

def crankCapital (cfg : VaultProtocolConfig) (a : Appraisal Obj) (now : Nat) : Result Error (TradingVault Obj) := do
  let nav ← v.consumeAppraisal a
  let (synced, _, _) ← v.syncCapital cfg nav now
  pure synced

end TradingVault

def Use.run (env : Env) (v : TradingVault Obj) (a : Appraisal Obj) : Use → Result Error (TradingVault Obj)
  | .crankAppraisal => v.crankAppraisal a
  | .crankCapital => v.crankCapital env.cfg a env.now
  | .deposit sender t amount att tranche id => v.deposit env.cfg env.lp sender a t amount att tranche env.now id
  | .depositIntoCommitment sender cap t amount att id =>
    v.depositIntoCommitment env.cfg env.lp sender cap a t amount att env.now id
  | .releaseExternal cap t amount => v.releaseExternal env.cfg cap a t amount env.now
  | .proposeJuniorReset => v.proposeJuniorReset env.cfg a env.now
  | .executeJuniorReset sender t amount id => v.executeJuniorReset env.cfg env.lp sender a t amount env.now id
  | .releaseCommitment cap shares id => v.releaseCommitment env.cfg cap a shares env.now id
  | .snapshotSettlement => v.snapshotSettlement env.cfg a env.now

inductive Action (Obj : Type) where
  | call (c : Call Obj)
  | use (index : Nat) (u : Use)
  | beginAppraisal (t : TypeName)
  | appraiseBalance (index : Nat) (t : TypeName) (att : PriceAttestation)
  | recordPositionValue (index : Nat) (witness : TypeName) (id : ID) (value : Nat)
  | recordExternalEquity (index : Nat) (oracle : TypeName) (equity : Nat)
  | beginFulfillment (index : Nat) (atts : List PriceAttestation)
  | fulfillNext (index : Nat) (p : TypeName) (id : ID)
  | endFulfillment (index : Nat)
  | administer (cfg : VaultProtocolConfig) (adapters oracles : List TypeName) (lp : DomainState)
  | nextTransaction (now : Nat)

namespace World

variable (w : World Obj)

def appraisal (index : Nat) : Result Error (Appraisal Obj) := need w.appraisals[index]? (.code .noSuchObject)

def fulfillment (index : Nat) : Result Error Fulfillment := need w.fulfillments[index]? (.code .noSuchObject)

def valued (index : Nat) (valuation : Appraisal Obj → Result Error (Appraisal Obj)) : Result Error (World Obj) := do
  let a ← w.appraisal index
  let grown ← valuation a
  pure { w with appraisals := w.appraisals.set index grown }

def step (action : Action Obj) : Result Error (World Obj) :=
  match action with
  | .call c => do
    let vault ← c.run w.env w.vault
    pure { w with vault }
  | .use index u => do
    let a ← w.appraisal index
    let vault ← u.run w.env w.vault a
    pure { w with vault, appraisals := w.appraisals.eraseIdx index }
  | .beginAppraisal t => do
    let a ← w.vault.beginAppraisal t
    pure { w with appraisals := w.appraisals ++ [a] }
  | .appraiseBalance index t att => w.valued index fun a => w.vault.appraiseBalance w.env.cfg a t att w.env.now
  | .recordPositionValue index witness id value =>
    w.valued index fun a => w.vault.recordPositionValue a witness id value
  | .recordExternalEquity index oracle equity =>
    w.valued index fun a => w.vault.recordExternalEquity w.env.oracles a oracle equity
  | .beginFulfillment index atts => do
    let a ← w.appraisal index
    let (vault, f) ← w.vault.beginFulfillment w.env.cfg a atts w.env.now
    pure { w with vault, appraisals := w.appraisals.eraseIdx index, fulfillments := w.fulfillments ++ [f] }
  | .fulfillNext index p id => do
    let f ← w.fulfillment index
    let (vault, _) ← w.vault.fulfillNext w.env.cfg f p w.env.now id
    pure { w with vault }
  | .endFulfillment index => do
    let _ ← w.fulfillment index
    pure { w with fulfillments := w.fulfillments.eraseIdx index }
  | .administer cfg adapters oracles lp => pure { w with env := { w.env with cfg, adapters, oracles, lp } }
  | .nextTransaction now => do
    check (w.appraisals = [] ∧ w.fulfillments = []) .openPotato
    check (w.env.now ≤ now) .clockBackwards
    pure { w with env := { w.env with now } }

/-! ### Creation -/

/-- `senior_junior_structure`: the floors and caps of the protocol. -/
def assertStructure (cfg : VaultProtocolConfig) : CapitalStructure → Result Error Unit
  | .untranched => pure ()
  | .seniorJunior hurdleBps targetBps maintenanceBps upside => do
    check (hurdleBps ≤ cfg.maxSeniorHurdleBps) .configInvalid
    check (cfg.minTargetJuniorBps ≤ targetBps ∧ targetBps < bpsDenom) .configInvalid
    check (cfg.minMaintenanceJuniorBps ≤ maintenanceBps ∧ maintenanceBps ≤ targetBps) .configInvalid
    match upside with
    | .preferredOnly => pure ()
    | .cappedParticipating residualBps capBps => do
      check (residualBps ≤ bpsDenom) .configInvalid
      check (bpsDenom ≤ capBps) .configInvalid
    | .uncappedParticipating residualBps => check (residualBps ≤ bpsDenom) .configInvalid

/-- The arguments of `create_vault`, with the creator, its domain and the new ids. -/
structure Genesis where
  env : Env
  creators : DomainState
  sender : Address
  id : ID
  cap : ID
  accountingAsset : TypeName
  lockupMs : Nat
  curatorFeeBps : Nat
  unwindGraceMs : Nat
  capital : CapitalStructure

def createVault (g : Genesis) : Result Error (World Obj) := do
  assertIngressAllowed g.creators g.sender
  assertStructure g.env.cfg g.capital
  if bound : g.curatorFeeBps ≤ g.env.cfg.maxCuratorFeeBps then
    pure
      { vault :=
          { id := g.id, curatorCapId := g.cap, state := .opened
            config :=
              { accountingAsset := g.accountingAsset, depositAssets := [g.accountingAsset], lockupMs := g.lockupMs
                curatorFeeBps := g.curatorFeeBps, unwindGraceMs := g.unwindGraceMs, entryHaircutBps := 0
                exitHaircutBps := 0, quoteAdapters := [], depositsPaused := false, mmReleaseEnabled := false
                feeBound := Nat.le_trans bound g.env.cfg.curatorFeeBound, entryBound := Nat.zero_le _
                exitBound := Nat.zero_le _ }
            capital := g.capital, book := .new g.env.now, purse := .empty, custody := .empty, capitalSeq := 0
            queue := .empty, curatorCommitmentBreached := false, external := none, settlement := none, claims := [] }
        env := g.env
        appraisals := []
        fulfillments := [] }
  else .error (.code .feeTooHigh)

def play (g : Genesis) (actions : List (Action Obj)) : Result Error (World Obj) := do
  let created ← createVault g
  exec step created actions

def Reachable (w : World Obj) : Prop := ∃ g actions, play g actions = .ok w

end World

/-! ### A vault for examples -/

namespace Sample

def cfg : VaultProtocolConfig where
  enforceCuratorShare := false
  maxCuratorFeeBps := 3000
  protocolFeeBps := 1000
  maxPriceAgeMs := 60000
  maxDepositAssets := 8
  paused := false
  registrarPubkey := []
  maxSeniorHurdleBps := 2000
  minTargetJuniorBps := 1000
  minMaintenanceJuniorBps := 500
  minCuratorCommitmentBps := 0
  curatorFeeBound := by decide
  protocolFeeBound := by decide

/-- The market maker's module and one more adapter are allowed, and one oracle. -/
def env : Env where
  cfg := cfg
  adapters := ["VaultMm", "Adapter"]
  oracles := ["EquityOracle"]
  lp := ⟨[], false, false⟩
  now := 1000

def genesis (capital : CapitalStructure) : World.Genesis where
  env := env
  creators := ⟨[], false, false⟩
  sender := 7
  id := 1
  cap := 2
  accountingAsset := "USDC"
  lockupMs := 0
  curatorFeeBps := 2000
  unwindGraceMs := 86400000
  capital := capital

/-- A deposit of the accounting asset, with an appraisal of a vault that holds nothing else. -/
def deposit {Obj : Type} (amount : Nat) (tranche : Tranche) (id : ID) : List (Action Obj) :=
  [.beginAppraisal "USDC", .use 0 (.deposit 7 "USDC" amount none tranche id)]

end Sample

end SuiOptions.Vault
