import SuiOptions.Exchange.Order

/-! The market's registry: `registry.move`.

One registry serves one pair. It counts fills by order digest, remembers
cancellations and salt watermarks, and holds the fee configuration and the fee
vaults. The two tokens of the pair are told apart by a `Side`; a pair of fields
of the source that differ by the token is one function of the side.
-/

set_option autoImplicit false

namespace SuiOptions.Exchange

open Execution Move

inductive Side where
  | base
  | quote
  deriving DecidableEq, Repr

def Side.other : Side → Side
  | .base => .quote
  | .quote => .base

@[simp] theorem Side.other_other (side : Side) : side.other.other = side := by cases side <;> rfl

theorem Side.eq_or_other (side which : Side) : which = side ∨ which = side.other := by
  cases side <;> cases which <;> simp [other]

theorem Side.other_ne (side : Side) : side.other ≠ side := by
  cases side <;> simp [other]

structure FillState where
  takerTokenFilled : Nat
  cancelled : Bool
  expiryMs : Nat
  deriving DecidableEq, Repr

structure SettlementRegistry where
  id : ID
  /-- The canonical types of the pair, the registry's type parameters. -/
  token : Side → String
  fills : Bytes → Option FillState
  saltWatermarks : Address → Option Nat
  paused : Bool
  currentFeeBps : Nat
  feeTiers : Address → Option Nat
  /-- `fee_vault_base` and `fee_vault_quote`. -/
  feeVault : Side → Nat
  /-- A market of a token against itself is not listed. -/
  distinct : token .base ≠ token .quote

namespace SettlementRegistry

def maxFeeBps : Nat := 50

def gcGraceMs : Nat := 7 * 24 * 60 * 60 * 1000

/-- `new_market`, once its checks on fees, tick, size and tokens have passed. -/
def newMarket (id : ID) (token : Side → String) (distinct : token .base ≠ token .quote) (feeBps : Nat) :
    SettlementRegistry :=
  { id, token, distinct
    fills := fun _ => none
    saltWatermarks := fun _ => none
    paused := false
    currentFeeBps := feeBps
    feeTiers := fun _ => none
    feeVault := fun _ => 0 }

variable (reg : SettlementRegistry)

def feeBpsFor (account : Address) : Nat := (reg.feeTiers account).getD reg.currentFeeBps

def watermark (maker : Address) : Nat := (reg.saltWatermarks maker).getD 0

def filled (digest : Bytes) : Nat :=
  match reg.fills digest with
  | some state => state.takerTokenFilled
  | none => 0

def isCancelled (digest : Bytes) : Bool :=
  match reg.fills digest with
  | some state => state.cancelled
  | none => false

/-! ### Admin configuration -/

def setPaused (paused : Bool) : SettlementRegistry := { reg with paused }

def setFeeBps (feeBps : Nat) : Result Error SettlementRegistry := do
  check (feeBps ≤ maxFeeBps) .feeTooHigh
  pure { reg with currentFeeBps := feeBps }

def setFeeTier (account : Address) (feeBps : Nat) : Result Error SettlementRegistry := do
  check (feeBps ≤ maxFeeBps) .feeTooHigh
  pure { reg with feeTiers := Function.update reg.feeTiers account (some feeBps) }

def clearFeeTier (account : Address) : SettlementRegistry :=
  { reg with feeTiers := Function.update reg.feeTiers account none }

/-! ### Storage collection -/

/-- One digest of a `gc` batch; the sum of expiry and grace can overflow. -/
def gcOne (now : Nat) (reg : SettlementRegistry) (digest : Bytes) : Result Error SettlementRegistry :=
  match reg.fills digest with
  | none => .ok reg
  | some state => do
    let eligible ← addU64 state.expiryMs gcGraceMs
    pure (if eligible ≤ now then { reg with fills := Function.update reg.fills digest none } else reg)

def gc (now : Nat) : SettlementRegistry → List Bytes → Result Error SettlementRegistry :=
  exec (gcOne now)

/-! ### Package-internal updates -/

def recordFill (digest : Bytes) (amount takerAmountCap expiryMs : Nat) :
    Result Error (Nat × SettlementRegistry) := do
  let state := (reg.fills digest).getD ⟨0, false, expiryMs⟩
  let newTotal ← addU64 state.takerTokenFilled amount
  check (newTotal ≤ takerAmountCap) .overfill
  pure (newTotal,
    { reg with fills := Function.update reg.fills digest (some { state with takerTokenFilled := newTotal }) })

def markCancelled (digest : Bytes) (expiryMs : Nat) : SettlementRegistry :=
  let state := (reg.fills digest).getD ⟨0, true, expiryMs⟩
  { reg with fills := Function.update reg.fills digest (some { state with cancelled := true }) }

def raiseWatermark (maker : Address) (minValidSalt : Nat) : SettlementRegistry :=
  { reg with saltWatermarks := Function.update reg.saltWatermarks maker (some minValidSalt) }

/-- `deposit_fee_base` and `deposit_fee_quote`. -/
def depositFee (side : Side) (amount : Nat) : Result Error SettlementRegistry := do
  let total ← addU64 (reg.feeVault side) amount
  pure { reg with feeVault := Function.update reg.feeVault side total }

/-- `take_fee_base` and `take_fee_quote`; the whole vault is paid out. -/
def takeFee (side : Side) : SettlementRegistry :=
  { reg with feeVault := Function.update reg.feeVault side 0 }

/-! ### What the updates do -/

variable {reg} {next : SettlementRegistry}

/-- Two registries that treat every order alike; fees and the pause flag may differ. -/
structure SameBooks (reg next : SettlementRegistry) : Prop where
  id : next.id = reg.id
  token : next.token = reg.token
  fills : next.fills = reg.fills
  saltWatermarks : next.saltWatermarks = reg.saltWatermarks

theorem SameBooks.refl (reg : SettlementRegistry) : SameBooks reg reg := ⟨rfl, rfl, rfl, rfl⟩

theorem SameBooks.trans {first second third : SettlementRegistry} (left : SameBooks first second)
    (right : SameBooks second third) : SameBooks first third :=
  ⟨right.id.trans left.id, right.token.trans left.token, right.fills.trans left.fills,
    right.saltWatermarks.trans left.saltWatermarks⟩

theorem setFeeBps_ok {feeBps : Nat} (ran : reg.setFeeBps feeBps = .ok next) : SameBooks reg next := by
  obtain ⟨-, rfl⟩ := check_pure_ok.mp ran
  exact ⟨rfl, rfl, rfl, rfl⟩

theorem setFeeTier_ok {account : Address} {feeBps : Nat} (ran : reg.setFeeTier account feeBps = .ok next) :
    SameBooks reg next := by
  obtain ⟨-, rfl⟩ := check_pure_ok.mp ran
  exact ⟨rfl, rfl, rfl, rfl⟩

theorem depositFee_ok {side : Side} {amount : Nat} (ran : reg.depositFee side amount = .ok next) :
    SameBooks reg next := by
  obtain ⟨total, -, produced⟩ := bind_ok.mp ran
  cases produced
  exact ⟨rfl, rfl, rfl, rfl⟩

theorem takeFee_same (reg : SettlementRegistry) (side : Side) : SameBooks reg (reg.takeFee side) :=
  ⟨rfl, rfl, rfl, rfl⟩

/-- A recorded fill stays under the cap and touches the entry of its digest only. -/
theorem recordFill_ok {digest : Bytes} {amount cap expiryMs total : Nat}
    (ran : reg.recordFill digest amount cap expiryMs = .ok (total, next)) :
    total = reg.filled digest + amount ∧ total ≤ cap ∧
      next = { reg with
        fills := Function.update reg.fills digest
          (some { (reg.fills digest).getD ⟨0, false, expiryMs⟩ with takerTokenFilled := total }) } := by
  unfold recordFill at ran
  obtain ⟨sum, added, rest⟩ := bind_ok.mp ran
  obtain ⟨within, produced⟩ := check_pure_ok.mp rest
  obtain ⟨-, same⟩ := fit_ok.mp added
  obtain ⟨rfl, rfl⟩ := Prod.mk.inj produced
  refine ⟨?_, within, rfl⟩
  rw [← same, filled]
  cases reg.fills digest <;> rfl

/-- Collecting a digest leaves its entry alone or deletes it after the grace period. -/
theorem gcOne_ok {now : Nat} {digest : Bytes} (ran : reg.gcOne now digest = .ok next) :
    next = reg ∨ ∃ state, reg.fills digest = some state ∧ state.expiryMs + gcGraceMs ≤ now ∧
      next = { reg with fills := Function.update reg.fills digest none } := by
  unfold gcOne at ran
  cases present : reg.fills digest with
  | none =>
    rw [present] at ran
    cases ran
    exact Or.inl rfl
  | some state =>
    rw [present] at ran
    obtain ⟨eligible, added, produced⟩ := bind_ok.mp ran
    obtain ⟨-, rfl⟩ := fit_ok.mp added
    cases produced
    by_cases due : state.expiryMs + gcGraceMs ≤ now
    · exact Or.inr ⟨state, rfl, due, if_pos due⟩
    · exact Or.inl (if_neg due)

end SettlementRegistry

end SuiOptions.Exchange
