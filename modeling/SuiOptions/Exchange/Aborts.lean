import SuiOptions.Exchange.Attribution
import SuiOptions.Exchange.Legs
import SuiOptions.Exchange.Codec

/-! Where an aborted match was stopped.

A transaction that aborts leaves the module it stopped in and a code. Four of the
codes of `settlement.move` come from the validation of an order and from nothing
else a match does, and they do not say which of the two orders it was.
-/

set_option autoImplicit false

namespace SuiOptions.Exchange

open Execution Move

/-- A decoded Move abort: the module's name and its code. -/
structure MoveAbort where
  module : String
  code : Nat
  deriving DecidableEq, Repr

/-- Where the package stops with this error. The framework stops in modules of its own. -/
def Error.site : Error → Option MoveAbort
  | .paused => some ⟨"settlement", 1⟩
  | .tokenMismatch => some ⟨"settlement", 2⟩
  | .expired => some ⟨"settlement", 3⟩
  | .takerRestricted => some ⟨"settlement", 4⟩
  | .senderRestricted => some ⟨"settlement", 5⟩
  | .badManager => some ⟨"settlement", 6⟩
  | .saltVoided => some ⟨"settlement", 7⟩
  | .cancelled => some ⟨"settlement", 8⟩
  | .alreadyFilled => some ⟨"settlement", 9⟩
  | .badSignature => some ⟨"settlement", 10⟩
  | .zeroFill => some ⟨"settlement", 11⟩
  | .slippage => some ⟨"settlement", 12⟩
  | .notMaker => some ⟨"settlement", 13⟩
  | .watermarkRegression => some ⟨"settlement", 14⟩
  | .notCrossing => some ⟨"settlement", 15⟩
  | .limitViolated => some ⟨"settlement", 16⟩
  | .coinBelowMin => some ⟨"settlement", 17⟩
  | .wrongEscrow => some ⟨"settlement", 18⟩
  | .legAmountMismatch => some ⟨"settlement", 19⟩
  | .alreadyProvided => some ⟨"settlement", 20⟩
  | .alreadyCollected => some ⟨"settlement", 21⟩
  | .notProvided => some ⟨"settlement", 22⟩
  | .obligationIncomplete => some ⟨"settlement", 23⟩
  | .registryMismatch => some ⟨"settlement", 24⟩
  | .selfMatch => some ⟨"settlement", 25⟩
  | .feeTooHigh => some ⟨"registry", 1⟩
  | .overfill => some ⟨"registry", 3⟩
  | .notOwner => some ⟨"balance_manager", 1⟩
  | .insufficientEscrow => some ⟨"balance_manager", 2⟩
  | .tooManySigners => some ⟨"balance_manager", 3⟩
  | .alreadyApproved => some ⟨"balance_manager", 4⟩
  | .notApproved => some ⟨"balance_manager", 5⟩
  | .depositRestricted => some ⟨"balance_manager", 6⟩
  | .wrongCap => some ⟨"balance_manager", 7⟩
  | .trailingBytes => some ⟨"order", 1⟩
  | .badSignatureLength => some ⟨"order", 2⟩
  | .badPublicKeyLength => some ⟨"order", 3⟩
  | .unsupportedScheme => some ⟨"order", 4⟩
  | .notLowS => some ⟨"order", 5⟩
  | .ingressRestricted => some ⟨"whitelist", 1⟩
  | .ingressPaused => some ⟨"whitelist", 2⟩
  | _ => none

/-- The codes that say one order of a match can never fill again. -/
def Deadly : Abort Error → Prop
  | .code .expired | .code .saltVoided | .code .cancelled | .code .badSignature => True
  | _ => False

theorem Error.site_deadly {why : Error} {code : Nat} (sited : why.site = some ⟨"settlement", code⟩) :
    (code = 3 ↔ why = .expired) ∧ (code = 7 ↔ why = .saltVoided) ∧ (code = 8 ↔ why = .cancelled) ∧
      (code = 10 ↔ why = .badSignature) := by
  cases why <;> simp only [site, Option.some.injEq, MoveAbort.mk.injEq, reduceCtorEq] at sited <;>
    obtain ⟨here, rfl⟩ := sited <;> first | simp at here | simp

/-! ### What is not the validation of an order -/

theorem peelLengthGroups_avoids (room shift : Nat) (bytes : Bytes) : Avoids Deadly (peelLengthGroups room shift bytes) := by
  induction room generalizing shift bytes with
  | zero =>
    intro why failed
    cases failed
    exact id
  | succ room ih =>
    cases bytes with
    | nil =>
      intro why failed
      cases failed
      exact id
    | cons byte rest =>
      unfold peelLengthGroups
      split
      · exact Avoids.ok _ _
      · exact (ih _ _).bind fun _ _ => Avoids.ok _ _

theorem peel_avoids (count : Nat) (bytes : Bytes) : Avoids Deadly (peel count bytes) :=
  check_bind_avoids (by simp [Deadly]) fun _ => Avoids.ok _ _

theorem peelVecU8In_avoids (groups : Nat) (bytes : Bytes) : Avoids Deadly (peelVecU8In groups bytes) :=
  (peelLengthGroups_avoids _ _ _).bind fun _ _ => peel_avoids _ _

theorem peelU64_avoids (bytes : Bytes) : Avoids Deadly (peelU64 bytes) :=
  (peel_avoids _ _).bind fun _ _ => Avoids.ok _ _

theorem peelAddress_avoids (bytes : Bytes) : Avoids Deadly (peelAddress bytes) :=
  (peel_avoids _ _).bind fun _ _ => Avoids.ok _ _

theorem utf8_avoids (bytes : Bytes) : Avoids Deadly (utf8 bytes) := by
  unfold utf8
  split
  · exact Avoids.ok _ _
  · intro why failed
    cases failed
    exact id

theorem fromBytes_avoids (bytes : Bytes) : Avoids Deadly (fromBytes bytes) := by
  refine (peelVecU8In_avoids _ _).bind fun _ _ => (utf8_avoids _).bind fun _ _ => ?_
  refine (peelVecU8In_avoids _ _).bind fun _ _ => (utf8_avoids _).bind fun _ _ => ?_
  refine (peelU64_avoids _).bind fun _ _ => (peelU64_avoids _).bind fun _ _ => (peelU64_avoids _).bind fun _ _ => ?_
  refine (peelAddress_avoids _).bind fun _ _ => (peelAddress_avoids _).bind fun _ _ => ?_
  refine (peelAddress_avoids _).bind fun _ _ => (peelAddress_avoids _).bind fun _ _ => ?_
  refine (peelU64_avoids _).bind fun _ _ => (peelU64_avoids _).bind fun _ _ => ?_
  exact check_bind_avoids (by simp [Deadly]) fun _ => Avoids.ok _ _

theorem div_avoids {a b : Nat} : Avoids Deadly (div a b : Result Error Nat) := by
  unfold div
  split
  · intro why failed
    cases failed
    exact id
  · exact Avoids.ok _ _

theorem fee_avoids {a b c : Nat} : Avoids Deadly (muldivFloor a b c) :=
  (fit_avoids (by simp [Deadly])).bind fun _ _ => div_avoids.bind fun _ _ => fit_avoids (by simp [Deadly])

theorem matchTerms_avoids (ordA ordB : Order) (fillBaseAmount feeABps feeBBps : Nat) :
    Avoids Deadly (matchTerms ordA ordB fillBaseAmount feeABps feeBBps) := by
  have product : ∀ a b, Avoids Deadly (mulU128 a b : Result Error Nat) := fun a b => fit_avoids (by simp [Deadly])
  have quote : Avoids Deadly (matchQuote ordA ordB fillBaseAmount) := by
    unfold matchQuote
    split
    · refine (product _ _).bind fun _ _ => Avoids.bind (fit_avoids (by simp [Deadly])) fun _ _ => ?_
      exact (sub_avoids (by simp [Deadly])).bind fun _ _ => div_avoids.bind fun _ _ => fit_avoids (by simp [Deadly])
    · exact fee_avoids
  refine (product _ _).bind fun _ _ => (product _ _).bind fun _ _ => ?_
  refine check_bind_avoids (by simp [Deadly]) fun _ => check_bind_avoids (by simp [Deadly]) fun _ => ?_
  refine quote.bind fun _ _ => check_bind_avoids (by simp [Deadly]) fun _ => ?_
  refine (product _ _).bind fun _ _ => (product _ _).bind fun _ _ => check_bind_avoids (by simp [Deadly]) fun _ => ?_
  refine (product _ _).bind fun _ _ => (product _ _).bind fun _ _ => check_bind_avoids (by simp [Deadly]) fun _ => ?_
  exact fee_avoids.bind fun _ _ => fee_avoids.bind fun _ _ => Avoids.ok _ _

theorem recordFill_avoids (reg : SettlementRegistry) (digest : Bytes) (amount cap expiryMs : Nat) :
    Avoids Deadly (reg.recordFill digest amount cap expiryMs) :=
  (fit_avoids (by simp [Deadly])).bind fun _ _ => check_bind_avoids (by simp [Deadly]) fun _ => Avoids.ok _ _

theorem depositFee_avoids (reg : SettlementRegistry) (side : Side) (amount : Nat) :
    Avoids Deadly (reg.depositFee side amount) :=
  (fit_avoids (by simp [Deadly])).bind fun _ _ => Avoids.ok _ _

theorem debit_avoids (bm : BalanceManager) (token : String) (amount : Nat) : Avoids Deadly (bm.debit token amount) :=
  (need_avoids (by simp [Deadly])).bind fun _ _ => check_bind_avoids (by simp [Deadly]) fun _ => Avoids.ok _ _

theorem credit_avoids (bm : BalanceManager) (token : String) (amount : Nat) : Avoids Deadly (bm.credit token amount) :=
  (fit_avoids (by simp [Deadly])).bind fun _ _ => Avoids.ok _ _

theorem provide_avoids (ob : FillObligation) (side : Side) (funds : Nat) : Avoids Deadly (ob.provide side funds) := by
  refine check_bind_avoids (by simp [Deadly]) fun _ => check_bind_avoids (by simp [Deadly]) fun _ => ?_
  exact (fit_avoids (by simp [Deadly])).bind fun _ _ => Avoids.ok _ _

theorem takeDue_avoids (ob : FillObligation) (side : Side) : Avoids Deadly (ob.takeDue side) := by
  refine check_bind_avoids (by simp [Deadly]) fun _ => check_bind_avoids (by simp [Deadly]) fun _ => ?_
  exact check_bind_avoids (by simp [Deadly]) fun _ => Avoids.ok _ _

namespace Market

variable {natives : Natives} {s : Market}

theorem manager_avoids (id : ID) : Avoids Deadly (s.manager id) := need_avoids (by simp [Deadly])

theorem obligation_avoids (index : Nat) : Avoids Deadly (s.obligation index) := need_avoids (by simp [Deadly])

theorem provideLeg_avoids (side : Side) (index funds : Nat) : Avoids Deadly (s.provideLeg side index funds) :=
  (obligation_avoids _).bind fun _ _ => (provide_avoids _ _ _).bind fun _ _ => Avoids.ok _ _

theorem provideLegFromManager_avoids (side : Side) (index : Nat) (id : ID) :
    Avoids Deadly (s.provideLegFromManager side index id) := by
  refine (obligation_avoids _).bind fun _ _ => (manager_avoids _).bind fun _ _ => ?_
  refine check_bind_avoids (by simp [Deadly]) fun _ => (debit_avoids _ _ _).bind fun _ _ => ?_
  exact (provide_avoids _ _ _).bind fun _ _ => Avoids.ok _ _

theorem collectLegToManager_avoids (side : Side) (index : Nat) (id : ID) :
    Avoids Deadly (s.collectLegToManager side index id) := by
  refine (obligation_avoids _).bind fun _ _ => (manager_avoids _).bind fun _ _ => ?_
  refine check_bind_avoids (by simp [Deadly]) fun _ => (takeDue_avoids _ _).bind fun _ _ => ?_
  exact (credit_avoids _ _ _).bind fun _ _ => Avoids.ok _ _

theorem collectLeg_avoids (side : Side) (index : Nat) (escrow : EscrowBinding) :
    Avoids Deadly (s.collectLeg side index escrow) := by
  refine (obligation_avoids _).bind fun _ _ => check_bind_avoids (by simp [Deadly]) fun _ => ?_
  exact (takeDue_avoids _ _).bind fun _ _ => Avoids.ok _ _

theorem finish_avoids (index : Nat) : Avoids Deadly (s.finish index) := by
  refine (obligation_avoids _).bind fun _ _ => check_bind_avoids (by simp [Deadly]) fun _ => ?_
  refine check_bind_avoids (by simp [Deadly]) fun _ => check_bind_avoids (by simp [Deadly]) fun _ => ?_
  refine check_bind_avoids (by simp [Deadly]) fun _ => (depositFee_avoids _ _ _).bind fun _ _ => ?_
  exact (depositFee_avoids _ _ _).bind fun _ _ => Avoids.ok _ _

def Call.Discharges (what : Call) : Prop := ∃ index, (∃ which, what.touch = .leg index which) ∨ what.touch = .ends index

theorem discharge_avoids {what : Call} (discharges : what.Discharges) : Avoids Deadly (s.call natives what) := by
  have second : ∀ {ran : Result Error (Nat × Market)}, Avoids Deadly ran → Avoids Deadly ((·.2) <$> ran) := by
    intro ran fine why failed
    cases ran with
    | ok value => cases failed
    | error reason =>
      cases failed
      exact fine _ rfl
  cases what with
  | provideBase index funds => exact provideLeg_avoids _ _ _
  | provideQuote index funds => exact provideLeg_avoids _ _ _
  | provideBaseFromManager index bm => exact provideLegFromManager_avoids _ _ _
  | provideQuoteFromManager index bm => exact provideLegFromManager_avoids _ _ _
  | collectQuoteToManager index bm => exact collectLegToManager_avoids _ _ _
  | collectBaseToManager index bm => exact collectLegToManager_avoids _ _ _
  | collectQuoteWithCap index capId => exact second (collectLeg_avoids _ _ _)
  | collectBaseWithCap index capId => exact second (collectLeg_avoids _ _ _)
  | collectQuoteBearer index => exact second (collectLeg_avoids _ _ _)
  | collectBaseBearer index => exact second (collectLeg_avoids _ _ _)
  | finish index => exact finish_avoids _
  | _ =>
    obtain ⟨index, ⟨which, touches⟩ | touches⟩ := discharges <;> cases touches

end Market

/-! ### The validation of an order -/

theorem ingress_avoids (domain : DomainState) (who : Address) : Avoids Deadly (domain.assertIngressAllowed who) :=
  check_bind_avoids (by simp [Deadly]) fun _ => check_avoids (by simp [Deadly])

theorem verifySignature_avoids (natives : Natives) (digest signature publicKey : Bytes) :
    Avoids Deadly (verifySignature natives digest signature publicKey) := by
  have address : ∀ flag, Avoids Deadly (deriveAddress natives flag publicKey) := fun flag =>
    check_bind_avoids (by simp [Deadly]) fun _ => Avoids.ok _ _
  refine check_bind_avoids (by simp [Deadly]) fun _ => ?_
  simp only
  split
  · exact check_bind_avoids (by simp [Deadly]) fun _ => (address _).bind fun _ _ => Avoids.ok _ _
  · split
    · refine check_bind_avoids (by simp [Deadly]) fun _ => check_bind_avoids (by simp [Deadly]) fun _ => ?_
      exact (address _).bind fun _ _ => Avoids.ok _ _
    · intro why failed
      cases failed
      exact id

section Validation

variable {natives : Natives} {reg : SettlementRegistry} {domain : DomainState} {now : Nat} {bmId : ID}
  {bm : BalanceManager} {bytes signature publicKey : Bytes} {side : Side} {expectedTaker txSender : Address}

theorem validate_live {ord : Order} {hash : Bytes} (ran : validate natives reg domain now bmId bm bytes signature publicKey
    side expectedTaker txSender = .ok (ord, hash)) : fromBytes bytes = .ok ord ∧ now < ord.expiryMs.toNat := by
  unfold validate at ran
  obtain ⟨-, ran⟩ := check_bind_ok.mp ran
  obtain ⟨-, -, ran⟩ := bind_ok.mp ran
  obtain ⟨read, decoded, ran⟩ := bind_ok.mp ran
  obtain ⟨-, ran⟩ := check_bind_ok.mp ran
  obtain ⟨live, ran⟩ := check_bind_ok.mp ran
  obtain ⟨-, ran⟩ := check_bind_ok.mp ran
  obtain ⟨-, ran⟩ := check_bind_ok.mp ran
  obtain ⟨-, ran⟩ := check_bind_ok.mp ran
  obtain ⟨-, ran⟩ := check_bind_ok.mp ran
  obtain ⟨-, ran⟩ := check_bind_ok.mp ran
  obtain ⟨-, ran⟩ := check_bind_ok.mp ran
  obtain ⟨_, -, ran⟩ := bind_ok.mp ran
  obtain ⟨-, produced⟩ := check_pure_ok.mp ran
  cases produced
  exact ⟨decoded, live⟩

theorem validate_expired (failed : validate natives reg domain now bmId bm bytes signature publicKey side expectedTaker
    txSender = .error (.code .expired)) : ∃ ord, fromBytes bytes = .ok ord ∧ ord.expiryMs.toNat ≤ now := by
  unfold validate at failed
  obtain ⟨-, failed⟩ := (check_bind_error (by decide)).mp failed
  rcases bind_error.mp failed with gated | ⟨-, -, failed⟩
  · exact absurd trivial (ingress_avoids _ _ _ gated)
  rcases bind_error.mp failed with unread | ⟨ord, decoded, failed⟩
  · exact absurd trivial (fromBytes_avoids _ _ unread)
  obtain ⟨-, failed⟩ := (check_bind_error (by decide)).mp failed
  refine ⟨ord, decoded, Nat.le_of_not_lt fun live => ?_⟩
  -- past the expiry check the code does not occur again
  rw [check_of live] at failed
  obtain ⟨-, failed⟩ := (check_bind_error (by decide)).mp failed
  obtain ⟨-, failed⟩ := (check_bind_error (by decide)).mp failed
  obtain ⟨-, failed⟩ := (check_bind_error (by decide)).mp failed
  obtain ⟨-, failed⟩ := (check_bind_error (by decide)).mp failed
  obtain ⟨-, failed⟩ := (check_bind_error (by decide)).mp failed
  obtain ⟨-, failed⟩ := (check_bind_error (by decide)).mp failed
  rcases bind_error.mp failed with unsigned | ⟨_, -, failed⟩
  · exact absurd trivial (verifySignature_avoids _ _ _ _ _ unsigned)
  · cases (check_pure_error.mp failed).2

end Validation

namespace Market

variable {natives : Natives} {s : Market}

/-- The validation of one order of a match, as both entries call it. -/
def validated (natives : Natives) (s : Market) (bm : BalanceManager) (signed : SignedOrder) (side : Side)
    (counterparty : Address) : Result Error (Order × Bytes) :=
  validate natives s.registry s.domain s.now signed.manager bm signed.bytes signed.signature signed.publicKey side
    counterparty s.sender

/-- Order `A` is validated first, and order `B` when `A` has passed. -/
structure StoppedBy (natives : Natives) (s : Market) (a b : SignedOrder) (why : Abort Error) where
  bmA : BalanceManager
  bmB : BalanceManager
  peekA : Order
  peekB : Order
  heldA : s.managers a.manager = some bmA
  heldB : s.managers b.manager = some bmB
  readA : fromBytes a.bytes = .ok peekA
  readB : fromBytes b.bytes = .ok peekB
  stopped : s.validated natives bmA a .base peekB.maker = .error why ∨
    (∃ passed, s.validated natives bmA a .base peekB.maker = .ok passed) ∧
      s.validated natives bmB b .quote peekA.maker = .error why

theorem recordMatch_deadly {a b : SignedOrder} {bmA bmB : BalanceManager} {fillBaseAmount : Nat} {why : Abort Error}
    (heldA : s.managers a.manager = some bmA) (heldB : s.managers b.manager = some bmB)
    (failed : s.recordMatch natives a.manager bmA b.manager bmB a.bytes a.signature a.publicKey b.bytes b.signature
      b.publicKey fillBaseAmount = .error why) (deadly : Deadly why) : Nonempty (StoppedBy natives s a b why) := by
  unfold recordMatch at failed
  rcases bind_error.mp failed with unread | ⟨peekA, readA, failed⟩
  · exact absurd deadly (fromBytes_avoids _ _ unread)
  rcases bind_error.mp failed with unread | ⟨peekB, readB, failed⟩
  · exact absurd deadly (fromBytes_avoids _ _ unread)
  rcases bind_error.mp failed with first | ⟨⟨ordA, digestA⟩, passed, failed⟩
  · exact ⟨⟨bmA, bmB, peekA, peekB, heldA, heldB, readA, readB, Or.inl first⟩⟩
  rcases bind_error.mp failed with second | ⟨⟨ordB, digestB⟩, -, failed⟩
  · exact ⟨⟨bmA, bmB, peekA, peekB, heldA, heldB, readA, readB, Or.inr ⟨⟨_, passed⟩, second⟩⟩⟩
  rcases bind_error.mp failed with terms | ⟨⟨quoteAmount, feeA, feeB⟩, -, failed⟩
  · exact absurd deadly (matchTerms_avoids _ _ _ _ _ _ terms)
  rcases bind_error.mp failed with recorded | ⟨⟨totalA, reg⟩, -, failed⟩
  · exact absurd deadly (recordFill_avoids _ _ _ _ _ _ recorded)
  rcases bind_error.mp failed with recorded | ⟨⟨totalB, reg⟩, -, failed⟩
  · exact absurd deadly (recordFill_avoids _ _ _ _ _ _ recorded)
  · cases failed

theorem matchOrders_deadly {a b : SignedOrder} {fillBaseAmount : Nat} {why : Abort Error}
    (failed : s.matchOrders natives a.manager b.manager a.bytes a.signature a.publicKey b.bytes b.signature b.publicKey
      fillBaseAmount = .error why) (deadly : Deadly why) : Nonempty (StoppedBy natives s a b why) := by
  unfold matchOrders at failed
  rcases bind_error.mp failed with aliased | ⟨-, -, failed⟩
  · exact absurd deadly (check_avoids (by simp [Deadly]) _ aliased)
  rcases bind_error.mp failed with missing | ⟨bmA, heldA, failed⟩
  · exact absurd deadly (manager_avoids _ _ missing)
  rcases bind_error.mp failed with missing | ⟨bmB, heldB, failed⟩
  · exact absurd deadly (manager_avoids _ _ missing)
  rcases bind_error.mp failed with recording | ⟨m, -, failed⟩
  · exact recordMatch_deadly (manager_ok heldA) (manager_ok heldB) recording deadly
  -- the transfers that follow have codes of their own
  have transfers : Avoids Deadly (.error why : Result Error Market) := by
    rw [← failed]
    refine (debit_avoids _ _ _).bind fun _ _ => check_bind_avoids (by simp [Deadly]) fun _ => ?_
    refine (depositFee_avoids _ _ _).bind fun _ _ => (credit_avoids _ _ _).bind fun _ _ => ?_
    refine (debit_avoids _ _ _).bind fun _ _ => check_bind_avoids (by simp [Deadly]) fun _ => ?_
    exact (depositFee_avoids _ _ _).bind fun _ _ => (credit_avoids _ _ _).bind fun _ _ => Avoids.ok _ _
  exact absurd deadly (transfers _ rfl)

theorem beginMatch_deadly {a b : SignedOrder} {fillBaseAmount : Nat} {why : Abort Error}
    (failed : s.beginMatch natives a.manager b.manager a.bytes a.signature a.publicKey b.bytes b.signature b.publicKey
      fillBaseAmount = .error why) (deadly : Deadly why) : Nonempty (StoppedBy natives s a b why) := by
  unfold beginMatch at failed
  rcases bind_error.mp failed with missing | ⟨bmA, heldA, failed⟩
  · exact absurd deadly (manager_avoids _ _ missing)
  rcases bind_error.mp failed with missing | ⟨bmB, heldB, failed⟩
  · exact absurd deadly (manager_avoids _ _ missing)
  rcases bind_error.mp failed with same | ⟨-, -, failed⟩
  · exact absurd deadly (check_avoids (by simp [Deadly]) _ same)
  rcases bind_error.mp failed with recording | ⟨m, -, failed⟩
  · exact recordMatch_deadly (manager_ok heldA) (manager_ok heldB) recording deadly
  rcases bind_error.mp failed with fee | ⟨dueA, -, failed⟩
  · exact absurd deadly (sub_avoids (by simp [Deadly]) _ fee)
  rcases bind_error.mp failed with fee | ⟨dueB, -, failed⟩
  · exact absurd deadly (sub_avoids (by simp [Deadly]) _ fee)
  · cases failed

end Market

end SuiOptions.Exchange
