import SuiOptions.Exchange.FillEffects
import SuiOptions.Exchange.FillBound

/-! Who may speak for an address.

Orders and watermarks belong to an address; managers lend that address to other
keys, through their owner field and their approved signers. A market is traced
here together with the holders of owner caps, the creators of managers and the
senders who approved each signer.
-/

set_option autoImplicit false

namespace SuiOptions.Exchange

open Execution Move

/-! ### What a call leaves alone -/

namespace BalanceManager

/-- Two states of a manager with one owner and one set of signers. -/
def SameHands (bm next : BalanceManager) : Prop := next.owner = bm.owner ∧ next.approvedSigners = bm.approvedSigners

variable {bm next : BalanceManager}

theorem SameHands.trans {first second third : BalanceManager} (left : SameHands first second)
    (right : SameHands second third) : SameHands first third :=
  ⟨right.1.trans left.1, right.2.trans left.2⟩

theorem debit_hands {token : String} {amount : Nat} (ran : bm.debit token amount = .ok next) : SameHands bm next := by
  obtain ⟨held, -, ran⟩ := bind_ok.mp ran
  obtain ⟨-, rfl⟩ := check_pure_ok.mp ran
  exact ⟨rfl, rfl⟩

theorem credit_hands {token : String} {amount : Nat} (ran : bm.credit token amount = .ok next) : SameHands bm next := by
  obtain ⟨total, -, produced⟩ := bind_ok.mp ran
  cases produced
  exact ⟨rfl, rfl⟩

end BalanceManager

namespace Market

open BalanceManager

/-- No watermark moves, and no manager appears or changes hands. -/
structure Frame (s next : Market) : Prop where
  managers : ∀ id after, next.managers id = some after → ∃ before, s.managers id = some before ∧ SameHands before after
  watermarks : next.registry.saltWatermarks = s.registry.saltWatermarks

variable {natives : Natives} {s next : Market}

theorem frame_of_same (managers : next.managers = s.managers)
    (watermarks : next.registry.saltWatermarks = s.registry.saltWatermarks) : Frame s next :=
  ⟨fun id after found => ⟨after, by rw [← managers, found], rfl, rfl⟩, watermarks⟩

theorem frame_of_update {id : ID} {bm moved : BalanceManager} (found : s.managers id = some bm) (hands : SameHands bm moved)
    (managers : next.managers = Function.update s.managers id (some moved))
    (watermarks : next.registry.saltWatermarks = s.registry.saltWatermarks) : Frame s next := by
  refine ⟨fun other after here => ?_, watermarks⟩
  rw [managers] at here
  by_cases same : other = id
  · subst same
    rw [Function.update_self] at here
    cases here
    exact ⟨bm, found, hands⟩
  · rw [Function.update_of_ne same] at here
    exact ⟨after, here, rfl, rfl⟩

theorem fillWith_frame {side : Side} {makerBmId : ID} {orderBytes signature publicKey : Bytes}
    {takerCoin takerFillAmount minMakerAmountOut out change : Nat}
    (ran : s.fillWith natives side makerBmId orderBytes signature publicKey takerCoin takerFillAmount
      minMakerAmountOut = .ok (out, change, next)) : Frame s next := by
  unfold fillWith at ran
  obtain ⟨makerBm, found, ran⟩ := bind_ok.mp ran
  obtain ⟨⟨ord, target, terms⟩, -, ran⟩ := bind_ok.mp ran
  obtain ⟨-, ran⟩ := check_bind_ok.mp ran
  obtain ⟨-, ran⟩ := check_bind_ok.mp ran
  obtain ⟨first, makerFee, ran⟩ := bind_ok.mp ran
  obtain ⟨credited, credit, ran⟩ := bind_ok.mp ran
  obtain ⟨debited, debit, ran⟩ := bind_ok.mp ran
  obtain ⟨-, ran⟩ := check_bind_ok.mp ran
  obtain ⟨second, takerFee, ran⟩ := bind_ok.mp ran
  obtain ⟨⟨total, reg⟩, recorded, produced⟩ := bind_ok.mp ran
  cases produced
  have books := (SettlementRegistry.depositFee_ok makerFee).trans (SettlementRegistry.depositFee_ok takerFee)
  obtain ⟨-, -, rfl⟩ := SettlementRegistry.recordFill_ok recorded
  exact frame_of_update (manager_ok found) ((credit_hands credit).trans (debit_hands debit)) rfl books.saltWatermarks

theorem beginFillImpl_frame {side : Side} {makerBmId : ID} {orderBytes signature publicKey : Bytes}
    {takerFillAmount minMakerAmountOut : Nat}
    (ran : s.beginFillImpl natives side makerBmId orderBytes signature publicKey takerFillAmount
      minMakerAmountOut = .ok next) : Frame s next := by
  unfold beginFillImpl at ran
  obtain ⟨makerBm, -, ran⟩ := bind_ok.mp ran
  obtain ⟨⟨ord, target, terms⟩, -, ran⟩ := bind_ok.mp ran
  obtain ⟨⟨total, reg⟩, recorded, ran⟩ := bind_ok.mp ran
  obtain ⟨makerDue, -, ran⟩ := bind_ok.mp ran
  obtain ⟨takerDue, -, produced⟩ := bind_ok.mp ran
  cases produced
  obtain ⟨-, -, rfl⟩ := SettlementRegistry.recordFill_ok recorded
  exact frame_of_same rfl rfl

theorem matchOrders_frame {idA idB : ID} {orderABytes sigA pkA orderBBytes sigB pkB : Bytes} {fillBaseAmount : Nat}
    (ran : s.matchOrders natives idA idB orderABytes sigA pkA orderBBytes sigB pkB fillBaseAmount = .ok next) :
    Frame s next := by
  unfold matchOrders at ran
  obtain ⟨apart, ran⟩ := check_bind_ok.mp ran
  obtain ⟨bmA, foundA, ran⟩ := bind_ok.mp ran
  obtain ⟨bmB, foundB, ran⟩ := bind_ok.mp ran
  obtain ⟨m, recorded, ran⟩ := bind_ok.mp ran
  obtain ⟨paidA, debitA, ran⟩ := bind_ok.mp ran
  obtain ⟨-, ran⟩ := check_bind_ok.mp ran
  obtain ⟨first, feeB, ran⟩ := bind_ok.mp ran
  obtain ⟨creditedB, creditB, ran⟩ := bind_ok.mp ran
  obtain ⟨paidB, debitB, ran⟩ := bind_ok.mp ran
  obtain ⟨-, ran⟩ := check_bind_ok.mp ran
  obtain ⟨second, feeA, ran⟩ := bind_ok.mp ran
  obtain ⟨creditedA, creditA, produced⟩ := bind_ok.mp ran
  cases produced
  have books := (SettlementRegistry.depositFee_ok feeB).trans (SettlementRegistry.depositFee_ok feeA)
  refine ⟨fun id after here => ?_, books.saltWatermarks.trans (recordMatch_ok recorded).watermarks⟩
  simp only at here
  by_cases isB : id = idB
  · subst isB
    rw [Function.update_self] at here
    cases here
    exact ⟨bmB, manager_ok foundB, (credit_hands creditB).trans (debit_hands debitB)⟩
  · rw [Function.update_of_ne isB] at here
    by_cases isA : id = idA
    · subst isA
      rw [Function.update_self] at here
      cases here
      exact ⟨bmA, manager_ok foundA, (debit_hands debitA).trans (credit_hands creditA)⟩
    · rw [Function.update_of_ne isA] at here
      exact ⟨after, here, rfl, rfl⟩

theorem beginMatch_frame {idA idB : ID} {orderABytes sigA pkA orderBBytes sigB pkB : Bytes} {fillBaseAmount : Nat}
    (ran : s.beginMatch natives idA idB orderABytes sigA pkA orderBBytes sigB pkB fillBaseAmount = .ok next) :
    Frame s next := by
  unfold beginMatch at ran
  obtain ⟨bmA, -, ran⟩ := bind_ok.mp ran
  obtain ⟨bmB, -, ran⟩ := bind_ok.mp ran
  obtain ⟨-, ran⟩ := check_bind_ok.mp ran
  obtain ⟨m, recorded, ran⟩ := bind_ok.mp ran
  obtain ⟨dueA, -, ran⟩ := bind_ok.mp ran
  obtain ⟨dueB, -, produced⟩ := bind_ok.mp ran
  cases produced
  exact frame_of_same rfl (recordMatch_ok recorded).watermarks

theorem provideLeg_frame {side : Side} {index funds : Nat} (ran : s.provideLeg side index funds = .ok next) :
    Frame s next := by
  unfold provideLeg at ran
  obtain ⟨ob, -, ran⟩ := bind_ok.mp ran
  obtain ⟨paid, -, produced⟩ := bind_ok.mp ran
  cases produced
  exact frame_of_same rfl rfl

theorem provideLegFromManager_frame {side : Side} {index : Nat} {id : ID}
    (ran : s.provideLegFromManager side index id = .ok next) : Frame s next := by
  unfold provideLegFromManager at ran
  obtain ⟨ob, -, ran⟩ := bind_ok.mp ran
  obtain ⟨bm, found, ran⟩ := bind_ok.mp ran
  obtain ⟨-, ran⟩ := check_bind_ok.mp ran
  obtain ⟨debited, debit, ran⟩ := bind_ok.mp ran
  obtain ⟨paid, -, produced⟩ := bind_ok.mp ran
  cases produced
  exact frame_of_update (manager_ok found) (debit_hands debit) rfl rfl

theorem collectLegToManager_frame {side : Side} {index : Nat} {id : ID}
    (ran : s.collectLegToManager side index id = .ok next) : Frame s next := by
  unfold collectLegToManager at ran
  obtain ⟨ob, -, ran⟩ := bind_ok.mp ran
  obtain ⟨bm, found, ran⟩ := bind_ok.mp ran
  obtain ⟨-, ran⟩ := check_bind_ok.mp ran
  obtain ⟨⟨due, paid⟩, -, ran⟩ := bind_ok.mp ran
  obtain ⟨credited, credit, produced⟩ := bind_ok.mp ran
  cases produced
  exact frame_of_update (manager_ok found) (credit_hands credit) rfl rfl

theorem collectLeg_frame {side : Side} {index due : Nat} {escrow : EscrowBinding}
    (ran : s.collectLeg side index escrow = .ok (due, next)) : Frame s next := by
  unfold collectLeg at ran
  obtain ⟨ob, -, ran⟩ := bind_ok.mp ran
  obtain ⟨-, ran⟩ := check_bind_ok.mp ran
  obtain ⟨⟨amount, paid⟩, -, produced⟩ := bind_ok.mp ran
  cases produced
  exact frame_of_same rfl rfl

theorem finish_frame {index : Nat} (ran : s.finish index = .ok next) : Frame s next := by
  unfold finish at ran
  obtain ⟨ob, -, ran⟩ := bind_ok.mp ran
  obtain ⟨-, ran⟩ := check_bind_ok.mp ran
  obtain ⟨-, ran⟩ := check_bind_ok.mp ran
  obtain ⟨-, ran⟩ := check_bind_ok.mp ran
  obtain ⟨-, ran⟩ := check_bind_ok.mp ran
  obtain ⟨first, feeBase, ran⟩ := bind_ok.mp ran
  obtain ⟨second, feeQuote, produced⟩ := bind_ok.mp ran
  cases produced
  exact frame_of_same rfl
    ((SettlementRegistry.depositFee_ok feeBase).trans (SettlementRegistry.depositFee_ok feeQuote)).saltWatermarks

theorem gc_watermarks {now : Nat} {digests : List Bytes} {reg after : SettlementRegistry}
    (ran : SettlementRegistry.gc now reg digests = .ok after) : after.saltWatermarks = reg.saltWatermarks := by
  refine exec_invariant (SettlementRegistry.gcOne now) (fun state => state.saltWatermarks = reg.saltWatermarks)
    (fun state target next held collected => ?_) rfl ran
  rcases SettlementRegistry.gcOne_ok collected with rfl | ⟨entry, -, -, rfl⟩
  · exact held
  · exact held

def Call.Plain : Call → Prop
  | .cancelUpTo _ | .cancelUpToForManager _ _ | .newManager _ | .newWithOwnerCap _ _ | .manage _ _ => False
  | _ => True

theorem call_frame {what : Call} (plain : what.Plain) (ran : s.call natives what = .ok next) : Frame s next := by
  cases what with
  | fillLimitOrder | fillLimitOrderReverse =>
    obtain ⟨⟨out, change, after⟩, filled, rfl⟩ := map_ok ran
    exact fillWith_frame filled
  | beginFill | beginFillReverse => exact beginFillImpl_frame ran
  | matchOrders => exact matchOrders_frame ran
  | beginMatch => exact beginMatch_frame ran
  | provideBase | provideQuote => exact provideLeg_frame ran
  | provideBaseFromManager | provideQuoteFromManager => exact provideLegFromManager_frame ran
  | collectQuoteToManager | collectBaseToManager => exact collectLegToManager_frame ran
  | collectQuoteWithCap | collectBaseWithCap | collectQuoteBearer | collectBaseBearer =>
    obtain ⟨⟨due, after⟩, collected, rfl⟩ := map_ok ran
    exact collectLeg_frame collected
  | finish => exact finish_frame ran
  | cancel =>
    obtain ⟨ord, -, ran⟩ := bind_ok.mp ran
    obtain ⟨-, rfl⟩ := check_pure_ok.mp ran
    exact frame_of_same rfl rfl
  | cancelUpTo | cancelUpToForManager | newManager | newWithOwnerCap | manage => cases plain
  | gc =>
    obtain ⟨reg, collected, produced⟩ := bind_ok.mp ran
    cases produced
    exact frame_of_same rfl (gc_watermarks collected)
  | admin =>
    obtain ⟨reg, changed, produced⟩ := bind_ok.mp ran
    cases produced
    exact frame_of_same rfl (admin_ok changed).saltWatermarks
  | gate =>
    obtain ⟨domain, -, produced⟩ := bind_ok.mp ran
    cases produced
    exact frame_of_same rfl rfl

/-- What a call on a manager does to its signers: nothing, approve one or drop one. -/
theorem manage_ok {id : ID} {bm after : BalanceManager} {what : ManagerCall} (ran : s.manage id bm what = .ok after) :
    after.owner = bm.owner ∧
      match what with
      | .addSigner signer => s.sender = bm.owner ∧ after.approvedSigners = bm.approvedSigners ++ [signer]
      | .addSignerWithCap _ signer => after.approvedSigners = bm.approvedSigners ++ [signer]
      | _ => ∀ signer ∈ after.approvedSigners, signer ∈ bm.approvedSigners := by
  have added : ∀ {signer : Address}, bm.addSignerInternal signer = .ok after →
      after.owner = bm.owner ∧ after.approvedSigners = bm.approvedSigners ++ [signer] := by
    intro signer ran
    obtain ⟨-, ran⟩ := check_bind_ok.mp ran
    obtain ⟨-, rfl⟩ := check_pure_ok.mp ran
    exact ⟨rfl, rfl⟩
  have removed : ∀ {signer : Address}, bm.removeSignerInternal signer = .ok after →
      after.owner = bm.owner ∧ ∀ other ∈ after.approvedSigners, other ∈ bm.approvedSigners := by
    intro signer ran
    obtain ⟨-, rfl⟩ := check_pure_ok.mp ran
    exact ⟨rfl, fun other member => List.mem_of_mem_erase member⟩
  have kept : SameHands bm after → after.owner = bm.owner ∧ ∀ signer ∈ after.approvedSigners, signer ∈ bm.approvedSigners :=
    fun hands => ⟨hands.1, fun signer member => hands.2 ▸ member⟩
  cases what with
  | deposit token amount | depositWithCap capId token amount =>
    obtain ⟨-, -, ran⟩ := bind_ok.mp ran
    obtain ⟨-, ran⟩ := check_bind_ok.mp ran
    exact kept (credit_hands ran)
  | withdraw token amount | withdrawWithCap capId token amount =>
    obtain ⟨-, ran⟩ := check_bind_ok.mp ran
    exact kept (debit_hands ran)
  | addSigner signer =>
    obtain ⟨sent, ran⟩ := check_bind_ok.mp ran
    exact ⟨(added ran).1, sent, (added ran).2⟩
  | addSignerWithCap capId signer =>
    obtain ⟨-, ran⟩ := check_bind_ok.mp ran
    exact added ran
  | removeSigner signer | removeSignerWithCap capId signer =>
    obtain ⟨-, ran⟩ := check_bind_ok.mp ran
    exact removed ran

end Market

/-! ### Traced markets -/

/-- Where an `OwnerCap` is: with an address, or in an object whose code lends it to the senders it accepts. -/
inductive CapHolder where
  | wallet (who : Address)
  | object
  deriving DecidableEq, Repr

structure TracedMarket where
  market : Market
  capHolder : ID → Option CapHolder
  /-- The sender of the transaction that created a manager. -/
  creator : ID → Option Address
  /-- The sender of the transaction that last approved a signer on a manager. -/
  approver : ID → Address → Option Address

/-- The manager whose `OwnerCap` a call presents. -/
def Market.Call.cap : Market.Call → Option ID
  | .manage _ (.depositWithCap capId _ _) | .manage _ (.withdrawWithCap capId _ _)
  | .manage _ (.addSignerWithCap capId _) | .manage _ (.removeSignerWithCap capId _)
  | .collectQuoteWithCap _ capId | .collectBaseWithCap _ capId => some capId
  | _ => none

inductive TracedEvent where
  | tick (now : Nat)
  | transaction (sender : Address)
  | call (what : Market.Call)
  | moveCap (id : ID) (holder : CapHolder)

namespace TracedMarket

variable (natives : Natives) (t : TracedMarket)

def mayUse (id : ID) : Bool := t.capHolder id = some (.wallet t.market.sender) ∨ t.capHolder id = some .object

def trace (next : Market) : Market.Call → TracedMarket
  | .newManager id => { t with market := next, creator := Function.update t.creator id (some t.market.sender) }
  | .newWithOwnerCap id _ =>
    { t with
      market := next
      creator := Function.update t.creator id (some t.market.sender)
      capHolder := Function.update t.capHolder id (some (.wallet t.market.sender)) }
  | .manage id (.addSigner signer) | .manage id (.addSignerWithCap _ signer) =>
    { t with
      market := next
      approver := Function.update t.approver id (Function.update (t.approver id) signer (some t.market.sender)) }
  | _ => { t with market := next }

def step : TracedEvent → Result Error TracedMarket
  | .tick now => do pure { t with market := ← t.market.step natives (.tick now) }
  | .transaction sender => do pure { t with market := ← t.market.step natives (.transaction sender) }
  | .call what => do
    check (what.cap.all t.mayUse = true) .wrongCap
    let next ← t.market.step natives (.call what)
    pure (t.trace next what)
  | .moveCap id holder => do
    check (t.mayUse id = true) .wrongCap
    pure { t with capHolder := Function.update t.capHolder id (some holder) }

/-- A new market: no manager exists. -/
def start (id : ID) (token : Side → String) (distinct : token .base ≠ token .quote) (feeBps : Nat) (domain : DomainState)
    (now : Nat) : TracedMarket :=
  ⟨Market.start (SettlementRegistry.newMarket id token distinct feeBps) domain now, fun _ => none, fun _ => none,
    fun _ _ => none⟩

/-- The signer is approved on a manager of the address, which the address created, and by the address. -/
def Delegated (m : Address) (id : ID) (signer : Address) : Prop :=
  ∃ bm, t.market.managers id = some bm ∧ bm.owner = m ∧ bm.isApprovedSigner signer = true ∧ t.creator id = some m ∧
    t.approver id signer = some m

/-- Nobody else creates a manager in the name of the address, or approves a signer on one of its managers. -/
def InOwnHands (m : Address) : TracedEvent → Prop
  | .call (.newWithOwnerCap _ owner) => owner = m → t.market.sender = m
  | .call (.manage id (.addSignerWithCap _ _)) =>
    ∀ bm, t.market.managers id = some bm → bm.owner = m → t.market.sender = m
  | _ => True

/-- Managers of the address were created by it, their signers approved by it. -/
def Own (m : Address) (t : TracedMarket) : Prop :=
  ∀ id bm, t.market.managers id = some bm → bm.owner = m →
    t.creator id = some m ∧ ∀ signer ∈ bm.approvedSigners, t.approver id signer = some m

variable {natives} {t}
variable {next : TracedMarket} {m : Address}

theorem Own.delegated {id : ID} {signer : Address} {bm : BalanceManager} (own : Own m t)
    (found : t.market.managers id = some bm) (owner : bm.owner = m) (approved : bm.isApprovedSigner signer = true) :
    t.Delegated m id signer := by
  obtain ⟨created, signers⟩ := own id bm found owner
  exact ⟨bm, found, owner, approved, created, signers signer (of_decide_eq_true approved)⟩

theorem Own.frame {after : Market} (own : Own m t) (frame : t.market.Frame after) : Own m { t with market := after } := by
  intro id bm found owner
  obtain ⟨before, known, hands⟩ := frame.managers id bm found
  obtain ⟨created, signers⟩ := own id before known (hands.1 ▸ owner)
  exact ⟨created, fun signer member => signers signer (hands.2 ▸ member)⟩

theorem Own.added {id : ID} {owner : Address} {after : Market} (own : Own m t)
    (ran : t.market.addManager id owner = .ok after) (sent : owner = m → t.market.sender = m)
    (market : next.market = after) (creator : next.creator = Function.update t.creator id (some t.market.sender))
    (approver : next.approver = t.approver) : Own m next := by
  obtain ⟨-, rfl⟩ := check_pure_ok.mp ran
  intro other bm found owned
  rw [market] at found
  simp only at found
  rw [creator, approver]
  by_cases same : other = id
  · subst same
    rw [Function.update_self] at found
    cases found
    rw [Function.update_self, sent owned]
    exact ⟨rfl, nofun⟩
  · rw [Function.update_of_ne same] at found
    rw [Function.update_of_ne same]
    exact own other bm found owned

/-- One manager changes, and whoever is new among its signers was approved by the owner. -/
theorem Own.managed {id : ID} {bm after : BalanceManager} (own : Own m t) (found : t.market.managers id = some bm)
    (owner : after.owner = bm.owner)
    (managers : next.market.managers = Function.update t.market.managers id (some after)) (creator : next.creator = t.creator)
    (others : ∀ other, other ≠ id → next.approver other = t.approver other)
    (signers : bm.owner = m → ∀ signer ∈ after.approvedSigners,
      signer ∈ bm.approvedSigners ∧ next.approver id signer = t.approver id signer ∨ next.approver id signer = some m) :
    Own m next := by
  intro other current here owned
  rw [managers] at here
  rw [creator]
  by_cases same : other = id
  · subst same
    rw [Function.update_self] at here
    cases here
    rw [owner] at owned
    obtain ⟨created, approved⟩ := own other bm found owned
    refine ⟨created, fun signer member => ?_⟩
    rcases signers owned signer member with ⟨old, kept⟩ | new
    · rw [kept, approved signer old]
    · exact new
  · rw [Function.update_of_ne same] at here
    rw [others other same]
    exact own other current here owned

theorem Own.manage {id : ID} {what : Market.ManagerCall} {after : Market} (own : Own m t)
    (hands : t.InOwnHands m (.call (.manage id what))) (ran : t.market.call natives (.manage id what) = .ok after) :
    Own m (t.trace after (.manage id what)) := by
  obtain ⟨bm, found, ran⟩ := bind_ok.mp ran
  obtain ⟨changed, managed, produced⟩ := bind_ok.mp ran
  cases produced
  have known := Market.manager_ok found
  obtain ⟨owner, effect⟩ := Market.manage_ok managed
  -- a freshly approved signer is recorded with the sender
  have approved : ∀ {signer : Address}, changed.approvedSigners = bm.approvedSigners ++ [signer] →
      (bm.owner = m → t.market.sender = m) → bm.owner = m → ∀ other ∈ changed.approvedSigners,
      other ∈ bm.approvedSigners ∧ Function.update (t.approver id) signer (some t.market.sender) other = t.approver id other ∨
        Function.update (t.approver id) signer (some t.market.sender) other = some m := by
    intro signer appended sent owned other member
    by_cases same : other = signer
    · right
      rw [same, Function.update_self, sent owned]
    · left
      rw [appended, List.mem_append, List.mem_singleton] at member
      exact ⟨member.resolve_right same, Function.update_of_ne same _ _⟩
  cases what with
  | addSigner signer =>
    refine own.managed known owner rfl rfl (fun other apart => Function.update_of_ne apart _ _) ?_
    simp only [trace, Function.update_self]
    exact approved effect.2 fun owned => effect.1.trans owned
  | addSignerWithCap capId signer =>
    refine own.managed known owner rfl rfl (fun other apart => Function.update_of_ne apart _ _) ?_
    simp only [trace, Function.update_self]
    exact approved effect fun owned => hands bm known owned
  | deposit | depositWithCap | withdraw | withdrawWithCap | removeSigner | removeSignerWithCap =>
    exact own.managed known owner rfl rfl (fun _ _ => rfl) fun _ signer member => Or.inl ⟨effect signer member, rfl⟩

theorem trace_plain {what : Market.Call} {after : Market} (plain : what.Plain) :
    t.trace after what = { t with market := after } := by
  cases what with
  | cancelUpTo | cancelUpToForManager | newManager | newWithOwnerCap | manage => cases plain
  | _ => rfl

theorem Own.step {event : TracedEvent} (own : Own m t) (hands : t.InOwnHands m event)
    (ran : t.step natives event = .ok next) : Own m next := by
  cases event with
  | tick now =>
    obtain ⟨after, ticked, produced⟩ := bind_ok.mp ran
    cases produced
    obtain ⟨-, ticked⟩ := check_bind_ok.mp ticked
    obtain ⟨-, rfl⟩ := check_pure_ok.mp ticked
    exact own
  | transaction sender =>
    obtain ⟨after, begun, produced⟩ := bind_ok.mp ran
    cases produced
    obtain ⟨-, rfl⟩ := check_pure_ok.mp begun
    exact own
  | moveCap id holder =>
    obtain ⟨-, rfl⟩ := check_pure_ok.mp ran
    exact own
  | call what =>
    obtain ⟨-, ran⟩ := check_bind_ok.mp ran
    obtain ⟨after, called, produced⟩ := bind_ok.mp ran
    cases produced
    by_cases plain : what.Plain
    · rw [trace_plain plain]
      exact own.frame (Market.call_frame plain called)
    cases what with
    | newManager id => exact own.added called (fun sent => sent) rfl rfl rfl
    | newWithOwnerCap id owner => exact own.added called hands rfl rfl rfl
    | manage id what =>
      have managed : t.market.call natives (.manage id what) = .ok after := called
      exact own.manage hands managed
    | cancelUpTo =>
      obtain ⟨-, rfl⟩ := check_pure_ok.mp called
      exact own
    | cancelUpToForManager =>
      obtain ⟨bm, -, called⟩ := bind_ok.mp called
      obtain ⟨-, called⟩ := check_bind_ok.mp called
      obtain ⟨-, rfl⟩ := check_pure_ok.mp called
      exact own
    | _ => exact absurd trivial plain

theorem own_start (id : ID) (token : Side → String) (distinct : token .base ≠ token .quote) (feeBps : Nat)
    (domain : DomainState) (now : Nat) : Own m (start id token distinct feeBps domain now) := nofun

/-! ### Watermarks -/

/-- A step moves the watermark of the address only in a transaction of the address or of a signer it delegated. -/
def WatermarkAuthority (natives : Natives) (m : Address) (t : TracedMarket) (event : TracedEvent) : Prop :=
  ∀ next, t.step natives event = .ok next →
    next.market.registry.watermark m ≠ t.market.registry.watermark m →
      t.market.sender = m ∨ ∃ id, t.Delegated m id t.market.sender

theorem voidSalts_watermark {s after : Market} {maker : Address} {minValidSalt : Nat}
    (ran : s.voidSalts maker minValidSalt = .ok after)
    (changed : after.registry.watermark m ≠ s.registry.watermark m) : maker = m := by
  obtain ⟨-, rfl⟩ := check_pure_ok.mp ran
  by_contra apart
  refine changed ?_
  simp [SettlementRegistry.watermark, SettlementRegistry.raiseWatermark, Function.update_of_ne (Ne.symm apart)]

theorem Own.watermark (own : Own m t) (event : TracedEvent) : WatermarkAuthority natives m t event := by
  intro next ran changed
  cases event with
  | tick now =>
    obtain ⟨after, ticked, produced⟩ := bind_ok.mp ran
    cases produced
    obtain ⟨-, ticked⟩ := check_bind_ok.mp ticked
    obtain ⟨-, rfl⟩ := check_pure_ok.mp ticked
    exact absurd rfl changed
  | transaction sender =>
    obtain ⟨after, begun, produced⟩ := bind_ok.mp ran
    cases produced
    obtain ⟨-, rfl⟩ := check_pure_ok.mp begun
    exact absurd rfl changed
  | moveCap id holder =>
    obtain ⟨-, rfl⟩ := check_pure_ok.mp ran
    exact absurd rfl changed
  | call what =>
    obtain ⟨-, ran⟩ := check_bind_ok.mp ran
    obtain ⟨after, called, produced⟩ := bind_ok.mp ran
    cases produced
    by_cases plain : what.Plain
    · rw [trace_plain plain] at changed
      have same := (Market.call_frame plain called).watermarks
      exact absurd (by simp [SettlementRegistry.watermark, same]) changed
    cases what with
    | cancelUpTo => exact Or.inl (voidSalts_watermark called changed)
    | cancelUpToForManager id =>
      obtain ⟨bm, found, called⟩ := bind_ok.mp called
      obtain ⟨approved, called⟩ := check_bind_ok.mp called
      exact Or.inr ⟨id, own.delegated (Market.manager_ok found) (voidSalts_watermark called changed) approved⟩
    | newManager id | newWithOwnerCap id owner =>
      obtain ⟨-, rfl⟩ := check_pure_ok.mp called
      exact absurd rfl changed
    | manage id what =>
      obtain ⟨bm, -, called⟩ := bind_ok.mp called
      obtain ⟨managed, -, produced⟩ := bind_ok.mp called
      cases produced
      refine absurd ?_ changed
      cases what <;> rfl
    | _ => exact absurd trivial plain

/-- In every run in which managers in the name of an address are created, and signers on them approved, by the
address alone, its watermark moves only in its own transactions and those of its delegates. -/
theorem watermark_authority (natives : Natives) (m : Address) (id : ID) (token : Side → String)
    (distinct : token .base ≠ token .quote) (feeBps : Nat) (domain : DomainState) (now : Nat) {events : List TracedEvent}
    (hands : Along (step natives) (fun t event => t.InOwnHands m event) (start id token distinct feeBps domain now) events) :
    Along (step natives) (WatermarkAuthority natives m) (start id token distinct feeBps domain now) events :=
  along_of_invariant (step natives) (Own m) (fun _ _ _ own hands ran => own.step hands ran)
    (fun _ event own _ => own.watermark event) (own_start id token distinct feeBps domain now) hands

end TracedMarket

/-! A market in which a manager is opened in the name of somebody else. -/

namespace Forged

open TracedMarket

/-- The hash of a flagged key is the key, so that a key is its own address; other inputs hash to themselves. A
signature starts with the key that made it. -/
def natives : Natives where
  blake2b256 input := if input.length = 33 then input.tail else input
  ed25519Verify sig publicKey _ := sig.take 32 = publicKey
  secp256k1Verify _ _ _ _ := false

def token : Side → String
  | .base => "BASE"
  | .quote => "QUOTE"

def opening : TracedMarket := start 100 token (by decide) 50 ⟨[], false, false⟩ 0

/-- The address whose name is used, and the sender who uses it. -/
def victim : Address := 5

def stranger : Address := 7

/-- A manager of the victim by the stranger, who approves itself with the cap. -/
def usurp : List TracedEvent :=
  [.transaction stranger, .call (.newWithOwnerCap 1 victim), .call (.manage 1 (.addSignerWithCap 1 stranger))]

/-- A stranger voids the orders of an address that has not sent a single transaction. -/
theorem stranger_raises_watermark :
    ∃ t, exec (step natives) opening usurp = .ok t ∧
      ¬ WatermarkAuthority natives victim t (.call (.cancelUpToForManager 1 99)) := by
  refine ⟨_, rfl, fun authority => ?_⟩
  rcases authority _ rfl (by decide) with sent | ⟨id, bm, -, -, -, created, -⟩
  · exact absurd sent (by decide)
  · have creator : Function.update (fun _ => none) 1 (some stranger) id = some victim := created
    rw [Function.update_apply] at creator
    split at creator
    · exact absurd creator (by decide)
    · cases creator

def ownHandsTest (m : Address) (t : TracedMarket) : TracedEvent → Bool
  | .call (.newWithOwnerCap _ _) | .call (.manage _ (.addSignerWithCap _ _)) => t.market.sender = m
  | _ => true

theorem ownHandsTest_sound {m : Address} (t : TracedMarket) (event : TracedEvent)
    (passed : ownHandsTest m t event = true) : t.InOwnHands m event := by
  unfold InOwnHands
  split
  · exact fun _ => of_decide_eq_true passed
  · exact fun _ _ _ => of_decide_eq_true passed
  · trivial

/-- The victim opens the manager itself and approves a hot key, which then voids its orders. -/
def delegate : List TracedEvent :=
  [.transaction victim, .call (.newWithOwnerCap 1 victim), .call (.manage 1 (.addSignerWithCap 1 9)), .transaction 9,
    .call (.cancelUpToForManager 1 99)]

theorem watermark_authority_delegate :
    Along (step natives) (fun t event => t.InOwnHands victim event) opening delegate ∧
      Along (step natives) (WatermarkAuthority natives victim) opening delegate := by
  have hands : Along (step natives) (fun t event => t.InOwnHands victim event) opening delegate :=
    along_of_test (step natives) (fun _ _ _ _ _ => trivial) (fun t event _ => ownHandsTest_sound t event) trivial
      (by decide +kernel)
  exact ⟨hands, watermark_authority natives victim 100 token (by decide) 50 ⟨[], false, false⟩ 0 hands⟩

end Forged

end SuiOptions.Exchange
