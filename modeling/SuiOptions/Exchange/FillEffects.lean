import SuiOptions.Exchange.Account
import SuiOptions.Lib.Sums

/-! What each call does to the account of an order.

A fill, classic or through an obligation, is one recorded step of the account; a
match is two. Legs and the end of an obligation change no account, because open
legs are counted in it from the start.
-/

set_option autoImplicit false

namespace SuiOptions.Exchange

open Execution Move

/-! ### Histories -/

section Tallies

variable {tally : Bytes → Tally} {moved : Tally} {target : Bytes}

theorem note_apply (tally : Bytes → Tally) (target : Bytes) (moved : Tally) (hash : Bytes) :
    note tally target moved hash = if target = hash then (tally hash).add moved else tally hash := by
  unfold note
  by_cases same : target = hash
  · subst same
    simp
  · rw [Function.update_of_ne (Ne.symm same), if_neg same]

theorem noteFor_apply (tally : Bytes → Tally) (order : Option Bytes) (moved : Tally) (hash : Bytes) :
    noteFor tally order moved hash = if order = some hash then (tally hash).add moved else tally hash := by
  cases order with
  | none => simp [noteFor]
  | some target => simp [noteFor, note_apply]

end Tallies

/-! ### Open legs -/

namespace FillObligation

/-- Maker token a leg still has to pay in for the order of a digest. -/
def owedBy (ob : FillObligation) (hash : Bytes) (side : Side) : Nat :=
  if ob.orderOf side = some hash ∧ (ob.leg side).provided = false then (ob.leg side).owes else 0

/-- Taker token a leg still has to be paid, its fee included. -/
def payableTo (ob : FillObligation) (hash : Bytes) (side : Side) : Nat :=
  if ob.orderOf side = some hash ∧ (ob.leg side).collected = false then ob.gross side else 0

def owed (hash : Bytes) (ob : FillObligation) : Nat := ob.owedBy hash .base + ob.owedBy hash .quote

def payable (hash : Bytes) (ob : FillObligation) : Nat := ob.payableTo hash .base + ob.payableTo hash .quote

theorem owed_eq (ob : FillObligation) (hash : Bytes) (side : Side) :
    ob.owed hash = ob.owedBy hash side + ob.owedBy hash side.other := by
  cases side with
  | base => rfl
  | quote => exact Nat.add_comm _ _

theorem payable_eq (ob : FillObligation) (hash : Bytes) (side : Side) :
    ob.payable hash = ob.payableTo hash side + ob.payableTo hash side.other := by
  cases side with
  | base => rfl
  | quote => exact Nat.add_comm _ _

variable {ob paid : FillObligation} {side : Side} {hash : Bytes}

end FillObligation

/-! ### The account of an order in a market -/

namespace Market

def account (order : Order) (hash : Bytes) (s : Market) : Account :=
  { entry := s.registry.fills hash
    watermark := s.registry.watermark order.maker
    now := s.now
    given := (s.tally hash).given + (s.obligations.map (FillObligation.owed hash)).sum
    taken := (s.tally hash).recorded
    received := (s.tally hash).received + (s.obligations.map (FillObligation.payable hash)).sum }

variable {order : Order} {hash : Bytes} {s next : Market}

end Market

/-! ### What validation and the terms guarantee -/

theorem muldivFloor_eq {a b c result : Nat} (ran : muldivFloor a b c = .ok result) : result = a * b / c := by
  unfold muldivFloor at ran
  obtain ⟨num, multiplied, ran⟩ := bind_ok.mp ran
  obtain ⟨quotient, divided, cast⟩ := bind_ok.mp ran
  obtain ⟨-, rfl⟩ := fit_ok.mp multiplied
  obtain ⟨-, rfl⟩ := div_ok.mp divided
  obtain ⟨-, rfl⟩ := fit_ok.mp cast
  rfl

theorem muldivFloor_ok {a b c result : Nat} (ran : muldivFloor a b c = .ok result) : result * c ≤ a * b := by
  rw [muldivFloor_eq ran]
  exact Nat.div_mul_le_self _ _

/-- An order that passes validation is the decoded one and is not dead. -/
structure Validated (natives : Natives) (reg : SettlementRegistry) (now : Nat) (orderBytes : Bytes)
    (ord : Order) (hash : Bytes) : Prop where
  decoded : fromBytes orderBytes = .ok ord
  hashed : hash = digest natives ord reg.id
  unexpired : now < ord.expiryMs.toNat
  salted : reg.watermark ord.maker < ord.salt.toNat
  uncancelled : reg.isCancelled hash = false

section Specifications

variable {natives : Natives} {reg next : SettlementRegistry} {domain : DomainState} {now : Nat} {makerBmId : ID}
  {makerBm : BalanceManager} {orderBytes signature publicKey : Bytes} {side : Side}
  {expectedTaker txSender : Address} {ord : Order} {hash : Bytes}

theorem validate_ok (ran : validate natives reg domain now makerBmId makerBm orderBytes signature publicKey side
    expectedTaker txSender = .ok (ord, hash)) : Validated natives reg now orderBytes ord hash := by
  unfold validate at ran
  obtain ⟨-, ran⟩ := check_bind_ok.mp ran
  obtain ⟨-, -, ran⟩ := bind_ok.mp ran
  obtain ⟨decodedOrder, decoded, ran⟩ := bind_ok.mp ran
  obtain ⟨-, ran⟩ := check_bind_ok.mp ran
  obtain ⟨unexpired, ran⟩ := check_bind_ok.mp ran
  obtain ⟨-, ran⟩ := check_bind_ok.mp ran
  obtain ⟨-, ran⟩ := check_bind_ok.mp ran
  obtain ⟨-, ran⟩ := check_bind_ok.mp ran
  obtain ⟨salted, ran⟩ := check_bind_ok.mp ran
  obtain ⟨uncancelled, ran⟩ := check_bind_ok.mp ran
  obtain ⟨-, ran⟩ := check_bind_ok.mp ran
  obtain ⟨verified, -, ran⟩ := bind_ok.mp ran
  obtain ⟨-, produced⟩ := check_pure_ok.mp ran
  obtain ⟨rfl, rfl⟩ := Prod.mk.inj produced
  exact ⟨decoded, rfl, unexpired, salted, uncancelled⟩

theorem fillTerms_ok {takerFillAmount : Nat} {taker : Address} {terms : FillTerms}
    (ran : fillTerms reg ord hash takerFillAmount taker = .ok terms) :
    0 < terms.fillT ∧ terms.fillM * ord.takerAmount.toNat ≤ terms.fillT * ord.makerAmount.toNat := by
  unfold fillTerms at ran
  obtain ⟨remaining, -, ran⟩ := bind_ok.mp ran
  obtain ⟨positive, ran⟩ := check_bind_ok.mp ran
  obtain ⟨fillM, priced, ran⟩ := bind_ok.mp ran
  obtain ⟨makerFee, -, ran⟩ := bind_ok.mp ran
  obtain ⟨takerFee, -, produced⟩ := bind_ok.mp ran
  cases produced
  exact ⟨positive, muldivFloor_ok priced⟩

theorem matchTerms_ok {ordA ordB : Order} {fillBaseAmount feeABps feeBBps quoteAmount feeA feeB : Nat}
    (ran : matchTerms ordA ordB fillBaseAmount feeABps feeBBps = .ok (quoteAmount, feeA, feeB)) :
    0 < fillBaseAmount ∧ 0 < quoteAmount ∧
      fillBaseAmount * ordA.takerAmount.toNat ≤ quoteAmount * ordA.makerAmount.toNat ∧
      quoteAmount * ordB.takerAmount.toNat ≤ fillBaseAmount * ordB.makerAmount.toNat := by
  unfold matchTerms at ran
  obtain ⟨makers, -, ran⟩ := bind_ok.mp ran
  obtain ⟨takers, -, ran⟩ := bind_ok.mp ran
  obtain ⟨-, ran⟩ := check_bind_ok.mp ran
  obtain ⟨someBase, ran⟩ := check_bind_ok.mp ran
  obtain ⟨quote, -, ran⟩ := bind_ok.mp ran
  obtain ⟨someQuote, ran⟩ := check_bind_ok.mp ran
  obtain ⟨paidA, timesA, ran⟩ := bind_ok.mp ran
  obtain ⟨wantA, wantedA, ran⟩ := bind_ok.mp ran
  obtain ⟨limitA, ran⟩ := check_bind_ok.mp ran
  obtain ⟨paidB, timesB, ran⟩ := bind_ok.mp ran
  obtain ⟨mostB, allowedB, ran⟩ := bind_ok.mp ran
  obtain ⟨limitB, ran⟩ := check_bind_ok.mp ran
  obtain ⟨_, -, ran⟩ := bind_ok.mp ran
  obtain ⟨_, -, produced⟩ := bind_ok.mp ran
  obtain ⟨-, rfl⟩ := fit_ok.mp timesA
  obtain ⟨-, rfl⟩ := fit_ok.mp wantedA
  obtain ⟨-, rfl⟩ := fit_ok.mp timesB
  obtain ⟨-, rfl⟩ := fit_ok.mp allowedB
  cases produced
  exact ⟨someBase, someQuote, limitA, limitB⟩

end Specifications

/-! ### Recording a fill -/

def Account.record (hash target : Bytes) (ord : Order) (taken given : Nat) (a : Account) : Account :=
  if target = hash then a.fill ord taken given else a

section Recording

variable {natives : Natives} {reg next : SettlementRegistry} {ord : Order} {hash target : Bytes} {taken given : Nat}
  {a : Account}

theorem recordFill_entry (hash : Bytes) (given : Nat) {total : Nat}
    (ran : reg.recordFill target taken ord.takerAmount.toNat ord.expiryMs.toNat = .ok (total, next))
    (entry : a.entry = reg.fills hash) :
    next.fills hash = (a.record hash target ord taken given).entry ∧
      (target = hash → a.filled + taken ≤ ord.takerAmount.toNat) := by
  obtain ⟨sum, within, rfl⟩ := SettlementRegistry.recordFill_ok ran
  unfold Account.record
  by_cases same : target = hash
  · subst same
    have counter : a.filled = reg.filled target := by
      unfold Account.filled SettlementRegistry.filled
      cases found : reg.fills target <;> simp only [entry, found]
    rw [← counter] at sum
    subst sum
    refine ⟨?_, fun _ => within⟩
    rw [if_pos rfl, Account.fill, entry]
    exact Function.update_self _ _ _
  · simp [same, Function.update_of_ne (Ne.symm same), entry]

theorem Account.record_watermark : (a.record hash target ord taken given).watermark = a.watermark := by
  unfold record fill
  split <;> rfl

theorem Account.record_now : (a.record hash target ord taken given).now = a.now := by
  unfold record fill
  split <;> rfl

theorem Account.record_given :
    (a.record hash target ord taken given).given = a.given + if target = hash then given else 0 := by
  unfold record fill
  split <;> simp [*]

theorem Account.record_taken :
    (a.record hash target ord taken given).taken = a.taken + if target = hash then taken else 0 := by
  unfold record fill
  split <;> simp [*]

theorem Account.record_received :
    (a.record hash target ord taken given).received = a.received + if target = hash then taken else 0 := by
  unfold record fill
  split <;> simp [*]

end Recording

namespace Market

variable {natives : Natives} {s next : Market} {order : Order} {hash : Bytes}

structure Trade (natives : Natives) (s : Market) (orderBytes : Bytes) (ord : Order) (target : Bytes)
    (taken given : Nat) : Prop where
  valid : Validated natives s.registry s.now orderBytes ord target
  positive : 0 < taken
  price : given * ord.takerAmount.toNat ≤ taken * ord.makerAmount.toNat

theorem quoteFill_ok {side : Side} {makerBmId : ID} {makerBm : BalanceManager}
    {orderBytes signature publicKey : Bytes} {takerFillAmount minMakerAmountOut : Nat} {ord : Order} {target : Bytes}
    {terms : FillTerms} (ran : s.quoteFill natives side makerBmId makerBm orderBytes signature publicKey
      takerFillAmount minMakerAmountOut = .ok (ord, target, terms)) :
    Trade natives s orderBytes ord target terms.fillT terms.fillM := by
  unfold quoteFill at ran
  obtain ⟨⟨validOrder, validHash⟩, validated, ran⟩ := bind_ok.mp ran
  obtain ⟨quoted, priced, ran⟩ := bind_ok.mp ran
  obtain ⟨net, -, ran⟩ := bind_ok.mp ran
  obtain ⟨-, produced⟩ := check_pure_ok.mp ran
  cases produced
  obtain ⟨positive, price⟩ := fillTerms_ok priced
  exact ⟨validate_ok validated, positive, price⟩

def Fills (natives : Natives) (s : Market) (orderBytes : Bytes) (next : Market) : Prop :=
  ∃ ord target taken given, Trade natives s orderBytes ord target taken given ∧
    next.registry.id = s.registry.id ∧ ∀ order hash,
      (target = hash → (s.account order hash).filled + taken ≤ ord.takerAmount.toNat) ∧
      next.account order hash = (s.account order hash).record hash target ord taken given

theorem account_note {ord : Order} {target : Bytes} {taken given total : Nat} {reg after : SettlementRegistry}
    (books : s.registry.SameBooks reg)
    (ran : reg.recordFill target taken ord.takerAmount.toNat ord.expiryMs.toNat = .ok (total, after))
    (registry : next.registry = after) (now : next.now = s.now)
    (moved : ∀ hash, (next.account order hash).given =
        (s.account order hash).given + (if target = hash then given else 0) ∧
      (next.account order hash).taken = (s.account order hash).taken + (if target = hash then taken else 0) ∧
      (next.account order hash).received = (s.account order hash).received + (if target = hash then taken else 0))
    (hash : Bytes) :
    (target = hash → (s.account order hash).filled + taken ≤ ord.takerAmount.toNat) ∧
      next.account order hash = (s.account order hash).record hash target ord taken given := by
  obtain ⟨entry, room⟩ := recordFill_entry hash given (a := s.account order hash) ran
    (congrFun books.fills hash).symm
  obtain ⟨-, -, rfl⟩ := SettlementRegistry.recordFill_ok ran
  obtain ⟨given, taken, received⟩ := moved hash
  refine ⟨room, Account.ext ?_ ?_ ?_ ?_ ?_ ?_⟩
  · rw [← entry]
    exact congrFun (congrArg SettlementRegistry.fills registry) hash
  · rw [Account.record_watermark]
    simp only [account, SettlementRegistry.watermark, registry, books.saltWatermarks]
  · rw [Account.record_now]
    exact now
  · rw [Account.record_given, given]
  · rw [Account.record_taken, taken]
  · rw [Account.record_received, received]

@[simp] theorem pendingFill_side (s : Market) (side : Side) (ord : Order) (target : Bytes) (terms : FillTerms)
    (total : Nat) : (s.pendingFill side ord target terms total).side = side := by
  cases side <;> rfl

/-- Only the maker's leg settles an order; it owes and is paid the whole fill. -/
theorem fillObligation_open (makerBmId registryId : ID) (takerDue : Nat) {side : Side} {terms : FillTerms}
    {fill : PendingFill} (sold : fill.side = side) (fits : terms.makerFee ≤ terms.fillT) (hash : Bytes) :
    (fillObligation side makerBmId registryId terms (terms.fillT - terms.makerFee) takerDue fill).owed hash =
        (if fill.digest = hash then terms.fillM else 0) ∧
      (fillObligation side makerBmId registryId terms (terms.fillT - terms.makerFee) takerDue fill).payable hash =
        (if fill.digest = hash then terms.fillT else 0) := by
  have apart := side.other_ne
  constructor
  · rw [FillObligation.owed_eq _ hash side]
    simp [FillObligation.owedBy, FillObligation.orderOf, fillObligation, sold, Ne.symm apart, apart]
  · rw [FillObligation.payable_eq _ hash side]
    simp [FillObligation.payableTo, FillObligation.orderOf, FillObligation.gross, fillObligation, sold,
      Ne.symm apart, apart, fits]

theorem beginFillImpl_ok {side : Side} {makerBmId : ID} {orderBytes signature publicKey : Bytes}
    {takerFillAmount minMakerAmountOut : Nat}
    (ran : s.beginFillImpl natives side makerBmId orderBytes signature publicKey takerFillAmount
      minMakerAmountOut = .ok next) : Fills natives s orderBytes next := by
  unfold beginFillImpl at ran
  obtain ⟨makerBm, -, ran⟩ := bind_ok.mp ran
  obtain ⟨⟨ord, target, terms⟩, quoted, ran⟩ := bind_ok.mp ran
  obtain ⟨⟨total, reg⟩, recorded, ran⟩ := bind_ok.mp ran
  obtain ⟨makerDue, duePaid, ran⟩ := bind_ok.mp ran
  obtain ⟨takerDue, -, produced⟩ := bind_ok.mp ran
  obtain ⟨feeFits, rfl⟩ := sub_ok.mp duePaid
  cases produced
  obtain ⟨-, -, after⟩ := SettlementRegistry.recordFill_ok recorded
  refine ⟨ord, target, terms.fillT, terms.fillM, quoteFill_ok quoted, ?_, fun order hash => ?_⟩
  · simp only [after]
  · refine account_note (SettlementRegistry.SameBooks.refl _) recorded ?_ ?_ (fun hash => ?_) hash
    · rfl
    · rfl
    have sold := s.pendingFill_side side ord target terms total
    obtain ⟨owed, payable⟩ := fillObligation_open makerBmId reg.id takerDue sold feeFits hash
    simp only [account, note_apply, List.map_append, List.sum_append, List.map_cons, List.map_nil, List.sum_cons,
      List.sum_nil, owed, payable]
    by_cases same : target = hash
    · subst same
      simp only [pendingFill, if_true, Tally.add, true_and]
      omega
    · simp [pendingFill, same]

/-- Both orders of the call are filled, `A` for quote and `B` for base. -/
def Matches (natives : Natives) (s : Market) (orderABytes orderBBytes : Bytes) (next : Market) : Prop :=
  ∃ ordA targetA ordB targetB base quote, Trade natives s orderABytes ordA targetA quote base ∧
    Trade natives s orderBBytes ordB targetB base quote ∧ next.registry.id = s.registry.id ∧ ∀ order hash,
      (targetA = hash → (s.account order hash).filled + quote ≤ ordA.takerAmount.toNat) ∧
      (targetB = hash → ((s.account order hash).record hash targetA ordA quote base).filled + base ≤
        ordB.takerAmount.toNat) ∧
      next.account order hash =
        ((s.account order hash).record hash targetA ordA quote base).record hash targetB ordB base quote

/-- What the recorded match guarantees, whichever way the funds then move. -/
structure Recorded (natives : Natives) (s : Market) (orderABytes orderBBytes : Bytes) (fillBaseAmount : Nat)
    (m : Matched) : Prop where
  tradeA : Trade natives s orderABytes m.ordA m.digestA m.quoteAmount fillBaseAmount
  tradeB : Trade natives s orderBBytes m.ordB m.digestB fillBaseAmount m.quoteAmount
  id : m.registry.id = s.registry.id
  watermarks : m.registry.saltWatermarks = s.registry.saltWatermarks
  entries : ∀ order hash,
    (m.digestA = hash → (s.account order hash).filled + m.quoteAmount ≤ m.ordA.takerAmount.toNat) ∧
    (m.digestB = hash →
      ((s.account order hash).record hash m.digestA m.ordA m.quoteAmount fillBaseAmount).filled + fillBaseAmount ≤
        m.ordB.takerAmount.toNat) ∧
    m.registry.fills hash =
      (((s.account order hash).record hash m.digestA m.ordA m.quoteAmount fillBaseAmount).record hash m.digestB
        m.ordB fillBaseAmount m.quoteAmount).entry

theorem recordMatch_ok {idA idB : ID} {bmA bmB : BalanceManager} {orderABytes sigA pkA orderBBytes sigB pkB : Bytes}
    {fillBaseAmount : Nat} {m : Matched}
    (ran : s.recordMatch natives idA bmA idB bmB orderABytes sigA pkA orderBBytes sigB pkB fillBaseAmount = .ok m) :
    Recorded natives s orderABytes orderBBytes fillBaseAmount m := by
  unfold recordMatch at ran
  obtain ⟨peekA, -, ran⟩ := bind_ok.mp ran
  obtain ⟨peekB, -, ran⟩ := bind_ok.mp ran
  obtain ⟨⟨ordA, digestA⟩, validA, ran⟩ := bind_ok.mp ran
  obtain ⟨⟨ordB, digestB⟩, validB, ran⟩ := bind_ok.mp ran
  obtain ⟨⟨quoteAmount, feeA, feeB⟩, terms, ran⟩ := bind_ok.mp ran
  obtain ⟨⟨totalA, regA⟩, recordedA, ran⟩ := bind_ok.mp ran
  obtain ⟨⟨totalB, regB⟩, recordedB, produced⟩ := bind_ok.mp ran
  cases produced
  obtain ⟨someBase, someQuote, limitA, limitB⟩ := matchTerms_ok terms
  obtain ⟨-, -, afterA⟩ := SettlementRegistry.recordFill_ok recordedA
  obtain ⟨-, -, afterB⟩ := SettlementRegistry.recordFill_ok recordedB
  refine ⟨⟨validate_ok validA, someQuote, limitA⟩, ⟨validate_ok validB, someBase, limitB⟩, ?_, ?_, ?_⟩
  · simp only [afterB, afterA]
  · simp only [afterB, afterA]
  · intro order hash
    obtain ⟨entryA, roomA⟩ := recordFill_entry hash fillBaseAmount (a := s.account order hash) recordedA rfl
    obtain ⟨entryB, roomB⟩ := recordFill_entry hash quoteAmount recordedB entryA.symm
    exact ⟨roomA, roomB, entryB⟩

theorem Recorded.matches {orderABytes orderBBytes : Bytes} {fillBaseAmount : Nat} {m : Matched}
    (recorded : Recorded natives s orderABytes orderBBytes fillBaseAmount m)
    (books : m.registry.SameBooks next.registry) (now : next.now = s.now)
    (moved : ∀ order hash, (next.account order hash).given =
        (s.account order hash).given + (if m.digestA = hash then fillBaseAmount else 0) +
          (if m.digestB = hash then m.quoteAmount else 0) ∧
      (next.account order hash).taken =
        (s.account order hash).taken + (if m.digestA = hash then m.quoteAmount else 0) +
          (if m.digestB = hash then fillBaseAmount else 0) ∧
      (next.account order hash).received =
        (s.account order hash).received + (if m.digestA = hash then m.quoteAmount else 0) +
          (if m.digestB = hash then fillBaseAmount else 0)) :
    Matches natives s orderABytes orderBBytes next := by
  refine ⟨_, _, _, _, _, _, recorded.tradeA, recorded.tradeB, books.id.trans recorded.id, fun order hash => ?_⟩
  obtain ⟨roomA, roomB, entry⟩ := recorded.entries order hash
  obtain ⟨given, taken, received⟩ := moved order hash
  refine ⟨roomA, roomB, Account.ext ?_ ?_ ?_ ?_ ?_ ?_⟩
  · rw [← entry]
    exact congrFun books.fills hash
  · simp only [Account.record_watermark, account, SettlementRegistry.watermark, books.saltWatermarks,
      recorded.watermarks]
  · simp only [Account.record_now]
    exact now
  · simp only [Account.record_given, given]
  · simp only [Account.record_taken, taken]
  · simp only [Account.record_received, received]

theorem matchObligation_open (idA idB : ID) {m : Matched} {fillBaseAmount : Nat} (feeA : m.feeA ≤ m.quoteAmount)
    (feeB : m.feeB ≤ fillBaseAmount) (hash : Bytes) :
    (s.matchObligation idA idB m fillBaseAmount (m.quoteAmount - m.feeA) (fillBaseAmount - m.feeB)).owed hash =
        (if m.digestA = hash then fillBaseAmount else 0) + (if m.digestB = hash then m.quoteAmount else 0) ∧
      (s.matchObligation idA idB m fillBaseAmount (m.quoteAmount - m.feeA) (fillBaseAmount - m.feeB)).payable hash =
        (if m.digestA = hash then m.quoteAmount else 0) + (if m.digestB = hash then fillBaseAmount else 0) := by
  constructor
  · simp [FillObligation.owed, FillObligation.owedBy, FillObligation.orderOf, matchObligation, matchFills,
      PendingFill.side]
  · simp [FillObligation.payable, FillObligation.payableTo, FillObligation.orderOf, FillObligation.gross,
      matchObligation, matchFills, PendingFill.side, Side.other, feeA, feeB]

theorem beginMatch_ok {idA idB : ID} {orderABytes sigA pkA orderBBytes sigB pkB : Bytes} {fillBaseAmount : Nat}
    (ran : s.beginMatch natives idA idB orderABytes sigA pkA orderBBytes sigB pkB fillBaseAmount = .ok next) :
    Matches natives s orderABytes orderBBytes next := by
  unfold beginMatch at ran
  obtain ⟨bmA, -, ran⟩ := bind_ok.mp ran
  obtain ⟨bmB, -, ran⟩ := bind_ok.mp ran
  obtain ⟨-, ran⟩ := check_bind_ok.mp ran
  obtain ⟨m, recorded, ran⟩ := bind_ok.mp ran
  obtain ⟨dueA, paidA, ran⟩ := bind_ok.mp ran
  obtain ⟨dueB, paidB, produced⟩ := bind_ok.mp ran
  obtain ⟨feeA, rfl⟩ := sub_ok.mp paidA
  obtain ⟨feeB, rfl⟩ := sub_ok.mp paidB
  cases produced
  refine (recordMatch_ok recorded).matches (SettlementRegistry.SameBooks.refl _) rfl (fun order hash => ?_)
  obtain ⟨owed, payable⟩ := s.matchObligation_open idA idB feeA feeB hash
  simp only [account, note_apply, List.map_append, List.sum_append, List.map_cons, List.map_nil, List.sum_cons,
    List.sum_nil, owed, payable]
  by_cases sameA : m.digestA = hash <;> by_cases sameB : m.digestB = hash <;>
    simp only [sameA, sameB, if_true, if_false, Tally.add, true_and, Nat.add_zero] <;> omega

end Market

end SuiOptions.Exchange
