import SuiOptions.Orderbook.InFlight
import SuiOptions.Exchange.Settlement

/-! Which emitted intents the chain accepts.

The book matches in ticks and base units; the contract prices the match from the
whole amounts of the order with the earlier salt and rounds in its favour. The
two agree when the rounded amount stays within the other order's limit and, for a
newer ask, when the better price of the resting bid fits what the ask may still
receive.
-/

set_option autoImplicit false

namespace SuiOptions.Orderbook

open Exchange Execution Move

/-! ### Prices on the grid -/

theorem priceAndSize_ok {market : Market} {order : Order} {side : Side} {price size : Nat}
    (priced : priceAndSize market order = .ok (side, price, size)) :
    size = (amounts side order).1 ∧ 0 < size ∧ 0 < (amounts side order).2 ∧ 0 < market.lotSize ∧
      0 < market.tickSize ∧ (amounts side order).2 * market.lotSize = price * (size * market.tickSize) ∧
      market.sideOf order = some side := by
  unfold priceAndSize at priced
  cases located : market.sideOf order with
  | none =>
    rw [located] at priced
    cases priced
  | some where_ =>
    rw [located] at priced
    simp only at priced
    split at priced
    · cases priced
    · rename_i some
      split at priced
      · cases priced
      · rename_i grid
        split at priced
        · cases priced
        · split at priced
          · cases priced
          · rename_i positive
            split at priced
            · cases priced
            · cases priced
              have exact_ : (amounts side order).2 * market.lotSize %
                  ((amounts side order).1 * market.tickSize) = 0 := by
                by_contra off
                exact grid (Or.inr off)
              have quotient := Nat.div_add_mod ((amounts side order).2 * market.lotSize)
                ((amounts side order).1 * market.tickSize)
              have base : 0 < (amounts side order).1 := Nat.pos_of_ne_zero fun none => some (Or.inl none)
              have quote : 0 < (amounts side order).2 := Nat.pos_of_ne_zero fun none => some (Or.inr none)
              have lot : 0 < market.lotSize := by
                refine Nat.pos_of_ne_zero fun none => positive ?_
                rw [none, Nat.mul_zero, Nat.zero_div]
              have tick : 0 < market.tickSize := by
                refine Nat.pos_of_ne_zero fun none => grid (Or.inl ?_)
                rw [none, Nat.mul_zero]
              refine ⟨rfl, base, quote, lot, tick, ?_, rfl⟩
              rw [exact_, Nat.add_zero, Nat.mul_comm] at quotient
              exact quotient.symm

/-! ### The contract's side -/

/-- The part of the contract's match that depends on the amounts: the terms and both fill records. -/
def settleMatch (reg : SettlementRegistry) (hashA hashB : Bytes) (ordA ordB : Order)
    (fillBaseAmount feeABps feeBBps : Nat) : Result Error SettlementRegistry := do
  let (quoteAmount, _, _) ← matchTerms ordA ordB fillBaseAmount feeABps feeBBps
  let (_, reg) ← reg.recordFill hashA quoteAmount ordA.takerAmount.toNat ordA.expiryMs.toNat
  let (_, reg) ← reg.recordFill hashB fillBaseAmount ordB.takerAmount.toNat ordB.expiryMs.toNat
  pure reg

/-- Once both orders are validated, the match is recorded exactly when its amounts pass. -/
theorem recordMatch_iff {natives : Natives} {s : Exchange.Market} {idA idB : ID} {bmA bmB : BalanceManager}
    {orderABytes sigA pkA orderBBytes sigB pkB hashA hashB : Bytes} {peekA peekB ordA ordB : Order} {qty : Nat}
    (readA : fromBytes orderABytes = .ok peekA) (readB : fromBytes orderBBytes = .ok peekB)
    (validA : validate natives s.registry s.domain s.now idA bmA orderABytes sigA pkA .base peekB.maker s.sender =
      .ok (ordA, hashA))
    (validB : validate natives s.registry s.domain s.now idB bmB orderBBytes sigB pkB .quote peekA.maker s.sender =
      .ok (ordB, hashB)) :
    (∃ m, Exchange.Market.recordMatch natives s idA bmA idB bmB orderABytes sigA pkA orderBBytes sigB pkB qty = .ok m) ↔
      ∃ settled, settleMatch s.registry hashA hashB ordA ordB qty
        (min ordA.maxFeeBps.toNat (s.registry.feeBpsFor ordA.maker))
        (min ordB.maxFeeBps.toNat (s.registry.feeBpsFor ordB.maker)) = .ok settled := by
  unfold Exchange.Market.recordMatch settleMatch
  constructor
  · rintro ⟨m, ran⟩
    obtain ⟨_, got, ran⟩ := bind_ok.mp ran
    cases readA.symm.trans got
    obtain ⟨_, got, ran⟩ := bind_ok.mp ran
    cases readB.symm.trans got
    obtain ⟨_, got, ran⟩ := bind_ok.mp ran
    cases validA.symm.trans got
    obtain ⟨_, got, ran⟩ := bind_ok.mp ran
    cases validB.symm.trans got
    obtain ⟨terms, termsRan, ran⟩ := bind_ok.mp ran
    obtain ⟨recordA, ranA, ran⟩ := bind_ok.mp ran
    obtain ⟨recordB, ranB, -⟩ := bind_ok.mp ran
    exact ⟨recordB.2, bind_ok.mpr ⟨terms, termsRan, bind_ok.mpr ⟨recordA, ranA, bind_ok.mpr ⟨recordB, ranB, rfl⟩⟩⟩⟩
  · rintro ⟨settled, ran⟩
    obtain ⟨terms, termsRan, ran⟩ := bind_ok.mp ran
    obtain ⟨recordA, ranA, ran⟩ := bind_ok.mp ran
    obtain ⟨recordB, ranB, -⟩ := bind_ok.mp ran
    refine ⟨{ ordA, ordB, digestA := hashA, digestB := hashB, quoteAmount := terms.1
              feeABps := min ordA.maxFeeBps.toNat (s.registry.feeBpsFor ordA.maker)
              feeBBps := min ordB.maxFeeBps.toNat (s.registry.feeBpsFor ordB.maker)
              feeA := terms.2.1, feeB := terms.2.2, totalA := recordA.1, totalB := recordB.1, registry := recordB.2 }, ?_⟩
    refine bind_ok.mpr ⟨_, readA, bind_ok.mpr ⟨_, readB, bind_ok.mpr ⟨_, validA, bind_ok.mpr ⟨_, validB, ?_⟩⟩⟩⟩
    exact bind_ok.mpr ⟨terms, termsRan, bind_ok.mpr ⟨recordA, ranA, bind_ok.mpr ⟨recordB, ranB, rfl⟩⟩⟩

def quoteOf (ordA ordB : Order) (fillBaseAmount : Nat) : Nat :=
  if ordA.salt ≤ ordB.salt then
    (fillBaseAmount * ordA.takerAmount.toNat + ordA.makerAmount.toNat - 1) / ordA.makerAmount.toNat
  else fillBaseAmount * ordB.makerAmount.toNat / ordB.takerAmount.toNat

theorem toNat_lt (value : UInt64) : value.toNat < u64Bound := value.toNat_lt

theorem mulU128_of {a b : Nat} (first : a < u64Bound) (second : b < u64Bound) :
    (mulU128 a b : Result Error Nat) = .ok (a * b) := by
  refine fit_of ?_
  have product := Nat.mul_lt_mul'' first second
  exact product.trans_eq (by decide)

theorem muldivFloor_of {a b c : Nat} (first : a < u64Bound) (second : b < u64Bound) (positive : 0 < c)
    (small : a * b / c < u64Bound) : muldivFloor a b c = .ok (a * b / c) := by
  unfold muldivFloor
  rw [mulU128_of first second]
  have divided : (div (a * b) c : Result Error Nat) = .ok (a * b / c) := if_neg (by omega)
  show (div (a * b) c >>= castU64) = _
  rw [divided]
  exact fit_of small

theorem muldivCeil_of {a b c : Nat} (first : a < u64Bound) (second : b < u64Bound) (third : c < u64Bound)
    (positive : 0 < c) (small : (a * b + c - 1) / c < u64Bound) : muldivCeil a b c = .ok ((a * b + c - 1) / c) := by
  have product : a * b ≤ (u64Bound - 1) * (u64Bound - 1) := Nat.mul_le_mul (by omega) (by omega)
  have room : a * b + c < u128Bound := by
    have bound : (u64Bound - 1) * (u64Bound - 1) + u64Bound ≤ u128Bound := by decide
    omega
  unfold muldivCeil
  rw [mulU128_of first second]
  have added : (addU128 (a * b) c : Result Error Nat) = .ok (a * b + c) := fit_of room
  have reduced : (sub (a * b + c) 1 : Result Error Nat) = .ok (a * b + c - 1) := sub_of (by omega)
  have divided : (div (a * b + c - 1) c : Result Error Nat) = .ok ((a * b + c - 1) / c) := if_neg (by omega)
  show (addU128 (a * b) c >>= fun sum => sub sum 1 >>= fun sum => div sum c >>= castU64) = _
  rw [added]
  show (sub (a * b + c) 1 >>= fun sum => div sum c >>= castU64) = _
  rw [reduced]
  show (div (a * b + c - 1) c >>= castU64) = _
  rw [divided]
  exact fit_of small

theorem ceil_le_iff {value divisor bound : Nat} (positive : 0 < divisor) :
    (value + divisor - 1) / divisor ≤ bound ↔ value ≤ bound * divisor := by
  rw [Nat.div_le_iff_le_mul_add_pred positive]
  rw [Nat.mul_comm bound divisor]
  omega

theorem le_ceil_mul {value divisor : Nat} (positive : 0 < divisor) :
    value ≤ (value + divisor - 1) / divisor * divisor := (ceil_le_iff positive).mp (Nat.le_refl _)

/-- An intent between two orders, at most their whole sizes. -/
structure Sized (ordA ordB : Order) (qty : Nat) : Prop where
  positive : 0 < qty
  fitsA : qty ≤ ordA.makerAmount.toNat
  fitsB : qty ≤ ordB.takerAmount.toNat

section Terms

variable {ordA ordB : Order} {qty feeABps feeBBps : Nat}

theorem quoteOf_lt (sized : Sized ordA ordB qty) : quoteOf ordA ordB qty < u64Bound := by
  have makerA := Nat.lt_of_lt_of_le sized.positive sized.fitsA
  have takerB := Nat.lt_of_lt_of_le sized.positive sized.fitsB
  unfold quoteOf
  split
  · refine Nat.lt_of_le_of_lt ((ceil_le_iff makerA).mpr ?_) (toNat_lt ordA.takerAmount)
    rw [Nat.mul_comm]
    exact Nat.mul_le_mul_left _ sized.fitsA
  · refine Nat.lt_of_le_of_lt ?_ (toNat_lt ordB.makerAmount)
    refine Nat.div_le_of_le_mul ?_
    exact Nat.mul_le_mul_right _ sized.fitsB

theorem matchQuote_of (sized : Sized ordA ordB qty) : matchQuote ordA ordB qty = .ok (quoteOf ordA ordB qty) := by
  have small := quoteOf_lt sized
  have makerA := Nat.lt_of_lt_of_le sized.positive sized.fitsA
  have takerB := Nat.lt_of_lt_of_le sized.positive sized.fitsB
  have fits : qty < u64Bound := Nat.lt_of_le_of_lt sized.fitsA (toNat_lt _)
  unfold quoteOf at small ⊢
  unfold matchQuote
  split
  · rename_i older
    rw [if_pos older] at small
    exact muldivCeil_of fits (toNat_lt _) (toNat_lt _) makerA small
  · rename_i newer
    rw [if_neg newer] at small
    exact muldivFloor_of fits (toNat_lt _) takerB small

theorem fee_of {amount bps : Nat} (small : amount < u64Bound) (rate : bps ≤ SettlementRegistry.maxFeeBps) :
    muldivFloor amount bps bpsDenom = .ok (amount * bps / bpsDenom) := by
  have bounded : bps ≤ bpsDenom := Nat.le_trans rate (by decide)
  refine muldivFloor_of small (Nat.lt_of_le_of_lt rate (by decide)) (by decide) ?_
  refine Nat.lt_of_le_of_lt (Nat.div_le_of_le_mul ?_) small
  rw [Nat.mul_comm]
  exact Nat.mul_le_mul_right _ bounded

theorem matchTerms_iff (sized : Sized ordA ordB qty) (rateA : feeABps ≤ SettlementRegistry.maxFeeBps)
    (rateB : feeBBps ≤ SettlementRegistry.maxFeeBps) (quote : Nat) :
    (∃ feeA feeB, matchTerms ordA ordB qty feeABps feeBBps = .ok (quote, feeA, feeB)) ↔
      quote = quoteOf ordA ordB qty ∧
        ordA.takerAmount.toNat * ordB.takerAmount.toNat ≤ ordA.makerAmount.toNat * ordB.makerAmount.toNat ∧
        0 < quote ∧ qty * ordA.takerAmount.toNat ≤ quote * ordA.makerAmount.toNat ∧
        quote * ordB.takerAmount.toNat ≤ qty * ordB.makerAmount.toNat := by
  have small := quoteOf_lt sized
  have fits : qty < u64Bound := Nat.lt_of_le_of_lt sized.fitsA (toNat_lt _)
  -- no product of two amounts leaves 128 bits, and no fee leaves 64
  have makers := mulU128_of (toNat_lt ordA.makerAmount) (toNat_lt ordB.makerAmount)
  have takers := mulU128_of (toNat_lt ordA.takerAmount) (toNat_lt ordB.takerAmount)
  have paidA := mulU128_of small (toNat_lt ordA.makerAmount)
  have wantA := mulU128_of fits (toNat_lt ordA.takerAmount)
  have paidB := mulU128_of small (toNat_lt ordB.takerAmount)
  have limitB := mulU128_of fits (toNat_lt ordB.makerAmount)
  have feeA := fee_of small rateA
  have feeB := fee_of fits rateB
  have priced := matchQuote_of sized
  constructor
  · rintro ⟨chargedA, chargedB, ran⟩
    unfold matchTerms at ran
    -- the checks in their order: crossing, a quote, and the limits of both makers
    obtain ⟨_, got, ran⟩ := bind_ok.mp ran
    cases makers.symm.trans got
    obtain ⟨_, got, ran⟩ := bind_ok.mp ran
    cases takers.symm.trans got
    obtain ⟨crossing, ran⟩ := check_bind_ok.mp ran
    obtain ⟨-, ran⟩ := check_bind_ok.mp ran
    obtain ⟨_, got, ran⟩ := bind_ok.mp ran
    cases priced.symm.trans got
    obtain ⟨some, ran⟩ := check_bind_ok.mp ran
    obtain ⟨_, got, ran⟩ := bind_ok.mp ran
    cases paidA.symm.trans got
    obtain ⟨_, got, ran⟩ := bind_ok.mp ran
    cases wantA.symm.trans got
    obtain ⟨lower, ran⟩ := check_bind_ok.mp ran
    obtain ⟨_, got, ran⟩ := bind_ok.mp ran
    cases paidB.symm.trans got
    obtain ⟨_, got, ran⟩ := bind_ok.mp ran
    cases limitB.symm.trans got
    obtain ⟨upper, ran⟩ := check_bind_ok.mp ran
    obtain ⟨_, -, ran⟩ := bind_ok.mp ran
    obtain ⟨_, -, ran⟩ := bind_ok.mp ran
    cases ran
    exact ⟨rfl, crossing, some, lower, upper⟩
  · rintro ⟨rfl, crossing, some, lower, upper⟩
    refine ⟨quoteOf ordA ordB qty * feeABps / bpsDenom, qty * feeBBps / bpsDenom, ?_⟩
    unfold matchTerms
    refine bind_ok.mpr ⟨_, makers, bind_ok.mpr ⟨_, takers, check_bind_ok.mpr ⟨crossing, ?_⟩⟩⟩
    refine check_bind_ok.mpr ⟨sized.positive, bind_ok.mpr ⟨_, priced, check_bind_ok.mpr ⟨some, ?_⟩⟩⟩
    refine bind_ok.mpr ⟨_, paidA, bind_ok.mpr ⟨_, wantA, check_bind_ok.mpr ⟨lower, ?_⟩⟩⟩
    refine bind_ok.mpr ⟨_, paidB, bind_ok.mpr ⟨_, limitB, check_bind_ok.mpr ⟨upper, ?_⟩⟩⟩
    exact bind_ok.mpr ⟨_, feeA, bind_ok.mpr ⟨_, feeB, rfl⟩⟩

end Terms

theorem recordFill_iff {reg : SettlementRegistry} {hash : Bytes} {amount : Nat} {cap : UInt64} (expiry : Nat) :
    (∃ total next, reg.recordFill hash amount cap.toNat expiry = .ok (total, next)) ↔
      reg.filled hash + amount ≤ cap.toNat := by
  constructor
  · rintro ⟨total, next, ran⟩
    obtain ⟨sum, within, -⟩ := SettlementRegistry.recordFill_ok ran
    omega
  · intro within
    have counter : ((reg.fills hash).getD ⟨0, false, expiry⟩).takerTokenFilled = reg.filled hash := by
      unfold SettlementRegistry.filled
      cases reg.fills hash <;> rfl
    have added : (addU64 ((reg.fills hash).getD ⟨0, false, expiry⟩).takerTokenFilled amount : Result Error Nat) =
        .ok (reg.filled hash + amount) := by
      rw [counter]
      exact fit_of (Nat.lt_of_le_of_lt within (toNat_lt cap))
    refine ⟨reg.filled hash + amount, { reg with
      fills := Function.update reg.fills hash
        (some { (reg.fills hash).getD ⟨0, false, expiry⟩ with takerTokenFilled := reg.filled hash + amount }) }, ?_⟩
    unfold SettlementRegistry.recordFill
    exact bind_ok.mpr ⟨_, added, check_pure_ok.mpr ⟨within, rfl⟩⟩

/-- The contract takes a match exactly when the terms hold and both records fit. -/
theorem settleMatch_iff {reg : SettlementRegistry} {hashA hashB : Bytes} {ordA ordB : Order} {qty feeABps feeBBps : Nat}
    (apart : hashA ≠ hashB) (sized : Sized ordA ordB qty) (rateA : feeABps ≤ SettlementRegistry.maxFeeBps)
    (rateB : feeBBps ≤ SettlementRegistry.maxFeeBps) :
    (∃ next, settleMatch reg hashA hashB ordA ordB qty feeABps feeBBps = .ok next) ↔
      (ordA.takerAmount.toNat * ordB.takerAmount.toNat ≤ ordA.makerAmount.toNat * ordB.makerAmount.toNat ∧
        0 < quoteOf ordA ordB qty ∧
        qty * ordA.takerAmount.toNat ≤ quoteOf ordA ordB qty * ordA.makerAmount.toNat ∧
        quoteOf ordA ordB qty * ordB.takerAmount.toNat ≤ qty * ordB.makerAmount.toNat) ∧
      reg.filled hashA + quoteOf ordA ordB qty ≤ ordA.takerAmount.toNat ∧
      reg.filled hashB + qty ≤ ordB.takerAmount.toNat := by
  have other : ∀ {total : Nat} {middle : SettlementRegistry} {quote : Nat},
      reg.recordFill hashA quote ordA.takerAmount.toNat ordA.expiryMs.toNat = .ok (total, middle) →
        middle.filled hashB = reg.filled hashB := by
    intro total middle quote ran
    obtain ⟨-, -, rfl⟩ := SettlementRegistry.recordFill_ok ran
    simp only [SettlementRegistry.filled, Function.update_of_ne apart.symm]
  constructor
  · rintro ⟨next, ran⟩
    unfold settleMatch at ran
    obtain ⟨⟨quote, feeA, feeB⟩, terms, ran⟩ := bind_ok.mp ran
    obtain ⟨⟨totalA, middle⟩, recordedA, ran⟩ := bind_ok.mp ran
    obtain ⟨⟨totalB, last⟩, recordedB, -⟩ := bind_ok.mp ran
    obtain ⟨rfl, checks⟩ := (matchTerms_iff sized rateA rateB quote).mp ⟨_, _, terms⟩
    refine ⟨checks, (recordFill_iff _).mp ⟨_, _, recordedA⟩, ?_⟩
    rw [← other recordedA]
    exact (recordFill_iff _).mp ⟨_, _, recordedB⟩
  · rintro ⟨checks, roomA, roomB⟩
    obtain ⟨feeA, feeB, terms⟩ := (matchTerms_iff sized rateA rateB _).mpr ⟨rfl, checks⟩
    obtain ⟨totalA, middle, recordedA⟩ := (recordFill_iff ordA.expiryMs.toNat).mpr roomA
    rw [← other recordedA] at roomB
    obtain ⟨totalB, last, recordedB⟩ := (recordFill_iff ordB.expiryMs.toNat).mpr roomB
    refine ⟨last, ?_⟩
    unfold settleMatch
    exact bind_ok.mpr ⟨_, terms, bind_ok.mpr ⟨_, recordedA, bind_ok.mpr ⟨_, recordedB, rfl⟩⟩⟩

/-! ### Amounts in ticks -/

/-- The quote amount of a match, from the book's own price of the order with the earlier salt. -/
def quoteInTicks (market : Market) (askOlder : Bool) (ask bid : RestingOrder) (qty : Nat) : Nat :=
  if askOlder then (qty * ask.priceTicks * market.tickSize + market.lotSize - 1) / market.lotSize
  else qty * bid.priceTicks * market.tickSize / market.lotSize

/-- The rounded amount lies within the limit of the newer order, and the ask may still receive it. -/
def Fits (market : Market) (askOlder : Bool) (ask bid : RestingOrder) (received limit qty : Nat) : Prop :=
  (if askOlder then
    quoteInTicks market askOlder ask bid qty * market.lotSize ≤ qty * bid.priceTicks * market.tickSize
  else qty * ask.priceTicks * market.tickSize ≤ quoteInTicks market askOlder ask bid qty * market.lotSize) ∧
  received + quoteInTicks market askOlder ask bid qty ≤ limit

instance (market : Market) (askOlder : Bool) (ask bid : RestingOrder) (received limit qty : Nat) :
    Decidable (Fits market askOlder ask bid received limit qty) := by
  unfold Fits
  infer_instance

theorem eq_of_le_iff {a b : Nat} (same : ∀ bound, a ≤ bound ↔ b ≤ bound) : a = b :=
  Nat.le_antisymm ((same b).mpr (Nat.le_refl b)) ((same a).mp (Nat.le_refl a))

theorem le_mul_iff {a b left right bound : Nat} (positiveL : 0 < left) (positiveR : 0 < right)
    (equal : a * right = b * left) : a ≤ bound * left ↔ b ≤ bound * right := by
  calc a ≤ bound * left ↔ a * right ≤ bound * left * right := (Nat.mul_le_mul_right_iff positiveR).symm
    _ ↔ b * left ≤ bound * right * left := by rw [equal, Nat.mul_right_comm]
    _ ↔ b ≤ bound * right := Nat.mul_le_mul_right_iff positiveL

theorem mul_le_iff {a b left right bound : Nat} (positiveL : 0 < left) (positiveR : 0 < right)
    (equal : a * right = b * left) : bound * left ≤ a ↔ bound * right ≤ b := by
  calc bound * left ≤ a ↔ bound * left * right ≤ a * right := (Nat.mul_le_mul_right_iff positiveR).symm
    _ ↔ bound * right * left ≤ b * left := by rw [equal, Nat.mul_right_comm]
    _ ↔ bound * right ≤ b := Nat.mul_le_mul_right_iff positiveL

theorem ceil_eq {a b left right : Nat} (positiveL : 0 < left) (positiveR : 0 < right)
    (equal : a * right = b * left) : (a + left - 1) / left = (b + right - 1) / right := by
  refine eq_of_le_iff fun bound => ?_
  rw [ceil_le_iff positiveL, ceil_le_iff positiveR]
  exact le_mul_iff positiveL positiveR equal

theorem floor_eq {a b left right : Nat} (positiveL : 0 < left) (positiveR : 0 < right)
    (equal : a * right = b * left) : a / left = b / right := by
  refine Nat.le_antisymm ?_ ?_
  · rw [Nat.le_div_iff_mul_le positiveR]
    exact (mul_le_iff positiveL positiveR equal).mp (Nat.div_mul_le_self a left)
  · rw [Nat.le_div_iff_mul_le positiveL]
    exact (mul_le_iff positiveL positiveR equal).mpr (Nat.div_mul_le_self b right)

structure OnGrid (market : Market) (ordA ordB : Order) (ask bid : RestingOrder) : Prop where
  lot : 0 < market.lotSize
  tick : 0 < market.tickSize
  makerA : 0 < ordA.makerAmount.toNat
  takerA : 0 < ordA.takerAmount.toNat
  makerB : 0 < ordB.makerAmount.toNat
  takerB : 0 < ordB.takerAmount.toNat
  priceA : ordA.takerAmount.toNat * market.lotSize = ask.priceTicks * (ordA.makerAmount.toNat * market.tickSize)
  priceB : ordB.makerAmount.toNat * market.lotSize = bid.priceTicks * (ordB.takerAmount.toNat * market.tickSize)

section Grid

variable {market : Market} {ordA ordB : Order} {ask bid : RestingOrder} {qty : Nat}

theorem OnGrid.ask_eq (grid : OnGrid market ordA ordB ask bid) (qty : Nat) :
    qty * ordA.takerAmount.toNat * market.lotSize =
      qty * ask.priceTicks * market.tickSize * ordA.makerAmount.toNat := by
  rw [Nat.mul_assoc, grid.priceA]
  ring

theorem OnGrid.bid_eq (grid : OnGrid market ordA ordB ask bid) (qty : Nat) :
    qty * ordB.makerAmount.toNat * market.lotSize =
      qty * bid.priceTicks * market.tickSize * ordB.takerAmount.toNat := by
  rw [Nat.mul_assoc, grid.priceB]
  ring

theorem OnGrid.quoteOf_eq (grid : OnGrid market ordA ordB ask bid) (qty : Nat) :
    quoteOf ordA ordB qty = quoteInTicks market (ordA.salt ≤ ordB.salt) ask bid qty := by
  unfold quoteOf quoteInTicks
  by_cases older : ordA.salt ≤ ordB.salt
  · rw [if_pos older, if_pos (decide_eq_true older)]
    exact ceil_eq grid.makerA grid.lot (grid.ask_eq qty)
  · rw [if_neg older, if_neg (by simpa using older)]
    exact floor_eq grid.takerB grid.lot (grid.bid_eq qty)

/-- Orders that cross in the book cross on chain. -/
theorem OnGrid.crossing (grid : OnGrid market ordA ordB ask bid) (crossing : ask.priceTicks ≤ bid.priceTicks) :
    ordA.takerAmount.toNat * ordB.takerAmount.toNat ≤ ordA.makerAmount.toNat * ordB.makerAmount.toNat := by
  refine Nat.le_of_mul_le_mul_right ?_ grid.lot
  calc ordA.takerAmount.toNat * ordB.takerAmount.toNat * market.lotSize
      = ask.priceTicks * (ordA.makerAmount.toNat * market.tickSize * ordB.takerAmount.toNat) := by
        rw [Nat.mul_right_comm, grid.priceA]
        ring
    _ ≤ bid.priceTicks * (ordA.makerAmount.toNat * market.tickSize * ordB.takerAmount.toNat) :=
        Nat.mul_le_mul_right _ crossing
    _ = ordA.makerAmount.toNat * ordB.makerAmount.toNat * market.lotSize := by
        rw [Nat.mul_assoc _ _ market.lotSize, grid.priceB]
        ring

theorem OnGrid.checks_iff (grid : OnGrid market ordA ordB ask bid) (some : 0 < qty)
    (crossing : ask.priceTicks ≤ bid.priceTicks) (received : Nat) :
    ((ordA.takerAmount.toNat * ordB.takerAmount.toNat ≤ ordA.makerAmount.toNat * ordB.makerAmount.toNat ∧
        0 < quoteOf ordA ordB qty ∧
        qty * ordA.takerAmount.toNat ≤ quoteOf ordA ordB qty * ordA.makerAmount.toNat ∧
        quoteOf ordA ordB qty * ordB.takerAmount.toNat ≤ qty * ordB.makerAmount.toNat) ∧
      received + quoteOf ordA ordB qty ≤ ordA.takerAmount.toNat) ↔
      Fits market (ordA.salt ≤ ordB.salt) ask bid received ordA.takerAmount.toNat qty := by
  have wanted : 0 < qty * ordA.takerAmount.toNat := Nat.mul_pos some grid.takerA
  -- the limit of the ask is met by a positive amount only
  have nonzero : ∀ {quote : Nat}, qty * ordA.takerAmount.toNat ≤ quote * ordA.makerAmount.toNat → 0 < quote := by
    intro quote enough
    exact Nat.pos_of_mul_pos_right (Nat.lt_of_lt_of_le wanted enough)
  have askLimit : ∀ quote, qty * ordA.takerAmount.toNat ≤ quote * ordA.makerAmount.toNat ↔
      qty * ask.priceTicks * market.tickSize ≤ quote * market.lotSize :=
    fun quote => le_mul_iff grid.makerA grid.lot (grid.ask_eq qty)
  have bidLimit : ∀ quote, quote * ordB.takerAmount.toNat ≤ qty * ordB.makerAmount.toNat ↔
      quote * market.lotSize ≤ qty * bid.priceTicks * market.tickSize :=
    fun quote => mul_le_iff grid.takerB grid.lot (grid.bid_eq qty)
  unfold Fits
  rw [← grid.quoteOf_eq]
  refine and_congr_left fun _ => ?_
  by_cases older : ordA.salt ≤ ordB.salt
  · rw [if_pos (decide_eq_true older), ← bidLimit]
    refine ⟨fun checks => checks.2.2.2, fun upper => ?_⟩
    have lower : qty * ordA.takerAmount.toNat ≤ quoteOf ordA ordB qty * ordA.makerAmount.toNat := by
      unfold quoteOf
      rw [if_pos older]
      exact le_ceil_mul grid.makerA
    exact ⟨grid.crossing crossing, nonzero lower, lower, upper⟩
  · rw [if_neg (by simpa using older), ← askLimit]
    refine ⟨fun checks => checks.2.2.1, fun lower => ?_⟩
    have upper : quoteOf ordA ordB qty * ordB.takerAmount.toNat ≤ qty * ordB.makerAmount.toNat := by
      unfold quoteOf
      rw [if_neg older]
      exact Nat.div_mul_le_self _ _
    exact ⟨grid.crossing crossing, nonzero lower, lower, upper⟩

end Grid

/-! ### The book's side -/

/-- The resting order is the signed order of its digest, with at most its size left. -/
def Genuine (market : Market) (signed : Bytes → Order) (o : RestingOrder) : Prop :=
  ∃ size, priceAndSize market (signed o.digest) = .ok (o.side, o.priceTicks, size) ∧ o.remainingBase ≤ size

namespace Flight

open Book

/-- Every digest is placed with the order it is the digest of. -/
def PlacesSigned (signed : Bytes → Order) : Op → Prop
  | .place digest order => order = signed digest
  | _ => True

structure Formed (market : Market) (signed : Bytes → Order) (s : Flight) : Prop where
  shaped : s.book.Shaped
  listed : s.book.market = market
  genuine : ∀ o ∈ s.book.orders, Genuine market signed o
  differ : ∀ intent ∈ s.inFlight, intent.askDigest ≠ intent.bidDigest

/-- The intents a step adds. -/
def emitted (s next : Flight) : List MatchIntent := next.inFlight.drop s.inFlight.length

/-- The order as the matching loop saw it: resting, or being placed with its whole size. -/
def Met (s : Flight) (op : Op) (o : RestingOrder) : Prop :=
  o ∈ s.book.orders ∨ ∃ order, op = .place o.digest order ∧
    priceAndSize s.book.market order = .ok (o.side, o.priceTicks, o.remainingBase)

/-- The two orders of an intent, in the state that emitted it. -/
structure Matches (s : Flight) (op : Op) (intent : MatchIntent) (ask bid : RestingOrder) : Prop where
  askSide : ask.side = .ask
  bidSide : bid.side = .bid
  askDigest : intent.askDigest = ask.digest
  bidDigest : intent.bidDigest = bid.digest
  askMet : s.Met op ask
  bidMet : s.Met op bid
  apart : ask.digest ≠ bid.digest
  positive : 0 < intent.fillBaseAmount
  askFits : intent.fillBaseAmount ≤ ask.remainingBase
  bidFits : intent.fillBaseAmount ≤ bid.remainingBase
  crossing : ask.priceTicks ≤ bid.priceTicks

variable {s next : Flight} {op : Op} {market : Market} {signed : Bytes → Order}

theorem matches_of_emitted {registry : ID} {incoming o : RestingOrder} {intent : MatchIntent}
    (emission : Emitted registry incoming o intent) (opposite : o.side = incoming.side.opposite)
    (apart : o.digest ≠ incoming.digest) (incomingMet : s.Met op incoming) (restingMet : s.Met op o) :
    ∃ ask bid, Matches s op intent ask bid := by
  have incomingFits : intent.fillBaseAmount ≤ incoming.remainingBase :=
    Nat.le_trans emission.incomingFits (Nat.sub_le _ _)
  have restingFits : intent.fillBaseAmount ≤ o.remainingBase := Nat.le_trans emission.restingFits (Nat.sub_le _ _)
  have crossing := emission.crosses
  have shape := emission.shape
  unfold crosses at crossing
  cases side : incoming.side with
  | ask =>
    rw [side] at opposite
    simp only [side, decide_eq_true_eq] at crossing
    refine ⟨incoming, o, side, opposite, ?_, ?_, incomingMet, restingMet, apart.symm, emission.positive, incomingFits,
      restingFits, crossing⟩
    · rw [shape]
      simp [intentOf, side]
    · rw [shape]
      simp [intentOf, side]
  | bid =>
    rw [side] at opposite
    simp only [side, decide_eq_true_eq] at crossing
    refine ⟨o, incoming, opposite, side, ?_, ?_, restingMet, incomingMet, apart, emission.positive, restingFits,
      incomingFits, crossing⟩
    · rw [shape]
      simp [intentOf, side]
    · rw [shape]
      simp [intentOf, side]

theorem Matches.differ {intent : MatchIntent} {ask bid : RestingOrder} (pair : Matches s op intent ask bid) :
    intent.askDigest ≠ intent.bidDigest := by
  rw [pair.askDigest, pair.bidDigest]
  exact pair.apart

theorem genuine_smaller {o old : RestingOrder} (genuine : Genuine market signed old) (digest : o.digest = old.digest)
    (side : o.side = old.side) (price : o.priceTicks = old.priceTicks) (less : o.remainingBase ≤ old.remainingBase) :
    Genuine market signed o := by
  obtain ⟨size, priced, within⟩ := genuine
  rw [← digest, ← side, ← price] at priced
  exact ⟨size, priced, Nat.le_trans less within⟩

theorem genuine_onNamed {intent : MatchIntent} {f : RestingOrder → RestingOrder} {old : RestingOrder}
    (genuine : Genuine market signed old) (keeps : Keeps f) (less : (f old).remainingBase ≤ old.remainingBase) :
    Genuine market signed (onNamed intent f old) := by
  unfold onNamed
  split
  · exact genuine_smaller genuine (keeps.digest old) (keeps.side old) (keeps.priceTicks old) less
  · exact genuine

/-- A step that appends intents, each of them of two orders that met. -/
theorem Formed.emits {book : Book} {intents : List MatchIntent} (formed : s.Formed market signed) (shaped : book.Shaped)
    (listed : book.market = s.book.market) (genuine : ∀ o ∈ book.orders, Genuine market signed o)
    (pairs : ∀ intent ∈ intents, ∃ ask bid, Matches s op intent ask bid) :
    Formed market signed ⟨book, s.inFlight ++ intents⟩ ∧
      ∀ intent ∈ s.emitted ⟨book, s.inFlight ++ intents⟩, ∃ ask bid, Matches s op intent ask bid := by
  constructor
  · refine ⟨shaped, listed.trans formed.listed, genuine, fun intent member => ?_⟩
    rcases List.mem_append.mp member with old | new
    · exact formed.differ intent old
    · obtain ⟨ask, bid, pair⟩ := pairs intent new
      exact pair.differ
  · intro intent member
    have new : intent ∈ intents := by simpa [Flight.emitted] using member
    exact pairs intent new

/-- A step that takes one intent off emits none. -/
theorem Formed.settles {book : Book} {which : Nat} (formed : s.Formed market signed) (shaped : book.Shaped)
    (listed : book.market = s.book.market) (genuine : ∀ o ∈ book.orders, Genuine market signed o) :
    Formed market signed ⟨book, s.inFlight.eraseIdx which⟩ ∧
      ∀ intent ∈ s.emitted ⟨book, s.inFlight.eraseIdx which⟩, ∃ ask bid, Matches s op intent ask bid := by
  constructor
  · exact ⟨shaped, listed.trans formed.listed, genuine,
      fun intent member => formed.differ intent (List.mem_of_mem_eraseIdx member)⟩
  · have silent : s.emitted ⟨book, s.inFlight.eraseIdx which⟩ = [] :=
      List.drop_eq_nil_of_le (List.length_eraseIdx_le _ _)
    simp [silent]

theorem Formed.place {digest : Bytes} {order : Order} {outcome : PlaceOutcome} {intents : List MatchIntent} {book : Book}
    (formed : s.Formed market signed) (signs : order = signed digest)
    (ran : s.book.place digest order = .ok (outcome, intents, book)) :
    Formed market signed ⟨book, s.inFlight ++ intents⟩ ∧
      ∀ intent ∈ s.emitted ⟨book, s.inFlight ++ intents⟩, ∃ ask bid, Matches s (.place digest order) intent ask bid := by
  obtain ⟨incoming, kept, placed⟩ := formed.shaped.place ran
  -- the order is not in the book yet: it is met through the step that places it
  have met : s.Met (.place digest order) incoming := Or.inr ⟨order, by rw [placed.digest], placed.priced⟩
  refine formed.emits placed.shaped placed.market (fun o member => ?_) fun intent member => ?_
  · -- an order of the new book is the placed one or an old one with less left
    rcases (placed.orders o).mp member with entered | ⟨old, inside, rfl⟩
    · obtain ⟨same, side, price, pending, -, sizes⟩ := placed.entered o entered
      have fits := placed.incomingFits
      refine ⟨incoming.remainingBase, ?_, by omega⟩
      rw [same, side, price, ← signs, ← formed.listed]
      exact placed.priced
    · exact genuine_smaller (formed.genuine old inside) rfl rfl rfl (Nat.le_refl _)
  · obtain ⟨o, inside, opposite, emission⟩ := placed.emitted intent member
    refine matches_of_emitted emission opposite ?_ met (Or.inl inside)
    rw [placed.digest]
    exact placed.fresh o inside

/-- Both orders of a new intent were in the book, so no digest is new. -/
theorem Formed.rematch (formed : s.Formed market signed) (digest : Bytes) :
    Formed market signed ⟨(s.book.rematch digest).2, s.inFlight ++ (s.book.rematch digest).1⟩ ∧
      ∀ intent ∈ s.emitted ⟨(s.book.rematch digest).2, s.inFlight ++ (s.book.rematch digest).1⟩,
        ∃ ask bid, Matches s (.rematch digest) intent ask bid := by
  have rematched := formed.shaped.rematch digest
  refine formed.emits rematched.shaped rematched.market (fun o member => ?_) fun intent member => ?_
  · obtain ⟨old, inside, rfl⟩ := (rematched.orders o).mp member
    exact genuine_smaller (formed.genuine old inside) rfl rfl rfl (Nat.le_refl _)
  · obtain ⟨incoming, here, o, there, -, opposite, apart, emission⟩ := rematched.emitted intent member
    exact matches_of_emitted emission opposite apart (Or.inl here) (Or.inl there)

/-- Every operation keeps the orders genuine, and every new intent joins two of them. -/
theorem Formed.step (formed : s.Formed market signed) (places : PlacesSigned signed op) (moved : s.step op = .ok next) :
    next.Formed market signed ∧ ∀ intent ∈ s.emitted next, ∃ ask bid, Matches s op intent ask bid := by
  have still : ∀ {book : Book}, Flight.emitted s ⟨book, s.inFlight⟩ = [] := by
    intro book
    exact List.drop_eq_nil_of_le (Nat.le_refl _)
  cases op with
  | place digest order =>
    simp only [Flight.step] at moved
    split at moved
    · cases moved
    · rename_i intents book ran
      cases moved
      exact formed.place places ran
  | rematch digest =>
    cases moved
    exact formed.rematch digest
  | settleSuccess which =>
    simp only [Flight.step] at moved
    -- an index that names no intent leaves everything as it is
    split at moved
    · cases moved
      exact ⟨formed, by simp [still]⟩
    · rename_i intent found
      cases moved
      obtain ⟨shaped, mem⟩ := formed.shaped.settleSuccess (formed.differ intent (List.mem_of_getElem? found))
      refine formed.settles shaped (market_settleSuccess _ _) fun o member => ?_
      obtain ⟨old, inside, rfl, -⟩ := (mem o).mp member
      exact genuine_onNamed (formed.genuine old inside) (consume_keeps _) (Nat.sub_le _ _)
  | settleFailed which drop =>
    simp only [Flight.step] at moved
    -- the same for a failure, which gives the quantity back
    split at moved
    · cases moved
      exact ⟨formed, by simp [still]⟩
    · rename_i intent found
      cases moved
      obtain ⟨shaped, mem⟩ := formed.shaped.settleFailed drop (formed.differ intent (List.mem_of_getElem? found))
      refine formed.settles shaped (market_settleFailed _ _ _) fun o member => ?_
      obtain ⟨old, inside, rfl, -⟩ := (mem o).mp member
      exact genuine_onNamed (formed.genuine old inside) (release_keeps _) (Nat.le_refl _)
  | applyExternalFill digest amount =>
    cases moved
    obtain ⟨shaped, mem⟩ := formed.shaped.modify_prune (shrink_keeps amount) digest
    refine ⟨⟨shaped, (market_applyExternalFill _ _ _).trans formed.listed, fun o member => ?_, formed.differ⟩,
      by simp [still]⟩
    obtain ⟨old, inside, rfl, -⟩ := (mem o).mp member
    unfold onDigest
    split
    · exact genuine_smaller (formed.genuine old inside) rfl rfl rfl (Nat.sub_le _ _)
    · exact formed.genuine old inside
  | remove digest =>
    cases moved
    refine ⟨⟨formed.shaped.remove digest, (market_remove _ _).trans formed.listed, fun o member => ?_, formed.differ⟩,
      by simp [still]⟩
    rw [formed.shaped.remove_orders] at member
    exact formed.genuine o (List.mem_of_mem_filter member)

/-- An order the matching loop met is a signed order with at most its size left. -/
theorem Met.genuine {o : RestingOrder} (met : s.Met op o) (formed : s.Formed market signed)
    (places : PlacesSigned signed op) : Genuine market signed o := by
  rcases met with inside | ⟨order, rfl, priced⟩
  · exact formed.genuine o inside
  · rw [formed.listed, places] at priced
    exact ⟨o.remainingBase, priced, Nat.le_refl _⟩

theorem start_formed (market : Market) (policy : SelfTradePolicy) : (start market policy).Formed market signed := by
  refine ⟨(start_safe market policy).shaped, rfl, ?_, ?_⟩ <;> simp [start, Book.new, Book.orders, Levels.orders]

/-- In every run the chain takes an emitted intent exactly when its rounded amount fits. The
record of the bid is in base and equals what the book assumes; that of the ask is in quote. -/
theorem settles_iff (market : Market) (policy : SelfTradePolicy) (signed : Bytes → Order) {ops : List Op} {s next : Flight}
    {op : Op} (places : ∀ op ∈ ops, PlacesSigned signed op) (ran : exec step (start market policy) ops = .ok s)
    (placesNow : PlacesSigned signed op) (moved : s.step op = .ok next) :
    ∀ intent ∈ s.emitted next, ∃ ask bid, Matches s op intent ask bid ∧
      ∀ (reg : SettlementRegistry) (feeABps feeBBps : Nat), feeABps ≤ SettlementRegistry.maxFeeBps →
        feeBBps ≤ SettlementRegistry.maxFeeBps →
        reg.filled bid.digest + bid.remainingBase = (signed bid.digest).takerAmount.toNat →
        ((∃ settled, settleMatch reg ask.digest bid.digest (signed ask.digest) (signed bid.digest)
            intent.fillBaseAmount feeABps feeBBps = .ok settled) ↔
          Fits market ((signed ask.digest).salt ≤ (signed bid.digest).salt) ask bid (reg.filled ask.digest)
            (signed ask.digest).takerAmount.toNat intent.fillBaseAmount) := by
  intro intent member
  have formed : s.Formed market signed := exec_invariant_only step (PlacesSigned signed) (Formed market signed)
    (fun _ _ _ before allowed ranStep => (before.step allowed ranStep).1) (start_formed market policy) places ran
  obtain ⟨ask, bid, pair⟩ := (formed.step placesNow moved).2 intent member
  obtain ⟨sizeA, pricedA, withinA⟩ := pair.askMet.genuine formed placesNow
  obtain ⟨sizeB, pricedB, withinB⟩ := pair.bidMet.genuine formed placesNow
  rw [pair.askSide] at pricedA
  rw [pair.bidSide] at pricedB
  obtain ⟨rfl, makerA, takerA, lot, tick, priceA, -⟩ := priceAndSize_ok pricedA
  obtain ⟨rfl, takerB, makerB, -, -, priceB, -⟩ := priceAndSize_ok pricedB
  have grid : OnGrid market (signed ask.digest) (signed bid.digest) ask bid :=
    ⟨lot, tick, makerA, takerA, makerB, takerB, priceA, priceB⟩
  have sized : Sized (signed ask.digest) (signed bid.digest) intent.fillBaseAmount :=
    ⟨pair.positive, Nat.le_trans pair.askFits withinA, Nat.le_trans pair.bidFits withinB⟩
  refine ⟨ask, bid, pair, fun reg feeABps feeBBps rateA rateB synced => ?_⟩
  rw [settleMatch_iff pair.apart sized rateA rateB, ← grid.checks_iff pair.positive pair.crossing]
  -- the record of the bid leaves room for what the book still holds of it
  have room : reg.filled bid.digest + intent.fillBaseAmount ≤ (signed bid.digest).takerAmount.toNat := by
    have fits := pair.bidFits
    omega
  exact ⟨fun ⟨checks, roomA, _⟩ => ⟨checks, roomA⟩, fun ⟨checks, roomA⟩ => ⟨checks, roomA, room⟩⟩

/-! A bid of ten base at twelve and an ask of ten base at ten, in both orders. -/

namespace Sample

def cheapAsk (salt : UInt64) : Order := { ask 1 10 with takerAmount := 100, salt }

def dearBid (salt : UInt64) : Order := { bid 2 10 with makerAmount := 120, salt }

def fresh : SettlementRegistry :=
  .newMarket 1 (fun side => match side with | .base => "B" | .quote => "Q") (by decide) 0

end Sample

/-- The newer ask is matched at the price of the bid and would receive more than it asked for. -/
theorem newer_ask_overfills : ∃ s, exec step (start Sample.market .cancelNewest) [.place [2] (Sample.dearBid 1)] = .ok s ∧
    ∃ next, s.step (.place [1] (Sample.cheapAsk 2)) = .ok next ∧ ∃ intent ∈ s.emitted next,
      intent.askDigest = [1] ∧ intent.bidDigest = [2] ∧ Sample.fresh.filled [1] = 0 ∧ Sample.fresh.filled [2] = 0 ∧
      settleMatch Sample.fresh [1] [2] (Sample.cheapAsk 2) (Sample.dearBid 1) intent.fillBaseAmount 0 0 =
        .error (.code .overfill) := by
  refine exists_ok (fun s => (s.step (.place [1] (Sample.cheapAsk 2))).toOption.any fun next =>
    (s.emitted next).any fun intent => decide (intent.askDigest = [1] ∧ intent.bidDigest = [2] ∧
      intent.fillBaseAmount = 10)) (by decide +kernel) fun s _ passed => exists_ok _ passed fun next _ found => ?_
  simp only [List.any_eq_true, decide_eq_true_eq] at found
  obtain ⟨intent, member, ask, bid, amount⟩ := found
  refine ⟨intent, member, ask, bid, rfl, rfl, ?_⟩
  rw [amount]
  rfl

/-- The same orders in the other order settle at the price of the ask. -/
theorem settles_iff_older_ask :
    ∃ s, exec step (start Sample.market .cancelNewest) [.place [1] (Sample.cheapAsk 1)] = .ok s ∧
    ∃ next, s.step (.place [2] (Sample.dearBid 2)) = .ok next ∧ ∃ intent ∈ s.emitted next,
      ∃ settled, settleMatch Sample.fresh [1] [2] (Sample.cheapAsk 1) (Sample.dearBid 2) intent.fillBaseAmount 0 0 =
        .ok settled := by
  refine exists_ok (fun s => (s.step (.place [2] (Sample.dearBid 2))).toOption.any fun next =>
    ((s.emitted next).any fun intent => decide (intent.askDigest = [1] ∧ intent.bidDigest = [2] ∧
      intent.fillBaseAmount = 10)) && (s.book.orders.all (fun o => decide (o.digest = [1] ∧ o.priceTicks = 10)) &&
      decide ((priceAndSize s.book.market (Sample.dearBid 2)).toOption = some (.bid, 12, 10))))
    (by decide +kernel) fun s ran passed => exists_ok _ passed fun next moved found => ?_
  simp only [Bool.and_eq_true, List.any_eq_true, List.all_eq_true, decide_eq_true_eq] at found
  obtain ⟨⟨intent, member, askIs, bidIs, amount⟩, resting, listed⟩ := found
  obtain ⟨ask, bid, pair, settles⟩ := settles_iff Sample.market .cancelNewest
    (fun digest => if digest = [1] then Sample.cheapAsk 1 else Sample.dearBid 2) (by simp [PlacesSigned]) ran
    (by simp [PlacesSigned]) moved intent member
  have askDigest : ask.digest = [1] := pair.askDigest.symm.trans askIs
  have bidDigest : bid.digest = [2] := pair.bidDigest.symm.trans bidIs
  refine ⟨intent, member, ?_⟩
  have askPrice : ask.priceTicks = 10 := by
    rcases pair.askMet with inside | ⟨order, placed, -⟩
    · exact (resting ask inside).2
    · simp [askDigest] at placed
  have bidPriced : bid.priceTicks = 12 ∧ bid.remainingBase = 10 := by
    rcases pair.bidMet with inside | ⟨order, placed, priced⟩
    · exact absurd ((resting bid inside).1.symm.trans bidDigest) (by decide)
    · obtain ⟨-, rfl⟩ := Op.place.inj placed
      rw [priced] at listed
      simp only [Except.toOption, Option.some.injEq, Prod.mk.injEq] at listed
      exact listed.2
  have fits := settles Sample.fresh 0 0 (by decide) (by decide)
  rw [askDigest, bidDigest, amount, bidPriced.2] at fits
  rw [amount]
  refine (fits rfl).mpr ?_
  rw [Fits, quoteInTicks, askPrice, bidPriced.1]
  decide

end Flight

end SuiOptions.Orderbook
