import SuiOptions.DeskCore.Apply
import SuiOptions.Lib.Execution

/-! Every event moves a balance and posts to a line.

What the assets less the liabilities are short of the ledger's own explanation is the
same before and after an event, unless a line is dropped that has a value or a top-up
under way is written over.
-/

set_option autoImplicit false

namespace SuiOptions.DeskCore

open Execution BTreeMap

/-! ### Fills -/

theorem signum_mul_abs (x : ℚ) : signum x * |x| = x := by
  unfold signum
  split
  · rename_i negative
    rw [abs_of_neg negative]
    ring
  · rename_i positive
    rw [abs_of_nonneg (not_lt.mp positive), one_mul]

theorem signum_of_neg {x : ℚ} (negative : x < 0) : signum x = -1 := if_pos negative

theorem signum_of_nonneg {x : ℚ} (positive : 0 ≤ x) : signum x = 1 := if_neg (not_lt.mpr positive)

theorem signum_add {x y : ℚ} (other : y ≠ 0) (same : x = 0 ∨ signum x = signum y) :
    x + y ≠ 0 ∧ signum (x + y) * |x| = x ∧ signum (x + y) * |y| = y := by
  rcases lt_or_gt_of_ne other with negative | positive
  · have below : x ≤ 0 := by
      rcases same with rfl | same
      · exact le_refl 0
      · by_contra above
        rw [signum_of_nonneg (not_le.mp above).le, signum_of_neg negative] at same
        norm_num at same
    have sum : x + y < 0 := by linarith
    rw [signum_of_neg sum, abs_of_nonpos below, abs_of_neg negative]
    exact ⟨sum.ne, by ring, by ring⟩
  · have above : 0 ≤ x := by
      rcases same with rfl | same
      · exact le_refl 0
      · by_contra below
        rw [signum_of_neg (not_le.mp below), signum_of_nonneg positive.le] at same
        norm_num at same
    have sum : 0 < x + y := by linarith
    rw [signum_of_nonneg sum.le, abs_of_nonneg above, abs_of_pos positive]
    exact ⟨sum.ne', by ring, by ring⟩

/-- The closed slice of amounts of two signs: all of the smaller one. -/
theorem signum_close {x y : ℚ} (some : x ≠ 0) (other : y ≠ 0) (differ : signum x ≠ signum y) :
    min |y| |x| * signum x = if x + y = 0 ∨ signum (x + y) ≠ signum x then x else -y := by
  rcases lt_or_gt_of_ne some with negative | positive
  · have above : 0 < y := by
      by_contra below
      exact differ (by rw [signum_of_neg negative, signum_of_neg (lt_of_le_of_ne (not_lt.mp below) other)])
    rw [signum_of_neg negative, abs_of_neg negative, abs_of_pos above]
    by_cases rest : x + y < 0
    · rw [signum_of_neg rest, if_neg (by simp [rest.ne]), min_eq_left (by linarith)]
      ring
    · have turned : x + y = 0 ∨ signum (x + y) ≠ -1 := Or.inr (by rw [signum_of_nonneg (not_lt.mp rest)]; norm_num)
      rw [if_pos turned, min_eq_right (by linarith)]
      ring
  · have below : y < 0 := by
      by_contra above
      exact differ (by rw [signum_of_nonneg positive.le, signum_of_nonneg (not_lt.mp above)])
    rw [signum_of_nonneg positive.le, abs_of_pos positive, abs_of_neg below, mul_one]
    by_cases rest : 0 < x + y
    · rw [signum_of_nonneg rest.le, if_neg (by simp [rest.ne']), min_eq_left (by linarith)]
    · have turned : x + y = 0 ∨ signum (x + y) ≠ 1 := by
        rcases eq_or_lt_of_le (not_lt.mp rest) with zero | negative
        · exact Or.inl zero
        · exact Or.inr (by rw [signum_of_neg negative]; norm_num)
      rw [if_pos turned, min_eq_right (by linarith)]

namespace PerpPosition

variable {p : PerpPosition} {units px : ℚ}

/-- Realized and unrealized are what was traded, at whatever mark. -/
def Reconciled (p : PerpPosition) : Prop := p.realized = p.cashFlow + p.units * p.entry

theorem reconciled_iff : p.Reconciled ↔ p.realized + p.unrealized = p.cashFlow + p.units * p.mark := by
  unfold Reconciled unrealized
  constructor
  · intro same
    rw [same]
    ring
  · intro same
    linarith

theorem Reconciled.fill (reconciled : p.Reconciled) : (p.fill units px).1.Reconciled := by
  unfold Reconciled at *
  unfold PerpPosition.fill
  split
  · exact reconciled
  rename_i some
  simp only
  split
  · rename_i same
    obtain ⟨nonzero, first, second⟩ := signum_add some same
    -- the entry becomes the average of the two prices
    have cost : (p.units + units) * ((p.entry * |p.units| + px * |units|) / |p.units + units|) =
        p.entry * p.units + px * units := by
      calc (p.units + units) * ((p.entry * |p.units| + px * |units|) / |p.units + units|)
          = signum (p.units + units) * |p.units + units| * ((p.entry * |p.units| + px * |units|) / |p.units + units|) := by
            rw [signum_mul_abs]
        _ = signum (p.units + units) * (p.entry * |p.units| + px * |units|) := by
            field_simp [abs_ne_zero.mpr nonzero]
        _ = p.entry * (signum (p.units + units) * |p.units|) + px * (signum (p.units + units) * |units|) := by ring
        _ = p.entry * p.units + px * units := by rw [first, second]
    simp only
    rw [cost, reconciled]
    ring
  · rename_i opposite
    obtain ⟨nonflat, differ⟩ := not_or.mp opposite
    have closed := signum_close nonflat some differ
    have realized : (px - p.entry) * min |units| |p.units| * signum p.units =
        (px - p.entry) * (min |units| |p.units| * signum p.units) := by ring
    rw [realized, closed]
    by_cases flat : p.units + units = 0
    · rw [if_pos flat, if_pos (Or.inl flat)]
      have all : units = -p.units := by linarith
      simp only
      rw [reconciled, all]
      ring
    · rw [if_neg flat]
      by_cases turned : signum (p.units + units) ≠ signum p.units
      · rw [if_pos turned, if_pos (Or.inr turned)]
        simp only
        rw [reconciled]
        ring
      · rw [if_neg turned, if_neg (by simp [flat, not_not.mp turned])]
        simp only
        rw [reconciled]
        ring

theorem fill_collateral : (p.fill units px).1.collateral = p.collateral := by
  unfold PerpPosition.fill
  split
  · rfl
  simp only
  split
  · rfl
  · split
    · rfl
    · split <;> rfl

theorem Reconciled.mark (reconciled : p.Reconciled) (mark fees fundingPaid collateral : ℚ) :
    ({ p with mark, fees, fundingPaid, collateral } : PerpPosition).Reconciled := reconciled

end PerpPosition

/-! ### The gap -/

namespace Ledger

variable {l after : Ledger} {lost : ℚ}

def gap (l : Ledger) : ℚ := l.nav - l.navExplained

theorem gap_eq (l : Ledger) : l.gap = l.settlement + l.underlying.total UnderlyingBalance.value +
    l.options.total OptionPosition.value + l.perps.total (·.collateral) + l.pending.margin.total (·.amount) -
    l.queuedWithdrawals.value.getD 0 - l.flashOutstanding - l.nav0 - l.lines.realized - l.lines.optionMark -
    l.equityFlows.total := by
  unfold gap nav navExplained assets liabilities underlyingValue optionMarks perpCollateral withdrawalLiability
    Pending.marginInTransit
  ring

def AllReconciled (l : Ledger) : Prop := ∀ market p, l.perps.get? market = some p → p.Reconciled

/-- The gap grows by what was lost, and the rest of the books stays in order. -/
structure Keeps (l after : Ledger) (lost : ℚ) : Prop where
  gap : after.gap = l.gap - lost
  flash : l.flashOutstanding = 0 → after.flashOutstanding = 0
  perps : l.AllReconciled → after.AllReconciled

namespace Keeps

theorem refl (l : Ledger) : Keeps l l 0 := ⟨by ring, id, id⟩

theorem trans {last : Ledger} {more : ℚ} (first : Keeps l after lost) (second : Keeps after last more) :
    Keeps l last (lost + more) where
  gap := by
    rw [second.gap, first.gap]
    ring
  flash := fun zero => second.flash (first.flash zero)
  perps := fun all => second.perps (first.perps all)

theorem andThen {last : Ledger} (first : Keeps l after 0) (second : Keeps after last 0) : Keeps l last 0 := by
  have both := first.trans second
  rwa [add_zero] at both

theorem foldl {α : Type} {step : Ledger → α → Ledger} (each : ∀ l x, Keeps l (step l x) 0) (list : List α) (l : Ledger) :
    Keeps l (list.foldl step l) 0 := by
  induction list generalizing l with
  | nil => exact refl l
  | cons x rest ih => exact (each l x).andThen (ih _)

theorem of_gap (gap : after.gap = l.gap - lost) (flash : after.flashOutstanding = l.flashOutstanding)
    (perps : after.perps = l.perps) : Keeps l after lost where
  gap := gap
  flash := fun zero => flash.trans zero
  perps := by
    unfold AllReconciled
    rw [perps]
    exact id

end Keeps

theorem AllReconciled.found (all : l.AllReconciled) (market : Market) : ((l.perps.get? market).getD {}).Reconciled := by
  cases held : l.perps.get? market with
  | none => simp [PerpPosition.Reconciled]
  | some p => exact all market p held

theorem AllReconciled.insert (all : l.AllReconciled) {market : Market} {p : PerpPosition} (reconciled : p.Reconciled)
    (perps : after.perps = l.perps.insert market p) : after.AllReconciled := by
  intro other held found
  rw [perps, get?_insert] at found
  split at found
  · cases found
    exact reconciled
  · exact all other held found

section Handlers

variable (l)

theorem syncSettlement_keeps (settlement : Option ℚ) : Keeps l (l.syncSettlement settlement) 0 := by
  cases settlement with
  | none => exact Keeps.refl l
  | some s =>
    refine Keeps.of_gap ?_ rfl rfl
    simp only [gap_eq, syncSettlement, EquityFlows.total]
    ring

theorem syncUnderlying_keeps (row : String × ℚ × ℚ) : Keeps l (l.syncUnderlying row) 0 := by
  have worthless : UnderlyingBalance.value {} = 0 := by simp [UnderlyingBalance.value]
  refine Keeps.of_gap ?_ rfl rfl
  simp only [gap_eq, syncUnderlying, EquityFlows.total, total_insert, part_getD worthless]
  ring

theorem resyncBalances_keeps (settlement : Option ℚ) (underlying : List (String × ℚ × ℚ)) :
    Keeps l (l.resyncBalances settlement underlying) 0 :=
  (l.syncSettlement_keeps settlement).andThen (Keeps.foldl syncUnderlying_keeps _ _)

section Line

variable {id : OptionId} {p : OptionPosition} (known : l.options.part OptionPosition.value id = p.value)

include known

theorem markLine_keeps (mark : ℚ) : Keeps l (l.markLine id p mark) 0 := by
  refine Keeps.of_gap ?_ rfl rfl
  simp only [gap_eq, markLine, total_insert, known, Lines.realized, OptionPosition.value]
  ring

theorem holdLine_keeps (spec : OptionSpec) (qty : ℚ) : Keeps l (l.holdLine id p spec qty) 0 := by
  refine Keeps.of_gap ?_ rfl rfl
  simp only [gap_eq, holdLine, total_insert, known, EquityFlows.total]
  ring

end Line

theorem syncOption_keeps (s : OptionSync) : Keeps l (l.syncOption s) 0 := by
  let fresh : OptionPosition := ⟨s.spec, 0, 0, s.markPerUnit.getD 0, 0⟩
  have known : l.options.part OptionPosition.value s.option = ((l.options.get? s.option).getD fresh).value :=
    part_getD (by simp [fresh, OptionPosition.value])
  unfold syncOption
  dsimp only
  split
  · exact l.holdLine_keeps known s.spec s.qty
  · rename_i mark _
    have inserted {p : OptionPosition} : (l.options.insert s.option p).part OptionPosition.value s.option = p.value := by
      rw [part_insert, if_pos rfl]
    exact (l.markLine_keeps known mark).andThen (holdLine_keeps _ inserted s.spec s.qty)

theorem loseOption_keeps (id : OptionId) : Keeps l (l.loseOption id) 0 := by
  unfold loseOption
  split
  · exact Keeps.refl l
  · rename_i p found
    refine Keeps.of_gap ?_ rfl rfl
    simp only [gap_eq, total_remove, part_of_some found, EquityFlows.total]
    ring

theorem resyncOptions_keeps (positions : List OptionSync) : Keeps l (l.resyncOptions positions) 0 := by
  have synced := Keeps.foldl syncOption_keeps positions l
  refine (synced.andThen (Keeps.foldl loseOption_keeps _ _)).andThen (Keeps.of_gap ?_ rfl rfl)
  simp only [gap_eq, resyncOptions]
  ring

theorem bookFill_keeps {market : Market} {filled : PerpPosition × ℚ}
    (collateral : filled.1.collateral = ((l.perps.get? market).getD {}).collateral)
    (reconciled : l.AllReconciled → filled.1.Reconciled) : Keeps l (l.bookFill market filled) 0 where
  gap := by
    have worthless : PerpPosition.collateral {} = 0 := rfl
    simp only [gap_eq, bookFill, total_insert, part_getD (f := PerpPosition.collateral) worthless, collateral, Lines.realized]
    ring
  flash := id
  perps := fun all => all.insert (reconciled all) rfl

theorem resyncPerp_keeps (market : Market) (units : ℚ) (mark : Option ℚ) : Keeps l (l.resyncPerp market units mark) 0 := by
  unfold resyncPerp
  dsimp only
  split
  · refine ⟨?_, id, fun all => all.insert ((all.found market).mark _ _ _ _) rfl⟩
    have worthless : PerpPosition.collateral {} = 0 := rfl
    simp only [gap_eq, total_insert, part_getD (f := PerpPosition.collateral) worthless]
    ring
  · exact l.bookFill_keeps PerpPosition.fill_collateral fun all => ((all.found market).mark _ _ _ _).fill

theorem queueWithdrawals_keeps (queue : QueuedWithdrawals) : Keeps l (l.queueWithdrawals queue) 0 := by
  refine Keeps.of_gap ?_ rfl rfl
  simp only [gap_eq, queueWithdrawals, withdrawalLiability, EquityFlows.total]
  ring

theorem markOption_keeps (row : OptionId × ℚ) : Keeps l (l.markOption row) 0 := by
  unfold markOption
  split
  · exact Keeps.refl l
  · rename_i p found
    exact l.markLine_keeps (part_of_some found) row.2

theorem markUnderlying_keeps (asset : String) (mark : ℚ) : Keeps l (l.markUnderlying asset mark) 0 := by
  unfold markUnderlying
  split
  · exact Keeps.refl l
  · rename_i b found
    refine Keeps.of_gap ?_ rfl rfl
    simp only [gap_eq, total_insert, part_of_some found, UnderlyingBalance.value, Lines.realized]
    ring

theorem markPerp_keeps (market : Market) (mark : ℚ) : Keeps l (l.markPerp market mark) 0 := by
  refine ⟨?_, id, fun all => all.insert ((all.found market).mark mark _ _ _) rfl⟩
  have worthless : PerpPosition.collateral {} = 0 := rfl
  simp only [gap_eq, markPerp, total_entry (f := PerpPosition.collateral) worthless]
  ring

theorem expireLine_keeps (id : OptionId) : Keeps l (l.expireLine id) 0 := by
  unfold expireLine
  split
  · exact Keeps.refl l
  · rename_i p found
    refine Keeps.of_gap ?_ rfl rfl
    dsimp only
    split
    · simp only [gap_eq, total_remove, part_of_some found, Lines.realized]
      ring
    · simp only [gap_eq, total_insert, part_of_some found, OptionPosition.value, Lines.realized]
      ring

theorem expireOptions_keeps (atMs : Nat) : Keeps l (l.expireOptions atMs) 0 :=
  Keeps.foldl expireLine_keeps _ _

theorem installReservation_keeps (r : Reservation) : Keeps l (l.installReservation r) 0 := by
  unfold installReservation
  split
  · exact Keeps.of_gap (by simp only [gap_eq]; ring) rfl rfl
  · exact Keeps.refl l

theorem transitionReservation_keeps (key : String) (state : ReservationState) (atMs : Nat) :
    Keeps l (l.transitionReservation key state atMs) 0 := by
  unfold transitionReservation
  split
  · exact Keeps.refl l
  · exact Keeps.of_gap (by simp only [gap_eq]; ring) rfl rfl

theorem buyOption_keeps (id : OptionId) (spec : Option OptionSpec) (qty premium markPerUnit : ℚ) :
    Keeps l (l.buyOption id spec qty premium markPerUnit) 0 := by
  have worthless : OptionPosition.value ⟨spec.getD unknownSpec, 0, 0, markPerUnit, 0⟩ = 0 := by simp [OptionPosition.value]
  refine Keeps.of_gap ?_ rfl rfl
  simp only [gap_eq, buyOption, total_insert, part_getD worthless, OptionPosition.value, Lines.realized]
  ring

def dropped (l : Ledger) (id : OptionId) : ℚ :=
  (l.options.get? id).elim 0 fun p => if p.qty ≤ 0 ∧ p.pendingUnits ≤ 0 then p.value else 0

theorem dropIfEmpty_keeps (id : OptionId) : Keeps l (l.dropIfEmpty id) (l.dropped id) := by
  unfold dropIfEmpty dropped
  split
  · rename_i missing
    rw [missing]
    exact Keeps.refl l
  · rename_i p found
    rw [found, Option.elim_some]
    split
    · refine Keeps.of_gap ?_ rfl rfl
      simp only [gap_eq, total_remove, part_of_some found]
      ring
    · exact Keeps.refl l

/-! ### Operations -/

theorem commit_keeps {id : OptionId} {p : OptionPosition} (found : l.options.get? id = some p) (qty : ℚ) :
    Keeps l (l.commit id p qty) 0 := by
  refine Keeps.of_gap ?_ rfl rfl
  simp only [gap_eq, commit, total_insert, part_of_some found, OptionPosition.value]
  ring

theorem fillPerp_keeps (op : Option OpId) (market : Market) (sizeUnits price fee reference gas : ℚ)
    (isPassive isPartial : Bool) :
    Keeps l (l.fillPerp op market sizeUnits price fee reference gas isPassive isPartial) 0 := by
  refine ⟨?_, id, fun all => all.insert ((all.found market).fill.mark _ _ _ _) rfl⟩
  have worthless : PerpPosition.collateral {} = 0 := rfl
  cases isPassive <;>
    simp [gap_eq, fillPerp, total_insert, part_getD (f := PerpPosition.collateral) worthless, Lines.realized,
      PerpPosition.fill_collateral] <;>
    ring

theorem resolveHedge_keeps (op : OpId) (rejected : Bool) : Keeps l (l.resolveHedge op rejected) 0 := by
  unfold resolveHedge
  split
  · exact Keeps.refl l
  · exact Keeps.of_gap (by simp only [gap_eq, Lines.realized]; ring) rfl rfl

theorem payFunding_keeps (market : Market) (paid : ℚ) : Keeps l (l.payFunding market paid) 0 := by
  refine ⟨?_, id, fun all => all.insert ((all.found market).mark _ _ _ _) rfl⟩
  have worthless : PerpPosition.collateral {} = 0 := rfl
  simp only [gap_eq, payFunding, total_entry (f := PerpPosition.collateral) worthless, Lines.realized]
  ring

theorem moveMargin_keeps (market : Market) (amount : ℚ) : Keeps l (l.moveMargin market amount) 0 := by
  refine ⟨?_, id, fun all => all.insert ((all.found market).mark _ _ _ _) rfl⟩
  have worthless : PerpPosition.collateral {} = 0 := rfl
  simp only [gap_eq, moveMargin, total_entry (f := PerpPosition.collateral) worthless]
  ring

theorem sendTopUp_keeps (op : OpId) (margin : PendingMargin) :
    Keeps l (l.sendTopUp op margin) (l.pending.margin.part (·.amount) op) := by
  refine Keeps.of_gap ?_ rfl rfl
  simp only [gap_eq, sendTopUp, total_insert]
  ring

theorem liquidate_keeps (market : Market) (sizeClosed price penalty : ℚ) (full : Bool) :
    Keeps l (l.liquidate market sizeClosed price penalty full) 0 := by
  have worthless : PerpPosition.collateral {} = 0 := rfl
  have reconciled : l.AllReconciled → ∀ collateral mark, ({ ((((l.perps.get? market).getD {}).fill sizeClosed price).1) with
      mark, collateral } : PerpPosition).Reconciled := fun all _ _ => (all.found market).fill.mark _ _ _ _
  cases full with
  | false =>
    refine ⟨?_, id, fun all => all.insert (reconciled all _ _) rfl⟩
    simp [gap_eq, liquidate, total_insert, part_getD (f := PerpPosition.collateral) worthless, Lines.realized,
      PerpPosition.fill_collateral]
    ring
  | true =>
    refine ⟨?_, id, fun all => all.insert (reconciled all _ _) rfl⟩
    simp [gap_eq, liquidate, total_insert, part_getD (f := PerpPosition.collateral) worthless, Lines.realized,
      PerpPosition.fill_collateral]
    ring

theorem landTopUp_keeps (op : OpId) (accepted : Bool) : Keeps l (l.landTopUp op accepted).1 0 := by
  have worthless : PerpPosition.collateral {} = 0 := rfl
  unfold landTopUp
  split
  · exact Keeps.refl l
  · rename_i m found
    cases accepted with
    | true =>
      refine ⟨?_, id, fun all => all.insert ((all.found m.market).mark _ _ _ _) rfl⟩
      simp only [if_true, accept, gap_eq, total_remove, part_of_some found, total_entry (f := PerpPosition.collateral) worthless,
        Lines.realized]
      ring
    | false =>
      refine Keeps.of_gap ?_ rfl rfl
      simp only [Bool.false_eq_true, if_false, accept, gap_eq, total_remove, part_of_some found, Lines.realized]
      ring

theorem sellUnits_keeps {r : PendingResale} {p : OptionPosition}
    (known : l.options.part OptionPosition.value r.option = p.value) (proceeds : ℚ) :
    Keeps l (l.sellUnits r p proceeds) 0 := by
  refine Keeps.of_gap ?_ rfl rfl
  simp only [gap_eq, sellUnits, total_insert, known, OptionPosition.value, Lines.realized]
  ring

theorem release_keeps (op : OpId) (plan : ExercisePlan) : Keeps l (l.release op plan) 0 := by
  refine Keeps.of_gap ?_ rfl rfl
  have same : ∀ p : OptionPosition, OptionPosition.value { p with pendingUnits := max (p.pendingUnits - plan.qty) 0 } =
      p.value := fun _ => rfl
  simp only [gap_eq, release, total_modify same]
  ring

theorem failExercise_keeps (id : OptionId) : Keeps l (l.failExercise id) (l.dropped id) := by
  have counted : Keeps l { l with lines := { l.lines with exerciseFailures := l.lines.exerciseFailures + 1 } } 0 :=
    Keeps.of_gap (by simp only [gap_eq, Lines.realized]; ring) rfl rfl
  have both := counted.trans (dropIfEmpty_keeps _ id)
  rwa [zero_add] at both

theorem moveUnderlying_total (plan : ExercisePlan) :
    (l.moveUnderlying plan).1.total UnderlyingBalance.value =
      l.underlying.total UnderlyingBalance.value + (l.moveUnderlying plan).2 := by
  have worthless : UnderlyingBalance.value {} = 0 := by simp [UnderlyingBalance.value]
  unfold moveUnderlying
  split
  · simp only [total_insert, part_getD worthless]
    ring
  · simp

/-- Nothing is lost with a line that is owed no units or counts for nothing. -/
theorem dropped_eq_zero_iff {id : OptionId} : l.dropped id = 0 ↔
    ∀ p, l.options.get? id = some p → p.pendingUnits ≤ 0 → p.qty < 0 → p.markPerUnit = 0 := by
  unfold dropped
  cases l.options.get? id with
  | none => simp
  | some p =>
    simp only [Option.elim_some, Option.some.injEq, forall_eq', OptionPosition.value]
    constructor
    · intro nothing free owed
      rw [if_pos ⟨owed.le, free⟩] at nothing
      exact (mul_eq_zero.mp nothing).resolve_left owed.ne
    · intro unmarked
      split
      · rename_i empty
        rcases empty.1.lt_or_eq with owed | none
        · rw [unmarked empty.2 owed, mul_zero]
        · rw [none, zero_mul]
      · rfl

/-- A plan lands with nothing lost: no more units than the line holds are exercised. -/
theorem land_keeps {plan : ExercisePlan} {p : OptionPosition} (zero : l.flashOutstanding = 0)
    (found : l.options.get? plan.option = some p) (enough : plan.qty ≤ p.qty) :
    Keeps l (((l.trial plan p).bookExercise plan (l.moveUnderlying plan).2).dropIfEmpty plan.option) 0 := by
  have moves : Keeps l ((l.trial plan p).bookExercise plan (l.moveUnderlying plan).2) 0 := by
    refine ⟨?_, fun _ => rfl, id⟩
    simp only [bookExercise, gap_eq, trial, total_insert, part_of_some found, moveUnderlying_total, OptionPosition.value,
      Lines.realized, zero]
    ring
  have here : ((l.trial plan p).bookExercise plan (l.moveUnderlying plan).2).options.get? plan.option = some
      { p with
        costBasis := p.costBasis - if 0 < p.qty then p.costBasis * plan.qty / p.qty else 0
        qty := p.qty - plan.qty } := by
    simp only [bookExercise, trial, get?_insert, if_true]
  have both := moves.trans (dropIfEmpty_keeps _ plan.option)
  have nothing : ((l.trial plan p).bookExercise plan (l.moveUnderlying plan).2).dropped plan.option = 0 := by
    refine (dropped_eq_zero_iff _).mpr fun p' found' _ owed => ?_
    cases here.symm.trans found'
    exact absurd (sub_neg.mp owed) (not_lt.mpr enough)
  rwa [nothing, add_zero] at both

end Handlers

/-! ### What is lost -/

/-- The plan would land but for its flash loan. -/
def Unpaid (l : Ledger) (plan : ExercisePlan) : Prop :=
  ∃ p, l.options.get? plan.option = some p ∧ plan.qty ≤ p.qty ∧ plan.flashBorrowed ≠ plan.flashRepaid

/-- No top-up under way is written over, and no line that is owed units, its quantity below zero, is dropped at a mark that
counts. A refused event drops no such line at any mark. -/
def Clean (l : Ledger) : LedgerEvent → Prop
  | .marginTopUpSent op _ _ _ => ∀ m, l.pending.margin.get? op = some m → m.amount = 0
  | .resaleSettled op (some _) _ =>
    ∀ r, l.pending.resales.get? op = some r → ∀ p, l.options.get? r.option = some p →
      p.qty < r.qty → p.pendingUnits ≤ r.qty → p.markPerUnit = 0
  | .exerciseSettled op ok actual _ =>
    ∀ x, l.pending.exercises.get? op = some x → ∀ p, l.options.get? x.plan.option = some p →
      p.qty < 0 → p.pendingUnits ≤ x.plan.qty →
        (ok = false → p.markPerUnit = 0) ∧ (ok = true → ¬ l.Unpaid (actual.getD x.plan))
  | _ => True

/-- A refused event left everything that enters the sums. -/
structure Untouched (l after : Ledger) : Prop where
  nav0 : after.nav0 = l.nav0
  settlement : after.settlement = l.settlement
  underlying : after.underlying = l.underlying
  perps : after.perps = l.perps
  reservations : after.reservations = l.reservations
  queuedWithdrawals : after.queuedWithdrawals = l.queuedWithdrawals
  margin : after.pending.margin = l.pending.margin
  flashOutstanding : after.flashOutstanding = l.flashOutstanding
  equityFlows : after.equityFlows = l.equityFlows
  lines : after.lines = { l.lines with exerciseFailures := after.lines.exerciseFailures }
  qty : ∀ id, after.options.part OptionPosition.qty id = l.options.part OptionPosition.qty id
  value : ∀ id, after.options.part OptionPosition.value id = l.options.part OptionPosition.value id

theorem Untouched.refl (l : Ledger) : Untouched l l :=
  ⟨rfl, rfl, rfl, rfl, rfl, rfl, rfl, rfl, rfl, rfl, fun _ => rfl, fun _ => rfl⟩

theorem release_untouched (l : Ledger) (op : OpId) (plan : ExercisePlan) : Untouched l (l.release op plan) :=
  ⟨rfl, rfl, rfl, rfl, rfl, rfl, rfl, rfl, rfl, rfl, fun _ => part_modify fun _ => rfl, fun _ => part_modify fun _ => rfl⟩

theorem Untouched.counted (untouched : Untouched l after) (failures : Nat) :
    Untouched l { after with lines := { after.lines with exerciseFailures := failures } } :=
  { untouched with
    lines := congrArg (fun lines : Lines => { lines with exerciseFailures := failures }) untouched.lines }

/-- An exercise that fails leaves everything unless it drops a line that is owed units. -/
theorem Untouched.failExercise (untouched : Untouched l after) (id : OptionId) : Untouched l (after.failExercise id) ↔
    ∀ p, after.options.get? id = some p → p.pendingUnits ≤ 0 → ¬ p.qty < 0 := by
  have counted := untouched.counted (after.lines.exerciseFailures + 1)
  unfold Ledger.failExercise dropIfEmpty
  dsimp only
  split
  · rename_i missing
    refine iff_of_true counted fun p found => ?_
    rw [missing] at found
    cases found
  · rename_i p found
    simp only [found, Option.some.injEq, forall_eq']
    split
    · rename_i empty
      constructor
      · intro dropped _ owed
        have same := dropped.qty id
        rw [part_remove, if_pos rfl, ← untouched.qty, part_of_some found] at same
        exact owed.ne same.symm
      · intro notOwed
        have none : p.qty = 0 := le_antisymm empty.1 (not_lt.mp (notOwed empty.2))
        refine { counted with qty := fun other => ?_, value := fun other => ?_ }
        · rw [← untouched.qty, part_remove]
          split
          · rename_i here
            rw [here, part_of_some found, none]
          · rfl
        · rw [← untouched.value, part_remove]
          split
          · rename_i here
            rw [here, part_of_some found, OptionPosition.value, none, zero_mul]
          · rfl
    · rename_i filled
      exact iff_of_true counted fun free owed => filled ⟨owed.le, free⟩

/-- The books are in order: `check_accounting`'s identities of the balances and of the perps. -/
structure Books (l : Ledger) : Prop where
  nav : l.assets - l.liabilities =
    l.nav0 + l.lines.realized + l.lines.optionMark + l.perpUnrealized + l.equityFlows.total
  flash : l.flashOutstanding = 0
  perps : ∀ market p, l.perps.get? market = some p → p.realized + p.unrealized = p.cashFlow + p.units * p.mark

theorem books_iff : l.Books ↔ l.gap = 0 ∧ l.flashOutstanding = 0 ∧ l.AllReconciled := by
  have perps : (∀ market p, l.perps.get? market = some p → p.realized + p.unrealized = p.cashFlow + p.units * p.mark) ↔
      l.AllReconciled :=
    forall_congr' fun _ => forall_congr' fun _ => imp_congr_right fun _ => PerpPosition.reconciled_iff.symm
  constructor
  · rintro ⟨nav, flash, all⟩
    exact ⟨sub_eq_zero.mpr nav, flash, perps.mp all⟩
  · rintro ⟨gap, flash, all⟩
    exact ⟨sub_eq_zero.mp gap, flash, perps.mpr all⟩

theorem new_books (nav0 : ℚ) : (new nav0).Books := by
  have none : ∀ market, (new nav0).perps.get? market = none := fun _ => get?_empty
  refine books_iff.mpr ⟨?_, rfl, fun market p found => ?_⟩
  · simp [gap_eq, new, Lines.realized, EquityFlows.total]
  · rw [none] at found
    cases found

theorem Keeps.books (keeps : Keeps l after lost) (books : l.Books) : after.Books ↔ lost = 0 := by
  obtain ⟨gap, flash, all⟩ := books_iff.mp books
  rw [books_iff, keeps.gap, gap, and_iff_left ⟨keeps.flash flash, keeps.perps all⟩]
  simp

theorem Untouched.keeps (untouched : Untouched l after) : Keeps l after 0 := by
  have options : after.options.total OptionPosition.value = l.options.total OptionPosition.value := by
    have covered (key) (present : after.options.get? key ≠ none) : key ∈ after.options.keys ∪ l.options.keys :=
      Finset.mem_union_left _ (mem_keys.mpr present)
    have before (key) (present : l.options.get? key ≠ none) : key ∈ after.options.keys ∪ l.options.keys :=
      Finset.mem_union_right _ (mem_keys.mpr present)
    rw [total_eq_sum covered, total_eq_sum before]
    exact Finset.sum_congr rfl fun id _ => untouched.value id
  refine Keeps.of_gap ?_ untouched.flashOutstanding untouched.perps
  simp only [gap_eq, untouched.nav0, untouched.settlement, untouched.underlying, untouched.perps, untouched.queuedWithdrawals,
    untouched.margin, untouched.flashOutstanding, untouched.equityFlows, options]
  rw [untouched.lines]
  simp only [Lines.realized]
  ring

/-- An accepted event leaves the books in order, a refused one leaves what enters the sums. -/
def Sound (l : Ledger) : Outcome → Prop
  | (after, .ok ()) => after.Books
  | (after, .error _) => Untouched l after

/-- What counts the events does not enter the sums. -/
theorem counted_books (l : Ledger) (eventsApplied lastEventMs : Nat) :
    ({ l with eventsApplied, lastEventMs } : Ledger).Books ↔ l.Books :=
  ⟨fun ⟨nav, flash, perps⟩ => ⟨nav, flash, perps⟩, fun ⟨nav, flash, perps⟩ => ⟨nav, flash, perps⟩⟩

theorem sound_apply {event : LedgerEvent} : l.Sound (l.apply event) ↔ l.Sound (l.applyInner event) := by
  unfold apply
  split
  · rename_i why refused
    rw [refused]
    rfl
  · rename_i accepted
    rw [accepted]
    exact counted_books _ _ _

theorem sound_accept (books : l.Books) (keeps : Keeps l after lost) : l.Sound (accept after) ↔ lost = 0 := keeps.books books

theorem release_found {op : OpId} {plan : ExercisePlan} : (l.release op plan).options.get? plan.option =
    (l.options.get? plan.option).map fun p => { p with pendingUnits := max (p.pendingUnits - plan.qty) 0 } := by
  rw [release, get?_modify, if_pos rfl]

theorem release_qty {op : OpId} {plan : ExercisePlan} {id : OptionId} :
    ((l.release op plan).options.get? id).map OptionPosition.qty = (l.options.get? id).map OptionPosition.qty := by
  rw [release, get?_modify]
  split
  · rw [Option.map_map]
    rfl
  · rfl

theorem unpaid_release (op : OpId) (plan : ExercisePlan) {actual : ExercisePlan} : (l.release op plan).Unpaid actual ↔ l.Unpaid actual := by
  have through : ∀ options : BTreeMap OptionId OptionPosition,
      (∃ p, options.get? actual.option = some p ∧ actual.qty ≤ p.qty ∧ actual.flashBorrowed ≠ actual.flashRepaid) ↔
        ∃ qty, (options.get? actual.option).map OptionPosition.qty = some qty ∧ actual.qty ≤ qty ∧
          actual.flashBorrowed ≠ actual.flashRepaid := by
    intro options
    simp only [Option.map_eq_some_iff]
    constructor
    · rintro ⟨p, found, rest⟩
      exact ⟨p.qty, ⟨p, found, rfl⟩, rest⟩
    · rintro ⟨qty, ⟨p, found, rfl⟩, rest⟩
      exact ⟨p, found, rest⟩
  rw [Unpaid, Unpaid, through, through, release_qty]

theorem release_owed {op : OpId} {plan : ExercisePlan} (property : ℚ → Prop) :
    (∀ p, (l.release op plan).options.get? plan.option = some p → p.pendingUnits ≤ 0 → p.qty < 0 → property p.markPerUnit) ↔
      ∀ p, l.options.get? plan.option = some p → p.qty < 0 → p.pendingUnits ≤ plan.qty → property p.markPerUnit := by
  simp only [release_found, Option.map_eq_some_iff]
  constructor
  · intro released p found owed free
    exact released { p with pendingUnits := max (p.pendingUnits - plan.qty) 0 } ⟨p, found, rfl⟩ (max_le (sub_nonpos.mpr free) le_rfl) owed
  · rintro clean _ ⟨p, found, rfl⟩ free owed
    exact clean p found owed (sub_nonpos.mp (le_of_max_le_left free))

section Answers

variable (books : l.Books)

include books

theorem accept_sound (keeps : Keeps l after 0) : l.Sound (accept after) := (sound_accept books keeps).mpr rfl

theorem submitResale_sound (op : OpId) (resale : PendingResale) : l.Sound (l.submitResale op resale) := by
  unfold submitResale
  split
  · exact Untouched.refl l
  · rename_i p found
    split
    · exact Untouched.refl l
    · exact accept_sound books ((l.commit_keeps found resale.qty).andThen (Keeps.of_gap (by simp only [gap_eq]; ring) rfl rfl))

theorem submitExercise_sound (op : OpId) (exercise : PendingExercise) : l.Sound (l.submitExercise op exercise) := by
  unfold submitExercise
  dsimp only
  split
  · exact Untouched.refl l
  · rename_i p found
    split
    · exact Untouched.refl l
    · exact accept_sound books
        ((l.commit_keeps found exercise.plan.qty).andThen (Keeps.of_gap (by simp only [gap_eq]; ring) rfl rfl))

theorem reserve_sound (r : Reservation) : l.Sound (l.reserve r) := by
  unfold reserve
  split
  · exact Untouched.refl l
  · split
    · exact Untouched.refl l
    · exact accept_sound books (l.installReservation_keeps r)

theorem landTopUp_sound (op : OpId) (accepted : Bool) : l.Sound (l.landTopUp op accepted) := by
  have keeps := l.landTopUp_keeps op accepted
  unfold landTopUp at keeps ⊢
  split at keeps
  · exact Untouched.refl l
  · cases accepted with
    | true => exact accept_sound books keeps
    | false => exact accept_sound books keeps

theorem settleResale_sound (op : OpId) (proceeds : Option ℚ) (atMs : Nat) : l.Sound (l.settleResale op proceeds) ↔
    l.Clean (.resaleSettled op proceeds atMs) := by
  unfold settleResale
  dsimp only
  split
  · rename_i missing
    refine iff_of_true (Untouched.refl l) ?_
    cases proceeds with
    | none => trivial
    | some proceeds =>
      intro r held
      rw [missing] at held
      cases held
  rename_i r held
  split
  · rename_i missing
    refine iff_of_true ⟨rfl, rfl, rfl, rfl, rfl, rfl, rfl, rfl, rfl, rfl, fun _ => rfl, fun _ => rfl⟩ ?_
    cases proceeds with
    | none => trivial
    | some proceeds =>
      intro r' held' p found
      rw [held] at held'
      cases held'
      rw [missing] at found
      cases found
  rename_i p found
  let closed := { l with pending := { l.pending with resales := l.pending.resales.remove op } }
  have keeps : Keeps l closed 0 := Keeps.of_gap (by simp only [closed, gap_eq]; ring) rfl rfl
  -- the mark and the quantity of the line are those before
  have known : closed.options.part OptionPosition.value r.option =
      OptionPosition.value { p with pendingUnits := p.pendingUnits - r.qty } := (part_of_some found).trans rfl
  split
  · refine iff_of_true (accept_sound books (keeps.andThen (Keeps.of_gap ?_ rfl rfl))) trivial
    simp only [closed, gap_eq, total_insert, part_of_some found, OptionPosition.value]
    ring
  rename_i proceeds
  have sold := (keeps.andThen (sellUnits_keeps _ known proceeds)).trans (dropIfEmpty_keeps _ r.option)
  rw [sound_accept books sold, zero_add, dropped_eq_zero_iff]
  simp only [sellUnits, get?_insert, if_true, Option.some.injEq, forall_eq', Clean, held, found, sub_nonpos, sub_neg]
  exact ⟨fun nothing owed free => nothing free owed, fun clean free owed => clean owed free⟩

theorem settleExercise_sound (op : OpId) (ok : Bool) (actual : Option ExercisePlan) (atMs : Nat) :
    l.Sound (l.settleExercise op ok actual) ↔ l.Clean (.exerciseSettled op ok actual atMs) := by
  unfold settleExercise
  dsimp only
  split
  · rename_i missing
    -- no such exercise is pending
    refine iff_of_true (Untouched.refl l) fun x held => ?_
    rw [missing] at held
    cases held
  rename_i x held
  have flash : (l.release op x.plan).flashOutstanding = 0 := (books_iff.mp books).2.1
  have clean : l.Clean (.exerciseSettled op ok actual atMs) ↔ ∀ p, l.options.get? x.plan.option = some p →
      p.qty < 0 → p.pendingUnits ≤ x.plan.qty →
        (ok = false → p.markPerUnit = 0) ∧ (ok = true → ¬ l.Unpaid (actual.getD x.plan)) := by
    simp only [Clean, held, Option.some.injEq, forall_eq']
  rw [clean]
  -- the operation is released first, whatever the outcome
  let released := l.release op x.plan
  have keeps : Keeps l released 0 := l.release_keeps op x.plan
  have untouched : Untouched l released := l.release_untouched op x.plan
  cases ok with
  | false =>
    -- a failed exercise drops a line with nothing left, and its mark with it
    have failed := keeps.trans (failExercise_keeps released x.plan.option)
    simp only [if_true, true_implies, Bool.false_eq_true, false_implies, and_true]
    rw [sound_accept books failed, zero_add, dropped_eq_zero_iff, release_owed (· = 0)]
  | true =>
    simp only [Bool.true_eq_false, if_false, false_implies, true_and, true_implies]
    rw [← unpaid_release op x.plan]
    split
    · rename_i missing
      -- the plan names an option without a line, or with fewer units than it takes: refused
      refine iff_of_true untouched fun _ _ _ _ unpaid => ?_
      obtain ⟨p, found, -⟩ := unpaid
      rw [missing] at found
      cases found
    rename_i p found
    split
    · rename_i few
      refine iff_of_true untouched fun _ _ _ _ unpaid => ?_
      obtain ⟨p', found', enough, -⟩ := unpaid
      cases found.symm.trans found'
      exact absurd enough (not_le.mpr few)
    rename_i enough
    have outstanding : (released.trial (actual.getD x.plan) p).flashOutstanding =
        (actual.getD x.plan).flashBorrowed - (actual.getD x.plan).flashRepaid := by
      rw [trial, flash, zero_add]
    rw [outstanding]
    split
    · rename_i differ
      -- the flash loan is not repaid: the event is refused, but the line has been given up
      have unpaid : released.Unpaid (actual.getD x.plan) := ⟨p, found, not_lt.mp enough, sub_ne_zero.mp differ⟩
      have answer : l.Sound (refuse (released.failExercise x.plan.option)
          (.flashNotRepaid (actual.getD x.plan).flashBorrowed (actual.getD x.plan).flashRepaid)) ↔
            ∀ p, released.options.get? x.plan.option = some p → p.pendingUnits ≤ 0 → p.qty < 0 → False :=
        untouched.failExercise x.plan.option
      rw [answer, release_owed fun _ => False]
      exact forall_congr' fun p => imp_congr_right fun _ => imp_congr_right fun _ => imp_congr_right fun _ =>
        ⟨False.elim, fun paid => paid unpaid⟩
    · rename_i paid
      -- the plan lands, and its movements balance
      refine iff_of_true (accept_sound books (keeps.andThen (land_keeps released flash found (not_lt.mp enough)))) ?_
      intro _ _ _ _ unpaid
      obtain ⟨-, -, -, differ⟩ := unpaid
      exact differ (sub_eq_zero.mp (not_not.mp paid))

theorem sound_iff (event : LedgerEvent) : l.Sound (l.apply event) ↔ l.Clean event := by
  rw [sound_apply]
  cases event with
  | resyncBalances settlement underlying atMs =>
    exact iff_of_true (accept_sound books (l.resyncBalances_keeps settlement underlying)) trivial
  | resyncOptions positions atMs => exact iff_of_true (accept_sound books (l.resyncOptions_keeps positions)) trivial
  | resyncPerp market units mark atMs =>
    exact iff_of_true (accept_sound books (l.resyncPerp_keeps market units mark)) trivial
  | queuedWithdrawals queue => exact iff_of_true (accept_sound books (l.queueWithdrawals_keeps queue)) trivial
  | external account =>
    exact iff_of_true (accept_sound books (Keeps.of_gap (by simp only [gap_eq]; ring) rfl rfl)) trivial
  | markOptions marks atMs =>
    exact iff_of_true (accept_sound books (Keeps.foldl markOption_keeps marks l)) trivial
  | markUnderlying asset mark atMs => exact iff_of_true (accept_sound books (l.markUnderlying_keeps asset mark)) trivial
  | markPerp market mark atMs => exact iff_of_true (accept_sound books (l.markPerp_keeps market mark)) trivial
  | expireOptions atMs => exact iff_of_true (accept_sound books (l.expireOptions_keeps atMs)) trivial
  | reserve reservation => exact iff_of_true (reserve_sound books reservation) trivial
  | reservationTransition key state atMs =>
    exact iff_of_true (accept_sound books (l.transitionReservation_keeps key state atMs)) trivial
  | restoreReservation reservation =>
    exact iff_of_true (accept_sound books (l.installReservation_keeps reservation)) trivial
  | optionBought option spec qty premium markPerUnit atMs =>
    exact iff_of_true (accept_sound books (l.buyOption_keeps option spec qty premium markPerUnit)) trivial
  | resaleSubmitted op option qty expectedProceeds atMs => exact iff_of_true (submitResale_sound books op _) trivial
  | resaleSettled op proceeds atMs => exact settleResale_sound books op proceeds atMs
  | exerciseSubmitted op plan atMs => exact iff_of_true (submitExercise_sound books op _) trivial
  | exerciseSettled op ok actual atMs => exact settleExercise_sound books op ok actual atMs
  | hedgeSubmitted op market sizeUnits spot atMs =>
    exact iff_of_true (accept_sound books (Keeps.of_gap (by simp only [gap_eq, submitHedge]; ring) rfl rfl)) trivial
  | perpFill op market sizeUnits price fee reference gas isPassive isPartial atMs =>
    exact iff_of_true (accept_sound books (l.fillPerp_keeps op market sizeUnits price fee reference gas isPassive isPartial)) trivial
  | hedgeResolved op rejected atMs => exact iff_of_true (accept_sound books (l.resolveHedge_keeps op rejected)) trivial
  | funding market paid atMs => exact iff_of_true (accept_sound books (l.payFunding_keeps market paid)) trivial
  | marginMoved market amount atMs => exact iff_of_true (accept_sound books (l.moveMargin_keeps market amount)) trivial
  | marginTopUpSent op market amount atMs =>
    have sent := sound_accept books (l.sendTopUp_keeps op ⟨market, amount, atMs⟩)
    rw [applyInner, sent, part, Clean]
    cases l.pending.margin.get? op with
    | none => simp
    | some m => simp
  | marginTopUpLanded op accepted atMs => exact iff_of_true (landTopUp_sound books op accepted) trivial
  | liquidation market sizeClosed price penalty full atMs =>
    exact iff_of_true (accept_sound books (l.liquidate_keeps market sizeClosed price penalty full)) trivial
  | gas amount atMs =>
    exact iff_of_true (accept_sound books (Keeps.of_gap (by simp only [gap_eq, Lines.realized]; ring) rfl rfl)) trivial
  | penalty amount atMs =>
    exact iff_of_true (accept_sound books (Keeps.of_gap (by simp only [gap_eq, Lines.realized]; ring) rfl rfl)) trivial

theorem sound_books {outcome : Outcome} (sound : l.Sound outcome) : outcome.1.Books := by
  obtain ⟨after, answer⟩ := outcome
  cases answer with
  | ok done => exact sound
  | error why =>
    have keeps : Keeps l after 0 := Untouched.keeps sound
    exact (keeps.books books).mpr rfl

end Answers

/-! ### Runs -/

theorem books_of_along {events : List LedgerEvent} (books : l.Books)
    (along : Along advance (fun l event => l.Sound (l.apply event)) l events) (ran : exec advance l events = .ok after) :
    after.Books := by
  refine exec_invariant_along advance _ Books (fun l event next books sound moved => ?_) books along ran
  cases moved
  exact sound_books books sound

/-- Every event of a run is sound exactly when every event of it is clean. -/
theorem double_entry_iff (nav0 : ℚ) (events : List LedgerEvent) :
    Along advance (fun l event => l.Sound (l.apply event)) (new nav0) events ↔ Along advance Clean (new nav0) events := by
  have any : Along advance (fun _ _ => True) (new nav0) events := along_of_forall advance (fun _ _ => trivial) _ events
  refine along_iff_along advance Books (fun l event books _ => sound_iff books event)
    (fun l event next books _ sound moved => ?_) (new_books nav0) any
  cases moved
  exact sound_books books sound

/-- The units of a resale under way are exercised by a plan whose actual quantity is more than was submitted. -/
def oversold : List LedgerEvent :=
  let plan : ExercisePlan := ⟨"call", .callCash, 4, "SUI", 0, 8, 0, 0, 0, 0, 0, 0⟩
  [.optionBought "call" none 10 5 1 1, .resaleSubmitted 1 "call" 6 6 2, .exerciseSubmitted 2 plan 3,
    .exerciseSettled 2 true (some { plan with qty := 10 }) 4, .resaleSettled 1 (some 6) 5]

/-- Every event is accepted, and the line that is owed six units is dropped with its value. -/
theorem double_entry_oversold :
    alongTest advance (fun l event => (l.apply event).2.isOk) (new 100) oversold = true ∧
      ¬ Along advance (fun l event => l.Sound (l.apply event)) (new 100) oversold := by
  constructor
  · decide +kernel
  · intro along
    have books := books_of_along (new_books 100) along rfl
    exact absurd books.nav (by decide +kernel)

end Ledger

end SuiOptions.DeskCore
