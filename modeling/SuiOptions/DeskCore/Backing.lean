import SuiOptions.DeskCore.DoubleEntry

/-! The units of the operations under way.

What a line has pending is what its resales and exercises under way are to take, and the
line holds as much. An event changes the backing of at most one line, except an expiry and
an observation of custody.
-/

set_option autoImplicit false

namespace SuiOptions.DeskCore

open Execution BTreeMap

/-! ### Units committed -/

def PendingResale.units (r : PendingResale) (id : OptionId) : ℚ := if r.option = id then r.qty else 0

def PendingExercise.units (x : PendingExercise) (id : OptionId) : ℚ := if x.plan.option = id then x.plan.qty else 0

theorem PendingResale.units_own (r : PendingResale) : r.units r.option = r.qty := if_pos rfl

theorem PendingResale.units_of_ne {r : PendingResale} {id : OptionId} (differ : id ≠ r.option) : r.units id = 0 :=
  if_neg differ.symm

theorem PendingExercise.units_own (x : PendingExercise) : x.units x.plan.option = x.plan.qty := if_pos rfl

theorem PendingExercise.units_of_ne {x : PendingExercise} {id : OptionId} (differ : id ≠ x.plan.option) : x.units id = 0 :=
  if_neg differ.symm

def Exercised (exercises : BTreeMap OpId PendingExercise) (id : OptionId) : Prop :=
  ∃ op x, exercises.get? op = some x ∧ x.plan.option = id

section Exercised

variable {exercises : BTreeMap OpId PendingExercise} {op : OpId} {x : PendingExercise} {id : OptionId}

theorem exercised_insert (fresh : exercises.get? op = none) (differ : id ≠ x.plan.option) :
    Exercised (exercises.insert op x) id ↔ Exercised exercises id := by
  constructor
  · rintro ⟨other, held, found, same⟩
    rw [get?_insert] at found
    split at found
    · cases found
      exact absurd same.symm differ
    · exact ⟨other, held, found, same⟩
  · rintro ⟨other, held, found, same⟩
    refine ⟨other, held, ?_, same⟩
    rw [get?_insert, if_neg, found]
    rintro rfl
    rw [fresh] at found
    cases found

theorem exercised_remove (held : exercises.get? op = some x) (differ : id ≠ x.plan.option) :
    Exercised (exercises.remove op) id ↔ Exercised exercises id := by
  constructor
  · rintro ⟨other, held, found, same⟩
    rw [get?_remove] at found
    split at found
    · cases found
    · exact ⟨other, held, found, same⟩
  · rintro ⟨other, kept, found, same⟩
    refine ⟨other, kept, ?_, same⟩
    rw [get?_remove, if_neg, found]
    rintro rfl
    rw [held] at found
    cases found
    exact differ same.symm

end Exercised

namespace Pending

/-- The units of a line that the operations under way are to take. -/
def committed (pending : Pending) (id : OptionId) : ℚ :=
  pending.resales.total (·.units id) + pending.exercises.total (·.units id)

structure Natural (pending : Pending) : Prop where
  resales : ∀ op r, pending.resales.get? op = some r → 0 ≤ r.qty
  exercises : ∀ op x, pending.exercises.get? op = some x → 0 ≤ x.plan.qty

variable {pending : Pending} {op : OpId} {id : OptionId}

section Natural

variable (natural : pending.Natural)

include natural

theorem Natural.resale_units (op : OpId) (r : PendingResale) (held : pending.resales.get? op = some r) : 0 ≤ r.units id := by
  unfold PendingResale.units
  split
  · exact natural.resales op r held
  · exact le_refl 0

theorem Natural.exercise_units (op : OpId) (x : PendingExercise) (held : pending.exercises.get? op = some x) :
    0 ≤ x.units id := by
  unfold PendingExercise.units
  split
  · exact natural.exercises op x held
  · exact le_refl 0

theorem Natural.committed_nonneg (id : OptionId) : 0 ≤ pending.committed id :=
  add_nonneg (total_nonneg natural.resale_units) (total_nonneg natural.exercise_units)

theorem Natural.exercise_le {x : PendingExercise} (held : pending.exercises.get? op = some x) :
    x.plan.qty ≤ pending.committed x.plan.option := by
  have within : x.units x.plan.option ≤ pending.exercises.total (·.units x.plan.option) := le_total natural.exercise_units held
  have others : 0 ≤ pending.resales.total (·.units x.plan.option) := total_nonneg natural.resale_units
  rw [x.units_own] at within
  rw [committed]
  linarith

end Natural

section Maps

variable (natural : pending.Natural)

include natural

theorem Natural.submit_resale {r : PendingResale} (units : 0 ≤ r.qty) :
    ({ pending with resales := pending.resales.insert op r } : Pending).Natural := by
  refine ⟨fun other held found => ?_, natural.exercises⟩
  rw [get?_insert] at found
  split at found
  · cases found
    exact units
  · exact natural.resales other held found

theorem Natural.close_resale : ({ pending with resales := pending.resales.remove op } : Pending).Natural := by
  refine ⟨fun other held found => ?_, natural.exercises⟩
  rw [get?_remove] at found
  split at found
  · cases found
  · exact natural.resales other held found

theorem Natural.submit_exercise {x : PendingExercise} (units : 0 ≤ x.plan.qty) :
    ({ pending with exercises := pending.exercises.insert op x } : Pending).Natural := by
  refine ⟨natural.resales, fun other held found => ?_⟩
  rw [get?_insert] at found
  split at found
  · cases found
    exact units
  · exact natural.exercises other held found

theorem Natural.close_exercise : ({ pending with exercises := pending.exercises.remove op } : Pending).Natural := by
  refine ⟨natural.resales, fun other held found => ?_⟩
  rw [get?_remove] at found
  split at found
  · cases found
  · exact natural.exercises other held found

end Maps

theorem committed_submit_resale (fresh : pending.resales.get? op = none) (r : PendingResale) :
    ({ pending with resales := pending.resales.insert op r } : Pending).committed id = pending.committed id + r.units id := by
  simp only [committed, total_insert, part_of_none fresh]
  ring

theorem committed_close_resale {r : PendingResale} (held : pending.resales.get? op = some r) :
    ({ pending with resales := pending.resales.remove op } : Pending).committed id = pending.committed id - r.units id := by
  simp only [committed, total_remove, part_of_some held]
  ring

theorem committed_submit_exercise (fresh : pending.exercises.get? op = none) (x : PendingExercise) :
    ({ pending with exercises := pending.exercises.insert op x } : Pending).committed id = pending.committed id + x.units id := by
  simp only [committed, total_insert, part_of_none fresh]
  ring

theorem committed_close_exercise {x : PendingExercise} (held : pending.exercises.get? op = some x) :
    ({ pending with exercises := pending.exercises.remove op } : Pending).committed id =
      pending.committed id - x.units id := by
  simp only [committed, total_remove, part_of_some held]
  ring

end Pending

namespace Ledger

variable {l after : Ledger}

/-! ### Backing -/

/-- Every line holds what is pending of it, which is what is committed, and every exercise under way stands on its line. -/
structure Backed (l : Ledger) : Prop where
  lines : ∀ id p, l.options.get? id = some p → p.pendingUnits = l.pending.committed id ∧ p.pendingUnits ≤ p.qty
  exercises : ∀ op x, l.pending.exercises.get? op = some x →
    ∃ p, l.options.get? x.plan.option = some p ∧ x.plan.qty ≤ p.pendingUnits
  units : ∀ id, l.pending.committed id ≤ l.options.part OptionPosition.qty id

def stock (l : Ledger) (id : OptionId) : Option (ℚ × ℚ) := (l.options.get? id).map fun p => (p.qty, p.pendingUnits)

def BackedAt (l : Ledger) (id : OptionId) : Prop :=
  match l.stock id with
  | some (qty, pendingUnits) => pendingUnits = l.pending.committed id ∧ pendingUnits ≤ qty
  | none => l.pending.committed id = 0 ∧ ¬ Exercised l.pending.exercises id

theorem backedAt_some {id : OptionId} {qty pendingUnits : ℚ} (held : l.stock id = some (qty, pendingUnits)) :
    l.BackedAt id ↔ pendingUnits = l.pending.committed id ∧ pendingUnits ≤ qty := by
  rw [BackedAt, held]

theorem backedAt_none {id : OptionId} (missing : l.stock id = none) :
    l.BackedAt id ↔ l.pending.committed id = 0 ∧ ¬ Exercised l.pending.exercises id := by
  rw [BackedAt, missing]

theorem stock_of_some {id : OptionId} {p : OptionPosition} (found : l.options.get? id = some p) :
    l.stock id = some (p.qty, p.pendingUnits) := by
  rw [stock, found, Option.map_some]

theorem stock_of_none {id : OptionId} (missing : l.options.get? id = none) : l.stock id = none := by
  rw [stock, missing, Option.map_none]

theorem backed_iff (natural : l.pending.Natural) : l.Backed ↔ ∀ id, l.BackedAt id := by
  constructor
  · intro backed id
    cases found : l.options.get? id with
    | some p => exact (backedAt_some (stock_of_some found)).mpr (backed.lines id p found)
    | none =>
      have units := backed.units id
      rw [part_of_none found] at units
      refine (backedAt_none (stock_of_none found)).mpr ⟨le_antisymm units (natural.committed_nonneg id), ?_⟩
      rintro ⟨op, x, held, rfl⟩
      obtain ⟨p, found', -⟩ := backed.exercises op x held
      rw [found] at found'
      cases found'
  · intro at_every
    have lines (id p) (found : l.options.get? id = some p) := (backedAt_some (stock_of_some found)).mp (at_every id)
    refine ⟨lines, fun op x held => ?_, fun id => ?_⟩
    · cases found : l.options.get? x.plan.option with
      | some p =>
        refine ⟨p, rfl, ?_⟩
        rw [(lines _ p found).1]
        exact natural.exercise_le held
      | none => exact absurd ⟨op, x, held, rfl⟩ ((backedAt_none (stock_of_none found)).mp (at_every _)).2
    · cases found : l.options.get? id with
      | some p =>
        obtain ⟨same, within⟩ := lines id p found
        rw [part_of_some found, ← same]
        exact within
      | none =>
        rw [part_of_none found, ((backedAt_none (stock_of_none found)).mp (at_every id)).1]

structure SameAt (l after : Ledger) (id : OptionId) : Prop where
  stock : after.stock id = l.stock id
  committed : after.pending.committed id = l.pending.committed id
  exercised : Exercised after.pending.exercises id ↔ Exercised l.pending.exercises id

theorem SameAt.backedAt {id : OptionId} (same : SameAt l after id) : after.BackedAt id ↔ l.BackedAt id := by
  unfold BackedAt
  rw [same.stock, same.committed]
  cases l.stock id with
  | some held => exact Iff.rfl
  | none => exact and_congr_right fun _ => not_congr same.exercised

theorem backed_of_changed (after : Ledger) (id : OptionId) (before : l.pending.Natural) (natural : after.pending.Natural)
    (backed : l.Backed) (rest : ∀ other, other ≠ id → SameAt l after other) : after.Backed ↔ after.BackedAt id := by
  rw [backed_iff natural]
  refine ⟨fun at_every => at_every id, fun here other => ?_⟩
  by_cases same : other = id
  · rw [same]
    exact here
  · exact (rest other same).backedAt.mpr ((backed_iff before).mp backed other)

/-- No quantity of the event is below zero, and an operation is submitted under an id that is not under way. -/
def Admissible (l : Ledger) : LedgerEvent → Prop
  | .resyncOptions positions _ => ∀ s ∈ positions, 0 ≤ s.qty
  | .optionBought _ _ qty _ _ _ => 0 ≤ qty
  | .resaleSubmitted op _ qty _ _ => 0 ≤ qty ∧ l.pending.resales.get? op = none
  | .exerciseSubmitted op plan _ => 0 ≤ plan.qty ∧ l.pending.exercises.get? op = none
  | .exerciseSettled _ _ actual _ => ∀ plan ∈ actual, 0 ≤ plan.qty
  | _ => True

/-- An exercise that lands takes no units of another operation, and no line is dropped on which an exercise stands: one of no
units, for the line has none either. -/
def Covered (l : Ledger) : LedgerEvent → Prop
  | .expireOptions atMs =>
    ∀ id p, l.options.get? id = some p → p.spec.expiryMs ≤ atMs → p.pendingUnits ≤ 0 → ¬ Exercised l.pending.exercises id
  | .resaleSettled op (some _) _ =>
    ∀ r, l.pending.resales.get? op = some r → ∀ p, l.options.get? r.option = some p →
      p.qty ≤ r.qty → ¬ Exercised l.pending.exercises r.option
  | .exerciseSettled op ok actual _ =>
    ∀ x, l.pending.exercises.get? op = some x →
      let plan := actual.getD x.plan
      let others := l.pending.exercises.remove op
      (ok = false ∨ l.Unpaid plan → ∀ p, l.options.get? x.plan.option = some p → p.qty ≤ 0 → ¬ Exercised others x.plan.option) ∧
        (ok = true → plan.flashBorrowed = plan.flashRepaid →
          ∀ p, l.options.get? plan.option = some p → plan.qty ≤ p.qty →
            p.pendingUnits - x.units plan.option + plan.qty ≤ p.qty ∧ (p.qty ≤ plan.qty → ¬ Exercised others plan.option))
  | _ => True

structure Orderly (l : Ledger) : Prop where
  natural : l.pending.Natural
  flash : l.flashOutstanding = 0

structure Leaves (after : Ledger) (covered : Prop) : Prop where
  orderly : after.Orderly
  backed : after.Backed ↔ covered

/-- Nothing that backing depends on is changed. -/
structure Frame (l after : Ledger) : Prop where
  stock : ∀ id, after.stock id = l.stock id
  resales : after.pending.resales = l.pending.resales
  exercises : after.pending.exercises = l.pending.exercises
  flash : after.flashOutstanding = l.flashOutstanding

namespace Frame

theorem refl (l : Ledger) : Frame l l := ⟨fun _ => rfl, rfl, rfl, rfl⟩

theorem trans {last : Ledger} (first : Frame l after) (second : Frame after last) : Frame l last where
  stock := fun id => (second.stock id).trans (first.stock id)
  resales := second.resales.trans first.resales
  exercises := second.exercises.trans first.exercises
  flash := second.flash.trans first.flash

theorem foldl {α : Type} {step : Ledger → α → Ledger} (each : ∀ l x, Frame l (step l x)) (list : List α) (l : Ledger) :
    Frame l (list.foldl step l) := by
  induction list generalizing l with
  | nil => exact refl l
  | cons x rest ih => exact (each l x).trans (ih _)

theorem of_options (options : after.options = l.options) (resales : after.pending.resales = l.pending.resales)
    (exercises : after.pending.exercises = l.pending.exercises) (flash : after.flashOutstanding = l.flashOutstanding) :
    Frame l after :=
  ⟨fun id => by rw [Ledger.stock, Ledger.stock, options], resales, exercises, flash⟩

theorem sameAt (frame : Frame l after) (id : OptionId) : SameAt l after id where
  stock := frame.stock id
  committed := by rw [Pending.committed, Pending.committed, frame.resales, frame.exercises]
  exercised := by rw [frame.exercises]

theorem orderly (frame : Frame l after) (orderly : l.Orderly) : after.Orderly := by
  refine ⟨⟨?_, ?_⟩, frame.flash.trans orderly.flash⟩
  · rw [frame.resales]
    exact orderly.natural.resales
  · rw [frame.exercises]
    exact orderly.natural.exercises

theorem backed (frame : Frame l after) (orderly : l.Orderly) : after.Backed ↔ l.Backed := by
  rw [backed_iff (frame.orderly orderly).natural, backed_iff orderly.natural]
  exact forall_congr' fun id => (frame.sameAt id).backedAt

theorem leaves (frame : Frame l after) (orderly : l.Orderly) (backed : l.Backed) : Leaves after True :=
  ⟨frame.orderly orderly, iff_of_true ((frame.backed orderly).mpr backed) trivial⟩

end Frame

section Frames

variable (l)

theorem syncUnderlying_frame (row : String × ℚ × ℚ) : Frame l (l.syncUnderlying row) := Frame.of_options rfl rfl rfl rfl

theorem resyncBalances_frame (settlement : Option ℚ) (underlying : List (String × ℚ × ℚ)) :
    Frame l (l.resyncBalances settlement underlying) := by
  have settled : Frame l (l.syncSettlement settlement) := by
    cases settlement with
    | none => exact Frame.refl l
    | some s => exact Frame.of_options rfl rfl rfl rfl
  exact settled.trans (Frame.foldl syncUnderlying_frame underlying _)

theorem resyncPerp_frame (market : Market) (units : ℚ) (mark : Option ℚ) : Frame l (l.resyncPerp market units mark) := by
  unfold resyncPerp
  dsimp only
  split
  · exact Frame.of_options rfl rfl rfl rfl
  · exact Frame.of_options rfl rfl rfl rfl

theorem markOption_frame (row : OptionId × ℚ) : Frame l (l.markOption row) := by
  unfold markOption
  split
  · exact Frame.refl l
  · rename_i p found
    refine ⟨fun id => ?_, rfl, rfl, rfl⟩
    rw [stock, stock, markLine, get?_insert]
    split
    · rename_i here
      rw [here, found]
      rfl
    · rfl

theorem markUnderlying_frame (asset : String) (mark : ℚ) : Frame l (l.markUnderlying asset mark) := by
  unfold markUnderlying
  split
  · exact Frame.refl l
  · exact Frame.of_options rfl rfl rfl rfl

theorem installReservation_frame (r : Reservation) : Frame l (l.installReservation r) := by
  unfold installReservation
  split
  · exact Frame.of_options rfl rfl rfl rfl
  · exact Frame.refl l

theorem reserve_frame (r : Reservation) : Frame l (l.reserve r).1 := by
  unfold reserve
  split
  · exact Frame.refl l
  · split
    · exact Frame.refl l
    · exact l.installReservation_frame r

theorem transitionReservation_frame (key : String) (state : ReservationState) (atMs : Nat) :
    Frame l (l.transitionReservation key state atMs) := by
  unfold transitionReservation
  split
  · exact Frame.refl l
  · exact Frame.of_options rfl rfl rfl rfl

theorem resolveHedge_frame (op : OpId) (rejected : Bool) : Frame l (l.resolveHedge op rejected) := by
  unfold resolveHedge
  split
  · exact Frame.refl l
  · exact Frame.of_options rfl rfl rfl rfl

theorem landTopUp_frame (op : OpId) (accepted : Bool) : Frame l (l.landTopUp op accepted).1 := by
  unfold landTopUp
  split
  · exact Frame.refl l
  · cases accepted with
    | true => exact Frame.of_options rfl rfl rfl rfl
    | false => exact Frame.of_options rfl rfl rfl rfl

end Frames

/-! ### Lines -/

section Insert

variable {options : BTreeMap OptionId OptionPosition} {id other : OptionId} {p : OptionPosition}
  (same : after.options = options.insert id p)

include same

theorem stock_here : after.stock id = some (p.qty, p.pendingUnits) := by
  rw [stock, same, get?_insert, if_pos rfl, Option.map_some]

theorem stock_elsewhere (differ : other ≠ id) : after.stock other = (options.get? other).map fun p => (p.qty, p.pendingUnits) := by
  rw [stock, same, get?_insert, if_neg differ]

end Insert

theorem leaves_of_line (after : Ledger) (id : OptionId) (orderly : l.Orderly) (backed : l.Backed)
    (natural : after.pending.Natural) (flash : after.flashOutstanding = 0) (rest : ∀ other, other ≠ id → SameAt l after other)
    {qty pendingUnits : ℚ} (held : after.stock id = some (qty, pendingUnits)) :
    Leaves after (pendingUnits = after.pending.committed id ∧ pendingUnits ≤ qty) where
  orderly := ⟨natural, flash⟩
  backed := (backed_of_changed after id orderly.natural natural backed rest).trans (backedAt_some held)

section Options

variable (orderly : l.Orderly) (backed : l.Backed)

include orderly backed

theorem buyOption_leaves {qty : ℚ} (natural : 0 ≤ qty) (id : OptionId) (spec : Option OptionSpec)
    (premium markPerUnit : ℚ) : Leaves (l.buyOption id spec qty premium markPerUnit) True := by
  let bought := l.buyOption id spec qty premium markPerUnit
  have line := leaves_of_line bought id orderly backed orderly.natural orderly.flash
    (fun other differ => ⟨stock_elsewhere rfl differ, rfl, Iff.rfl⟩) (stock_here rfl)
  refine ⟨line.orderly, line.backed.trans (iff_of_true ?_ trivial)⟩
  have here := (backed_iff orderly.natural).mp backed id
  cases found : l.options.get? id with
  | some p =>
    obtain ⟨same, within⟩ := (backedAt_some (stock_of_some found)).mp here
    exact ⟨same, le_add_of_le_of_nonneg within natural⟩
  | none =>
    have none := ((backedAt_none (stock_of_none found)).mp here).1
    refine ⟨none.symm, ?_⟩
    simpa using natural

theorem submitResale_leaves {op : OpId} {resale : PendingResale} (natural : 0 ≤ resale.qty)
    (fresh : l.pending.resales.get? op = none) : Leaves (l.submitResale op resale).1 True := by
  unfold submitResale
  split
  · exact (Frame.refl l).leaves orderly backed
  rename_i p found
  split
  · exact (Frame.refl l).leaves orderly backed
  rename_i free
  let after : Ledger := { l.commit resale.option p resale.qty with
    pending := { l.pending with resales := l.pending.resales.insert op resale } }
  have committed (id) : after.pending.committed id = l.pending.committed id + resale.units id :=
    Pending.committed_submit_resale fresh resale
  have line := leaves_of_line after resale.option orderly backed (orderly.natural.submit_resale natural) orderly.flash
    (fun other differ => ⟨stock_elsewhere rfl differ, by rw [committed, PendingResale.units_of_ne differ, add_zero], Iff.rfl⟩)
    (stock_here rfl)
  refine ⟨line.orderly, line.backed.trans (iff_of_true ⟨?_, ?_⟩ trivial)⟩
  · rw [committed, resale.units_own, (backed.lines _ p found).1]
  · have enough := not_lt.mp free
    rw [OptionPosition.freeUnits] at enough
    exact add_comm resale.qty _ ▸ le_sub_iff_add_le.mp enough

theorem submitExercise_leaves {op : OpId} {exercise : PendingExercise} (natural : 0 ≤ exercise.plan.qty)
    (fresh : l.pending.exercises.get? op = none) : Leaves (l.submitExercise op exercise).1 True := by
  unfold submitExercise
  dsimp only
  split
  · exact (Frame.refl l).leaves orderly backed
  rename_i p found
  split
  · exact (Frame.refl l).leaves orderly backed
  rename_i free
  let after : Ledger := { l.commit exercise.plan.option p exercise.plan.qty with
    pending := { l.pending with exercises := l.pending.exercises.insert op exercise } }
  have committed (id) : after.pending.committed id = l.pending.committed id + exercise.units id :=
    Pending.committed_submit_exercise fresh exercise
  have exercised (other) (differ : other ≠ exercise.plan.option) :
      Exercised after.pending.exercises other ↔ Exercised l.pending.exercises other :=
    exercised_insert fresh differ
  have line := leaves_of_line after exercise.plan.option orderly backed (orderly.natural.submit_exercise natural) orderly.flash
    (fun other differ => ⟨stock_elsewhere rfl differ, by rw [committed, PendingExercise.units_of_ne differ, add_zero],
      exercised other differ⟩) (stock_here rfl)
  refine ⟨line.orderly, line.backed.trans (iff_of_true ⟨?_, ?_⟩ trivial)⟩
  · rw [committed, exercise.units_own, (backed.lines _ p found).1]
  · have enough := not_lt.mp free
    rw [OptionPosition.freeUnits] at enough
    exact add_comm exercise.plan.qty _ ▸ le_sub_iff_add_le.mp enough

end Options

/-- A line that is dropped has nothing pending, so that only an exercise of no units can stand on it. -/
theorem dropIfEmpty_leaves (orderly : l.Orderly) {id : OptionId} {qty pendingUnits : ℚ}
    (held : l.stock id = some (qty, pendingUnits)) (same : pendingUnits = l.pending.committed id) (some : 0 ≤ qty) :
    Leaves (l.dropIfEmpty id) (l.Backed ∧ (qty ≤ 0 → ¬ Exercised l.pending.exercises id)) := by
  obtain ⟨p, found, here⟩ := Option.map_eq_some_iff.mp held
  cases here
  unfold dropIfEmpty
  rw [found]
  dsimp only
  split
  · rename_i empty
    let after : Ledger := { l with options := l.options.remove id }
    have gone : after.stock id = none := stock_of_none (by rw [get?_remove, if_pos rfl])
    have rest (other) (differ : other ≠ id) : SameAt l after other :=
      ⟨by rw [stock, stock, get?_remove, if_neg differ], rfl, Iff.rfl⟩
    have none : l.pending.committed id = 0 := le_antisymm (same ▸ empty.2) (orderly.natural.committed_nonneg id)
    have later : after.Backed ↔ ∀ other, after.BackedAt other := backed_iff orderly.natural
    refine ⟨⟨orderly.natural, orderly.flash⟩, ?_⟩
    rw [backed_iff orderly.natural]
    refine later.trans ⟨?_, ?_⟩
    · intro at_every
      refine ⟨fun other => ?_, fun _ => ((backedAt_none gone).mp (at_every id)).2⟩
      by_cases here : other = id
      · rw [here, backedAt_some held]
        exact ⟨same, empty.2.trans some⟩
      · exact (rest other here).backedAt.mp (at_every other)
    · rintro ⟨at_every, free⟩ other
      by_cases here : other = id
      · rw [here, backedAt_none gone]
        exact ⟨none, free empty.1⟩
      · exact (rest other here).backedAt.mpr (at_every other)
  · rename_i filled
    refine ⟨orderly, (and_iff_left_of_imp fun backed little => ?_).symm⟩
    exact absurd ⟨little, (backed.lines id p found).2.trans little⟩ filled

/-! ### Resales -/

section Resale

variable {op : OpId} {r : PendingResale} (held : l.pending.resales.get? op = some r)

include held

theorem closed_elsewhere {id : OptionId} (differ : id ≠ r.option) :
    ({ l.pending with resales := l.pending.resales.remove op } : Pending).committed id = l.pending.committed id := by
  rw [Pending.committed_close_resale held, PendingResale.units_of_ne differ, sub_zero]

variable (orderly : l.Orderly) (backed : l.Backed)

include orderly backed

/-- The line is gone already, so that the resale is of no units. -/
theorem closeResale_leaves (missing : l.options.get? r.option = none) :
    Leaves { l with pending := { l.pending with resales := l.pending.resales.remove op } } True := by
  let closed : Ledger := { l with pending := { l.pending with resales := l.pending.resales.remove op } }
  have natural : closed.pending.Natural := orderly.natural.close_resale
  have rest (id) (differ : id ≠ r.option) : SameAt l closed id := ⟨rfl, closed_elsewhere held differ, Iff.rfl⟩
  obtain ⟨none, free⟩ := (backedAt_none (stock_of_none missing)).mp ((backed_iff orderly.natural).mp backed r.option)
  have little : closed.pending.committed r.option ≤ 0 := by
    rw [Pending.committed_close_resale held, none, r.units_own, zero_sub]
    exact neg_nonpos.mpr (orderly.natural.resales op r held)
  have gone : closed.stock r.option = Option.none := stock_of_none missing
  have here : closed.BackedAt r.option :=
    (backedAt_none gone).mpr ⟨le_antisymm little (natural.committed_nonneg r.option), free⟩
  exact ⟨⟨natural, orderly.flash⟩,
    iff_of_true ((backed_of_changed closed r.option orderly.natural natural backed rest).mpr here) trivial⟩

variable {p : OptionPosition} (found : l.options.get? r.option = some p)

include found

omit orderly in
theorem closed_left : p.pendingUnits - r.qty =
    ({ l.pending with resales := l.pending.resales.remove op } : Pending).committed r.option := by
  rw [Pending.committed_close_resale held, r.units_own, (backed.lines _ p found).1]

theorem failResale_leaves : Leaves { l with
    pending := { l.pending with resales := l.pending.resales.remove op }
    options := l.options.insert r.option { p with pendingUnits := p.pendingUnits - r.qty } } True := by
  have line := leaves_of_line { l with
      pending := { l.pending with resales := l.pending.resales.remove op }
      options := l.options.insert r.option { p with pendingUnits := p.pendingUnits - r.qty } } r.option orderly backed
    orderly.natural.close_resale orderly.flash
    (fun other differ => ⟨stock_elsewhere rfl differ, closed_elsewhere held differ, Iff.rfl⟩) (stock_here rfl)
  have units := orderly.natural.resales op r held
  refine ⟨line.orderly, line.backed.trans (iff_of_true ⟨closed_left held backed found, ?_⟩ trivial)⟩
  exact (sub_le_self _ units).trans (backed.lines _ p found).2

theorem sellUnits_leaves (proceeds : ℚ) :
    Leaves ((({ l with pending := { l.pending with resales := l.pending.resales.remove op } } : Ledger).sellUnits r
      { p with pendingUnits := p.pendingUnits - r.qty } proceeds).dropIfEmpty r.option)
      (p.qty ≤ r.qty → ¬ Exercised l.pending.exercises r.option) := by
  let sold := ({ l with pending := { l.pending with resales := l.pending.resales.remove op } } : Ledger).sellUnits r
    { p with pendingUnits := p.pendingUnits - r.qty } proceeds
  have here : sold.stock r.option = some (p.qty - r.qty, p.pendingUnits - r.qty) := by
    simp only [sold, stock, sellUnits, get?_insert, if_true, Option.map_some]
  have line := leaves_of_line sold r.option orderly backed orderly.natural.close_resale orderly.flash
    (fun other differ => ⟨stock_elsewhere rfl differ, closed_elsewhere held differ, Iff.rfl⟩) here
  have left := closed_left held backed found
  have within : p.pendingUnits - r.qty ≤ p.qty - r.qty := sub_le_sub_right (backed.lines _ p found).2 _
  have some : 0 ≤ p.qty - r.qty := le_trans (left ▸ orderly.natural.close_resale.committed_nonneg _) within
  have dropped := dropIfEmpty_leaves line.orderly here left some
  refine ⟨dropped.orderly, dropped.backed.trans ?_⟩
  rw [and_iff_right (line.backed.mpr ⟨left, within⟩), sub_nonpos]
  exact Iff.rfl

end Resale

/-! ### Exercises -/

section Exercise

variable {op : OpId} {x : PendingExercise} (held : l.pending.exercises.get? op = some x)

include held

theorem release_committed (id : OptionId) :
    (l.release op x.plan).pending.committed id = l.pending.committed id - x.units id :=
  Pending.committed_close_exercise held

variable (orderly : l.Orderly) (backed : l.Backed)

include orderly backed

/-- What is left pending of a line is not below zero, so that the release takes all units of the plan. -/
theorem release_stock {id : OptionId} {p : OptionPosition} (found : l.options.get? id = some p) :
    (l.release op x.plan).stock id = some (p.qty, p.pendingUnits - x.units id) := by
  have natural : (l.release op x.plan).pending.Natural := orderly.natural.close_exercise
  have left := natural.committed_nonneg id
  rw [release_committed held, ← (backed.lines id p found).1] at left
  rw [stock, release, get?_modify, found]
  split
  · rename_i here
    rw [here, x.units_own] at left ⊢
    simp only [Option.map_some, max_eq_left left]
  · rename_i differ
    rw [PendingExercise.units_of_ne differ, sub_zero, Option.map_some]

theorem release_leaves : Leaves (l.release op x.plan) True := by
  have natural : (l.release op x.plan).pending.Natural := orderly.natural.close_exercise
  obtain ⟨p, found, -⟩ := backed.exercises op x held
  have line := leaves_of_line (l.release op x.plan) x.plan.option orderly backed natural orderly.flash
    (fun other differ => {
      stock := by rw [stock, stock, release, get?_modify, if_neg differ]
      committed := by rw [release_committed held, PendingExercise.units_of_ne differ, sub_zero]
      exercised := exercised_remove held differ }) (release_stock held orderly backed found)
  refine ⟨line.orderly, line.backed.trans (iff_of_true ⟨?_, ?_⟩ trivial)⟩
  · rw [release_committed held, (backed.lines _ p found).1]
  · rw [x.units_own]
    exact (sub_le_self _ (orderly.natural.exercises op x held)).trans (backed.lines _ p found).2

theorem failExercise_leaves : Leaves ((l.release op x.plan).failExercise x.plan.option)
    (∀ p, l.options.get? x.plan.option = some p → p.qty ≤ 0 → ¬ Exercised (l.pending.exercises.remove op) x.plan.option) := by
  have released := release_leaves held orderly backed
  let counted : Ledger := { l.release op x.plan with
    lines := { l.lines with exerciseFailures := l.lines.exerciseFailures + 1 } }
  have frame : Frame (l.release op x.plan) counted := Frame.of_options rfl rfl rfl rfl
  have same := frame.leaves released.orderly (released.backed.mpr trivial)
  obtain ⟨p, found, -⟩ := backed.exercises op x held
  have here : counted.stock x.plan.option = _ := (frame.stock _).trans (release_stock held orderly backed found)
  obtain ⟨left, within⟩ := (backedAt_some here).mp
    ((backed_iff same.orderly.natural).mp (same.backed.mpr trivial) x.plan.option)
  have dropped := dropIfEmpty_leaves same.orderly here left
    ((left ▸ same.orderly.natural.committed_nonneg _ : (0 : ℚ) ≤ _).trans within)
  refine ⟨dropped.orderly, dropped.backed.trans ?_⟩
  simp only [found, Option.some.injEq, forall_eq']
  exact and_iff_right (same.backed.mpr trivial)

theorem bookExercise_leaves {plan : ExercisePlan} {p p' : OptionPosition} (found : l.options.get? plan.option = some p)
    (found' : (l.release op x.plan).options.get? plan.option = some p') (enough : plan.qty ≤ p.qty) (delta : ℚ) :
    Leaves ((((l.release op x.plan).trial plan p').bookExercise plan delta).dropIfEmpty plan.option)
      (p.pendingUnits - x.units plan.option + plan.qty ≤ p.qty ∧
        (p.qty ≤ plan.qty → ¬ Exercised (l.pending.exercises.remove op) plan.option)) := by
  let landed := ((l.release op x.plan).trial plan p').bookExercise plan delta
  have released := release_leaves held orderly backed
  have before := release_stock held orderly backed found
  rw [stock_of_some found', Option.some.injEq, Prod.mk.injEq] at before
  obtain ⟨qty, pendingUnits⟩ := before
  have here : landed.stock plan.option = some (p.qty - plan.qty, p.pendingUnits - x.units plan.option) := by
    simp only [landed, stock, bookExercise, trial, get?_insert, if_true, Option.map_some, qty, pendingUnits]
  have line := leaves_of_line landed plan.option released.orderly (released.backed.mpr trivial) released.orderly.natural rfl
    (fun other differ => ⟨stock_elsewhere rfl differ, rfl, Iff.rfl⟩) here
  have left : p.pendingUnits - x.units plan.option = landed.pending.committed plan.option := by
    rw [(backed.lines _ p found).1]
    exact (release_committed held _).symm
  have dropped := dropIfEmpty_leaves line.orderly here left (sub_nonneg.mpr enough)
  refine ⟨dropped.orderly, dropped.backed.trans ?_⟩
  rw [line.backed, and_iff_right left, le_sub_iff_add_le, sub_nonpos]
  exact Iff.rfl

end Exercise

section Settlements

variable (orderly : l.Orderly) (backed : l.Backed)

include orderly backed

theorem settleResale_leaves (op : OpId) (proceeds : Option ℚ) (atMs : Nat) :
    Leaves (l.settleResale op proceeds).1 (l.Covered (.resaleSettled op proceeds atMs)) := by
  unfold settleResale
  dsimp only
  split
  · rename_i missing
    have same := (Frame.refl l).leaves orderly backed
    refine ⟨same.orderly, same.backed.trans (iff_of_true trivial ?_)⟩
    cases proceeds with
    | none => trivial
    | some proceeds =>
      intro r held
      rw [missing] at held
      cases held
  rename_i r held
  split
  · rename_i missing
    have closed := closeResale_leaves held orderly backed missing
    refine ⟨closed.orderly, closed.backed.trans (iff_of_true trivial ?_)⟩
    cases proceeds with
    | none => trivial
    | some proceeds =>
      intro r' held' p found
      cases held.symm.trans held'
      rw [missing] at found
      cases found
  rename_i p found
  split
  · exact failResale_leaves held orderly backed found
  · rename_i proceeds
    have sold := sellUnits_leaves held orderly backed found proceeds
    refine ⟨sold.orderly, sold.backed.trans ?_⟩
    simp only [Covered, held, Option.some.injEq, forall_eq', found]

theorem settleExercise_leaves (op : OpId) (ok : Bool) (actual : Option ExercisePlan) (atMs : Nat) :
    Leaves (l.settleExercise op ok actual).1 (l.Covered (.exerciseSettled op ok actual atMs)) := by
  unfold settleExercise
  dsimp only
  split
  · -- no such exercise is pending: the event changes nothing and the condition is vacuous
    rename_i missing
    have same := (Frame.refl l).leaves orderly backed
    refine ⟨same.orderly, same.backed.trans (iff_of_true trivial fun x held => ?_)⟩
    rw [missing] at held
    cases held
  rename_i x held
  have covered : l.Covered (.exerciseSettled op ok actual atMs) ↔
      (ok = false ∨ l.Unpaid (actual.getD x.plan) → ∀ p, l.options.get? x.plan.option = some p → p.qty ≤ 0 →
        ¬ Exercised (l.pending.exercises.remove op) x.plan.option) ∧
      (ok = true → (actual.getD x.plan).flashBorrowed = (actual.getD x.plan).flashRepaid →
        ∀ p, l.options.get? (actual.getD x.plan).option = some p → (actual.getD x.plan).qty ≤ p.qty →
          p.pendingUnits - x.units (actual.getD x.plan).option + (actual.getD x.plan).qty ≤ p.qty ∧
            (p.qty ≤ (actual.getD x.plan).qty →
              ¬ Exercised (l.pending.exercises.remove op) (actual.getD x.plan).option)) := by
    simp only [Covered, held, Option.some.injEq, forall_eq']
  -- the two ways out: the line is given up, or the operation is only released
  have failed := failExercise_leaves held orderly backed
  have released := release_leaves held orderly backed
  cases ok with
  -- the venue reports a failure
  | false =>
    refine ⟨failed.orderly, failed.backed.trans (Iff.trans ?_ covered.symm)⟩
    simp
  | true =>
    simp only [Bool.true_eq_false, if_false, false_or, true_implies] at covered ⊢
    generalize actual.getD x.plan = plan at covered ⊢
    split
    · -- the plan names an option without a line: it is refused, and nothing it could land on exists
      rename_i missing
      have none : l.options.get? plan.option = Option.none := get?_modify_none.mp missing
      refine ⟨released.orderly, released.backed.trans (iff_of_true trivial (covered.mpr ⟨?_, ?_⟩))⟩
      · rintro ⟨p, found, -⟩
        rw [none] at found
        cases found
      · intro _ p found
        rw [none] at found
        cases found
    rename_i p' found'
    have before : (l.options.get? plan.option).map OptionPosition.qty = some p'.qty := by
      rw [← release_qty, found', Option.map_some]
    obtain ⟨p, found, same⟩ := Option.map_eq_some_iff.mp before
    rw [← same]
    split
    · -- the line holds less than the plan is to take
      rename_i few
      refine ⟨released.orderly, released.backed.trans (iff_of_true trivial (covered.mpr ⟨?_, ?_⟩))⟩
      · rintro ⟨other, found', enough, -⟩
        cases found.symm.trans found'
        exact absurd few (not_lt.mpr enough)
      · intro _ other found' enough
        cases found.symm.trans found'
        exact absurd few (not_lt.mpr enough)
    rename_i many
    have enough := not_lt.mp many
    have outstanding : ((l.release op x.plan).trial plan p').flashOutstanding = plan.flashBorrowed - plan.flashRepaid := by
      rw [trial, released.orderly.flash, zero_add]
    rw [outstanding]
    split
    · -- the flash loan is not repaid, so the trial is dropped and the line is given up
      rename_i differ
      have unpaid : l.Unpaid plan := ⟨p, found, enough, sub_ne_zero.mp differ⟩
      refine ⟨failed.orderly, failed.backed.trans (Iff.trans ?_ covered.symm)⟩
      constructor
      · intro alone
        exact ⟨fun _ => alone, fun paid => absurd paid (sub_ne_zero.mp differ)⟩
      · intro both
        exact both.1 unpaid
    · -- the plan lands
      rename_i zero
      have paid := sub_eq_zero.mp (not_not.mp zero)
      have landed := bookExercise_leaves held orderly backed found found' enough ((l.release op x.plan).moveUnderlying plan).2
      refine ⟨landed.orderly, landed.backed.trans (Iff.trans ?_ covered.symm)⟩
      constructor
      · intro fits
        refine ⟨?_, fun _ other found' _ => ?_⟩
        · rintro ⟨-, -, -, differ⟩
          exact absurd paid differ
        · cases found.symm.trans found'
          exact fits
      · intro both
        exact both.2 paid p found enough

end Settlements

/-! ### Expiry -/

theorem foldl_view {α β : Type} {step : Ledger → α → Ledger} (view : Ledger → β)
    (each : ∀ l x, view (step l x) = view l) (list : List α) : view (list.foldl step l) = view l := by
  induction list generalizing l with
  | nil => rfl
  | cons x rest ih => exact ih.trans (each l x)

def shell (p : OptionPosition) : Option OptionPosition :=
  if p.pendingUnits ≤ 0 then none else some { p with markPerUnit := 0, costBasis := 0, qty := p.pendingUnits }

theorem shell_shell (p : OptionPosition) : (shell p).bind shell = shell p := by
  unfold shell
  split
  · rfl
  · rename_i some
    rw [Option.bind_some, if_neg some]

theorem expireLine_get? (id other : OptionId) : (l.expireLine id).options.get? other =
    if other = id then (l.options.get? other).bind shell else l.options.get? other := by
  unfold expireLine
  split
  · rename_i missing
    split
    · rename_i here
      rw [here, missing, Option.bind_none]
    · rfl
  · rename_i p found
    dsimp only
    split
    · rename_i none
      rw [get?_remove]
      split
      · rename_i here
        rw [here, found, Option.bind_some, shell, if_pos none]
      · rfl
    · rename_i some
      rw [get?_insert]
      split
      · rename_i here
        rw [here, found, Option.bind_some, shell, if_neg some]
      · rfl

theorem expireLines_get? (ids : List OptionId) (other : OptionId) : (ids.foldl expireLine l).options.get? other =
    if other ∈ ids then (l.options.get? other).bind shell else l.options.get? other := by
  induction ids generalizing l with
  | nil => rfl
  | cons id rest ih =>
    rw [List.foldl_cons, ih, expireLine_get?]
    by_cases here : other = id
    · -- a line that is a shell already stays as it is
      have once : ((l.options.get? other).bind shell).bind shell = (l.options.get? other).bind shell := by
        rw [Option.bind_assoc]
        exact congrArg _ (funext shell_shell)
      simp only [here, List.mem_cons, true_or, if_true]
      split
      · exact here ▸ once
      · rfl
    · rw [if_neg here]
      simp only [List.mem_cons, here, false_or]

theorem expireLine_pending (l : Ledger) (id : OptionId) : (l.expireLine id).pending = l.pending := by
  unfold expireLine
  split
  · rfl
  · rfl

theorem expireLine_flash (l : Ledger) (id : OptionId) : (l.expireLine id).flashOutstanding = l.flashOutstanding := by
  unfold expireLine
  split
  · rfl
  · rfl

theorem expireOptions_get? (atMs : Nat) (id : OptionId) : (l.expireOptions atMs).options.get? id =
    (l.options.get? id).bind fun p => if p.spec.expiryMs ≤ atMs then shell p else some p := by
  rw [expireOptions, expireLines_get?]
  cases found : l.options.get? id with
  | none =>
    rw [Option.bind_none, Option.bind_none, ite_self]
  | some p =>
    have expired : id ∈ (l.options.toList.filter fun line => line.2.spec.expiryMs ≤ atMs).map Prod.fst ↔
        p.spec.expiryMs ≤ atMs := by
      simp only [List.mem_map, List.mem_filter, decide_eq_true_eq]
      constructor
      · rintro ⟨line, ⟨member, late⟩, rfl⟩
        rw [mem_toList.mp member, Option.some.injEq] at found
        exact found ▸ late
      · intro late
        exact ⟨(id, p), ⟨mem_toList.mpr found, late⟩, rfl⟩
    simp only [expired, Option.bind_some]

theorem expireOptions_leaves (orderly : l.Orderly) (backed : l.Backed) (atMs : Nat) :
    Leaves (l.expireOptions atMs) (l.Covered (.expireOptions atMs)) := by
  have pending : (l.expireOptions atMs).pending = l.pending := foldl_view Ledger.pending expireLine_pending _
  have flash : (l.expireOptions atMs).flashOutstanding = l.flashOutstanding :=
    foldl_view Ledger.flashOutstanding expireLine_flash _
  have natural : (l.expireOptions atMs).pending.Natural := pending ▸ orderly.natural
  refine ⟨⟨natural, flash.trans orderly.flash⟩, (backed_iff natural).trans (forall_congr' fun id => ?_)⟩
  have here := (backed_iff orderly.natural).mp backed id
  have same (stock : (l.expireOptions atMs).stock id = l.stock id) : (l.expireOptions atMs).BackedAt id :=
    (SameAt.backedAt ⟨stock, by rw [pending], by rw [pending]⟩).mpr here
  cases found : l.options.get? id with
  | none =>
    refine iff_of_true (same ?_) nofun
    rw [stock, stock, expireOptions_get?, found, Option.bind_none]
  | some p =>
    simp only [Option.some.injEq, forall_eq']
    by_cases late : p.spec.expiryMs ≤ atMs
    · have left : (l.expireOptions atMs).options.get? id = shell p := by
        rw [expireOptions_get?, found, Option.bind_some, if_pos late]
      obtain ⟨units, within⟩ := (backedAt_some (stock_of_some found)).mp here
      by_cases none : p.pendingUnits ≤ 0
      · have gone : (l.expireOptions atMs).stock id = Option.none := stock_of_none (by rw [left, shell, if_pos none])
        have nothing : l.pending.committed id = 0 := le_antisymm (units ▸ none) (orderly.natural.committed_nonneg id)
        rw [backedAt_none gone, pending, and_iff_right nothing]
        exact ⟨fun free _ _ => free, fun free => free late none⟩
      · have kept : (l.expireOptions atMs).stock id = some (p.pendingUnits, p.pendingUnits) := by
          rw [stock, left, shell, if_neg none, Option.map_some]
        rw [backedAt_some kept, pending]
        exact iff_of_true ⟨units, le_refl _⟩ fun _ none' => absurd none' none
    · refine iff_of_true (same ?_) fun late' => absurd late' late
      rw [stock, stock, expireOptions_get?, found, Option.bind_some, if_neg late]

/-! ### Custody observed -/

theorem syncOption_stock (s : OptionSync) (id : OptionId) :
    (l.syncOption s).stock id = if id = s.option then some (s.qty, 0) else l.stock id := by
  unfold syncOption
  dsimp only
  split
  · rw [stock, holdLine, get?_insert]
    split
    · rfl
    · rfl
  · rw [stock, holdLine, get?_insert]
    split
    · rfl
    · rename_i elsewhere
      rw [markLine, get?_insert, if_neg elsewhere, stock]

theorem loseOption_stock (id other : OptionId) :
    (l.loseOption id).stock other = if other = id then none else l.stock other := by
  unfold loseOption
  split
  · rename_i missing
    split
    · rename_i here
      rw [here, stock_of_none missing]
    · rfl
  · rw [stock, get?_remove]
    split
    · rfl
    · rfl

theorem loseOptions_stock (ids : List OptionId) (id : OptionId) :
    (ids.foldl loseOption l).stock id = if id ∈ ids then none else l.stock id := by
  induction ids generalizing l with
  | nil => rfl
  | cons lost rest ih =>
    rw [List.foldl_cons, ih, loseOption_stock]
    by_cases here : id = lost
    · simp [here]
    · simp [here]

def Free (held : Option (ℚ × ℚ)) : Prop := ∃ qty : ℚ, 0 ≤ qty ∧ held = some (qty, 0)

theorem syncOptions_free {positions : List OptionSync} (natural : ∀ s ∈ positions, 0 ≤ s.qty) {id : OptionId}
    (seen : id ∈ positions.map (·.option) ∨ Free (l.stock id)) : Free ((positions.foldl syncOption l).stock id) := by
  induction positions generalizing l with
  | nil => exact seen.resolve_left (by simp)
  | cons s rest ih =>
    refine ih (fun other member => natural other (List.mem_cons_of_mem s member)) ?_
    rw [syncOption_stock]
    by_cases here : id = s.option
    · rw [if_pos here]
      exact Or.inr ⟨s.qty, natural s List.mem_cons_self, rfl⟩
    · rw [if_neg here]
      exact seen.imp_left fun member => (List.mem_cons.mp member).resolve_left here

theorem syncOption_flash (l : Ledger) (s : OptionSync) : (l.syncOption s).flashOutstanding = l.flashOutstanding := by
  unfold syncOption
  dsimp only
  split
  · rfl
  · rfl

theorem loseOption_flash (l : Ledger) (id : OptionId) : (l.loseOption id).flashOutstanding = l.flashOutstanding := by
  unfold loseOption
  split
  · rfl
  · rfl

theorem resyncOptions_stock {positions : List OptionSync} (natural : ∀ s ∈ positions, 0 ≤ s.qty) (id : OptionId) :
    (l.resyncOptions positions).stock id = none ∨ Free ((l.resyncOptions positions).stock id) := by
  let synced := positions.foldl syncOption l
  let gone := (synced.options.toList.map Prod.fst).filter fun id => id ∉ positions.map (·.option)
  have left : (l.resyncOptions positions).stock id = if id ∈ gone then none else synced.stock id := loseOptions_stock gone id
  rw [left]
  split
  · exact Or.inl rfl
  rename_i kept
  by_cases seen : id ∈ positions.map (·.option)
  · exact Or.inr (syncOptions_free natural (Or.inl seen))
  · refine Or.inl ?_
    cases found : synced.options.get? id with
    | none => exact stock_of_none found
    | some p =>
      have listed : id ∈ synced.options.toList.map Prod.fst := List.mem_map.mpr ⟨(id, p), mem_toList.mpr found, rfl⟩
      exact absurd (List.mem_filter.mpr ⟨listed, decide_eq_true seen⟩) kept

/-- Custody stands for all that was under way. -/
theorem resyncOptions_leaves (orderly : l.Orderly) {positions : List OptionSync} (natural : ∀ s ∈ positions, 0 ≤ s.qty) :
    Leaves (l.resyncOptions positions) True := by
  let after := l.resyncOptions positions
  have resales (op) : after.pending.resales.get? op = none := get?_empty
  have exercises (op) : after.pending.exercises.get? op = none := get?_empty
  have flash : after.flashOutstanding = l.flashOutstanding :=
    (foldl_view Ledger.flashOutstanding loseOption_flash _).trans (foldl_view Ledger.flashOutstanding syncOption_flash _)
  have small : after.pending.Natural := by
    refine ⟨fun op r held => ?_, fun op x held => ?_⟩
    · rw [resales] at held
      cases held
    · rw [exercises] at held
      cases held
  have committed (id) : after.pending.committed id = 0 := (congrArg₂ (· + ·) total_empty total_empty).trans (add_zero 0)
  refine ⟨⟨small, flash.trans orderly.flash⟩, iff_of_true ((backed_iff small).mpr fun id => ?_) trivial⟩
  rcases resyncOptions_stock natural id with gone | ⟨qty, some, held⟩
  · refine (backedAt_none gone).mpr ⟨committed id, ?_⟩
    rintro ⟨op, x, held, -⟩
    rw [exercises] at held
    cases held
  · exact (backedAt_some held).mpr ⟨(committed id).symm, some⟩

/-! ### Runs -/

/-- What an event leaves is orderly, and backed exactly when the event is covered. -/
theorem applyInner_leaves (orderly : l.Orderly) (backed : l.Backed) (event : LedgerEvent) (admissible : l.Admissible event) :
    Leaves (l.applyInner event).1 (l.Covered event) := by
  have frame {after : Ledger} (same : Frame l after) : Leaves after True := same.leaves orderly backed
  cases event with
  | resyncBalances settlement underlying atMs => exact frame (l.resyncBalances_frame settlement underlying)
  | resyncOptions positions atMs => exact resyncOptions_leaves orderly admissible
  | resyncPerp market units mark atMs => exact frame (l.resyncPerp_frame market units mark)
  | queuedWithdrawals queue => exact frame (Frame.of_options rfl rfl rfl rfl)
  | external account => exact frame (Frame.of_options rfl rfl rfl rfl)
  | markOptions marks atMs => exact frame (Frame.foldl markOption_frame marks l)
  | markUnderlying asset mark atMs => exact frame (l.markUnderlying_frame asset mark)
  | markPerp market mark atMs => exact frame (Frame.of_options rfl rfl rfl rfl)
  | expireOptions atMs => exact expireOptions_leaves orderly backed atMs
  | reserve reservation => exact frame (l.reserve_frame reservation)
  | reservationTransition key state atMs => exact frame (l.transitionReservation_frame key state atMs)
  | restoreReservation reservation => exact frame (l.installReservation_frame reservation)
  | optionBought option spec qty premium markPerUnit atMs =>
    exact buyOption_leaves orderly backed admissible option spec premium markPerUnit
  | resaleSubmitted op option qty expectedProceeds atMs =>
    exact submitResale_leaves orderly backed admissible.1 admissible.2
  | resaleSettled op proceeds atMs => exact settleResale_leaves orderly backed op proceeds atMs
  | exerciseSubmitted op plan atMs => exact submitExercise_leaves orderly backed admissible.1 admissible.2
  | exerciseSettled op ok actual atMs => exact settleExercise_leaves orderly backed op ok actual atMs
  | hedgeSubmitted op market sizeUnits spot atMs => exact frame (Frame.of_options rfl rfl rfl rfl)
  | perpFill op market sizeUnits price fee reference gas isPassive isPartial atMs =>
    exact frame (Frame.of_options rfl rfl rfl rfl)
  | hedgeResolved op rejected atMs => exact frame (l.resolveHedge_frame op rejected)
  | funding market paid atMs => exact frame (Frame.of_options rfl rfl rfl rfl)
  | marginMoved market amount atMs => exact frame (Frame.of_options rfl rfl rfl rfl)
  | marginTopUpSent op market amount atMs => exact frame (Frame.of_options rfl rfl rfl rfl)
  | marginTopUpLanded op accepted atMs => exact frame (l.landTopUp_frame op accepted)
  | liquidation market sizeClosed price penalty full atMs => exact frame (Frame.of_options rfl rfl rfl rfl)
  | gas amount atMs => exact frame (Frame.of_options rfl rfl rfl rfl)
  | penalty amount atMs => exact frame (Frame.of_options rfl rfl rfl rfl)

theorem apply_leaves (orderly : l.Orderly) (backed : l.Backed) (event : LedgerEvent) (admissible : l.Admissible event) :
    Leaves (l.apply event).1 (l.Covered event) := by
  have leaves := applyInner_leaves orderly backed event admissible
  unfold apply
  split
  · rename_i refused
    rw [refused] at leaves
    exact leaves
  · rename_i after accepted
    rw [accepted] at leaves
    have counted : Frame after { after with
        eventsApplied := after.eventsApplied + 1, lastEventMs := max after.lastEventMs event.atMs } :=
      Frame.of_options rfl rfl rfl rfl
    exact ⟨counted.orderly leaves.orderly, (counted.backed leaves.orderly).trans leaves.backed⟩

theorem new_orderly (nav0 : ℚ) : (new nav0).Orderly := by
  refine ⟨⟨fun op r held => ?_, fun op x held => ?_⟩, rfl⟩
  · cases held.symm.trans get?_empty
  · cases held.symm.trans get?_empty

theorem new_backed (nav0 : ℚ) : (new nav0).Backed := by
  refine (backed_iff (new_orderly nav0).natural).mpr fun id => (backedAt_none (stock_of_none get?_empty)).mpr ⟨?_, ?_⟩
  · exact (congrArg₂ (· + ·) total_empty total_empty).trans (add_zero 0)
  · rintro ⟨op, x, held, -⟩
    cases held.symm.trans get?_empty

/-- The units of every state of a run are backed exactly when every event of it is covered. -/
theorem backing_iff (nav0 : ℚ) (events : List LedgerEvent) (admissible : Along advance Admissible (new nav0) events) :
    (new nav0).Backed ∧ Along advance (fun l event => (l.apply event).1.Backed) (new nav0) events ↔
      Along advance Covered (new nav0) events := by
  rw [and_iff_right (new_backed nav0)]
  refine along_iff_along advance (fun l => l.Orderly ∧ l.Backed) (fun l event holds allowed => ?_)
    (fun l event next holds allowed later moved => ?_) ⟨new_orderly nav0, new_backed nav0⟩ admissible
  · exact (apply_leaves holds.1 holds.2 event allowed).backed
  · cases moved
    exact ⟨(apply_leaves holds.1 holds.2 event allowed).orderly, later⟩

def exercised : List LedgerEvent :=
  [.optionBought "call" none 10 5 1 1, .resaleSubmitted 1 "call" 6 6 2,
    .exerciseSubmitted 2 ⟨"call", .callCash, 4, "SUI", 0, 8, 0, 0, 0, 0, 0, 0⟩ 3, .exerciseSettled 2 true none 4]

theorem backing_submitted : (new 100).Backed ∧
    Along advance (fun l event => (l.apply event).1.Backed) (new 100) exercised := by
  have admissible : Along advance Admissible (new 100) exercised := by
    refine ⟨(by norm_num : (0 : ℚ) ≤ 10), fun _ bought => ⟨⟨(by norm_num : (0 : ℚ) ≤ 6), ?_⟩, fun _ offered =>
      ⟨⟨(by norm_num : (0 : ℚ) ≤ 4), ?_⟩, fun _ _ => ⟨?_, fun _ _ => trivial⟩⟩⟩⟩
    · cases bought
      exact get?_empty
    · cases bought
      cases offered
      decide +kernel
    · intro plan none
      cases none
  refine (backing_iff 100 _ admissible).mpr
    ⟨trivial, fun _ bought => ⟨trivial, fun _ offered => ⟨trivial, fun l sent => ⟨?_, fun _ _ => trivial⟩⟩⟩⟩
  cases bought
  cases offered
  have pending : (l.pending.exercises.get? 2).map (fun x => (x.plan.option, x.plan.qty, x.units "call")) =
      some ("call", 4, 4) := by
    cases sent
    decide +kernel
  have line : (l.options.get? "call").map (fun p => (p.qty, p.pendingUnits)) = some (10, 10) := by
    cases sent
    decide +kernel
  intro x found
  rw [found] at pending
  obtain ⟨option, sizes⟩ := Prod.mk.inj (Option.some.inj pending)
  obtain ⟨qty, units⟩ := Prod.mk.inj sizes
  have held : ∀ p, l.options.get? x.plan.option = some p → p.qty = 10 ∧ p.pendingUnits = 10 := by
    intro p known
    rw [option] at known
    rw [known] at line
    exact Prod.mk.inj (Option.some.inj line)
  constructor
  · intro _ p known empty
    rw [(held p known).1] at empty
    norm_num at empty
  · intro _ _ p known _
    obtain ⟨ten, both⟩ := held p known
    rw [Option.getD_none, ten, both, option, units, qty]
    exact ⟨by norm_num, fun small => by norm_num at small⟩

/-- The exercise lands with the units of the resale, which leaves six pending units on an empty line. -/
theorem backing_oversold : Along advance Admissible (new 100) oversold ∧
    ¬ Along advance (fun l event => (l.apply event).1.Backed) (new 100) oversold := by
  constructor
  · refine ⟨(by norm_num : (0 : ℚ) ≤ 10), fun _ bought => ⟨⟨(by norm_num : (0 : ℚ) ≤ 6), ?_⟩, fun _ offered =>
      ⟨⟨(by norm_num : (0 : ℚ) ≤ 4), ?_⟩, fun _ _ => ⟨?_, fun _ _ => ⟨trivial, fun _ _ => trivial⟩⟩⟩⟩⟩
    · cases bought
      exact get?_empty
    · cases bought
      cases offered
      decide +kernel
    · rintro plan same
      cases same
      exact (by norm_num : (0 : ℚ) ≤ 10)
  · intro along
    have backed := (((along.2 _ rfl).2 _ rfl).2 _ rfl).1
    exact absurd (backed.units "call") (by decide +kernel)

end Ledger

end SuiOptions.DeskCore
