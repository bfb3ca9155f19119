import SuiOptions.Lib.Pour
import SuiOptions.Lib.BTreeMap
import SuiOptions.Lib.Words

/-! Written lines netted against held coins: `recompute_covered`.

The coins held of a bucket cover the lines written in it, the first ones first. Sums of
units are 64-bit additions, which a release build wraps. -/

set_option autoImplicit false

namespace SuiOptions.DeskCore

open BTreeMap Pour Words

abbrev ObjectId := Nat

/-- A line that is held, in the vault, the wallet and in custody positions. -/
structure Holding where
  bucketId : ObjectId
  amountVault : Nat
  amountWallet : Nat
  coinPositions : List Nat

structure Written where
  bucketId : ObjectId
  amount : Nat
  /-- How much of it the held coins of the bucket cover. -/
  covered : Nat
  deriving DecidableEq, Repr

def Holding.amountCoinPositions (h : Holding) : Nat := h.coinPositions.foldl (wrappingAdd 64) 0

def Holding.amount (h : Holding) : Nat :=
  saturatingAdd 64 (saturatingAdd 64 h.amountVault h.amountWallet) h.amountCoinPositions

def Written.naked (w : Written) : Nat := w.amount - w.covered

def availableUnits (holdings : List Holding) : BTreeMap ObjectId Nat :=
  holdings.foldl (fun avail h => avail.entry h.bucketId 0 (wrappingAdd 64 · h.amount)) ∅

def coverLines : BTreeMap ObjectId Nat → List Written → List Written
  | _, [] => []
  | avail, w :: rest =>
    let a := (avail.get? w.bucketId).getD 0
    let covered := min w.amount a
    { w with covered } :: coverLines (avail.insert w.bucketId (a - covered)) rest

def recomputeCovered (holdings : List Holding) (written : List Written) : List Written :=
  coverLines (availableUnits holdings) written

def nakedWrittenUnits (written : List Written) : Nat := (written.map Written.naked).foldl (wrappingAdd 64) 0

variable {holdings : List Holding} {written : List Written} {bucket : ObjectId} {avail : BTreeMap ObjectId Nat} {w : Written}

/-- The units of a holding, and those held of a bucket, as numbers without a width. -/
def Holding.units (h : Holding) : Nat := h.amountVault + h.amountWallet + h.coinPositions.sum

def heldUnits (holdings : List Holding) (bucket : ObjectId) : Nat :=
  ((holdings.filter fun h => h.bucketId = bucket).map Holding.units).sum

def linesOf (written : List Written) (bucket : ObjectId) : List Written := written.filter fun w => w.bucketId = bucket

theorem Holding.amount_eq {h : Holding} (small : h.units < 2 ^ 64) : h.amount = h.units := by
  have positions : h.amountCoinPositions = h.coinPositions.sum :=
    (foldl_wrappingAdd (by rw [units] at small; omega)).trans (Nat.zero_add _)
  rw [amount, positions, saturatingAdd, saturatingAdd, units] at *
  omega

theorem heldUnits_cons (h : Holding) (rest : List Holding) (bucket : ObjectId) :
    heldUnits (h :: rest) bucket = (if h.bucketId = bucket then h.units else 0) + heldUnits rest bucket := by
  by_cases here : h.bucketId = bucket
  · simp [heldUnits, here]
  · simp [heldUnits, here]

theorem availableUnits_get? (fits : heldUnits holdings bucket < 2 ^ 64) :
    ((availableUnits holdings).get? bucket).getD 0 = heldUnits holdings bucket := by
  have gathered (list : List Holding) (avail : BTreeMap ObjectId Nat)
      (small : (avail.get? bucket).getD 0 + heldUnits list bucket < 2 ^ 64) :
      ((list.foldl (fun avail h => avail.entry h.bucketId 0 (wrappingAdd 64 · h.amount)) avail).get? bucket).getD 0 =
        (avail.get? bucket).getD 0 + heldUnits list bucket := by
    induction list generalizing avail with
    | nil => simp [heldUnits]
    | cons h rest ih =>
      rw [heldUnits_cons] at small ⊢
      have entered : ((avail.entry h.bucketId 0 (wrappingAdd 64 · h.amount)).get? bucket).getD 0 =
          (avail.get? bucket).getD 0 + if h.bucketId = bucket then h.units else 0 := by
        rw [get?_entry]
        by_cases here : h.bucketId = bucket
        · rw [if_pos here] at small ⊢
          rw [if_pos here.symm, Option.getD_some, Holding.amount_eq (by omega), wrappingAdd_of_small (by omega)]
        · rw [if_neg here, if_neg (Ne.symm here), Nat.add_zero]
      rw [List.foldl_cons, ih _ (by rw [entered]; omega), entered, Nat.add_assoc]
  exact (gathered holdings ∅ (by simpa using fits)).trans (by simp)

theorem coverLines_bucket (avail : BTreeMap ObjectId Nat) (written : List Written) :
    (coverLines avail written).map (fun w => (w.bucketId, w.amount)) = written.map fun w => (w.bucketId, w.amount) := by
  induction written generalizing avail with
  | nil => rfl
  | cons w rest ih => simp [coverLines, ih]

theorem coverLines_pour (avail : BTreeMap ObjectId Nat) (written : List Written) (bucket : ObjectId) :
    (linesOf (coverLines avail written) bucket).map (·.covered) =
      pour ((avail.get? bucket).getD 0) ((linesOf written bucket).map (·.amount)) := by
  induction written generalizing avail with
  | nil => rfl
  | cons w rest ih =>
    by_cases here : w.bucketId = bucket
    · have later := ih (avail.insert w.bucketId ((avail.get? w.bucketId).getD 0 - min w.amount ((avail.get? w.bucketId).getD 0)))
      rw [get?_insert, if_pos here.symm, Option.getD_some] at later
      simp only [linesOf, coverLines, List.filter_cons, here, decide_true, if_true, List.map_cons, pour] at later ⊢
      rw [later, Nat.min_comm]
    · have later := ih (avail.insert w.bucketId ((avail.get? w.bucketId).getD 0 - min w.amount ((avail.get? w.bucketId).getD 0)))
      rw [get?_insert, if_neg (Ne.symm here)] at later
      simpa [linesOf, coverLines, here] using later

theorem sum_by_bucket (f : Written → Nat) {buckets : Finset ObjectId} (known : ∀ w ∈ written, w.bucketId ∈ buckets) :
    (written.map f).sum = ∑ bucket ∈ buckets, ((linesOf written bucket).map f).sum := by
  induction written with
  | nil => simp [linesOf]
  | cons w rest ih =>
    have here := known w List.mem_cons_self
    have split (bucket : ObjectId) : ((linesOf (w :: rest) bucket).map f).sum =
        (if w.bucketId = bucket then f w else 0) + ((linesOf rest bucket).map f).sum := by
      unfold linesOf
      by_cases same : w.bucketId = bucket
      · simp [same]
      · simp [same]
    simp only [split, Finset.sum_add_distrib, List.map_cons, List.sum_cons, Finset.sum_ite_eq, if_pos here,
      ih fun w inside => known w (List.mem_cons_of_mem _ inside)]

theorem coverLines_le (inside : w ∈ coverLines avail written) : w.covered ≤ w.amount := by
  induction written generalizing avail with
  | nil => cases inside
  | cons first rest ih =>
    rcases List.mem_cons.mp inside with rfl | later
    · exact Nat.min_le_left _ _
    · exact ih later

theorem naked_sum {lines : List Written} (each : ∀ w ∈ lines, w.covered ≤ w.amount) :
    (lines.map Written.naked).sum + (lines.map (·.covered)).sum = (lines.map (·.amount)).sum := by
  induction lines with
  | nil => rfl
  | cons w rest ih =>
    have here := each w List.mem_cons_self
    have later := ih fun w inside => each w (List.mem_cons_of_mem _ inside)
    simp only [List.map_cons, List.sum_cons, Written.naked] at later ⊢
    omega

theorem linesOf_amount (avail : BTreeMap ObjectId Nat) (written : List Written) (bucket : ObjectId) :
    (linesOf (coverLines avail written) bucket).map (·.amount) = (linesOf written bucket).map (·.amount) := by
  induction written generalizing avail with
  | nil => rfl
  | cons w rest ih =>
    by_cases here : w.bucketId = bucket
    · simpa [linesOf, coverLines, here] using ih _
    · simpa [linesOf, coverLines, here] using ih _

section Netted

variable (written : List Written) (fits : heldUnits holdings bucket < 2 ^ 64)

include fits

theorem covered_poured : (linesOf (recomputeCovered holdings written) bucket).map (·.covered) =
    pour (heldUnits holdings bucket) ((linesOf written bucket).map (·.amount)) := by
  rw [recomputeCovered, coverLines_pour, availableUnits_get? fits]

theorem covered_sum : ((linesOf (recomputeCovered holdings written) bucket).map (·.covered)).sum =
    min (heldUnits holdings bucket) ((linesOf written bucket).map (·.amount)).sum := by
  rw [covered_poured written fits, pour_sum]

theorem naked_of_bucket : ((linesOf (recomputeCovered holdings written) bucket).map Written.naked).sum =
    ((linesOf written bucket).map (·.amount)).sum - heldUnits holdings bucket := by
  have each : ∀ w ∈ linesOf (recomputeCovered holdings written) bucket, w.covered ≤ w.amount :=
    fun w inside => coverLines_le (List.mem_filter.mp inside).1
  have amounts : ((linesOf (recomputeCovered holdings written) bucket).map (·.amount)).sum =
      ((linesOf written bucket).map (·.amount)).sum := congrArg List.sum (linesOf_amount _ written bucket)
  have parts := naked_sum each
  rw [covered_sum written fits, amounts] at parts
  omega

theorem covered_first {first second : Nat} (inside : second < (linesOf (recomputeCovered holdings written) bucket).length)
    (ahead : first < second) (some : 0 < (linesOf (recomputeCovered holdings written) bucket)[second].covered) :
    (linesOf (recomputeCovered holdings written) bucket)[first].naked = 0 := by
  have poured := covered_poured written fits
  have amounts := linesOf_amount (availableUnits holdings) written bucket
  rw [← recomputeCovered] at amounts
  have within := ahead.trans inside
  have taken : 0 < ((linesOf (recomputeCovered holdings written) bucket).map (·.covered)).getD second 0 := by
    rwa [List.getD_eq_getElem _ 0 (by rwa [List.length_map]), List.getElem_map]
  rw [poured] at taken
  have full := pour_first ahead taken
  rw [← poured, ← amounts, List.getD_eq_getElem _ 0 (by rwa [List.length_map]), List.getElem_map,
    List.getD_eq_getElem _ 0 (by rwa [List.length_map]), List.getElem_map] at full
  rw [Written.naked, full, Nat.sub_self]

end Netted

/-- No sum of units leaves 64 bits: the units held of a bucket, and the units written. -/
structure UnitsFit (holdings : List Holding) (written : List Written) : Prop where
  held : ∀ bucket, heldUnits holdings bucket < 2 ^ 64
  written : (written.map (·.amount)).sum < 2 ^ 64

/-- The lines keep their amounts; of each bucket as much is covered as is held, first lines first, and
what is written beyond that is naked. -/
theorem covered_netted (holdings : List Holding) (written : List Written) (fit : UnitsFit holdings written) :
    (recomputeCovered holdings written).map (fun w => (w.bucketId, w.amount)) = written.map (fun w => (w.bucketId, w.amount)) ∧
      (∀ bucket, ((linesOf (recomputeCovered holdings written) bucket).map (·.covered)).sum =
        min (heldUnits holdings bucket) ((linesOf written bucket).map (·.amount)).sum) ∧
      (∀ bucket first second (inside : second < (linesOf (recomputeCovered holdings written) bucket).length)
        (ahead : first < second), 0 < (linesOf (recomputeCovered holdings written) bucket)[second].covered →
          (linesOf (recomputeCovered holdings written) bucket)[first].naked = 0) ∧
      nakedWrittenUnits (recomputeCovered holdings written) =
        ∑ bucket ∈ (written.map (·.bucketId)).toFinset,
          (((linesOf written bucket).map (·.amount)).sum - heldUnits holdings bucket) := by
  have buckets := coverLines_bucket (availableUnits holdings) written
  refine ⟨buckets, fun bucket => covered_sum written (fit.held bucket),
    fun bucket _ _ => covered_first written (fit.held bucket), ?_⟩
  have known : ∀ w ∈ recomputeCovered holdings written, w.bucketId ∈ (written.map (·.bucketId)).toFinset := by
    intro w inside
    have listed := List.mem_map_of_mem (f := fun w : Written => (w.bucketId, w.amount)) inside
    rw [recomputeCovered, buckets] at listed
    obtain ⟨other, within, same⟩ := List.mem_map.mp listed
    exact List.mem_toFinset.mpr (List.mem_map.mpr ⟨other, within, congrArg Prod.fst same⟩)
  have amounts : (recomputeCovered holdings written).map (·.amount) = written.map (·.amount) := by
    have seconds := congrArg (List.map Prod.snd) buckets
    rwa [List.map_map, List.map_map] at seconds
  have small : ((recomputeCovered holdings written).map Written.naked).sum < 2 ^ 64 := by
    have parts : ((recomputeCovered holdings written).map Written.naked).sum +
        ((recomputeCovered holdings written).map (·.covered)).sum =
          ((recomputeCovered holdings written).map (·.amount)).sum := naked_sum fun w inside => coverLines_le inside
    have total := fit.written
    rw [amounts] at parts
    omega
  rw [nakedWrittenUnits, foldl_wrappingAdd (by omega), Nat.zero_add, sum_by_bucket Written.naked known]
  exact Finset.sum_congr rfl fun bucket _ => naked_of_bucket written (fit.held bucket)

-- Seven units in three places cover the first line of their bucket in full and the second in part.
theorem covered_netted_partial :
    let holdings : List Holding := [⟨1, 3, 2, [1, 1]⟩]
    let written : List Written := [⟨1, 5, 0⟩, ⟨2, 4, 0⟩, ⟨1, 6, 0⟩]
    (recomputeCovered holdings written).map (·.covered) = [5, 0, 2] ∧ nakedWrittenUnits (recomputeCovered holdings written) = 8 := by
  intro holdings written
  have fit : UnitsFit holdings written := by
    refine ⟨fun bucket => ?_, by decide⟩
    have none : heldUnits [] bucket = 0 := rfl
    rw [heldUnits_cons, none]
    split <;> decide
  obtain ⟨-, covered, -, naked⟩ := covered_netted holdings written fit
  refine ⟨by decide +kernel, naked.trans ?_⟩
  decide

end SuiOptions.DeskCore
