import SuiOptions.Core.CallInvariant
import Mathlib.Order.Bounds.Basic

/-! What `exercise` of a call bucket does, by counting.

The units at or after the cursor that are no tombstone are the ones left to
exercise. A call that is otherwise in order succeeds exactly when the first of
them, as many as it exercises, belong to no spread; the cursor then stops behind
the last of them, and behind the tombstones it meets there.
-/

set_option autoImplicit false

namespace SuiOptions.Core

open Execution Move Ranges

namespace Queue

def Standing (q : Queue) (unit : Nat) : Prop := ∀ r ∈ q.closed, ¬ r.Has unit

instance (q : Queue) : DecidablePred q.Standing := fun unit => inferInstanceAs (Decidable (∀ r ∈ q.closed, ¬ r.Has unit))

/-- How many standing units lie between the cursor and a position. -/
def standing (q : Queue) (stop : Nat) : Nat := ((Finset.Ico q.exerciseCursor stop).filter q.Standing).card

/-- One of the first `amount` standing units at or after the cursor. -/
def Front (q : Queue) (amount unit : Nat) : Prop :=
  q.exerciseCursor ≤ unit ∧ q.Standing unit ∧ q.standing unit < amount

/-- The position that `amount` units lead to: the least one with so many standing units
behind it, moved on over the tombstones it touches. -/
def Lands (q : Queue) (amount cursor : Nat) : Prop :=
  ∃ p, IsLeast {p | q.exerciseCursor ≤ p ∧ q.standing p = amount} p ∧ IsLeast {unit | p ≤ unit ∧ q.Standing unit} cursor

section Counting

variable {q : Queue} {amount unit stop later : Nat}

theorem standing_mono (grown : stop ≤ later) : q.standing stop ≤ q.standing later :=
  Finset.card_le_card (Finset.filter_subset_filter _ (Finset.Ico_subset_Ico_right grown))

theorem standing_lt (ahead : q.exerciseCursor ≤ unit) (stands : q.Standing unit) (passed : unit < later) :
    q.standing unit < q.standing later := by
  apply Finset.card_lt_card
  rw [Finset.ssubset_iff_of_subset (Finset.filter_subset_filter _ (Finset.Ico_subset_Ico_right (Nat.le_of_lt passed)))]
  refine ⟨unit, ?_, ?_⟩
  · exact Finset.mem_filter.mpr ⟨Finset.mem_Ico.mpr ⟨ahead, passed⟩, stands⟩
  · intro inside
    have before := Finset.mem_Ico.mp (Finset.mem_filter.mp inside).1
    exact Nat.lt_irrefl unit before.2

theorem standing_add_within (sorted : Ordered q.closed) (stop : Nat) :
    q.standing stop + within q.closed q.exerciseCursor stop = stop - q.exerciseCursor := by
  have each : ∀ unit ∈ Finset.Ico q.exerciseCursor stop, (if q.Standing unit then 1 else 0) + cover q.closed unit = 1 := by
    intro unit _
    have once := sorted.cover_le_one unit
    by_cases stands : q.Standing unit
    · rw [if_pos stands, cover_eq_zero.mpr stands]
    · have covered : cover q.closed unit ≠ 0 := fun none => stands (cover_eq_zero.mp none)
      rw [if_neg stands]
      omega
  rw [standing, Finset.card_filter, within_eq_sum, ← Finset.sum_add_distrib, Finset.sum_congr rfl each,
    Finset.sum_const, Nat.card_Ico, smul_eq_mul, Nat.mul_one]

end Counting

section Walking

variable {q : Queue} {final : Walk} {dropped : List Range} {amount : Nat}

theorem standing_of_walked (walked : Walked q.spreads amount q.walk final dropped) (sorted : Ordered q.closed) :
    q.standing final.cur = amount := by
  have count := standing_add_within sorted final.cur
  have crossed : within dropped q.exerciseCursor final.cur = size dropped := within_eq_size walked.inside
  have ahead : within final.closed q.exerciseCursor final.cur = 0 := by
    rw [within_low (by rw [walked.cur_eq]; simp only [Queue.walk]; omega) walked.ready.ahead]
    exact within_eq_zero fun point low high => absurd high (Nat.not_lt.mpr low)
  have parts : q.closed = dropped ++ final.closed := walked.closed_eq
  have cursor : final.cur = q.exerciseCursor + amount + size dropped := walked.cur_eq
  rw [parts, within_append, crossed, ahead] at count
  omega

theorem lands_of_walked (walked : Walked q.spreads amount q.walk final dropped) (sorted : Ordered q.closed)
    (flushed : ∀ r ∈ final.closed, final.cur < r.start) : q.Lands amount final.cur := by
  have counted := standing_of_walked walked sorted
  have cursor : final.cur = q.exerciseCursor + amount + size dropped := walked.cur_eq
  have parts : q.closed = dropped ++ final.closed := walked.closed_eq
  have exact : ∃ p, q.exerciseCursor ≤ p ∧ q.standing p = amount := ⟨final.cur, by omega, counted⟩
  have least : IsLeast {p | q.exerciseCursor ≤ p ∧ q.standing p = amount} (Nat.find exact) :=
    ⟨Nat.find_spec exact, fun p holds => Nat.find_min' exact holds⟩
  refine ⟨Nat.find exact, least, ⟨least.2 ⟨by omega, counted⟩, ?_⟩, ?_⟩
  · intro r member has
    rw [parts] at member
    rcases List.mem_append.mp member with early | late
    · exact Nat.not_lt.mpr (walked.inside r early).2 has.2
    · exact Nat.not_lt.mpr has.1 (flushed r late)
  · -- A standing unit between the two would count a second time.
    rintro unit ⟨behind, stands⟩
    by_contra before
    have more := standing_lt (le_trans least.1.1 behind) stands (Nat.not_le.mp before)
    have enough : q.standing _ ≤ q.standing unit := standing_mono behind
    have reached := least.1.2
    omega

theorem closed_of_walked (walked : Walked q.spreads amount q.walk final dropped) (sorted : Ordered q.closed) :
    final.closed = q.closed.filter fun r => final.cur ≤ r.start := by
  have parts : q.closed = dropped ++ final.closed := walked.closed_eq
  have gone : dropped.filter (fun r => decide (final.cur ≤ r.start)) = [] := by
    rw [List.filter_eq_nil_iff]
    intro r member
    have proper := sorted.nonempty r (by rw [parts]; exact List.mem_append_left _ member)
    have inside := (walked.inside r member).2
    simp only [decide_eq_true_eq]
    omega
  have kept : final.closed.filter (fun r => decide (final.cur ≤ r.start)) = final.closed :=
    List.filter_eq_self.mpr fun r member => decide_eq_true (walked.ready.ahead r member)
  rw [parts, List.filter_append, gone, kept, List.nil_append]

end Walking

end Queue

section Progress

variable {spreads : List Range} {total : Nat} {nextSpread : Nat → Nat} {blocked : Error}

/-- Every iteration removes a tombstone or lowers the units left, so that the loop ends, at the units
asked for or at a spread. -/
theorem advanceLoop_ends {fuel remaining : Nat} {walk : Walk} (ready : Ready spreads walk)
    (enough : size walk.closed ≤ walk.pending) (limit : ∀ cur, nextSpread cur ≤ total)
    (fueled : remaining + walk.closed.length < fuel) :
    (∃ final, advanceLoop total nextSpread blocked fuel remaining walk = .ok final) ∨
      advanceLoop total nextSpread blocked fuel remaining walk = .error (.code blocked) := by
  -- each round spends a unit that is left or a tombstone
  induction fuel generalizing remaining walk with
  | zero => omega
  | succ fuel ih =>
    obtain ⟨cur, closed, pending⟩ := walk
    simp only at enough fueled
    simp only [advanceLoop]
    by_cases done : remaining = 0
    · exact Or.inl ⟨_, if_pos done⟩
    rw [if_neg done]
    cases found : popAt cur closed with
    | some pair =>
      -- a tombstone at the cursor is skipped
      obtain ⟨r, rest⟩ := pair
      obtain ⟨listed, here⟩ := popAt_some.mp found
      subst listed
      have proper := ready.separated.nonempty r (by simp)
      simp only [size_cons, List.length_cons] at enough fueled
      have skipped : skip ⟨cur, r :: rest, pending⟩ r rest = .ok ⟨r.stop, rest, pending - r.size⟩ :=
        skip_ok.mpr ⟨Nat.le_of_lt proper, by simp only; omega, rfl⟩
      simp only [skipped, bind, Except.bind]
      apply ih (ready.tail _)
      · simp only; omega
      · simp only; omega
    | none =>
      -- before the next spread the cursor steps, at the spread it is refused
      by_cases clear : cur < nextSpread cur
      · have away := popAt_none found ready.ahead
        have room := limit cur
        have limitClosed : cur < nextClosed total closed := by
          cases closed with
          | nil => simp only [nextClosed]; omega
          | cons s rest => exact away s (by simp)
        have stepped : advanceStep blocked (nextClosed total closed) (nextSpread cur) remaining cur =
            .ok (remaining - min remaining (min (nextClosed total closed) (nextSpread cur) - cur),
              cur + min remaining (min (nextClosed total closed) (nextSpread cur) - cur)) :=
          advanceStep_ok.mpr ⟨clear, Nat.le_of_lt limitClosed, rfl, rfl⟩
        simp only [stepped, bind, Except.bind]
        refine ih ⟨ready.separated, ?_, ready.apart⟩ enough ?_
        · intro r member
          cases closed with
          | nil => cases member
          | cons s rest =>
            simp only [nextClosed] at limitClosed ⊢
            rcases List.mem_cons.mp member with same | member
            · rw [same]; omega
            · have := (List.pairwise_cons.mp ready.separated.ascending).1 r member
              have := ready.separated.nonempty s (by simp)
              omega
        · simp only; omega
      · right
        simp only [advanceStep]
        rw [show check (cur < nextSpread cur) blocked = .error (.code blocked) from check_error.mpr ⟨clear, rfl⟩]
        rfl

theorem Queue.advanceCursor_ends {q : Queue} {amount : Nat} (ready : Ready q.spreads q.walk)
    (bounding : Bounding q.spreads nextSpread) (enough : size q.closed = q.closedPending)
    (limit : ∀ cur, nextSpread cur ≤ q.totalWritten) :
    (∃ final, q.advanceCursor nextSpread blocked amount = .ok final) ∨
      q.advanceCursor nextSpread blocked amount = .error (.code blocked) := by
  have loop : (∃ walked, advanceLoop q.totalWritten nextSpread blocked (amount + q.closed.length + 1) amount q.walk =
      .ok walked) ∨
      advanceLoop q.totalWritten nextSpread blocked (amount + q.closed.length + 1) amount q.walk = .error (.code blocked) :=
    advanceLoop_ends ready (le_of_eq enough) limit (Nat.lt_succ_self _)
  rcases loop with ⟨walked, looped⟩ | stuck
  · left
    obtain ⟨dropped, first⟩ := advanceLoop_walked ready bounding looped
    have sizes : size walked.closed ≤ walked.pending := by
      have closed := congrArg size first.closed_eq
      have pending := first.pending_eq
      simp only [Queue.walk, size_append] at closed pending
      omega
    obtain ⟨final, flushed⟩ : ∃ final, flush walked.cur walked.closed walked.pending = .ok final :=
      flush_succeeds first.ready.separated.nonempty sizes
    exact ⟨q.withWalk final, bind_ok.mpr ⟨walked, looped, bind_ok.mpr ⟨final, flushed, rfl⟩⟩⟩
  · right
    rw [Queue.advanceCursor, stuck]
    rfl

end Progress

theorem Sound.nextSpread_le {q : Queue} {others : List Range} (sound : Sound q others) (cur : Nat) :
    q.nextSpread cur ≤ q.totalWritten := by
  unfold Queue.nextSpread
  split
  · exact le_refl _
  · next s rest listed =>
    have member : s ∈ q.spreads := by rw [listed]; exact List.mem_cons_self
    have proper := sound.spreadsOrdered.nonempty s member
    have bound := sound.spread_stop_le member
    omega

/-- Tombstones do not reach over the first spread. -/
theorem Sound.closed_beside {q : Queue} {others : List Range} (sound : Sound q others) {r : Range} (member : r ∈ q.closed) :
    r.stop ≤ q.nextSpread 0 ∨ q.nextSpread 0 ≤ r.start := by
  unfold Queue.nextSpread
  split
  · exact Or.inl (sound.closed_stop_le member)
  · next s rest listed =>
    have spread : s ∈ q.spreads := by rw [listed]; exact List.mem_cons_self
    have proper := sound.spreadsOrdered.nonempty s spread
    have apart := sound.closed_spread member spread
    omega

/-- Where the first units lie in no spread, they fit before the next one. -/
theorem Sound.room_of_front {q : Queue} {others : List Range} (sound : Sound q others)
    (spreadsAhead : ∀ s ∈ q.spreads, q.exerciseCursor ≤ s.start) {amount : Nat}
    (capacity : q.exerciseCursor + amount + q.closedPending ≤ q.totalWritten)
    (clear : ∀ unit, q.Front amount unit → ∀ s ∈ q.spreads, ¬ s.Has unit) :
    amount + within q.closed q.exerciseCursor (q.nextSpread 0) ≤
      q.nextSpread 0 - q.exerciseCursor := by
  have count := q.standing_add_within sound.closedSeparated.ordered
  cases listed : q.spreads with
  | nil =>
    have total : q.nextSpread 0 = q.totalWritten := by simp only [Queue.nextSpread, listed]
    have pending : within q.closed q.exerciseCursor q.totalWritten = q.closedPending := by
      rw [within_eq_size fun r member => ⟨sound.closedAhead r member, sound.closed_stop_le member⟩, sound.closedSize]
    rw [total, pending]
    omega
  | cons s rest =>
    have first : q.nextSpread 0 = s.start := by simp only [Queue.nextSpread, listed]
    have member : s ∈ q.spreads := by rw [listed]; exact List.mem_cons_self
    have proper := sound.spreadsOrdered.nonempty s member
    have stands : q.Standing s.start := by
      intro r closed has
      have apart := sound.closed_spread closed member
      simp only [Range.Has] at has
      omega
    have behind : ¬ q.standing s.start < amount := fun early =>
      clear s.start ⟨spreadsAhead s member, stands, early⟩ s member ⟨le_refl _, proper⟩
    have here := count s.start
    rw [first]
    omega

namespace Bucket.Backed

variable {ι : Type} {now amount payment : Nat} {b next : Bucket ι} {plain retired : List Range}

theorem exercise_of_advanced (backed : b.Backed now plain retired) (live : now < b.expiryMs) (positive : 0 < amount)
    (enough : amount ≤ b.supply) (priced : b.requiredSettlement amount = .ok payment) {walked : Queue}
    (advanced : b.toQueue.advanceCursor b.toQueue.nextSpread .spreadUnwindRequired amount = .ok walked) :
    ∃ next, b.exercise now amount payment = .ok next := by
  have supplied := backed.supply live
  have small := backed.bounded
  have capacity : b.exerciseCursor + amount + b.closedPending ≤ b.totalWritten := by omega
  obtain ⟨final, dropped, rfl, walk, _⟩ :=
    Queue.advanceCursor_walked backed.sound.ready (Queue.nextSpread_bounding backed.sound.spreadsOrdered) advanced
  have units := backed.sound.walked_units (backed.behind live) walk capacity
  have limit : final.cur ≤ b.totalWritten := (backed.sound.advance walk capacity).cursorBound
  have moved : final.cur = b.exerciseCursor + amount + size dropped := walk.cur_eq
  have split := within_split plain (by omega : b.exerciseCursor ≤ final.cur) limit
  have held := backed.underlying
  exact ⟨_, exercise_ok.mpr ⟨live, positive, priced, by omega, capacity, enough, _, advanced, by omega, rfl⟩⟩

/-- Nothing but a spread stops an exercise that is paid for. -/
theorem exercise_ends (backed : b.Backed now plain retired) (live : now < b.expiryMs) (positive : 0 < amount)
    (enough : amount ≤ b.supply) (priced : b.requiredSettlement amount = .ok payment) :
    (∃ next, b.exercise now amount payment = .ok next) ∨
      b.exercise now amount payment = .error (.code .spreadUnwindRequired) := by
  have supplied := backed.supply live
  have small := backed.bounded
  have bounding := Queue.nextSpread_bounding backed.sound.spreadsOrdered
  rcases Queue.advanceCursor_ends backed.sound.ready bounding backed.sound.closedSize backed.sound.nextSpread_le with
    ⟨walked, advanced⟩ | stuck
  · exact Or.inl (backed.exercise_of_advanced live positive enough priced advanced)
  · right
    have paid : check True Error.settlementAmountMismatch = .ok () := check_of trivial
    have first : addU128 b.exerciseCursor amount = (.ok (b.exerciseCursor + amount) : Result Error Nat) :=
      fit_of (by omega)
    have second : addU128 (b.exerciseCursor + amount) b.closedPending =
        (.ok (b.exerciseCursor + amount + b.closedPending) : Result Error Nat) := fit_of (by omega)
    have room : check (b.exerciseCursor + amount + b.closedPending ≤ b.totalWritten) Error.cursorOverflow = .ok () :=
      check_of (by omega)
    have burned : b.burn amount = .ok { b with supply := b.supply - amount } := burn_ok.mpr ⟨enough, rfl⟩
    simp only [Bucket.exercise, check_of live, check_of positive, priced, paid, first, second, room, burned, stuck, bind,
      Except.bind]

/-- A paid exercise of up to the supply succeeds exactly when the first units ahead lie in no spread. It then
lands behind them, and keeps the tombstones at or after the new cursor. Otherwise it asks for an unwind. -/
theorem exercise_iff_front (backed : b.Backed now plain retired) (live : now < b.expiryMs) (positive : 0 < amount)
    (enough : amount ≤ b.supply) (priced : b.requiredSettlement amount = .ok payment) :
    ((∃ next, b.exercise now amount payment = .ok next) ↔
        ∀ unit, b.toQueue.Front amount unit → ∀ s ∈ b.spreads, ¬ s.Has unit) ∧
      (∀ next, b.exercise now amount payment = .ok next →
        b.toQueue.Lands amount next.exerciseCursor ∧
          next.closed = b.closed.filter fun r => next.exerciseCursor ≤ r.start) ∧
      ∀ why, b.exercise now amount payment = .error why → why = .code .spreadUnwindRequired := by
  have sorted := backed.sound.closedSeparated.ordered
  have bounding := Queue.nextSpread_bounding backed.sound.spreadsOrdered
  have walks : ∀ next, b.exercise now amount payment = .ok next → ∃ final dropped,
      next.exerciseCursor = final.cur ∧ next.closed = final.closed ∧
        Walked b.spreads amount b.toQueue.walk final dropped ∧ ∀ r ∈ final.closed, final.cur < r.start := by
    intro next ran
    obtain ⟨_, _, _, _, _, _, walked, advanced, _, rfl⟩ := Bucket.exercise_ok.mp ran
    obtain ⟨final, dropped, rfl, walk, flushed⟩ := Queue.advanceCursor_walked backed.sound.ready bounding advanced
    exact ⟨final, dropped, rfl, rfl, walk, flushed⟩
  refine ⟨⟨?_, ?_⟩, ?_, ?_⟩
  · rintro ⟨next, ran⟩ unit ⟨ahead, _, early⟩ s member
    obtain ⟨final, dropped, _, _, walk, _⟩ := walks next ran
    have counted := Queue.standing_of_walked walk sorted
    refine walk.clear s member unit ahead ?_
    by_contra beyond
    have grown := b.toQueue.standing_mono (Nat.not_lt.mp beyond)
    omega
  · intro clear
    have supplied := backed.supply live
    have room := backed.sound.room_of_front backed.spreadsAhead (by omega) clear
    obtain ⟨walked, advanced⟩ :
        ∃ walked, b.toQueue.advanceCursor b.toQueue.nextSpread .spreadUnwindRequired amount = .ok walked :=
      Queue.advanceCursor_succeeds backed.sound.ready bounding backed.sound.closedSize (backed.sound.nextSpread_le 0)
        (fun cur _ _ => rfl) (fun r member => backed.sound.closed_beside member) (fun _ => room)
    exact backed.exercise_of_advanced live positive enough priced advanced
  · intro next ran
    obtain ⟨final, dropped, cursor, closed, walk, flushed⟩ := walks next ran
    rw [cursor, closed]
    exact ⟨Queue.lands_of_walked walk sorted flushed, Queue.closed_of_walked walk sorted⟩
  · intro why failed
    rcases backed.exercise_ends live positive enough priced with ⟨next, ran⟩ | stopped
    · rw [ran] at failed
      cases failed
    · rw [stopped] at failed
      cases failed
      rfl

end Bucket.Backed

/-- Four units from a queue of two, a tombstone of three, five more and a spread. -/
theorem Bucket.Backed.exercise_over_tombstone :
    ∃ s, exec callStep (CallSystem.create 0 (fun high : Bool => ⟨100, if high then 20 else 15, 1⟩))
        [.write true 5, .closeOffset true ⟨true, ⟨0, 5⟩⟩ 3, .write true 5, .write false 10,
          .writeSpread true true false 3 5] = .ok s ∧
      ∃ next, (s.buckets true).exercise s.now 4 8 = .ok next ∧
        (s.buckets true).toQueue.Lands 4 next.exerciseCursor ∧
        next.closed = (s.buckets true).closed.filter fun r => next.exerciseCursor ≤ r.start := by
  refine exists_ok (fun s => decide (s.now < (s.buckets true).expiryMs ∧ 4 ≤ (s.buckets true).supply) &&
    (decide (((s.buckets true).requiredSettlement 4).toOption = some 8) &&
      ((s.buckets true).exercise s.now 4 8).toOption.isSome)) (by decide +kernel) ?_
  intro s ran passed
  simp only [Bool.and_eq_true, decide_eq_true_eq] at passed
  obtain ⟨⟨live, enough⟩, priced, runs⟩ := passed
  obtain ⟨_, held⟩ :=
    CallSystem.held_of_run (fun _ _ => True) (fun _ => trivial) (fun _ _ _ _ _ _ _ _ _ _ => trivial) ran true
  obtain ⟨_, backed, _⟩ := held
  obtain ⟨next, exercised⟩ := toOption_isSome.mp runs
  exact ⟨next, exercised,
    (backed.exercise_iff_front live (by decide) enough (toOption_eq_some.mp priced)).2.1 next exercised⟩

end SuiOptions.Core
