import SuiOptions.Core.Ledger

/-! The invariant of the write queue, and what each queue operation does to it.

Every written unit is in exactly one of the spread ranges, the tombstones and
the other ranges (plain positions and retired ones). The operations move ranges
between these lists; the lemmas below say so in terms of `cover`, and both
bucket modules derive their own invariants from them.
-/

set_option autoImplicit false

namespace SuiOptions.Core

open Execution Move Ranges

structure Sound (q : Queue) (others : List Range) : Prop where
  partition : ∀ point, cover others point + cover q.spreads point + cover q.closed point =
    if point < q.totalWritten then 1 else 0
  closedSeparated : Separated q.closed
  closedAhead : ∀ r ∈ q.closed, q.exerciseCursor ≤ r.start
  closedSize : size q.closed = q.closedPending
  spreadsOrdered : Ordered q.spreads
  cursorBound : q.exerciseCursor ≤ q.totalWritten

variable {q : Queue} {others : List Range}

theorem Sound.congr (sound : Sound q others) {more : List Range}
    (same : ∀ point, cover others point = cover more point) : Sound q more where
  partition := fun point => by rw [← same]; exact sound.partition point
  closedSeparated := sound.closedSeparated
  closedAhead := sound.closedAhead
  closedSize := sound.closedSize
  spreadsOrdered := sound.spreadsOrdered
  cursorBound := sound.cursorBound

theorem Sound.cover_le_one (sound : Sound q others) (point : Nat) :
    cover others point + cover q.spreads point + cover q.closed point ≤ 1 := by
  rw [sound.partition point]
  split <;> omega

theorem Sound.covered_lt (sound : Sound q others) {point : Nat}
    (covered : 0 < cover others point + cover q.spreads point + cover q.closed point) :
    point < q.totalWritten := by
  rw [sound.partition point] at covered
  split at covered
  · assumption
  · omega

/-- Ranges without a common point lie one after the other. -/
theorem beside_of_disjoint {r s : Range} (left : r.start < r.stop) (right : s.start < s.stop)
    (disjoint : ∀ point, r.Has point → ¬ s.Has point) : r.stop ≤ s.start ∨ s.stop ≤ r.start := by
  by_contra neither
  have here : r.Has (max r.start s.start) := ⟨le_max_left _ _, by omega⟩
  exact disjoint _ here ⟨le_max_right _ _, by omega⟩

theorem Sound.closed_stop_le (sound : Sound q others) {r : Range} (member : r ∈ q.closed) :
    r.stop ≤ q.totalWritten := by
  have proper := sound.closedSeparated.nonempty r member
  have covered := cover_pos member (⟨by omega, by omega⟩ : r.Has (r.stop - 1))
  have := sound.covered_lt (by omega : 0 < cover others (r.stop - 1) + _ + _)
  omega

theorem Sound.spread_stop_le (sound : Sound q others) {s : Range} (member : s ∈ q.spreads) :
    s.stop ≤ q.totalWritten := by
  have proper := sound.spreadsOrdered.nonempty s member
  have covered := cover_pos member (⟨by omega, by omega⟩ : s.Has (s.stop - 1))
  have := sound.covered_lt (by omega : 0 < cover others (s.stop - 1) + _ + _)
  omega

theorem Sound.other_stop_le (sound : Sound q others) {r : Range} (member : r ∈ others)
    (proper : r.start < r.stop) : r.stop ≤ q.totalWritten := by
  have covered := cover_pos member (⟨by omega, by omega⟩ : r.Has (r.stop - 1))
  have := sound.covered_lt (by omega : 0 < cover others (r.stop - 1) + _ + _)
  omega

theorem Sound.closed_spread (sound : Sound q others) {r s : Range} (closed : r ∈ q.closed)
    (spread : s ∈ q.spreads) : r.stop ≤ s.start ∨ s.stop ≤ r.start := by
  apply beside_of_disjoint (sound.closedSeparated.nonempty r closed) (sound.spreadsOrdered.nonempty s spread)
  intro point left right
  have := cover_pos closed left
  have := cover_pos spread right
  have := sound.cover_le_one point
  omega

theorem Sound.ready (sound : Sound q others) : Ready q.spreads q.walk where
  separated := sound.closedSeparated
  ahead := sound.closedAhead
  apart := fun _ closed _ spread => sound.closed_spread closed spread

theorem Sound.other_not_spread (sound : Sound q others) {r s : Range} (member : r ∈ others)
    (spread : s ∈ q.spreads) : r ≠ s := by
  intro same
  subst same
  have proper := sound.spreadsOrdered.nonempty r spread
  have here : r.Has r.start := ⟨le_refl _, proper⟩
  have := cover_pos member here
  have := cover_pos spread here
  have := sound.cover_le_one r.start
  omega

section Writing

theorem Sound.unwritten (sound : Sound q others) {point : Nat} (beyond : q.totalWritten ≤ point) :
    cover others point = 0 ∧ cover q.spreads point = 0 ∧ cover q.closed point = 0 := by
  have total := sound.partition point
  rw [if_neg (by omega)] at total
  omega

/-- What is not written yet does not count. -/
theorem Sound.within_extend {plain retired : List Range} (sound : Sound q (plain ++ retired)) (amount : Nat) :
    within plain q.exerciseCursor (q.totalWritten + amount) = within plain q.exerciseCursor q.totalWritten := by
  have split := within_split plain sound.cursorBound (Nat.le_add_right q.totalWritten amount)
  have unwritten : within plain q.totalWritten (q.totalWritten + amount) = 0 := by
    apply within_eq_zero
    intro point low _
    have := (sound.unwritten low).1
    simp only [cover_append] at this
    omega
  omega

theorem cover_written {total amount point : Nat} :
    (if point < total then 1 else 0) + cover [⟨total, total + amount⟩] point =
      if point < total + amount then 1 else 0 := by
  rw [cover_singleton]
  split_ifs <;> simp only [Range.Has] at * <;> omega

theorem Sound.extend (sound : Sound q others) (amount : Nat) :
    Sound { q with totalWritten := q.totalWritten + amount }
      (⟨q.totalWritten, q.totalWritten + amount⟩ :: others) where
  partition := by
    intro point
    have total := sound.partition point
    have written := @cover_written q.totalWritten amount point
    simp only [cover_cons, cover_nil] at written ⊢
    omega
  closedSeparated := sound.closedSeparated
  closedAhead := sound.closedAhead
  closedSize := sound.closedSize
  spreadsOrdered := sound.spreadsOrdered
  cursorBound := le_trans sound.cursorBound (Nat.le_add_right _ _)

theorem Sound.extendSpread (sound : Sound q others) {amount : Nat} (positive : 0 < amount) :
    Sound { q with totalWritten := q.totalWritten + amount
                   spreads := q.spreads ++ [⟨q.totalWritten, q.totalWritten + amount⟩] } others where
  partition := by
    intro point
    have total := sound.partition point
    have written := @cover_written q.totalWritten amount point
    simp only [cover_append]
    omega
  closedSeparated := sound.closedSeparated
  closedAhead := sound.closedAhead
  closedSize := sound.closedSize
  spreadsOrdered := sound.spreadsOrdered.concat (by simp only; omega) (fun _ member => sound.spread_stop_le member)
  cursorBound := le_trans sound.cursorBound (Nat.le_add_right _ _)

end Writing

section Closing

theorem Queue.insertClosed_ok {q next : Queue} {start stop : Nat} :
    q.insertClosed start stop = .ok next ↔ start ≤ stop ∧ q.closedPending + (stop - start) < u128Bound ∧
      next = { q with closed := insertRange q.closed start stop
                      closedPending := q.closedPending + (stop - start) } := by
  simp only [Queue.insertClosed, bind_ok, sub_ok, addU128, fit_ok, pure_ok]
  constructor
  · rintro ⟨_, ⟨proper, rfl⟩, _, ⟨small, rfl⟩, rfl⟩
    exact ⟨proper, small, rfl⟩
  · rintro ⟨proper, small, rfl⟩
    exact ⟨_, ⟨proper, rfl⟩, _, ⟨small, rfl⟩, rfl⟩

theorem Sound.tombstone (sound : Sound q others) {left : List Range} {start stop : Nat}
    (taken : ∀ point, cover others point = cover left point + cover [⟨start, stop⟩] point)
    (proper : start < stop) (unpassed : q.exerciseCursor ≤ start) :
    Sound { q with closed := insertRange q.closed start stop
                   closedPending := q.closedPending + (stop - start) } left := by
  have disjoint : ∀ r ∈ q.closed, r.stop ≤ start ∨ stop ≤ r.start := by
    intro r member
    refine beside_of_disjoint (s := ⟨start, stop⟩) (sound.closedSeparated.nonempty r member) proper ?_
    intro point held inside
    have := cover_pos member held
    have := cover_pos (List.mem_singleton.mpr rfl) inside
    have := taken point
    have := sound.cover_le_one point
    omega
  have inserted := insertRange_spec sound.closedSeparated proper disjoint
  refine ⟨?_, inserted.separated, ?_, ?_, sound.spreadsOrdered, sound.cursorBound⟩
  · intro point
    have total := sound.partition point
    have := taken point
    have := inserted.cover_eq point
    simp only
    omega
  · exact inserted.bounded q.exerciseCursor sound.closedAhead unpassed
  · have := sound.closedSize
    have := inserted.size_eq
    simp only [Range.size] at this ⊢
    omega

end Closing

section Spreads

theorem Queue.findSpread_ok {q : Queue} {start : Nat} {s : Range} (found : q.findSpread start = .ok s) :
    s ∈ q.spreads ∧ s.start = start := by
  have some := need_ok.mp found
  exact ⟨List.mem_of_find?_eq_some some, by simpa using List.find?_some some⟩

theorem Queue.findSpread_of {q : Queue} {s : Range} (sorted : Ordered q.spreads) (member : s ∈ q.spreads) :
    q.findSpread s.start = .ok s := by
  refine need_ok.mpr ?_
  cases found : q.spreads.find? (fun r => r.start == s.start) with
  | none =>
    have := List.find?_eq_none.mp found s member
    simp at this
  | some r =>
    have same : r.start = s.start := by simpa using List.find?_some found
    rw [sorted.eq_of_start (List.mem_of_find?_eq_some found) member same]

theorem Queue.findSpreadExact_ok {q : Queue} {start stop : Nat} {s : Range} :
    q.findSpreadExact start stop = .ok s → s ∈ q.spreads ∧ s = ⟨start, stop⟩ := by
  intro ran
  obtain ⟨found, searched, ran⟩ := bind_ok.mp ran
  obtain ⟨same, rfl⟩ := check_pure_ok.mp ran
  obtain ⟨member, begins⟩ := Queue.findSpread_ok searched
  refine ⟨member, ?_⟩
  cases s
  simp only at same begins
  rw [same, begins]

theorem Queue.overlapsSpread_false {q : Queue} {start stop : Nat} :
    q.overlapsSpread start stop = false ↔ ∀ s ∈ q.spreads, stop ≤ s.start ∨ s.stop ≤ start := by
  simp only [Queue.overlapsSpread, List.any_eq_false, Bool.and_eq_true, decide_eq_true_eq, not_and, not_lt]
  constructor
  · intro clear s member
    by_cases before : s.start < stop
    · exact Or.inr (clear s member before)
    · exact Or.inl (by omega)
  · intro clear s member before
    rcases clear s member with low | high
    · omega
    · exact high

theorem eraseP_start {spreads : List Range} {s : Range} (sorted : Ordered spreads) (member : s ∈ spreads) :
    spreads.Perm (s :: spreads.eraseP (fun r => r.start == s.start)) := by
  obtain ⟨r, left, right, _, begins, whole, erased⟩ :=
    List.exists_of_eraseP (p := fun r => r.start == s.start) member (by simp)
  have same : r = s := by
    apply sorted.eq_of_start _ member (by simpa using begins)
    rw [whole]; simp
  subst same
  rw [erased, whole]
  exact List.perm_middle

theorem Sound.releaseSpread (sound : Sound q others) {s : Range} (member : s ∈ q.spreads) :
    Sound (q.removeSpread s.start) (s :: others) where
  partition := by
    intro point
    have total := sound.partition point
    have parts := cover_perm (eraseP_start sound.spreadsOrdered member) point
    simp only [cover_cons] at parts
    change _ = if point < q.totalWritten then 1 else 0
    simp only [Queue.removeSpread, cover_cons]
    omega
  closedSeparated := sound.closedSeparated
  closedAhead := sound.closedAhead
  closedSize := sound.closedSize
  spreadsOrdered := sound.spreadsOrdered.sublist List.eraseP_sublist
  cursorBound := sound.cursorBound

end Spreads

section Escrows

variable {ι : Type} {spreads : List Range} {escrows : Nat → Option (SpreadEscrow ι)} {units : Range → Nat}

/-- Every spread has one escrow, with the given number of long units, and there are no others. -/
structure Escrowed (spreads : List Range) (escrows : Nat → Option (SpreadEscrow ι)) (units : Range → Nat) :
    Prop where
  held : ∀ s ∈ spreads, ∃ escrow, escrows s.start = some escrow ∧ escrow.long = units s
  only : ∀ start escrow, escrows start = some escrow → ∃ s ∈ spreads, s.start = start

theorem Escrowed.congr (escrowed : Escrowed spreads escrows units) {more : Range → Nat}
    (same : ∀ s ∈ spreads, units s = more s) : Escrowed spreads escrows more where
  held := by
    intro s member
    obtain ⟨escrow, found, long⟩ := escrowed.held s member
    exact ⟨escrow, found, by rw [long, same s member]⟩
  only := escrowed.only

theorem Escrowed.add (escrowed : Escrowed spreads escrows units) {s : Range} {escrow : SpreadEscrow ι}
    (free : escrows s.start = none) (long : escrow.long = units s) :
    Escrowed (spreads ++ [s]) (Function.update escrows s.start (some escrow)) units where
  held := by
    intro r member
    rcases List.mem_append.mp member with member | member
    · obtain ⟨old, found, holds⟩ := escrowed.held r member
      have apart : r.start ≠ s.start := by
        intro same
        rw [same, free] at found
        cases found
      exact ⟨old, by rw [Function.update_of_ne apart, found], holds⟩
    · rw [List.mem_singleton.mp member]
      exact ⟨escrow, Function.update_self .., long⟩
  only := by
    intro start found listed
    by_cases here : start = s.start
    · exact ⟨s, by simp, here.symm⟩
    · rw [Function.update_of_ne here] at listed
      obtain ⟨r, member, begins⟩ := escrowed.only start found listed
      exact ⟨r, List.mem_append_left _ member, begins⟩

theorem Escrowed.replace (escrowed : Escrowed spreads escrows units) (sorted : Ordered spreads) {s : Range}
    (member : s ∈ spreads) {escrow : SpreadEscrow ι} {more : Range → Nat} (long : escrow.long = more s)
    (others : ∀ r ∈ spreads, r ≠ s → units r = more r) :
    Escrowed spreads (Function.update escrows s.start (some escrow)) more where
  held := by
    intro r listed
    by_cases same : r = s
    · rw [same]
      exact ⟨escrow, Function.update_self .., long⟩
    · obtain ⟨old, found, holds⟩ := escrowed.held r listed
      have apart : r.start ≠ s.start := fun begins => same (sorted.eq_of_start listed member begins)
      exact ⟨old, by rw [Function.update_of_ne apart, found], by rw [holds, others r listed same]⟩
  only := by
    intro start found listed
    by_cases here : start = s.start
    · exact ⟨s, member, here.symm⟩
    · rw [Function.update_of_ne here] at listed
      exact escrowed.only start found listed

theorem Escrowed.remove (escrowed : Escrowed spreads escrows units) (sorted : Ordered spreads) {s : Range}
    (member : s ∈ spreads) :
    Escrowed (spreads.eraseP (fun r => r.start == s.start)) (Function.update escrows s.start none) units := by
  have perm := eraseP_start sorted member
  have distinct : ∀ r ∈ spreads.eraseP (fun r => r.start == s.start), r.start ≠ s.start := by
    intro r left same
    have equal := sorted.eq_of_start (List.mem_of_mem_eraseP left) member same
    have nodup := (perm.nodup_iff.mp sorted.nodup)
    rw [equal] at left
    exact (List.nodup_cons.mp nodup).1 left
  constructor
  · intro r left
    obtain ⟨escrow, found, long⟩ := escrowed.held r (List.mem_of_mem_eraseP left)
    exact ⟨escrow, by rw [Function.update_of_ne (distinct r left), found], long⟩
  · intro start escrow listed
    by_cases here : start = s.start
    · rw [here, Function.update_self] at listed
      cases listed
    · rw [Function.update_of_ne here] at listed
      obtain ⟨r, member, begins⟩ := escrowed.only start escrow listed
      refine ⟨r, (List.mem_eraseP_of_neg ?_).mpr member, begins⟩
      simpa [begins] using here

end Escrows

section Positions

variable {live after plain retired spreads : List Range} {r : Range}

def plainRanges (live spreads : List Range) : List Range := live.filter (fun r => r ∉ spreads)

theorem Sound.plainRanges_perm (sound : Sound q (plain ++ retired)) (parts : live.Perm (plain ++ q.spreads)) :
    (plainRanges live q.spreads).Perm plain := by
  refine (parts.filter _).trans ?_
  have kept : plain.filter (fun r => decide (r ∉ q.spreads)) = plain := by
    rw [List.filter_eq_self]
    intro r member
    have : r ∉ q.spreads := fun spread =>
      sound.other_not_spread (List.mem_append_left retired member) spread rfl
    simpa using this
  have lost : q.spreads.filter (fun r => decide (r ∉ q.spreads)) = [] := by
    rw [List.filter_eq_nil_iff]
    intro r member
    simpa using member
  rw [List.filter_append, kept, lost, List.append_nil]

theorem Sound.spread_count (sound : Sound q (plain ++ retired)) (parts : live.Perm (plain ++ q.spreads))
    (member : r ∈ q.spreads) : live.count r = 1 := by
  have absent : r ∉ plain := fun inside =>
    sound.other_not_spread (List.mem_append_left retired inside) member rfl
  rw [parts.count_eq, List.count_append, List.count_eq_zero.mpr absent,
    List.count_eq_one_of_mem sound.spreadsOrdered.nodup member]

/-- A live range that is not one of the spreads can be singled out among the plain ones. -/
theorem single_out (parts : live.Perm (plain ++ spreads)) (taken : live.Perm (r :: after))
    (other : r ∉ spreads) : ∃ rest, plain.Perm (r :: rest) ∧ after.Perm (rest ++ spreads) := by
  have member : r ∈ plain := by
    have listed := (taken.symm.trans parts).mem_iff.mp (List.mem_cons_self)
    rcases List.mem_append.mp listed with inside | inside
    · exact inside
    · exact absurd inside other
  have split := List.perm_cons_erase member
  refine ⟨plain.erase r, split, ?_⟩
  have whole : (r :: after).Perm (r :: (plain.erase r ++ spreads)) :=
    taken.symm.trans (parts.trans (split.append_right spreads))
  exact whole.cons_inv

theorem not_spread_of_clear {cut : Nat} (sorted : Ordered q.spreads)
    (clear : q.overlapsSpread cut r.stop = false) (proper : cut < r.stop ∨ r.start = cut) : r ∉ q.spreads := by
  intro member
  have nonempty := sorted.nonempty r member
  have apart := Queue.overlapsSpread_false.mp clear r member
  omega

end Positions

section Advancing

variable {units : Nat} {final : Walk} {dropped : List Range}

theorem Sound.advance (sound : Sound q others) (walked : Walked q.spreads units q.walk final dropped)
    (capacity : q.exerciseCursor + units + q.closedPending ≤ q.totalWritten) :
    Sound (q.withWalk final) (dropped ++ others) where
  partition := by
    intro point
    have total := sound.partition point
    have closed := congrArg (fun ranges => cover ranges point) walked.closed_eq
    simp only [Queue.walk, cover_append] at closed
    change _ = if point < q.totalWritten then 1 else 0
    simp only [Queue.withWalk, cover_append]
    omega
  closedSeparated := walked.ready.separated
  closedAhead := walked.ready.ahead
  closedSize := by
    have before := sound.closedSize
    have closed := congrArg size walked.closed_eq
    have pending := walked.pending_eq
    simp only [Queue.walk, size_append] at closed pending
    simp only [Queue.withWalk]
    omega
  spreadsOrdered := sound.spreadsOrdered
  cursorBound := by
    have moved := walked.cur_eq
    have pending := walked.pending_eq
    simp only [Queue.walk] at moved pending
    simp only [Queue.withWalk]
    omega

theorem Sound.jump (sound : Sound q others) {target : Nat} (bound : target ≤ q.totalWritten)
    (ahead : ∀ r ∈ q.closed, target ≤ r.start) : Sound { q with exerciseCursor := target } others where
  partition := sound.partition
  closedSeparated := sound.closedSeparated
  closedAhead := ahead
  closedSize := sound.closedSize
  spreadsOrdered := sound.spreadsOrdered
  cursorBound := bound

/-- Where no retired range lies ahead of the cursor, the walk crosses exactly
the given number of plain units. -/
theorem Sound.walked_units {plain retired : List Range} (sound : Sound q (plain ++ retired))
    (behind : Behind retired q.exerciseCursor)
    (walked : Walked q.spreads units q.walk final dropped)
    (capacity : q.exerciseCursor + units + q.closedPending ≤ q.totalWritten) :
    within plain q.exerciseCursor final.cur = units := by
  have bound := (sound.advance walked capacity).cursorBound
  have moved := walked.cur_eq
  simp only [Queue.withWalk, Queue.walk] at bound moved
  have filled : within plain q.exerciseCursor final.cur + within dropped q.exerciseCursor final.cur =
      final.cur - q.exerciseCursor := by
    apply within_fill
    intro point low high
    have total := sound.partition point
    rw [if_pos (by omega), cover_append] at total
    have closed := congrArg (fun ranges => cover ranges point) walked.closed_eq
    have gone : cover retired point = 0 := behind point low
    have clear : cover q.spreads point = 0 :=
      cover_eq_zero.mpr (fun s member => walked.clear s member point low high)
    have later : cover final.closed point = 0 := cover_eq_zero.mpr (by
      intro r member held
      have := walked.ready.ahead r member
      simp only [Range.Has] at held
      omega)
    simp only [Queue.walk, cover_append] at closed
    omega
  have whole : within dropped q.exerciseCursor final.cur = size dropped := within_eq_size walked.inside
  omega

theorem Walked.skipped_eq (walked : Walked q.spreads units q.walk final dropped) :
    skippedRanges q (q.withWalk final) = dropped := by
  have closed : q.closed = dropped ++ final.closed := walked.closed_eq
  simp [skippedRanges, Queue.withWalk, closed]

end Advancing

end SuiOptions.Core
