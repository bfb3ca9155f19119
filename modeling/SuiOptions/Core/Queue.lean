import SuiOptions.Core.Strike
import SuiOptions.Lib.Ranges

/-! The write queue that call and put buckets share.

Units are written at the end of the queue and exercised in order at a cursor.
Offset-closed units stay in the queue as tombstones the cursor jumps over, and
spread-backed units lie in ranges that the plain exercise path must not enter.
The two bucket modules differ only in where they look for the next such range
and in the error they raise at it.
-/

set_option autoImplicit false

namespace SuiOptions.Core

open Execution Move Ranges

structure Queue where
  totalWritten : Nat
  exerciseCursor : Nat
  closed : List Range
  closedPending : Nat
  spreads : List Range
  deriving DecidableEq, Repr

/-- The local variables of the cursor walk: its position, the tombstones still
ahead and their total. -/
structure Walk where
  cur : Nat
  closed : List Range
  pending : Nat
  deriving DecidableEq, Repr

/-- The tombstone that starts at the cursor, when the first one does. -/
def popAt (cur : Nat) : List Range → Option (Range × List Range)
  | [] => none
  | r :: rest => if r.start = cur then some (r, rest) else none

def skip (walk : Walk) (r : Range) (rest : List Range) : Result Error Walk := do
  let length ← sub r.stop r.start
  let pending ← sub walk.pending length
  pure ⟨r.stop, rest, pending⟩

def advanceStep (blocked : Error) (nextClosed nextSpread remaining cur : Nat) : Result Error (Nat × Nat) := do
  check (cur < nextSpread) blocked
  let limit := if nextClosed < nextSpread then nextClosed else nextSpread
  let room ← sub limit cur
  let step := if remaining < room then remaining else room
  pure (remaining - step, cur + step)

def nextClosed (total : Nat) : List Range → Nat
  | [] => total
  | r :: _ => r.start

-- Every iteration removes a tombstone or lowers the remaining units; the source
-- loop has no bound of its own and would run out of gas where this one does.
def advanceLoop (total : Nat) (nextSpread : Nat → Nat) (blocked : Error) :
    Nat → Nat → Walk → Result Error Walk
  | 0, _, _ => .error .outOfGas
  | fuel + 1, remaining, walk =>
    if remaining = 0 then .ok walk
    else
      match popAt walk.cur walk.closed with
      | some (r, rest) => do
        let walk ← skip walk r rest
        advanceLoop total nextSpread blocked fuel remaining walk
      | none => do
        let (remaining, cur) ← advanceStep blocked (nextClosed total walk.closed)
          (nextSpread walk.cur) remaining walk.cur
        advanceLoop total nextSpread blocked fuel remaining { walk with cur := cur }

def flush (cur : Nat) : List Range → Nat → Result Error Walk
  | [], pending => .ok ⟨cur, [], pending⟩
  | r :: rest, pending =>
    if r.start = cur then do
      let length ← sub r.stop r.start
      let pending ← sub pending length
      flush r.stop rest pending
    else .ok ⟨cur, r :: rest, pending⟩

namespace Queue

def walk (q : Queue) : Walk := ⟨q.exerciseCursor, q.closed, q.closedPending⟩

def withWalk (q : Queue) (walk : Walk) : Queue :=
  { q with exerciseCursor := walk.cur, closed := walk.closed, closedPending := walk.pending }

def advanceCursor (nextSpread : Nat → Nat) (blocked : Error) (q : Queue) (amount : Nat) :
    Result Error Queue := do
  let walked ← advanceLoop q.totalWritten nextSpread blocked (amount + q.closed.length + 1) amount q.walk
  let flushed ← flush walked.cur walked.closed walked.pending
  pure (q.withWalk flushed)

def overlapsSpread (q : Queue) (start stop : Nat) : Bool :=
  q.spreads.any (fun s => s.start < stop && start < s.stop)

def findSpread (q : Queue) (start : Nat) : Result Error Range :=
  need (q.spreads.find? (fun s => s.start == start)) (.code .spreadNotFound)

def findSpreadExact (q : Queue) (start stop : Nat) : Result Error Range := do
  let found ← q.findSpread start
  check (found.stop = stop) .spreadNotFound
  pure found

def removeSpread (q : Queue) (start : Nat) : Queue :=
  { q with spreads := q.spreads.eraseP (fun s => s.start == start) }

end Queue

/-- Join a range with the first of the following ones where they touch. -/
def joinNext (r : Range) : List Range → List Range
  | [] => [r]
  | s :: rest => if r.stop = s.start then ⟨r.start, s.stop⟩ :: rest else r :: s :: rest

def insertRange (closed : List Range) (start stop : Nat) : List Range :=
  let before := closed.takeWhile (fun r => r.start < start)
  let tail := joinNext ⟨start, stop⟩ (closed.dropWhile (fun r => r.start < start))
  match before.getLast? with
  | some last => before.dropLast ++ joinNext last tail
  | none => tail

def Queue.insertClosed (q : Queue) (start stop : Nat) : Result Error Queue := do
  let length ← sub stop start
  let pending ← addU128 q.closedPending length
  pure { q with closed := insertRange q.closed start stop, closedPending := pending }

section Insertion

theorem joinNext_cover {r : Range} {rest : List Range} (proper : r.start ≤ r.stop)
    (others : ∀ s ∈ rest, s.start < s.stop) (point : Nat) :
    cover (joinNext r rest) point = cover [r] point + cover rest point := by
  cases rest with
  | nil => simp [joinNext]
  | cons s rest =>
    have positive := others s (by simp)
    simp only [joinNext]
    split
    · next touch =>
      have same : (⟨r.stop, s.stop⟩ : Range) = s := by rw [touch]
      have joined : cover [r] point + cover [⟨r.stop, s.stop⟩] point = cover [⟨r.start, s.stop⟩] point :=
        cover_cut proper (by omega) point
      rw [same] at joined
      simp only [cover_cons, cover_nil] at joined ⊢
      omega
    · rw [cover_cons r, cover_singleton]
      omega

theorem joinNext_size {r : Range} {rest : List Range} (proper : r.start ≤ r.stop)
    (others : ∀ s ∈ rest, s.start < s.stop) : size (joinNext r rest) = r.size + size rest := by
  cases rest with
  | nil => simp [joinNext]
  | cons s rest =>
    have positive := others s (by simp)
    simp only [joinNext]
    split
    · next touch =>
      simp only [size_cons, Range.size]
      omega
    · simp

theorem joinNext_start {r s : Range} {rest : List Range} (member : s ∈ joinNext r rest) :
    s.start = r.start ∨ s ∈ rest := by
  cases rest with
  | nil => exact Or.inl (by rw [List.mem_singleton.mp member])
  | cons t rest =>
    simp only [joinNext] at member
    split at member
    · rcases List.mem_cons.mp member with same | member
      · exact Or.inl (by rw [same])
      · exact Or.inr (List.mem_cons_of_mem t member)
    · rcases List.mem_cons.mp member with same | member
      · exact Or.inl (by rw [same])
      · exact Or.inr member

theorem joinNext_separated {r : Range} {rest : List Range} (apart : Separated rest)
    (proper : r.start < r.stop) (after : ∀ s ∈ rest, r.stop ≤ s.start) :
    Separated (joinNext r rest) := by
  cases rest with
  | nil => exact ⟨by simpa [joinNext] using proper, by simp [joinNext]⟩
  | cons s rest =>
    have touching := after s (by simp)
    have positive := apart.nonempty s (by simp)
    have beyond := (List.pairwise_cons.mp apart.ascending).1
    simp only [joinNext]
    split
    · next touch =>
      refine ⟨?_, List.pairwise_cons.mpr ⟨fun t member => beyond t member, apart.tail.ascending⟩⟩
      intro t member
      rcases List.mem_cons.mp member with same | member
      · rw [same]; simp only; omega
      · exact apart.tail.nonempty t member
    · next gap =>
      refine ⟨?_, List.pairwise_cons.mpr ⟨?_, apart.ascending⟩⟩
      · intro t member
        rcases List.mem_cons.mp member with same | member
        · rw [same]; exact proper
        · exact apart.nonempty t member
      · intro t member
        rcases List.mem_cons.mp member with same | member
        · rw [same]; omega
        · have := beyond t member
          omega

/-- What an insertion does to a separated list that the new range does not meet. -/
structure Inserted (before after : List Range) (new : Range) : Prop where
  separated : Separated after
  cover_eq : ∀ point, cover after point = cover before point + cover [new] point
  size_eq : size after = size before + new.size
  bounded : ∀ low, (∀ r ∈ before, low ≤ r.start) → low ≤ new.start → ∀ r ∈ after, low ≤ r.start

theorem joinNext_inserted {new : Range} {after : List Range} (apart : Separated after) (proper : new.start < new.stop)
    (above : ∀ r ∈ after, new.stop ≤ r.start) : Inserted after (joinNext new after) new where
  separated := joinNext_separated apart proper above
  cover_eq := by
    intro point
    rw [joinNext_cover (Nat.le_of_lt proper) apart.nonempty]
    exact Nat.add_comm _ _
  size_eq := by
    rw [joinNext_size (Nat.le_of_lt proper) apart.nonempty]
    exact Nat.add_comm _ _
  bounded := by
    intro low lowest first r member
    rcases joinNext_start member with same | member
    · rw [same]
      exact first
    · exact lowest r member

/-- The last range before the new one is joined with it where they touch. -/
theorem Inserted.behind {init after tail : List Range} {last new : Range} (inserted : Inserted after tail new)
    (apart : Separated (init ++ last :: after)) (below : last.stop ≤ new.start) :
    Inserted (init ++ last :: after) (init ++ joinNext last tail) new := by
  have ending := apart.sublist (List.sublist_append_right init (last :: after))
  have lastProper := ending.nonempty last List.mem_cons_self
  have across := (List.pairwise_append.mp apart.ascending).2.2
  have tailStart : ∀ r ∈ tail, last.stop ≤ r.start := inserted.bounded last.stop
    (fun r member => Nat.le_of_lt ((List.pairwise_cons.mp ending.ascending).1 r member)) below
  have joined : Separated (joinNext last tail) := joinNext_separated inserted.separated lastProper tailStart
  refine ⟨⟨?_, ?_⟩, fun point => ?_, ?_, ?_⟩
  · intro r member
    rcases List.mem_append.mp member with member | member
    · exact apart.nonempty r (List.mem_append_left _ member)
    · exact joined.nonempty r member
  · rw [List.pairwise_append]
    refine ⟨(List.pairwise_append.mp apart.ascending).1, joined.ascending, ?_⟩
    intro r member s later
    have left := across r member last List.mem_cons_self
    rcases joinNext_start later with same | later
    · omega
    · have := tailStart s later
      omega
  · rw [cover_append, joinNext_cover (Nat.le_of_lt lastProper) inserted.separated.nonempty, inserted.cover_eq]
    simp only [cover_append, cover_cons, cover_nil]
    omega
  · rw [size_append, joinNext_size (Nat.le_of_lt lastProper) inserted.separated.nonempty, inserted.size_eq]
    simp only [size_append, size_cons]
    omega
  · intro low lowest first r member
    rcases List.mem_append.mp member with member | member
    · exact lowest r (List.mem_append_left _ member)
    · rcases joinNext_start member with same | member
      · rw [same]
        exact lowest last (by simp)
      · exact inserted.bounded low (fun s inside => lowest s (by simp [inside])) first r member

/-- The new range goes behind everything that starts before it, and before the rest. -/
theorem insertRange_split {closed : List Range} {start stop : Nat} (apart : Separated closed)
    (proper : start < stop) (disjoint : ∀ r ∈ closed, r.stop ≤ start ∨ stop ≤ r.start) :
    ∃ before after, before ++ after = closed ∧ (∀ r ∈ before, r.stop ≤ start) ∧ (∀ r ∈ after, stop ≤ r.start) ∧
      (before = [] ∧ insertRange closed start stop = joinNext ⟨start, stop⟩ after ∨
        ∃ init last, before = init ++ [last] ∧
          insertRange closed start stop = init ++ joinNext last (joinNext ⟨start, stop⟩ after)) := by
  obtain ⟨before, beforeEq⟩ : ∃ before, before = closed.takeWhile (fun r => r.start < start) := ⟨_, rfl⟩
  obtain ⟨after, afterEq⟩ : ∃ after, after = closed.dropWhile (fun r => r.start < start) := ⟨_, rfl⟩
  have split : before ++ after = closed := by
    rw [beforeEq, afterEq]; exact List.takeWhile_append_dropWhile
  have afterSeparated := apart.sublist (split ▸ List.sublist_append_right before after)
  refine ⟨before, after, split, fun r member => ?_, fun r member => ?_, ?_⟩
  · have smaller : r.start < start := by
      have := List.all_eq_true.mp List.all_takeWhile r (beforeEq ▸ member)
      simpa using this
    have positive := apart.nonempty r (split ▸ List.mem_append_left after member)
    have := disjoint r (split ▸ List.mem_append_left after member)
    omega
  · -- the first of the rest does not start before the new range, and the others start behind it
    have larger : start ≤ r.start := by
      cases after with
      | nil => simp at member
      | cons s rest =>
        have head : ¬ s.start < start := by
          have := List.head?_dropWhile_not (fun r : Range => decide (r.start < start)) closed
          rw [← afterEq] at this
          simpa using this
        rcases List.mem_cons.mp member with same | member
        · rw [same]; omega
        · have := (List.pairwise_cons.mp afterSeparated.ascending).1 r member
          have := afterSeparated.nonempty s (by simp)
          omega
    have positive := afterSeparated.nonempty r member
    have := disjoint r (split ▸ List.mem_append_right before member)
    omega
  · rcases List.eq_nil_or_concat' before with empty | ⟨init, last, whole⟩
    · refine Or.inl ⟨empty, ?_⟩
      simp only [insertRange, ← beforeEq, ← afterEq, empty, List.getLast?_nil]
    · refine Or.inr ⟨init, last, whole, ?_⟩
      simp only [insertRange, ← beforeEq, ← afterEq, whole, List.getLast?_append, List.getLast?_singleton, Option.some_or,
        List.dropLast_concat]

theorem insertRange_spec {closed : List Range} {start stop : Nat} (apart : Separated closed)
    (proper : start < stop) (disjoint : ∀ r ∈ closed, r.stop ≤ start ∨ stop ≤ r.start) :
    Inserted closed (insertRange closed start stop) ⟨start, stop⟩ := by
  obtain ⟨before, after, rfl, below, above, outcome⟩ := insertRange_split apart proper disjoint
  have later := apart.sublist (List.sublist_append_right before after)
  have inserted : Inserted after (joinNext ⟨start, stop⟩ after) ⟨start, stop⟩ := joinNext_inserted later proper above
  rcases outcome with ⟨rfl, same⟩ | ⟨init, last, rfl, same⟩
  · rw [same]
    exact inserted
  · rw [same, List.append_assoc, List.singleton_append]
    rw [List.append_assoc, List.singleton_append] at apart
    exact inserted.behind apart (below last (List.mem_append_right _ List.mem_cons_self))

end Insertion

section Walking

/-- What the walk relies on: separated tombstones ahead of the cursor, none of
which meets a spread. -/
structure Ready (spreads : List Range) (walk : Walk) : Prop where
  separated : Separated walk.closed
  ahead : ∀ r ∈ walk.closed, walk.cur ≤ r.start
  apart : ∀ r ∈ walk.closed, ∀ s ∈ spreads, r.stop ≤ s.start ∨ s.stop ≤ r.start

/-- A walk over `units` live units drops the tombstones it crosses and enters no spread. -/
structure Walked (spreads : List Range) (units : Nat) (before after : Walk) (dropped : List Range) :
    Prop where
  closed_eq : before.closed = dropped ++ after.closed
  pending_eq : before.pending = after.pending + size dropped
  cur_eq : after.cur = before.cur + units + size dropped
  inside : ∀ r ∈ dropped, before.cur ≤ r.start ∧ r.stop ≤ after.cur
  clear : ∀ s ∈ spreads, ∀ point, before.cur ≤ point → point < after.cur → ¬ s.Has point
  ready : Ready spreads after

variable {spreads : List Range}

theorem Walked.refl {walk : Walk} (ready : Ready spreads walk) : Walked spreads 0 walk walk [] where
  closed_eq := rfl
  pending_eq := rfl
  cur_eq := rfl
  inside := by simp
  clear := by
    intro s _ point low high
    omega
  ready := ready

theorem Walked.trans {first second : Nat} {a b c : Walk} {left right : List Range}
    (early : Walked spreads first a b left) (late : Walked spreads second b c right) :
    Walked spreads (first + second) a c (left ++ right) where
  closed_eq := by rw [early.closed_eq, late.closed_eq, List.append_assoc]
  pending_eq := by rw [early.pending_eq, late.pending_eq, size_append]; omega
  cur_eq := by rw [late.cur_eq, early.cur_eq, size_append]; omega
  inside := by
    have progress := late.cur_eq
    have before := early.cur_eq
    intro r member
    rcases List.mem_append.mp member with member | member
    · have := early.inside r member
      omega
    · have := late.inside r member
      omega
  clear := by
    intro s member point low high
    by_cases reached : point < b.cur
    · exact early.clear s member point low reached
    · exact late.clear s member point (by omega) high
  ready := late.ready

theorem Walked.beside {units : Nat} {before after : Walk} {dropped : List Range} {s : Range}
    (walked : Walked spreads units before after dropped) (member : s ∈ spreads) (proper : s.start < s.stop)
    (moved : before.cur < after.cur) : s.stop ≤ before.cur ∨ after.cur ≤ s.start := by
  by_contra neither
  have low : before.cur ≤ max before.cur s.start := le_max_left _ _
  have high : max before.cur s.start < after.cur := by omega
  exact walked.clear s member (max before.cur s.start) low high ⟨le_max_right _ _, by omega⟩

theorem Ready.tail {cur pending : Nat} {r : Range} {rest : List Range}
    (ready : Ready spreads ⟨cur, r :: rest, pending⟩) (left : Nat) : Ready spreads ⟨r.stop, rest, left⟩ where
  separated := ready.separated.tail
  ahead := fun s member => Nat.le_of_lt ((List.pairwise_cons.mp ready.separated.ascending).1 s member)
  apart := fun s member => ready.apart s (List.mem_cons_of_mem r member)

theorem Walked.skipped {cur pending left : Nat} {r : Range} {rest : List Range}
    (ready : Ready spreads ⟨cur, r :: rest, pending⟩) (here : r.start = cur) (paid : pending = left + r.size) :
    Walked spreads 0 ⟨cur, r :: rest, pending⟩ ⟨r.stop, rest, left⟩ [r] where
  closed_eq := rfl
  pending_eq := by simpa using paid
  cur_eq := by
    have proper := ready.separated.nonempty r (by simp)
    simp only [size_cons, size_nil, Range.size]
    omega
  inside := by
    intro s member
    rw [List.mem_singleton.mp member]
    exact ⟨here.ge, le_refl _⟩
  clear := by
    intro s member point low high held
    have apart := ready.apart r (by simp) s member
    simp only [Range.Has] at held low high
    omega
  ready := ready.tail left

theorem skip_ok {walk next : Walk} {r : Range} {rest : List Range} :
    skip walk r rest = .ok next ↔
      r.start ≤ r.stop ∧ r.size ≤ walk.pending ∧ next = ⟨r.stop, rest, walk.pending - r.size⟩ := by
  simp only [skip, bind_ok, sub_ok, pure_ok, Range.size]
  constructor
  · rintro ⟨_, ⟨proper, rfl⟩, _, ⟨enough, rfl⟩, rfl⟩
    exact ⟨proper, enough, rfl⟩
  · rintro ⟨proper, enough, rfl⟩
    exact ⟨_, ⟨proper, rfl⟩, _, ⟨enough, rfl⟩, rfl⟩

theorem popAt_some {cur : Nat} {closed rest : List Range} {r : Range} :
    popAt cur closed = some (r, rest) ↔ closed = r :: rest ∧ r.start = cur := by
  cases closed with
  | nil => simp [popAt]
  | cons s others =>
    simp only [popAt]
    split
    · next here =>
      constructor
      · intro same
        cases same
        exact ⟨rfl, here⟩
      · rintro ⟨same, _⟩
        cases same
        rfl
    · next away =>
      constructor
      · intro same
        cases same
      · rintro ⟨same, here⟩
        cases same
        exact absurd here away

theorem popAt_none {cur : Nat} {closed : List Range} (none : popAt cur closed = none)
    (ahead : ∀ r ∈ closed, cur ≤ r.start) : ∀ r ∈ closed.head?, cur < r.start := by
  cases closed with
  | nil => simp
  | cons s rest =>
    simp only [popAt] at none
    split at none
    · cases none
    · next away =>
      intro r member
      have first := ahead s (by simp)
      simp only [List.head?_cons, Option.mem_def, Option.some.injEq] at member
      subst member
      omega

theorem flush_walked {cur pending : Nat} {closed : List Range} {final : Walk}
    (ready : Ready spreads ⟨cur, closed, pending⟩) (ran : flush cur closed pending = .ok final) :
    ∃ dropped, Walked spreads 0 ⟨cur, closed, pending⟩ final dropped ∧ ∀ r ∈ final.closed, final.cur < r.start := by
  induction closed generalizing cur pending with
  | nil =>
    cases ran
    exact ⟨[], Walked.refl ready, by simp⟩
  | cons r rest ih =>
    simp only [flush] at ran
    split at ran
    · next here =>
      simp only [bind_ok, sub_ok] at ran
      obtain ⟨_, ⟨proper, rfl⟩, _, ⟨enough, rfl⟩, ran⟩ := ran
      obtain ⟨dropped, walked, stopped⟩ := ih (ready.tail _) ran
      have crossed : Walked spreads 0 ⟨cur, r :: rest, pending⟩ ⟨r.stop, rest, pending - (r.stop - r.start)⟩ [r] :=
        Walked.skipped ready here (by simp only [Range.size]; omega)
      exact ⟨[r] ++ dropped, crossed.trans walked, stopped⟩
    · next away =>
      cases ran
      refine ⟨[], Walked.refl ready, ?_⟩
      intro s member
      have first := ready.ahead r (by simp)
      rcases List.mem_cons.mp member with same | member
      · rw [same]; simp only at first ⊢; omega
      · have := (List.pairwise_cons.mp ready.separated.ascending).1 s member
        have := ready.separated.nonempty r (by simp)
        simp only at first ⊢
        omega

theorem advanceStep_ok {blocked : Error} {nextClosed nextSpread remaining cur left reached : Nat} :
    advanceStep blocked nextClosed nextSpread remaining cur = .ok (left, reached) ↔
      cur < nextSpread ∧ cur ≤ nextClosed ∧
        left = remaining - min remaining (min nextClosed nextSpread - cur) ∧
        reached = cur + min remaining (min nextClosed nextSpread - cur) := by
  simp only [advanceStep, bind_ok, check_ok, sub_ok, pure_ok, Prod.mk.injEq]
  constructor
  · rintro ⟨_, open', _, ⟨room, rfl⟩, rfl, rfl⟩
    refine ⟨open', ?_, ?_, ?_⟩ <;> (split_ifs at * <;> omega)
  · rintro ⟨open', room, rfl, rfl⟩
    refine ⟨(), open', _, ⟨?_, rfl⟩, ?_, ?_⟩ <;> (split_ifs <;> omega)

variable {total : Nat} {nextSpread : Nat → Nat} {blocked : Error}

/-- The next spread start the walk is given bounds every spread it has not passed. -/
def Bounding (spreads : List Range) (nextSpread : Nat → Nat) : Prop :=
  ∀ cur, ∀ s ∈ spreads, cur < s.stop → nextSpread cur ≤ s.start

theorem Walked.stepped {walk : Walk} {remaining left reached : Nat} (ready : Ready spreads walk)
    (bounding : Bounding spreads nextSpread)
    (stepped : advanceStep blocked (nextClosed total walk.closed) (nextSpread walk.cur) remaining walk.cur =
      .ok (left, reached)) :
    Walked spreads (remaining - left) walk { walk with cur := reached } [] := by
  obtain ⟨_, _, rfl, rfl⟩ := advanceStep_ok.mp stepped
  refine ⟨rfl, rfl, by simp only [size_nil]; omega, by simp, ?_, ready.separated, ?_, ready.apart⟩
  · intro s member point low high held
    simp only [Range.Has] at held low high
    have := bounding walk.cur s member (by omega)
    omega
  · -- The step stops at the first tombstone, and the others lie behind that one.
    intro r member
    simp only at member ⊢
    have first : nextClosed total walk.closed ≤ r.start := by
      cases listed : walk.closed with
      | nil => rw [listed] at member; cases member
      | cons s rest =>
        have separated := ready.separated
        rw [listed] at member separated
        rcases List.mem_cons.mp member with same | member
        · rw [same]; exact le_refl _
        · have := (List.pairwise_cons.mp separated.ascending).1 r member
          have := separated.nonempty s (by simp)
          simp only [nextClosed]
          omega
    omega

theorem advanceLoop_walked {fuel remaining : Nat} {walk final : Walk} (ready : Ready spreads walk)
    (bounding : Bounding spreads nextSpread)
    (ran : advanceLoop total nextSpread blocked fuel remaining walk = .ok final) :
    ∃ dropped, Walked spreads remaining walk final dropped := by
  induction fuel generalizing remaining walk with
  | zero => cases ran
  | succ fuel ih =>
    simp only [advanceLoop] at ran
    split at ran
    · next done =>
      cases ran
      subst done
      exact ⟨[], Walked.refl ready⟩
    · split at ran
      · next r rest found =>
        obtain ⟨listed, here⟩ := popAt_some.mp found
        obtain ⟨next, skipped, ran⟩ := bind_ok.mp ran
        obtain ⟨_, enough, rfl⟩ := skip_ok.mp skipped
        obtain ⟨cur, closed, pending⟩ := walk
        simp only at listed here enough
        subst listed
        have crossed : Walked spreads 0 ⟨cur, r :: rest, pending⟩ ⟨r.stop, rest, pending - r.size⟩ [r] :=
          Walked.skipped ready here (by omega)
        obtain ⟨dropped, walked⟩ := ih crossed.ready ran
        exact ⟨[r] ++ dropped, by simpa using crossed.trans walked⟩
      · obtain ⟨⟨left, reached⟩, stepped, ran⟩ := bind_ok.mp ran
        have moved := Walked.stepped ready bounding stepped
        have less : left ≤ remaining := by
          obtain ⟨_, _, rfl, _⟩ := advanceStep_ok.mp stepped
          omega
        obtain ⟨dropped, walked⟩ := ih moved.ready ran
        have whole := moved.trans walked
        rw [Nat.sub_add_cancel less] at whole
        exact ⟨[] ++ dropped, whole⟩

theorem Queue.advanceCursor_walked {q next : Queue} {amount : Nat} (ready : Ready q.spreads q.walk)
    (bounding : Bounding q.spreads nextSpread)
    (ran : q.advanceCursor nextSpread blocked amount = .ok next) :
    ∃ final dropped, next = q.withWalk final ∧ Walked q.spreads amount q.walk final dropped ∧
      ∀ r ∈ final.closed, final.cur < r.start := by
  obtain ⟨walked, looped, ran⟩ := bind_ok.mp ran
  obtain ⟨final, flushed, ran⟩ := bind_ok.mp ran
  obtain ⟨dropped, first⟩ := advanceLoop_walked ready bounding looped
  obtain ⟨more, second, stopped⟩ := flush_walked first.ready flushed
  exact ⟨final, dropped ++ more, (pure_ok.mp ran).symm, first.trans second, stopped⟩

end Walking

section Progress

variable {spreads : List Range} {total : Nat} {nextSpread : Nat → Nat} {blocked : Error}

theorem flush_succeeds {cur pending : Nat} {closed : List Range} (proper : ∀ r ∈ closed, r.start < r.stop)
    (enough : size closed ≤ pending) : ∃ final, flush cur closed pending = .ok final := by
  induction closed generalizing cur pending with
  | nil => exact ⟨_, rfl⟩
  | cons r rest ih =>
    have first := proper r (by simp)
    simp only [size_cons, Range.size] at enough
    simp only [flush]
    split
    · rw [sub_of (Nat.le_of_lt first)]
      simp only [bind, Except.bind]
      rw [sub_of (by omega)]
      exact ih (fun s member => proper s (List.mem_cons_of_mem r member)) (by omega)
    · exact ⟨_, rfl⟩

/-- Up to a bound where the next spread may start, the walk succeeds whenever
the units asked for fit between the tombstones before it. -/
theorem advanceLoop_succeeds {fuel remaining bound : Nat} {walk : Walk} (ready : Ready spreads walk)
    (enough : size walk.closed ≤ walk.pending) (limit : bound ≤ total)
    (next : ∀ cur, walk.cur ≤ cur → cur < bound → nextSpread cur = bound)
    (apart : ∀ r ∈ walk.closed, r.stop ≤ bound ∨ bound ≤ r.start)
    (room : 0 < remaining → remaining + within walk.closed walk.cur bound ≤ bound - walk.cur)
    (fueled : remaining + walk.closed.length < fuel) :
    ∃ final, advanceLoop total nextSpread blocked fuel remaining walk = .ok final := by
  -- the fuel bounds the units that are left and the tombstones ahead, one of which every round spends
  induction fuel generalizing remaining walk with
  | zero => omega
  | succ fuel ih =>
    obtain ⟨cur, closed, pending⟩ := walk
    simp only at enough next apart room fueled
    simp only [advanceLoop]
    by_cases done : remaining = 0
    · exact ⟨_, if_pos done⟩
    have space := room (by omega)
    rw [if_neg done]
    cases found : popAt cur closed with
    | some pair =>
      -- the cursor stands on a tombstone and skips it
      obtain ⟨r, rest⟩ := pair
      obtain ⟨listed, here⟩ := popAt_some.mp found
      subst listed
      have proper := ready.separated.nonempty r (by simp)
      have bounded := apart r (by simp)
      have behind := (List.pairwise_cons.mp ready.separated.ascending).1
      simp only [size_cons, within_cons, List.length_cons] at enough space fueled
      have skipped : skip ⟨cur, r :: rest, pending⟩ r rest = .ok ⟨r.stop, rest, pending - r.size⟩ :=
        skip_ok.mpr ⟨Nat.le_of_lt proper, by simp only; omega, rfl⟩
      simp only [skipped, bind, Except.bind]
      have shifted : within rest cur bound = within rest r.stop bound :=
        within_low (by omega) (fun s member => Nat.le_of_lt (behind s member)) bound
      apply ih (ready.tail _)
      · simp only; omega
      · intro point low high
        exact next point (by simp only at low; omega) high
      · exact fun s member => apart s (List.mem_cons_of_mem r member)
      · intro _
        simp only [Range.within] at space ⊢
        omega
      · simp only; omega
    | none =>
      -- the cursor walks to the next tombstone, to the bound, or as far as it has to go
      have away := popAt_none found ready.ahead
      have limitClosed : cur < nextClosed total closed := by
        cases closed with
        | nil => simp only [nextClosed]; omega
        | cons s rest => exact away s (by simp)
      have stepped : advanceStep blocked (nextClosed total closed) (nextSpread cur) remaining cur =
          .ok (remaining - min remaining (min (nextClosed total closed) bound - cur),
            cur + min remaining (min (nextClosed total closed) bound - cur)) := by
        rw [next cur (le_refl _) (by omega)]
        exact advanceStep_ok.mpr ⟨by omega, by omega, rfl, rfl⟩
      simp only [stepped, bind, Except.bind]
      -- no tombstone begins inside the units that are crossed
      have behind : ∀ r ∈ closed, cur + min remaining (min (nextClosed total closed) bound - cur) ≤ r.start := by
        intro r member
        cases closed with
        | nil => cases member
        | cons s rest =>
          simp only [nextClosed] at limitClosed ⊢
          rcases List.mem_cons.mp member with same | member
          · rw [same]; omega
          · have := (List.pairwise_cons.mp ready.separated.ascending).1 r member
            have := ready.separated.nonempty s (by simp)
            omega
      have shifted := within_low (Nat.le_add_right cur _) behind bound
      refine ih ⟨ready.separated, behind, ready.apart⟩ enough ?_ apart ?_ ?_
      · intro point low high
        exact next point (by simp only at low; omega) high
      · intro _
        simp only
        omega
      · simp only; omega

theorem Queue.advanceCursor_succeeds {q : Queue} {amount bound : Nat} (ready : Ready q.spreads q.walk)
    (bounding : Bounding q.spreads nextSpread) (enough : size q.closed = q.closedPending)
    (limit : bound ≤ q.totalWritten)
    (next : ∀ cur, q.exerciseCursor ≤ cur → cur < bound → nextSpread cur = bound)
    (apart : ∀ r ∈ q.closed, r.stop ≤ bound ∨ bound ≤ r.start)
    (room : 0 < amount → amount + within q.closed q.exerciseCursor bound ≤ bound - q.exerciseCursor) :
    ∃ final, q.advanceCursor nextSpread blocked amount = .ok final := by
  obtain ⟨walked, looped⟩ : ∃ walked, advanceLoop q.totalWritten nextSpread blocked
      (amount + q.closed.length + 1) amount q.walk = .ok walked :=
    advanceLoop_succeeds ready (le_of_eq enough) limit next apart room (Nat.lt_succ_self _)
  obtain ⟨dropped, first⟩ := advanceLoop_walked ready bounding looped
  have sizes : size walked.closed ≤ walked.pending := by
    have closed := congrArg size first.closed_eq
    have pending := first.pending_eq
    simp only [Queue.walk, size_append] at closed pending
    omega
  obtain ⟨final, flushed⟩ : ∃ final, flush walked.cur walked.closed walked.pending = .ok final :=
    flush_succeeds first.ready.separated.nonempty sizes
  exact ⟨q.withWalk final, by simp only [Queue.advanceCursor, looped, flushed, bind, Except.bind]; rfl⟩

end Progress

end SuiOptions.Core
