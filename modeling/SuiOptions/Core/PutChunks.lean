import SuiOptions.Core.PutInvariant

/-! What a put spread pays when it is exercised in parts.

The target of each part is a difference of rounded-up strike values, the escrowed
longs pay rounded-down ones, and the escrow's cash stands in for the difference as
far as it goes. A run of the whole system is followed together with the parts of
one spread.
-/

set_option autoImplicit false

namespace SuiOptions.Core

open Execution Move Ranges

namespace Terms

/-- The strike value of some units, rounded up. -/
def ceil (t : Terms) (units : Nat) : Nat := (units * t.strike + 10 ^ t.strikeScale - 1) / 10 ^ t.strikeScale

/-- The strike value of some units, rounded down. -/
def floor (t : Terms) (units : Nat) : Nat := units * t.strike / 10 ^ t.strikeScale

variable {t short long : Terms} {units more : Nat}

theorem applyStrikeCeil_eq {cost : Nat} (computed : applyStrikeCeil units t.strike t.strikeScale = .ok cost) :
    cost = t.ceil units := (applyStrikeCeil_ok.mp computed).2.2.2

theorem applyStrikeFloor_eq {paid : Nat} (computed : applyStrikeFloor units t.strike t.strikeScale = .ok paid) :
    paid = t.floor units := (applyStrikeFloor_ok.mp computed).2.2.2

theorem ceil_zero : t.ceil 0 = 0 := by
  have positive : 0 < 10 ^ t.strikeScale := by positivity
  rw [ceil, Nat.zero_mul, Nat.zero_add]
  exact Nat.div_eq_of_lt (by omega)

theorem le_ceil : units * t.strike ≤ 10 ^ t.strikeScale * t.ceil units := Core.le_ceil _ _

theorem ceil_lt : 10 ^ t.strikeScale * t.ceil units < units * t.strike + 10 ^ t.strikeScale := Core.ceil_lt _ _

theorem floor_le : 10 ^ t.strikeScale * t.floor units ≤ units * t.strike := Nat.mul_div_le _ _

theorem lt_floor : units * t.strike < 10 ^ t.strikeScale * t.floor units + 10 ^ t.strikeScale := Core.lt_floor _ _

/-- Two parts lose one settlement unit at most against the whole. -/
theorem floor_add : t.floor (units + more) ≤ t.floor units + t.floor more + 1 := by
  have positive : 0 < 10 ^ t.strikeScale := by positivity
  rw [floor, Nat.add_mul, Nat.add_div positive]
  simp only [floor]
  split <;> omega

theorem gap_le (less : units ≤ more) :
    short.ceil units ≤ short.ceil more - long.floor more + 1 + long.floor units := by
  obtain ⟨d, scale⟩ : ∃ d, d = 10 ^ short.strikeScale := ⟨_, rfl⟩
  obtain ⟨e, longScale⟩ : ∃ e, e = 10 ^ long.strikeScale := ⟨_, rfl⟩
  have high : d * short.ceil units < units * short.strike + d := scale ▸ ceil_lt
  have cover : more * short.strike ≤ d * short.ceil more := scale ▸ le_ceil
  have low : units * long.strike < e * long.floor units + e := longScale ▸ lt_floor
  have paid : e * long.floor more ≤ more * long.strike := longScale ▸ floor_le
  have positive : 0 < d * e := by
    rw [scale, longScale]
    positivity
  have first : d * e * short.ceil units < units * (short.strike * e) + d * e := by nlinarith
  have second : units * (long.strike * d) ≤ d * e * long.floor units + d * e := by nlinarith
  rcases Nat.le_total (short.strike * e) (long.strike * d) with lower | higher
  · -- The longs alone are worth the assignment, up to the two roundings.
    have worth := Nat.mul_le_mul_left units lower
    have both : d * e * short.ceil units < d * e * (long.floor units + 2) := by
      rw [Nat.mul_add]
      omega
    have fewer := Nat.lt_of_mul_lt_mul_left both
    omega
  · -- The gap grows with the units.
    have third : more * (short.strike * e) ≤ d * e * short.ceil more := by nlinarith
    have fourth : d * e * long.floor more ≤ more * (long.strike * d) := by nlinarith
    have grows : units * (short.strike * e) + more * (long.strike * d) ≤
        units * (long.strike * d) + more * (short.strike * e) := mul_add_mul_le_mul_add_mul less higher
    have both : d * e * (short.ceil units + long.floor more) < d * e * (short.ceil more + long.floor units + 2) := by
      simp only [Nat.mul_add]
      omega
    have fewer := Nat.lt_of_mul_lt_mul_left both
    omega

end Terms

namespace PutBucket

variable (proceeds target cash : Nat)

/-- The payout and the escrow share what the longs paid and what the escrow held. -/
theorem settleSpread_sum : (settleSpread proceeds target cash).1 + (settleSpread proceeds target cash).2 = proceeds + cash := by
  unfold settleSpread
  split
  · simp only
    omega
  · simp only
    split <;> omega

theorem settleSpread_le : (settleSpread proceeds target cash).1 ≤ target := by
  unfold settleSpread
  split
  · exact Nat.le_refl _
  · simp only
    split <;> omega

theorem settleSpread_short : (settleSpread proceeds target cash).1 = target ∨ (settleSpread proceeds target cash).2 = 0 := by
  unfold settleSpread
  split
  · exact Or.inl rfl
  · simp only
    split <;> omega

theorem writeSpread_funded {ι : Type} {now amount topUp : Nat} {allowed : Bool} {longId : ι} {b long next : PutBucket ι}
    {range : Range} (ran : b.writeSpread now allowed longId long amount topUp = .ok (range, next)) :
    topUp = b.terms.ceil amount - long.terms.floor amount + 1 := by
  obtain ⟨_, ran⟩ := check_bind_ok.mp ran
  obtain ⟨_, ran⟩ := check_bind_ok.mp ran
  obtain ⟨_, ran⟩ := check_bind_ok.mp ran
  obtain ⟨_, ran⟩ := check_bind_ok.mp ran
  obtain ⟨_, ran⟩ := check_bind_ok.mp ran
  obtain ⟨_, required, ran⟩ := bind_ok.mp ran
  obtain ⟨rfl, _⟩ := check_bind_ok.mp ran
  obtain ⟨_, needed, added⟩ := bind_ok.mp required
  obtain ⟨_, rfl⟩ := fit_ok.mp added
  obtain ⟨high, ceil, needed⟩ := bind_ok.mp needed
  obtain ⟨low, floor, needed⟩ := bind_ok.mp needed
  cases pure_ok.mp needed
  rw [show high = b.terms.ceil amount from Terms.applyStrikeCeil_eq ceil,
    show low = long.terms.floor amount from Terms.applyStrikeFloor_eq floor]
  split <;> omega

end PutBucket

/-- One exercise of a part of a spread: its units, what the longs paid and what was paid out. -/
structure Chunk where
  amount : Nat
  proceeds : Nat
  payout : Nat
  deriving DecidableEq, Repr

namespace Chunk

def units (chunks : List Chunk) : Nat := (chunks.map amount).sum

def earned (chunks : List Chunk) : Nat := (chunks.map proceeds).sum

def paid (chunks : List Chunk) : Nat := (chunks.map payout).sum

/-- The part of the target that falls to a chunk after `assigned` units. -/
def target (short : Terms) (assigned amount : Nat) : Nat := short.ceil (assigned + amount) - short.ceil assigned

def Capped (short : Terms) : Nat → List Chunk → Prop
  | _, [] => True
  | assigned, c :: rest => c.payout ≤ target short assigned c.amount ∧ Capped short (assigned + c.amount) rest

theorem units_snoc (chunks : List Chunk) (c : Chunk) : units (chunks ++ [c]) = units chunks + c.amount := by
  simp [units]

theorem earned_snoc (chunks : List Chunk) (c : Chunk) : earned (chunks ++ [c]) = earned chunks + c.proceeds := by
  simp [earned]

theorem paid_snoc (chunks : List Chunk) (c : Chunk) : paid (chunks ++ [c]) = paid chunks + c.payout := by
  simp [paid]

theorem Capped.snoc {short : Terms} {assigned : Nat} {chunks : List Chunk} {c : Chunk}
    (capped : Capped short assigned chunks) (within : c.payout ≤ target short (assigned + units chunks) c.amount) :
    Capped short assigned (chunks ++ [c]) := by
  induction chunks generalizing assigned with
  | nil => exact ⟨within, trivial⟩
  | cons first rest ih =>
    refine ⟨capped.1, ih capped.2 ?_⟩
    have shifted : assigned + units (first :: rest) = assigned + first.amount + units rest := by
      simp only [units, List.map_cons, List.sum_cons]
      omega
    rwa [← shifted]

end Chunk

/-- What the chunks of a spread are paid: none more than its target, one settlement unit
less than the exact total for each chunk after the first, and all of it for a single one. -/
structure ChunkLaws (short : Terms) (chunks : List Chunk) : Prop where
  capped : Chunk.Capped short 0 chunks
  total : short.ceil (Chunk.units chunks) ≤ Chunk.paid chunks + (chunks.length - 1)
  single : ∀ c, chunks = [c] → c.payout = Chunk.target short 0 c.amount

structure Chunked (short long : Terms) (amount topUp : Nat) (chunks : List Chunk) : Prop where
  laws : ChunkLaws short chunks
  units : Chunk.units chunks ≤ amount
  floors : long.floor (Chunk.units chunks) ≤ Chunk.earned chunks + (chunks.length - 1)

namespace Chunked

variable {short long : Terms} {amount topUp : Nat} {chunks : List Chunk}

theorem nil (short long : Terms) (amount topUp : Nat) : Chunked short long amount topUp [] where
  laws := ⟨trivial, Terms.ceil_zero.le, by simp⟩
  units := Nat.zero_le _
  floors := by simp [Chunk.units, Terms.floor]

theorem snoc (chunked : Chunked short long amount topUp chunks) {units cash : Nat}
    (provided : topUp = short.ceil amount - long.floor amount + 1)
    (left : Chunk.paid chunks + cash = topUp + Chunk.earned chunks) (fits : Chunk.units chunks + units ≤ amount) :
    Chunked short long amount topUp (chunks ++ [⟨units, long.floor units,
      (PutBucket.settleSpread (long.floor units) (Chunk.target short (Chunk.units chunks) units) cash).1⟩]) := by
  have shares := PutBucket.settleSpread_sum (long.floor units) (Chunk.target short (Chunk.units chunks) units) cash
  have capped := PutBucket.settleSpread_le (long.floor units) (Chunk.target short (Chunk.units chunks) units) cash
  have short' := PutBucket.settleSpread_short (long.floor units) (Chunk.target short (Chunk.units chunks) units) cash
  obtain ⟨⟨payout, rest⟩, settled⟩ : ∃ split, split =
      PutBucket.settleSpread (long.floor units) (Chunk.target short (Chunk.units chunks) units) cash := ⟨_, rfl⟩
  rw [← settled] at shares capped short' ⊢
  simp only at shares capped short' ⊢
  have floors : long.floor (Chunk.units (chunks ++ [⟨units, long.floor units, payout⟩])) ≤
      Chunk.earned (chunks ++ [⟨units, long.floor units, payout⟩]) + chunks.length := by
    rw [Chunk.units_snoc, Chunk.earned_snoc]
    rcases chunks.eq_nil_or_concat with none | ⟨_, _, some⟩
    · rw [none]
      simp [Chunk.units, Chunk.earned]
    · have positive : 0 < chunks.length := by
        rw [some, List.length_concat]
        exact Nat.succ_pos _
      have parts : long.floor (Chunk.units chunks + units) ≤ long.floor (Chunk.units chunks) + long.floor units + 1 :=
        Terms.floor_add
      have before := chunked.floors
      simp only
      omega
  have total : short.ceil (Chunk.units chunks + units) ≤ Chunk.paid chunks + payout + chunks.length := by
    have before := chunked.laws.total
    have gap : short.ceil (Chunk.units chunks + units) ≤
        short.ceil amount - long.floor amount + 1 + long.floor (Chunk.units chunks + units) := Terms.gap_le fits
    rw [Chunk.units_snoc, Chunk.earned_snoc] at floors
    simp only at floors
    rcases short' with exact' | dry
    · simp only [Chunk.target] at exact'
      omega
    · -- The escrow has paid all it had, which covers the gap of the units so far.
      omega
  refine ⟨⟨chunked.laws.capped.snoc ?_, ?_, ?_⟩, ?_, ?_⟩
  · rw [Nat.zero_add]
    exact capped
  · rw [Chunk.units_snoc, Chunk.paid_snoc, List.length_append, List.length_singleton, Nat.add_sub_cancel]
    exact total
  · intro c only
    obtain ⟨none, rfl⟩ : chunks = [] ∧ c = ⟨units, long.floor units, payout⟩ := by
      cases chunks with
      | nil => exact ⟨rfl, (List.singleton_inj.mp only).symm⟩
      | cons first more => simp at only
    subst none
    have zero : short.ceil 0 = 0 := Terms.ceil_zero
    simp only [Chunk.units, Chunk.paid, Chunk.target, List.map_nil, List.sum_nil, List.length_nil, Nat.zero_add, zero]
      at total capped ⊢
    omega
  · rw [Chunk.units_snoc]
    exact fits
  · rw [List.length_append, List.length_singleton, Nat.add_sub_cancel]
    exact floors

end Chunked

/-! ### A spread in a run of the system -/

variable {ι : Type} [DecidableEq ι]

/-- The chunk that a transaction takes from the spread of bucket `i` that begins at `start`. -/
def PutSystem.chunkOf (s : PutSystem ι) (i : ι) (start : Nat) : PutOp ι → List Chunk
  | .exerciseSpread k j amount delivery =>
    if k = i ∧ (s.buckets i).toQueue.nextSpreadStart (s.buckets i).exerciseCursor = start then
      match (s.buckets i).exerciseSpread s.now j (s.buckets j) amount delivery,
          (s.buckets j).exercise s.now amount delivery with
      | .ok (payout, _), .ok (proceeds, _) => [⟨amount, proceeds, payout⟩]
      | _, _ => []
    else []
  | _ => []

/-- A run, with the chunks of one spread. -/
structure Spreading (ι : Type) where
  system : PutSystem ι
  chunks : List Chunk

def Spreading.step (i : ι) (start : Nat) (l : Spreading ι) (op : PutOp ι) : Result Error (Spreading ι) := do
  let next ← putStep l.system op
  pure ⟨next, l.chunks ++ l.system.chunkOf i start op⟩

section Moves

variable {s next : PutSystem ι} {op : PutOp ι} {i : ι} {start : Nat}

theorem PutChange.spreads {now : Nat} {buckets : ι → PutBucket ι} {b : PutBucket ι} {live retired after gone : List Range}
    (changed : PutChange now buckets i live retired b after gone) :
    (buckets i).totalWritten ≤ b.totalWritten ∧
      ∀ r ∈ b.spreads, r ∈ (buckets i).spreads ∨ r.start = (buckets i).totalWritten := by
  cases changed with
  | idle same => exact ⟨le_refl _, fun r member => Or.inl member⟩
  | write wrote =>
    obtain ⟨_, _, _, _, _, _, rfl⟩ := PutBucket.writeAndCheck_ok.mp wrote
    exact ⟨Nat.le_add_right _ _, fun r member => Or.inl member⟩
  | exercise exercised =>
    obtain ⟨spreads, _, total, _⟩ := PutBucket.exercise_frame exercised
    exact ⟨total.ge, fun r member => Or.inl (spreads ▸ member)⟩
  | redeem taken redeemed =>
    obtain ⟨_, _, _, _, _, _, _, rfl⟩ := PutBucket.redeemPosition_ok redeemed
    exact ⟨le_refl _, fun r member => Or.inl member⟩
  | burn supply expired => exact ⟨le_refl _, fun r member => Or.inl member⟩
  | flag value => exact ⟨le_refl _, fun r member => Or.inl member⟩
  | closeOffset taken closed =>
    obtain ⟨_, _, _, _, _, _, _, _, _, _, _, rfl⟩ := PutBucket.closeOffset_ok closed
    exact ⟨le_refl _, fun r member => Or.inl member⟩
  | destroy taken empty => exact ⟨le_refl _, fun r member => Or.inl member⟩
  | writeSpread _ wrote =>
    obtain ⟨_, _, _, _, _, _, _, _, _, rfl⟩ := PutBucket.writeSpread_ok wrote
    refine ⟨Nat.le_add_right _ _, fun r member => ?_⟩
    rcases List.mem_append.mp member with old | new
    · exact Or.inl old
    · rw [List.mem_singleton.mp new]
      exact Or.inr rfl
  | exerciseSpread _ exercised =>
    obtain ⟨_, _, _, _, _, _, _, _, _, _, _, _, _, _, _, _, _, _, _, _, _, _, _, rfl⟩ :=
      PutBucket.exerciseSpread_ok.mp exercised
    exact ⟨le_refl _, fun r member => Or.inl member⟩
  | closeSpread taken closed =>
    obtain ⟨_, _, _, _, _, _, rfl⟩ := PutBucket.closeSpread_ok closed
    exact ⟨le_refl _, fun r member => Or.inl (List.mem_of_mem_eraseP member)⟩
  | redeemSpread taken redeemed =>
    obtain ⟨_, _, _, _, rfl⟩ := PutBucket.redeemSpreadPosition_ok redeemed
    exact ⟨le_refl _, fun r member => Or.inl (List.mem_of_mem_eraseP member)⟩

/-- A bucket that is replaced by one with no other escrow at `start` has the escrow it had there. -/
theorem escrow_update {buckets : ι → PutBucket ι} {b : PutBucket ι} {k : ι} {escrow : SpreadEscrow ι}
    (found : (Function.update buckets k b i).escrows start = some escrow)
    (kept : k = i → b.escrows start = some escrow → (buckets k).escrows start = some escrow) :
    (buckets i).escrows start = some escrow := by
  by_cases here : i = k
  · rw [here, Function.update_self] at found
    rw [here]
    exact kept here.symm found
  · rwa [Function.update_of_ne here] at found

theorem PutMove.escrow_kept (moved : PutMove s op next) (written : start < (s.buckets i).totalWritten)
    (idle : s.chunkOf i start op = []) {escrow : SpreadEscrow ι}
    (found : (next.buckets i).escrows start = some escrow) : (s.buckets i).escrows start = some escrow := by
  -- a call that removes an escrow adds none
  have removed : ∀ {k : ι} {place : Nat} (b : PutBucket ι), b.escrows = Function.update (s.buckets k).escrows place none →
      b.escrows start = some escrow → (s.buckets k).escrows start = some escrow := by
    intro k place b escrows found
    rw [escrows] at found
    by_cases here : start = place
    · rw [here, Function.update_self] at found
      cases found
    · rwa [Function.update_of_ne here] at found
  cases moved with
  | tick later => exact found
  | write wrote =>
    obtain ⟨_, _, _, _, _, _, rfl⟩ := PutBucket.writeAndCheck_ok.mp wrote
    exact escrow_update found fun _ own => own
  | exercise owned exercised =>
    exact escrow_update found fun _ own => (PutBucket.exercise_frame exercised).2.1 ▸ own
  | redeem member redeemed =>
    obtain ⟨_, _, _, _, _, _, _, rfl⟩ := PutBucket.redeemPosition_ok redeemed
    exact escrow_update found fun _ own => own
  | burn owned expired => exact escrow_update found fun _ own => own
  | invalidate k => exact escrow_update found fun _ own => own
  | revalidate k => exact escrow_update found fun _ own => own
  | closeOffset owned member closed =>
    obtain ⟨_, _, _, _, _, _, _, _, _, _, _, rfl⟩ := PutBucket.closeOffset_ok closed
    exact escrow_update found fun _ own => own
  | destroy member empty => exact found
  | writeSpread different owned wrote =>
    obtain ⟨_, _, _, _, _, _, _, _, _, rfl⟩ := PutBucket.writeSpread_ok wrote
    -- the new escrow stands behind all units written, so not under this key
    refine escrow_update found fun here own => ?_
    subst here
    simp only [Function.update_of_ne (Nat.ne_of_lt written)] at own
    exact own
  | @exerciseSpread k j amount delivery payout b long different owned exercised =>
    obtain ⟨_, _, rfl, _, _, old, _, _, _, _, _, _, _, _, held, _, _, _, _, _, inner, _, _, after⟩ :=
      PutBucket.exerciseSpread_ok.mp exercised
    -- the long bucket keeps its escrows
    have first : (Function.update s.buckets k b i).escrows start = some escrow := by
      refine escrow_update found fun here own => ?_
      rw [Function.update_of_ne (Ne.symm different)]
      exact (PutBucket.exercise_frame inner).2.1 ▸ own
    refine escrow_update first fun here own => ?_
    subst here
    -- a chunk of this spread would be counted by the call
    have elsewhere : start ≠ (s.buckets k).toQueue.nextSpreadStart (s.buckets k).exerciseCursor := by
      intro same
      rw [PutSystem.chunkOf, if_pos ⟨rfl, same.symm⟩, exercised, inner] at idle
      cases idle
    rw [after] at own
    simp only [Function.update_of_ne elsewhere] at own
    exact own
  | closeSpread owned member closed =>
    obtain ⟨_, _, _, _, _, _, rfl⟩ := PutBucket.closeSpread_ok closed
    exact escrow_update found fun _ own => removed _ rfl own
  | redeemSpread member redeemed =>
    obtain ⟨_, _, _, _, rfl⟩ := PutBucket.redeemSpreadPosition_ok redeemed
    exact escrow_update found fun _ own => removed _ rfl own

theorem PutMove.chunk {terms : ι → Terms} (moved : PutMove s op next) (held : s.Held terms) {c : Chunk} {rest : List Chunk}
    (cut : s.chunkOf i start op = c :: rest) :
    ∃ r ∈ (s.buckets i).spreads, ∃ escrow, r.start = start ∧ (s.buckets i).escrows start = some escrow ∧
      start ≤ (s.buckets i).exerciseCursor ∧ escrow.long = r.stop - (s.buckets i).exerciseCursor ∧
      0 < c.amount ∧ c.amount ≤ escrow.long ∧ rest = [] ∧ c.proceeds = (terms escrow.longBucketId).floor c.amount ∧
      ∃ split, split = PutBucket.settleSpread c.proceeds
          (Chunk.target (terms i) ((s.buckets i).exerciseCursor - start) c.amount) escrow.cash ∧
        c.payout = split.1 ∧
        (next.buckets i).escrows start = some ⟨escrow.long - c.amount, split.2, escrow.longBucketId⟩ := by
  cases moved with
  | @exerciseSpread k j amount delivery payout b long different owned exercised =>
    simp only [PutSystem.chunkOf] at cut
    split at cut
    · next place =>
      obtain ⟨rfl, here⟩ := place
      obtain ⟨_, _, backed⟩ := held.bucket k
      obtain ⟨_, positive, rfl, reached, r, escrow, high, low, proceeds, walk, found, _, inside, _, borrowed, rfl, enough,
        ceilHigh, ceilLow, _, inner, rfl, _, after⟩ := PutBucket.exerciseSpread_ok.mp exercised
      obtain ⟨member, begins, ahead⟩ := backed.sound.spread_at_cursor found
      rw [exercised, inner] at cut
      cases cut
      rw [here] at reached borrowed ceilHigh ceilLow begins after
      obtain ⟨_, again, units⟩ := backed.escrowed.held r member
      rw [begins, borrowed, Option.some.injEq] at again
      subst again
      have own := held.terms k
      have backer := held.terms escrow.longBucketId
      have top : high = (s.buckets k).terms.ceil _ := Terms.applyStrikeCeil_eq ceilHigh
      have bottom : low = (s.buckets k).terms.ceil _ := Terms.applyStrikeCeil_eq ceilLow
      obtain ⟨_, _, _, _, _, _, _, _, earned, _⟩ := PutBucket.exercise_ok.mp inner
      have floor : proceeds = (s.buckets escrow.longBucketId).terms.floor _ := Terms.applyStrikeFloor_eq earned
      rw [own] at top bottom
      rw [backer] at floor
      refine ⟨r, member, escrow, begins, borrowed, reached, ?_, positive, enough, rfl, floor, _, rfl, ?_, ?_⟩
      · rw [units]
        simp only [unassigned, assignedEnd]
        split_ifs <;> omega
      · simp only [Chunk.target, top, bottom]
      · simp only [System.retire, System.setBucket, Function.update_of_ne different, Function.update_self]
        rw [after]
        simp only [Function.update_self, Chunk.target, top, bottom]
    · cases cut
  | _ => cases cut

end Moves

namespace Spreading

variable {terms : ι → Terms} {i j : ι} {start amount topUp : Nat} {l next : Spreading ι} {op : PutOp ι}

/-- The escrow of the spread, while it is there, holds the units and the cash that its chunks have left. -/
structure Follows (terms : ι → Terms) (i j : ι) (start amount topUp : Nat) (l : Spreading ι) : Prop where
  written : start < (l.system.buckets i).totalWritten
  range : ∀ r ∈ (l.system.buckets i).spreads, r.start = start → r.stop = start + amount
  escrow : ∀ e, (l.system.buckets i).escrows start = some e → e.longBucketId = j ∧
    e.long + Chunk.units l.chunks = amount ∧ Chunk.paid l.chunks + e.cash = topUp + Chunk.earned l.chunks
  chunked : Chunked (terms i) (terms j) amount topUp l.chunks

theorem Follows.step (follows : l.Follows terms i j start amount topUp) (held : l.system.Held terms)
    (provided : topUp = (terms i).ceil amount - (terms j).floor amount + 1) (ran : l.step i start op = .ok next) :
    next.Follows terms i j start amount topUp := by
  obtain ⟨system, stepped, ran⟩ := bind_ok.mp ran
  cases pure_ok.mp ran
  have moved := putStep_move stepped
  obtain ⟨grown, spreads⟩ := (moved.change i).spreads
  have written := follows.written
  have range : ∀ r ∈ (system.buckets i).spreads, r.start = start → r.stop = start + amount := by
    intro r member begins
    rcases spreads r member with old | new
    · exact follows.range r old begins
    · omega
  cases cut : l.system.chunkOf i start op with
  | nil =>
    refine ⟨lt_of_lt_of_le written grown, range, ?_, ?_⟩
    · intro e found
      rw [List.append_nil]
      exact follows.escrow e (moved.escrow_kept written cut found)
    · rw [List.append_nil]
      exact follows.chunked
  | cons c rest =>
    obtain ⟨r, member, e, begins, listed, reached, units, positive, enough, rfl, earned, split, settled, paid, after⟩ :=
      moved.chunk held cut
    obtain ⟨rfl, long, cash⟩ := follows.escrow e listed
    have stop := follows.range r member begins
    have assigned : (l.system.buckets i).exerciseCursor - start = Chunk.units l.chunks := by omega
    rw [assigned, earned] at settled
    have whole : c = ⟨c.amount, (terms e.longBucketId).floor c.amount,
        (PutBucket.settleSpread ((terms e.longBucketId).floor c.amount)
          (Chunk.target (terms i) (Chunk.units l.chunks) c.amount) e.cash).1⟩ := by
      rw [← settled, ← paid, ← earned]
    refine ⟨lt_of_lt_of_le written grown, range, ?_, ?_⟩
    · intro e' found
      rw [after, Option.some.injEq] at found
      subst found
      have shares := PutBucket.settleSpread_sum ((terms e.longBucketId).floor c.amount)
        (Chunk.target (terms i) (Chunk.units l.chunks) c.amount) e.cash
      rw [← settled] at shares
      rw [Chunk.units_snoc, Chunk.paid_snoc, Chunk.earned_snoc]
      refine ⟨rfl, ?_, ?_⟩
      · simp only
        omega
      · simp only
        omega
    · rw [whole]
      exact follows.chunked.snoc provided cash (by omega)

theorem Follows.begins {s written : PutSystem ι} {allowed : Bool} (held : s.Held terms)
    (wrote : putStep s (.writeSpread allowed i j amount topUp) = .ok written) :
    Follows terms i j (s.buckets i).totalWritten amount topUp ⟨written, []⟩ ∧
      topUp = (terms i).ceil amount - (terms j).floor amount + 1 := by
  have moved := putStep_move wrote
  cases moved with
  | @writeSpread _ _ _ _ _ range b different owned writes =>
    obtain ⟨_, _, backed⟩ := held.bucket i
    have own := held.terms i
    have backer := held.terms j
    have funded := PutBucket.writeSpread_funded writes
    obtain ⟨_, positive, _, _, _, _, _, _, _, rfl⟩ := PutBucket.writeSpread_ok writes
    rw [show (s.buckets i).terms = terms i from own, show (s.buckets j).terms = terms j from backer] at funded
    refine ⟨⟨?_, ?_, ?_, Chunked.nil _ _ _ _⟩, funded⟩
    · simp only [System.pay, System.addPosition, System.setBucket, Function.update_self]
      omega
    · intro r member begins
      simp only [System.pay, System.addPosition, System.setBucket, Function.update_self] at member
      rcases List.mem_append.mp member with old | new
      · have proper := backed.sound.spreadsOrdered.nonempty r old
        have bound := backed.sound.spread_stop_le old
        omega
      · rw [List.mem_singleton.mp new]
    · intro e found
      simp only [System.pay, System.addPosition, System.setBucket, Function.update_self, Option.some.injEq] at found
      subst found
      exact ⟨rfl, rfl, Nat.add_comm _ _⟩

end Spreading

/-- A spread that is exercised in parts, in any run after it was written: no part is paid more than its target,
all of them at least the exact total but one settlement unit for each further part, the escrow keeps what the top-up
and the longs brought and the parts were not paid, and no exercise touches the pool of the short bucket. -/
theorem put_spread_chunks {now : Nat} {terms : ι → Terms} {before ops : List (PutOp ι)} {s written : PutSystem ι}
    {allowed : Bool} {i j : ι} {amount topUp : Nat} {l : Spreading ι}
    (reached : exec putStep (PutSystem.create now terms) before = .ok s)
    (wrote : putStep s (.writeSpread allowed i j amount topUp) = .ok written)
    (ran : exec (Spreading.step i (s.buckets i).totalWritten) ⟨written, []⟩ ops = .ok l) :
    Chunk.units l.chunks ≤ amount ∧ ChunkLaws (terms i) l.chunks ∧
      (∀ escrow, (l.system.buckets i).escrows (s.buckets i).totalWritten = some escrow →
        Chunk.paid l.chunks + escrow.cash = topUp + Chunk.earned l.chunks) ∧
      ∀ k m units delivery next, putStep l.system (.exerciseSpread k m units delivery) = .ok next →
        (next.buckets k).settlementBalance = (l.system.buckets k).settlementBalance := by
  have held := PutSystem.held_of_run reached
  obtain ⟨begins, provided⟩ := Spreading.Follows.begins held wrote
  have whole : l.system.Held terms ∧ l.Follows terms i j (s.buckets i).totalWritten amount topUp := by
    refine exec_invariant (Spreading.step i (s.buckets i).totalWritten)
      (fun l => l.system.Held terms ∧ l.Follows terms i j (s.buckets i).totalWritten amount topUp) ?_
      ⟨held.step wrote, begins⟩ ran
    rintro l op next ⟨held, follows⟩ stepped
    obtain ⟨_, moved, same⟩ := bind_ok.mp stepped
    cases pure_ok.mp same
    exact ⟨held.step moved, follows.step held provided stepped⟩
  refine ⟨whole.2.chunked.units, whole.2.chunked.laws, fun escrow found => (whole.2.escrow escrow found).2.2, ?_⟩
  intro k m units delivery next stepped
  cases putStep_move stepped with
  | exerciseSpread different owned exercised =>
    obtain ⟨_, _, _, _, _, _, _, _, _, _, _, _, _, _, _, _, _, _, _, _, _, _, _, rfl⟩ :=
      PutBucket.exerciseSpread_ok.mp exercised
    simp only [System.retire, System.setBucket, Function.update_of_ne different, Function.update_self]

-- Three units at 2.5 over longs at 1.5, in two parts.
theorem put_spread_two_chunks :
    ∃ s, exec putStep (PutSystem.create 0 (fun short : Bool => ⟨100, if short then 25 else 15, 1⟩)) [.write false 5 3] =
        .ok s ∧
      ∃ written, putStep s (.writeSpread true true false 3 5) = .ok written ∧
        ∃ l, exec (Spreading.step true (s.buckets true).totalWritten) ⟨written, []⟩
            [.exerciseSpread true false 1 1, .exerciseSpread true false 2 2] = .ok l ∧
          l.chunks = [⟨1, 1, 3⟩, ⟨2, 3, 5⟩] ∧ ChunkLaws ⟨100, 25, 1⟩ l.chunks := by
  refine exists_ok (fun s => (putStep s (.writeSpread true true false 3 5)).toOption.any fun written =>
    (exec (Spreading.step true (s.buckets true).totalWritten) ⟨written, []⟩
      [.exerciseSpread true false 1 1, .exerciseSpread true false 2 2]).toOption.any fun l =>
        decide (l.chunks = [⟨1, 1, 3⟩, ⟨2, 3, 5⟩])) (by decide +kernel) ?_
  intro s reached passed
  refine exists_ok _ passed ?_
  intro written wrote tested
  refine exists_ok _ tested ?_
  intro l ran chunks
  exact ⟨of_decide_eq_true chunks, (put_spread_chunks reached wrote ran).2.1⟩

end SuiOptions.Core
