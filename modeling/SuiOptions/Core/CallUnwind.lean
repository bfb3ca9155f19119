import SuiOptions.Core.CallInvariant
import SuiOptions.Core.Conservation

/-! Every spread of a live call bucket can be unwound.

A spread is backed by a bucket of another economics, with no higher strike and no
earlier expiry. Where no two buckets have the same strike and expiry, this orders
the buckets, and the spreads of a bucket can be unwound once those of the buckets
that back them are.
-/

set_option autoImplicit false

namespace SuiOptions.Core

open Execution Move Ranges

variable {ι : Type} [DecidableEq ι]

section Conserving

variable [Fintype ι] {s next : CallSystem ι}

theorem CallMove.conserved (moved : CallMove s next)
    (backed : ∀ i, ∃ plain, (s.buckets i).Backed s.now plain (s.retired i)) (conserved : Conserved s.buckets s.wallets) :
    Conserved next.buckets next.wallets := by
  cases moved with
  | tick later => exact conserved
  | @write i amount range b wrote =>
    obtain ⟨_, _, _, _, _, rfl⟩ := Bucket.writeAndCheck_ok.mp wrote
    refine conserved.update (i := i) ?_ (fun k other => ?_)
    · simp only [System.pay, System.addPosition, System.setBucket, Function.update_self, Bucket.longsFor]
      omega
    · simp only [System.pay, System.addPosition, System.setBucket, Function.update_of_ne other, Bucket.longsFor]
  | @exercise i amount payment b held exercised =>
    obtain ⟨spreads, escrows, _, supply⟩ := Bucket.exercise_frame exercised
    exact conserved.burn held spreads escrows supply
  | @redeem i p b member redeemed =>
    obtain ⟨_, _, _, _, _, _, _, rfl⟩ := Bucket.redeemPosition_ok redeemed
    exact conserved.update (i := i) rfl (fun k _ => rfl)
  | @burn i amount b held burned =>
    obtain ⟨_, rfl⟩ := Bucket.burnExpiredOption_ok burned
    exact conserved.burn held rfl rfl rfl
  | flag i value => exact conserved.update (i := i) rfl (fun k _ => rfl)
  | @closeOffset i p q amount b held member closed =>
    obtain ⟨_, _, _, _, _, _, _, _, rfl⟩ := Bucket.closeOffset_ok closed
    exact conserved.burn held rfl rfl rfl
  | @destroy p member empty => exact conserved
  | @writeSpread allowed i j amount cash range b different held wrote =>
    obtain ⟨plain, backed⟩ := backed i
    obtain ⟨_, _, _, _, _, _, _, _, free, rfl⟩ := Bucket.writeSpread_ok wrote
    have added : ∀ k, longsFor _ _ k = longsFor (s.buckets i).spreads (s.buckets i).escrows k +
        escrowShare (some ⟨amount, cash, j⟩) k := fun k =>
      longsFor_add (s := ⟨(s.buckets i).totalWritten, (s.buckets i).totalWritten + amount⟩) backed.escrowed free
    simp only [escrowShare] at added
    refine conserved.update (i := i) ?_ (fun k other => ?_)
    · simp only [System.pay, System.addPosition, System.setBucket, System.spend, Function.update_self,
        Bucket.longsFor, added, Function.update_of_ne different, if_neg (Ne.symm different)]
      omega
    · simp only [System.pay, System.addPosition, System.setBucket, System.spend, Function.update_of_ne other,
        Bucket.longsFor, added]
      by_cases long : k = j
      · subst long
        simp only [Function.update_self, if_true]
        omega
      · simp only [Function.update_of_ne long, if_neg (Ne.symm long), Nat.add_zero]
  | @unwind i j start b long different unwound =>
    obtain ⟨plain, backed⟩ := backed i
    obtain ⟨r, escrow, found, listed, rfl, exercised, rfl⟩ := Bucket.unwindSpread_ok.mp unwound
    obtain ⟨spread, _⟩ := Queue.findSpread_ok found
    obtain ⟨spreads, escrows, _, supply⟩ := Bucket.exercise_frame exercised
    -- The escrowed coins pass through the wallet of the transaction, which burns them.
    have released := conserved.release backed.sound.spreadsOrdered spread listed
      (b := { s.buckets i with
        toQueue := (s.buckets i).toQueue.removeSpread r.start
        escrows := Function.update (s.buckets i).escrows r.start none
        underlyingBalance := (s.buckets i).underlyingBalance + escrow.long }) rfl rfl rfl
    have burned := released.burn (i := escrow.longBucketId) (b := long)
      (show escrow.long ≤ _ by rw [Function.update_self]; omega)
      (by rw [Function.update_of_ne (Ne.symm different)]; exact spreads)
      (by rw [Function.update_of_ne (Ne.symm different)]; exact escrows)
      (by rw [Function.update_of_ne (Ne.symm different)]; exact supply)
    rw [Function.update_self, Nat.add_sub_cancel, Function.update_idem, Function.update_eq_self] at burned
    exact burned
  | @closeSpread i p amount escrow b held member closed =>
    obtain ⟨plain, backed⟩ := backed i
    obtain ⟨_, _, spread, _, _, listed, rfl⟩ := Bucket.closeSpread_ok closed
    have burned := conserved.burn (b := { s.buckets i with supply := (s.buckets i).supply - amount }) held rfl rfl rfl
    have released := burned.release (i := i) (s := p.range)
      (by rw [Function.update_self]; exact backed.sound.spreadsOrdered) (by rw [Function.update_self]; exact spread)
      (show _ = some escrow by rw [Function.update_self]; exact listed) (b := { s.buckets i with
        closed := insertRange (s.buckets i).closed p.range.start p.range.stop
        closedPending := (s.buckets i).closedPending + (p.range.stop - p.range.start)
        spreads := ((s.buckets i).toQueue.removeSpread p.range.start).spreads
        supply := (s.buckets i).supply - amount
        escrows := Function.update (s.buckets i).escrows p.range.start none })
      (by rw [Function.update_self]; rfl) (by rw [Function.update_self]) (by rw [Function.update_self])
    rw [Function.update_idem] at released
    exact released
  | @redeemSpread i p escrow b member redeemed =>
    obtain ⟨plain, backed⟩ := backed i
    obtain ⟨_, _, spread, listed, rfl⟩ := Bucket.redeemSpreadPosition_ok redeemed
    exact conserved.release backed.sound.spreadsOrdered spread listed rfl rfl rfl

omit [Fintype ι] in
theorem CallSystem.backed_of_run {now : Nat} {terms : ι → Terms} {s : CallSystem ι}
    (reached : Reaches callStep (CallSystem.create now terms) s) (i : ι) :
    ∃ plain, (s.ranges i).Perm (plain ++ (s.buckets i).spreads) ∧ (s.buckets i).Backed s.now plain (s.retired i) := by
  obtain ⟨ops, ran⟩ := reached
  obtain ⟨plain, parts, backed, _⟩ :=
    CallSystem.held_of_run (fun _ _ => True) (fun _ => trivial) (fun _ _ _ _ _ _ _ _ _ _ => trivial) ran i
  exact ⟨plain, parts, backed⟩

theorem CallSystem.conserved_of_run {now : Nat} {terms : ι → Terms} {s : CallSystem ι}
    (reached : Reaches callStep (CallSystem.create now terms) s) : Conserved s.buckets s.wallets := by
  have whole : Reaches callStep (CallSystem.create now terms) s ∧ Conserved s.buckets s.wallets := by
    obtain ⟨ops, ran⟩ := reached
    refine exec_invariant callStep
      (fun s => Reaches callStep (CallSystem.create now terms) s ∧ Conserved s.buckets s.wallets) ?_ ?_ ran
    · rintro s op next ⟨reached, conserved⟩ stepped
      refine ⟨reached.snoc stepped, (callStep_move stepped).conserved (fun i => ?_) conserved⟩
      obtain ⟨plain, _, backed⟩ := CallSystem.backed_of_run reached i
      exact ⟨plain, backed⟩
    · exact ⟨Reaches.refl _ _, fun k => by simp [CallSystem.create, Bucket.create, escrowedTotal, Bucket.longsFor,
        Core.longsFor]⟩
  exact whole.2

end Conserving

section Admission

/-- An escrow as `write_spread` admits it: the long bucket is another one, expires no
earlier and has no higher strike, and the cash exercises the escrowed coins. -/
structure Admitted (terms : ι → Terms) (i : ι) (escrow : SpreadEscrow ι) : Prop where
  other : i ≠ escrow.longBucketId
  later : (terms i).expiryMs ≤ (terms escrow.longBucketId).expiryMs
  lower : (terms escrow.longBucketId).strike * 10 ^ (terms i).strikeScale ≤
    (terms i).strike * 10 ^ (terms escrow.longBucketId).strikeScale
  priced : applyStrike escrow.long (terms escrow.longBucketId).strike (terms escrow.longBucketId).strikeScale =
    .ok escrow.cash
  positive : 0 < escrow.long

def CallSystem.Admits (terms : ι → Terms) (s : CallSystem ι) : Prop :=
  (∀ i, (s.buckets i).terms = terms i) ∧
    ∀ i start escrow, (s.buckets i).escrows start = some escrow → Admitted terms i escrow

theorem CallChange.escrow {now : Nat} {buckets : ι → Bucket ι} {i : ι} {next : Bucket ι}
    {live retired after gone : List Range} (changed : CallChange now buckets i live retired next after gone)
    {terms : ι → Terms} (known : ∀ i, (buckets i).terms = terms i)
    (admitted : ∀ start escrow, (buckets i).escrows start = some escrow → Admitted terms i escrow)
    {start : Nat} {escrow : SpreadEscrow ι} (found : next.escrows start = some escrow) :
    Admitted terms i escrow := by
  have kept : ∀ s, Function.update (buckets i).escrows s none start = some escrow →
      (buckets i).escrows start = some escrow := by
    intro s listed
    by_cases here : start = s
    · rw [here, Function.update_self] at listed
      cases listed
    · rwa [Function.update_of_ne here] at listed
  cases changed with
  | idle same => exact admitted start escrow found
  | write wrote =>
    obtain ⟨_, _, _, _, _, rfl⟩ := Bucket.writeAndCheck_ok.mp wrote
    exact admitted start escrow found
  | exercise exercised =>
    rw [(Bucket.exercise_frame exercised).2.1] at found
    exact admitted start escrow found
  | redeem taken redeemed =>
    obtain ⟨_, _, _, _, _, _, _, rfl⟩ := Bucket.redeemPosition_ok redeemed
    exact admitted start escrow found
  | burn burned =>
    obtain ⟨_, rfl⟩ := Bucket.burnExpiredOption_ok burned
    exact admitted start escrow found
  | flag value => exact admitted start escrow found
  | closeOffset taken closed =>
    obtain ⟨_, _, _, _, _, _, _, _, rfl⟩ := Bucket.closeOffset_ok closed
    exact admitted start escrow found
  | destroy taken empty => exact admitted start escrow found
  | @writeSpread allowed j _ amount cash _ different wrote =>
    obtain ⟨_, positive, later, lower, priced, _, _, _, _, rfl⟩ := Bucket.writeSpread_ok wrote
    by_cases here : start = (buckets i).totalWritten
    · rw [here] at found
      simp only [Function.update_self, Option.some.injEq] at found
      subst found
      have own := known i
      have long := known j
      simp only [Bucket.terms] at own long
      refine ⟨different, ?_, ?_, ?_, positive⟩
      · simp only [← own, ← long]; exact later
      · simp only [← own, ← long]; exact lower
      · simp only [← long]; exact priced
    · simp only [Function.update_of_ne here] at found
      exact admitted start escrow found
  | unwind unwound =>
    obtain ⟨_, _, _, _, _, _, rfl⟩ := Bucket.unwindSpread_ok.mp unwound
    exact admitted start escrow (kept _ found)
  | closeSpread taken closed =>
    obtain ⟨_, _, _, _, _, _, rfl⟩ := Bucket.closeSpread_ok closed
    exact admitted start escrow (kept _ found)
  | redeemSpread taken redeemed =>
    obtain ⟨_, _, _, _, rfl⟩ := Bucket.redeemSpreadPosition_ok redeemed
    exact admitted start escrow (kept _ found)

theorem CallSystem.admits_of_run {now : Nat} {terms : ι → Terms} {s : CallSystem ι}
    (reached : Reaches callStep (CallSystem.create now terms) s) : s.Admits terms := by
  obtain ⟨ops, ran⟩ := reached
  refine exec_invariant callStep (fun s => s.Admits terms) ?_ ⟨fun _ => rfl, ?_⟩ ran
  · rintro s op next ⟨known, admitted⟩ stepped
    have changed := (callStep_move stepped).change
    exact ⟨fun i => ((changed i).terms).trans (known i),
      fun i start escrow found => (changed i).escrow known (admitted i) found⟩
  · intro i start escrow found
    cases found

end Admission

section Unwinding

omit [DecidableEq ι] in
/-- Without spreads a live bucket can exercise any part of its supply. -/
theorem Bucket.Backed.exercise_succeeds {now amount payment : Nat} {b : Bucket ι} {plain retired : List Range}
    (backed : b.Backed now plain retired) (live : now < b.expiryMs) (clear : b.spreads = [])
    (positive : 0 < amount) (enough : amount ≤ b.supply) (priced : b.requiredSettlement amount = .ok payment) :
    ∃ next, b.exercise now amount payment = .ok next := by
  have supplied := backed.supply live
  have bound := backed.sound.cursorBound
  have ahead : within b.closed b.exerciseCursor b.totalWritten = b.closedPending := by
    rw [within_eq_size (fun r member => ⟨backed.sound.closedAhead r member, backed.sound.closed_stop_le member⟩),
      backed.sound.closedSize]
  have pool : b.underlyingBalance = b.supply := by
    have filled : within plain b.exerciseCursor b.totalWritten + within b.closed b.exerciseCursor b.totalWritten =
        b.totalWritten - b.exerciseCursor := by
      apply within_fill
      intro point low high
      have total := backed.sound.partition point
      have gone : cover retired point = 0 := backed.behind live point low
      rw [if_pos high, clear, cover_append, gone, cover_nil] at total
      omega
    rw [backed.underlying]
    omega
  have open' : ∀ cur, b.toQueue.nextSpread cur = b.totalWritten := by
    intro cur
    simp only [Queue.nextSpread, clear]
  obtain ⟨walked, advanced⟩ :
      ∃ walked, b.toQueue.advanceCursor b.toQueue.nextSpread .spreadUnwindRequired amount = .ok walked :=
    Queue.advanceCursor_succeeds backed.sound.ready (Queue.nextSpread_bounding backed.sound.spreadsOrdered)
      backed.sound.closedSize (le_refl _) (fun cur _ _ => open' cur)
      (fun r member => Or.inl (backed.sound.closed_stop_le member)) (fun _ => by omega)
  have small := backed.bounded
  exact ⟨_, Bucket.exercise_ok.mpr
    ⟨live, positive, priced, by omega, by omega, enough, walked, advanced, by omega, rfl⟩⟩

structure Unwound (s next : CallSystem ι) : Prop where
  now : next.now = s.now
  positions : next.positions = s.positions
  wallets : next.wallets = s.wallets
  spreads : ∀ i, (next.buckets i).spreads.Sublist (s.buckets i).spreads
  escrows : ∀ i start escrow, (next.buckets i).escrows start = some escrow →
    (s.buckets i).escrows start = some escrow

omit [DecidableEq ι] in
theorem Unwound.refl (s : CallSystem ι) : Unwound s s :=
  ⟨rfl, rfl, rfl, fun _ => List.Sublist.refl _, fun _ _ _ found => found⟩

omit [DecidableEq ι] in
theorem Unwound.trans {a b c : CallSystem ι} (first : Unwound a b) (second : Unwound b c) : Unwound a c :=
  ⟨second.now.trans first.now, second.positions.trans first.positions, second.wallets.trans first.wallets,
    fun i => (second.spreads i).trans (first.spreads i),
    fun i start escrow found => first.escrows i start escrow (second.escrows i start escrow found)⟩

def CallOp.IsUnwind : CallOp ι → Prop
  | .unwindSpread _ _ _ => True
  | _ => False

/-- A run of unwinds only. -/
def Unwinds (s next : CallSystem ι) : Prop :=
  ∃ ops : List (CallOp ι), (∀ op ∈ ops, op.IsUnwind) ∧ exec callStep s ops = .ok next

theorem Unwinds.trans {a b c : CallSystem ι} (first : Unwinds a b) (second : Unwinds b c) : Unwinds a c := by
  obtain ⟨left, leftOnly, leftRan⟩ := first
  obtain ⟨right, rightOnly, rightRan⟩ := second
  refine ⟨left ++ right, ?_, (exec_append_ok callStep).mpr ⟨b, leftRan, rightRan⟩⟩
  intro op member
  rcases List.mem_append.mp member with member | member
  · exact leftOnly op member
  · exact rightOnly op member

variable {now : Nat} {terms : ι → Terms} {s next : CallSystem ι} {i j : ι}

theorem unwindSpread_unwound {start : Nat} (ran : callStep s (.unwindSpread i j start) = .ok next) :
    Unwound s next := by
  obtain ⟨different, ran⟩ := check_bind_ok.mp ran
  obtain ⟨⟨b, long⟩, unwound, ran⟩ := bind_ok.mp ran
  cases pure_ok.mp ran
  obtain ⟨r, escrow, found, _, _, exercised, rfl⟩ := Bucket.unwindSpread_ok.mp unwound
  obtain ⟨spreads, escrows, _⟩ := Bucket.exercise_frame exercised
  refine ⟨rfl, rfl, rfl, fun k => ?_, fun k start escrow listed => ?_⟩
  · simp only [System.retire, System.setBucket]
    by_cases second : k = j
    · subst second
      rw [Function.update_self, spreads]
    · rw [Function.update_of_ne second]
      by_cases first : k = i
      · subst first
        rw [Function.update_self]
        exact List.eraseP_sublist
      · rw [Function.update_of_ne first]
  · simp only [System.retire, System.setBucket] at listed
    by_cases second : k = j
    · subst second
      rw [Function.update_self, escrows] at listed
      exact listed
    · rw [Function.update_of_ne second] at listed
      by_cases first : k = i
      · subst first
        rw [Function.update_self] at listed
        by_cases here : start = r.start
        · simp only [here, Function.update_self] at listed
          cases listed
        · simpa only [Function.update_of_ne here] using listed
      · rwa [Function.update_of_ne first] at listed

/-- A spread can be unwound once the bucket that backs it has none of its own. -/
theorem unwindSpread_succeeds [Fintype ι] (reached : Reaches callStep (CallSystem.create now terms) s)
    (live : s.now < (terms i).expiryMs) {r : Range} {escrow : SpreadEscrow ι}
    (spread : r ∈ (s.buckets i).spreads) (listed : (s.buckets i).escrows r.start = some escrow)
    (clear : (s.buckets escrow.longBucketId).spreads = []) :
    ∃ next, callStep s (.unwindSpread i escrow.longBucketId r.start) = .ok next ∧
      (next.buckets i).spreads.length < (s.buckets i).spreads.length := by
  obtain ⟨_, _, backed⟩ := CallSystem.backed_of_run reached i
  obtain ⟨_, _, longBacked⟩ := CallSystem.backed_of_run reached escrow.longBucketId
  obtain ⟨known, admitted⟩ := CallSystem.admits_of_run reached
  have admission := admitted i r.start escrow listed
  have longTerms := known escrow.longBucketId
  have enough := (CallSystem.conserved_of_run reached).long_le spread listed
  have longLive : s.now < (s.buckets escrow.longBucketId).expiryMs := by
    have := admission.later
    rw [← longTerms] at this
    simp only [Bucket.terms] at this
    omega
  have priced : (s.buckets escrow.longBucketId).requiredSettlement escrow.long = .ok escrow.cash := by
    have := admission.priced
    rw [← longTerms] at this
    exact this
  obtain ⟨long, exercised⟩ := longBacked.exercise_succeeds longLive clear admission.positive enough priced
  have found := Queue.findSpread_of backed.sound.spreadsOrdered spread
  have unwound := Bucket.unwindSpread_ok.mpr ⟨r, escrow, found, listed, rfl, exercised, rfl⟩
  refine ⟨_, check_bind_ok.mpr ⟨admission.other, bind_ok.mpr ⟨(_, _), unwound, rfl⟩⟩, ?_⟩
  simp only [System.retire, System.setBucket, Function.update_of_ne admission.other, Function.update_self]
  have split := (eraseP_start backed.sound.spreadsOrdered spread).length_eq
  simp only [Queue.removeSpread, List.length_cons] at split ⊢
  omega

end Unwinding

section Order

/-- No two buckets have the same expiry and the same strike value, as the
registry that derives bucket addresses ensures. -/
def Distinct (terms : ι → Terms) : Prop :=
  ∀ i j, (terms i).expiryMs = (terms j).expiryMs →
    (terms i).strike * 10 ^ (terms j).strikeScale = (terms j).strike * 10 ^ (terms i).strikeScale → i = j

/-- Bucket `k` may back spreads of bucket `i`. -/
def MayBack (terms : ι → Terms) (k i : ι) : Prop :=
  i ≠ k ∧ (terms i).expiryMs ≤ (terms k).expiryMs ∧
    (terms k).strike * 10 ^ (terms i).strikeScale ≤ (terms i).strike * 10 ^ (terms k).strikeScale

theorem cross_trans {a b c m n o : Nat} (first : a * 10 ^ n ≤ b * 10 ^ m) (second : b * 10 ^ o ≤ c * 10 ^ n) :
    a * 10 ^ o ≤ c * 10 ^ m := by
  have positive : 0 < 10 ^ n := by positivity
  refine Nat.le_of_mul_le_mul_right ?_ positive
  calc a * 10 ^ o * 10 ^ n = a * 10 ^ n * 10 ^ o := by ring
    _ ≤ b * 10 ^ m * 10 ^ o := Nat.mul_le_mul_right _ first
    _ = b * 10 ^ o * 10 ^ m := by ring
    _ ≤ c * 10 ^ n * 10 ^ m := Nat.mul_le_mul_right _ second
    _ = c * 10 ^ m * 10 ^ n := by ring

variable {now : Nat} {terms : ι → Terms} {s : CallSystem ι} {i : ι}

omit [DecidableEq ι] in
theorem MayBack.trans (distinct : Distinct terms) {a b c : ι} (first : MayBack terms a b)
    (second : MayBack terms b c) : MayBack terms a c := by
  obtain ⟨_, laterFirst, lowerFirst⟩ := first
  obtain ⟨apart, laterSecond, lowerSecond⟩ := second
  refine ⟨?_, le_trans laterSecond laterFirst, cross_trans lowerFirst lowerSecond⟩
  intro same
  subst same
  exact apart (distinct c b (by omega) (by omega))

omit [DecidableEq ι] in
theorem mayBack_wellFounded [Fintype ι] (distinct : Distinct terms) : WellFounded (MayBack terms) := by
  have : IsTrans ι (MayBack terms) := ⟨fun _ _ _ first second => first.trans distinct second⟩
  have : Std.Irrefl (MayBack terms) := ⟨fun _ self => self.1 rfl⟩
  exact Finite.wellFounded_of_trans_of_irrefl _

theorem clear_spreads [Fintype ι] (distinct : Distinct terms)
    (reached : Reaches callStep (CallSystem.create now terms) s) (live : s.now < (terms i).expiryMs) :
    ∃ next, Unwinds s next ∧ Unwound s next ∧ (next.buckets i).spreads = [] := by
  -- The buckets that back the spreads of this one come first in the order; the
  -- spreads of this one go one by one.
  induction i using (mayBack_wellFounded distinct).induction generalizing s with
  | _ i backers =>
    induction counted : (s.buckets i).spreads.length using Nat.strong_induction_on generalizing s with
    | _ count fewer =>
      cases spreads : (s.buckets i).spreads with
      | nil => exact ⟨s, ⟨[], by simp, rfl⟩, Unwound.refl s, spreads⟩
      | cons r rest =>
        have member : r ∈ (s.buckets i).spreads := by rw [spreads]; exact List.mem_cons_self
        obtain ⟨_, _, backed⟩ := CallSystem.backed_of_run reached i
        obtain ⟨escrow, listed, _⟩ := backed.escrowed.held r member
        have admission := (CallSystem.admits_of_run reached).2 i r.start escrow listed
        obtain ⟨cleared, unwinds, unwound, none⟩ :=
          backers escrow.longBucketId ⟨admission.other, admission.later, admission.lower⟩ reached (by have := admission.later; omega)
        have reachedCleared : Reaches callStep (CallSystem.create now terms) cleared := by
          obtain ⟨ops, _, ran⟩ := unwinds
          exact reached.trans ⟨ops, ran⟩
        have liveCleared : cleared.now < (terms i).expiryMs := by rw [unwound.now]; exact live
        by_cases still : r ∈ (cleared.buckets i).spreads
        · obtain ⟨_, _, clearedBacked⟩ := CallSystem.backed_of_run reachedCleared i
          obtain ⟨left, found, _⟩ := clearedBacked.escrowed.held r still
          have same : left = escrow :=
            Option.some.inj ((unwound.escrows i r.start left found).symm.trans listed)
          subst same
          obtain ⟨next, moved, shorter⟩ := unwindSpread_succeeds reachedCleared liveCleared still found none
          have once : Unwinds cleared next :=
            ⟨[.unwindSpread i left.longBucketId r.start], by simp [CallOp.IsUnwind],
              (exec_cons_ok callStep).mpr ⟨next, moved, rfl⟩⟩
          have after := unwindSpread_unwound moved
          have bound := (unwound.spreads i).length_le
          obtain ⟨final, more, rest, empty⟩ := fewer (next.buckets i).spreads.length (by omega)
            (reachedCleared.snoc moved) (by rw [after.now]; exact liveCleared) rfl
          exact ⟨final, (unwinds.trans once).trans more, (unwound.trans after).trans rest, empty⟩
        · have shorter : (cleared.buckets i).spreads.length < count := by
            have sub := unwound.spreads i
            refine lt_of_le_of_ne (by rw [← counted]; exact sub.length_le) ?_
            intro same
            rw [sub.eq_of_length (by rw [same, counted])] at still
            exact still member
          obtain ⟨final, more, rest, empty⟩ := fewer _ shorter reachedCleared liveCleared rfl
          exact ⟨final, unwinds.trans more, unwound.trans rest, empty⟩

/-- In every reachable state of a finite system of distinct buckets, every spread of
a live bucket can be unwound, and every holder can exercise after some unwinds. -/
theorem call_unwind_complete [Fintype ι] {ops : List (CallOp ι)} (distinct : Distinct terms)
    (ran : exec callStep (CallSystem.create now terms) ops = .ok s) (live : s.now < (terms i).expiryMs) :
    (∀ r ∈ (s.buckets i).spreads, ∃ next, Unwinds s next ∧ r ∉ (next.buckets i).spreads ∧
      r ∈ plainRanges (next.ranges i) (next.buckets i).spreads) ∧
    ∀ amount payment, 0 < amount → amount ≤ s.wallets i →
      (s.buckets i).requiredSettlement amount = .ok payment →
      ∃ next final, Unwinds s next ∧ callStep next (.exercise i amount payment) = .ok final := by
  have reached : Reaches callStep (CallSystem.create now terms) s := ⟨ops, ran⟩
  obtain ⟨next, unwinds, unwound, clear⟩ := clear_spreads distinct reached live
  refine ⟨fun r member => ⟨next, unwinds, by rw [clear]; simp, ?_⟩, ?_⟩
  · obtain ⟨plain, parts, _⟩ := CallSystem.backed_of_run reached i
    have listed : r ∈ s.ranges i := parts.mem_iff.mpr (List.mem_append_right plain member)
    rw [System.ranges, ← unwound.positions] at listed
    rw [clear]
    exact List.mem_filter.mpr ⟨listed, by simp⟩
  · intro amount payment positive held priced
    have reachedNext : Reaches callStep (CallSystem.create now terms) next := by
      obtain ⟨more, _, rest⟩ := unwinds
      exact reached.trans ⟨more, rest⟩
    obtain ⟨_, _, backed⟩ := CallSystem.backed_of_run reachedNext i
    have before := (CallSystem.admits_of_run reached).1 i
    have after := (CallSystem.admits_of_run reachedNext).1 i
    have same : (next.buckets i).terms = (s.buckets i).terms := after.trans before.symm
    have kept : amount ≤ next.wallets i := by rw [unwound.wallets]; exact held
    have enough := le_trans kept ((CallSystem.conserved_of_run reachedNext).wallet_le i)
    have stillLive : next.now < (next.buckets i).expiryMs := by
      rw [unwound.now]
      exact lt_of_lt_of_eq live (congrArg Terms.expiryMs after).symm
    have stillPriced : (next.buckets i).requiredSettlement amount = .ok payment := by
      simp only [Bucket.terms, Terms.mk.injEq] at same
      rw [Bucket.requiredSettlement, same.2.1, same.2.2]
      exact priced
    obtain ⟨b, exercised⟩ := backed.exercise_succeeds stillLive clear positive enough stillPriced
    exact ⟨next, _, unwinds, bind_ok.mpr ⟨_, System.take_ok.mpr ⟨kept, rfl⟩, bind_ok.mpr ⟨b, exercised, rfl⟩⟩⟩

-- The cursor of the higher strike stands at a spread backed by the lower one.
theorem call_unwind_complete_sample :
    ∃ s, exec callStep (CallSystem.create 0 (fun high : Bool => ⟨100, if high then 20 else 15, 1⟩))
        [.write false 10, .writeSpread true true false 3 5] = .ok s ∧
      (∀ r ∈ (s.buckets true).spreads, ∃ next, Unwinds s next ∧ r ∉ (next.buckets true).spreads ∧
        r ∈ plainRanges (next.ranges true) (next.buckets true).spreads) ∧
      ∀ amount payment, 0 < amount → amount ≤ s.wallets true →
        (s.buckets true).requiredSettlement amount = .ok payment →
        ∃ next final, Unwinds s next ∧ callStep next (.exercise true amount payment) = .ok final :=
  exists_ok (fun s => s.now < 100) rfl (fun _ ran early =>
    call_unwind_complete (by unfold Distinct; decide) ran (by simpa using early))

end Order

end SuiOptions.Core
