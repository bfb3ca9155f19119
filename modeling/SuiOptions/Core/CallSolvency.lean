import SuiOptions.Core.CallInvariant

/-! When the cash of a call bucket covers its redemptions.

Cash comes in as one rounded amount per exercise and goes out as one rounded
amount per position. The two agree for every history exactly when the rounding
of the bucket's strike is linear on the amounts that can be written.
-/

set_option autoImplicit false

namespace SuiOptions.Core

open Execution Move Ranges

variable {ι : Type} [DecidableEq ι]

/-- Every amount that can be written costs that many times the price of one unit. -/
def RoundsLinearly (strike strikeScale : Nat) : Prop :=
  ∀ amount cost, amount < u64Bound - 1 → applyStrike amount strike strikeScale = .ok cost →
    cost = amount * halfUp 1 strike strikeScale

/-- In no reachable state does a redemption find too little cash in the bucket. -/
def CallSystem.NeverShort (initial : CallSystem ι) (i : ι) : Prop :=
  ∀ ops s p, exec callStep initial ops = .ok s →
    callStep s (.redeemPosition i p) ≠ .error (.code .notEnoughSettlement)

section Sufficient

/-- The cash is the exercised units' worth, at the price of one unit. -/
def Bucket.Paid (b : Bucket ι) (plain : List Range) : Prop :=
  RoundsLinearly b.strike b.strikeScale →
    b.settlementBalance = within plain 0 b.exerciseCursor * halfUp 1 b.strike b.strikeScale

/-- The supply, and with it every live range, is smaller than the largest amount. -/
structure Bucket.Small (b : Bucket ι) (plain : List Range) : Prop where
  supply : b.supply < u64Bound - 1
  ranges : ∀ r ∈ plain ++ b.spreads, r.size < u64Bound - 1

variable {now : Nat} {b next : Bucket ι} {plain rest retired gone : List Range}

theorem Bucket.Small.flow (flowed : b.Flow now plain retired next rest gone) (small : b.Small plain) :
    next.Small rest := by
  have supplied := small.supply
  cases flowed with
  | idle => exact small
  | @write amount range _ wrote =>
    obtain ⟨_, _, _, fits, rfl, rfl⟩ := Bucket.writeAndCheck_ok.mp wrote
    refine ⟨fits, ?_⟩
    intro r member
    rcases List.mem_cons.mp member with same | member
    · -- the new range is as large as the supply it adds
      rw [same]; simp only [Range.size]; omega
    · exact small.ranges r member
  | exercise exercised =>
    obtain ⟨spreads, _, _, less⟩ := Bucket.exercise_frame exercised
    exact ⟨by omega, by rw [spreads]; exact small.ranges⟩
  | redeem split redeemed =>
    obtain ⟨_, _, _, _, _, _, _, rfl⟩ := Bucket.redeemPosition_ok redeemed
    refine ⟨supplied, ?_⟩
    exact fun r member => small.ranges r (((split.append_right _).mem_iff).mpr (List.mem_cons_of_mem _ member))
  | burn burned =>
    obtain ⟨_, rfl⟩ := Bucket.burnExpiredOption_ok burned
    exact ⟨by simp only; omega, small.ranges⟩
  | flag value => exact ⟨supplied, small.ranges⟩
  | @closeOffset id p q amount _ _ split closed =>
    obtain ⟨_, _, _, _, _, _, _, rfl, rfl⟩ := Bucket.closeOffset_ok closed
    refine ⟨by simp only; omega, ?_⟩
    intro r member
    rcases List.mem_cons.mp member with same | member
    · -- what is left of the closed position is a part of it
      have whole := small.ranges p.range (((split.append_right _).mem_iff).mpr List.mem_cons_self)
      rw [same]
      simp only [Range.size] at whole ⊢
      omega
    · exact small.ranges r (((split.append_right _).mem_iff).mpr (List.mem_cons_of_mem _ member))
  | destroy split empty =>
    refine ⟨supplied, ?_⟩
    exact fun r member => small.ranges r (((split.append_right _).mem_iff).mpr (List.mem_cons_of_mem _ member))
  | writeSpread wrote =>
    obtain ⟨_, _, _, _, _, _, fits, rfl, _, rfl⟩ := Bucket.writeSpread_ok wrote
    refine ⟨fits, ?_⟩
    intro r member
    simp only [← List.append_assoc] at member
    rcases List.mem_append.mp member with member | member
    · exact small.ranges r member
    · rw [List.mem_singleton.mp member]
      simp only [Range.size]
      omega
  | unwind spread unwound =>
    obtain ⟨_, _, _, _, _, _, rfl⟩ := Bucket.unwindSpread_ok.mp unwound
    refine ⟨supplied, ?_⟩
    intro r member
    rcases List.mem_cons.mp member with same | member
    · -- the unwound spread comes back as a plain range
      rw [same]; exact small.ranges _ (List.mem_append_right _ spread)
    · exact small.ranges r (List.mem_append.mpr ((List.mem_append.mp member).imp_right List.mem_of_mem_eraseP))
  | closeSpread closed =>
    obtain ⟨_, _, _, _, _, _, rfl⟩ := Bucket.closeSpread_ok closed
    refine ⟨by simp only; omega, fun r member => ?_⟩
    exact small.ranges r (List.mem_append.mpr ((List.mem_append.mp member).imp_right List.mem_of_mem_eraseP))
  | redeemSpread redeemed =>
    obtain ⟨_, _, _, _, rfl⟩ := Bucket.redeemSpreadPosition_ok redeemed
    refine ⟨supplied, fun r member => ?_⟩
    exact small.ranges r (List.mem_append.mpr ((List.mem_append.mp member).imp_right List.mem_of_mem_eraseP))

/-- What a redemption owes for the exercised units, when rounding is linear. -/
theorem owed_eq {cursor strike strikeScale owed : Nat} {r : Range} (linear : RoundsLinearly strike strikeScale)
    (proper : r.start ≤ r.stop) (small : r.size < u64Bound - 1)
    (priced : applyStrike (exercisedUnits cursor r) strike strikeScale = .ok owed) :
    owed = r.within 0 cursor * halfUp 1 strike strikeScale := by
  have units : exercisedUnits cursor r = r.within 0 cursor := by
    simp only [exercisedUnits, Range.within]
    split_ifs <;> omega
  have fits : exercisedUnits cursor r < u64Bound - 1 := by
    simp only [units, Range.within, Range.size] at small ⊢
    omega
  rw [← units]
  exact linear _ _ fits priced

theorem Bucket.Paid.flow (backed : b.Backed now plain retired) (flowed : b.Flow now plain retired next rest gone)
    (small : b.Small plain) (paid : b.Paid plain) : next.Paid rest := by
  cases flowed with
  | idle => exact paid
  | @write amount range _ wrote =>
    obtain ⟨_, _, _, _, rfl, rfl⟩ := Bucket.writeAndCheck_ok.mp wrote
    intro linear
    have bound := backed.sound.cursorBound
    -- the new units lie ahead of the cursor
    have unexercised : (⟨b.totalWritten, b.totalWritten + amount⟩ : Range).within 0 b.exerciseCursor = 0 := by
      simp only [Range.within]; omega
    simp only [within_cons, unexercised, Nat.zero_add]
    exact paid linear
  | @exercise amount payment _ exercised =>
    obtain ⟨_, units, forward, _⟩ := backed.exercise exercised
    obtain ⟨_, _, priced, _, _, enough, walked, _, _, rfl⟩ := Bucket.exercise_ok.mp exercised
    intro linear
    have supplied := small.supply
    -- what is paid in is the price of the units the cursor crosses
    have cost : payment = amount * _ := linear amount payment (by omega) priced
    have split := within_split plain (Nat.zero_le b.exerciseCursor) forward
    simp only at units split ⊢
    rw [paid linear, cost, ← split, units, Nat.add_mul]
  | @redeem id p _ _ split redeemed =>
    obtain ⟨_, _, _, owed, priced, _, funded, rfl⟩ := Bucket.redeemPosition_ok redeemed
    intro linear
    -- what the position leaves with is the price of its exercised units
    have owes := owed_eq linear (backed.proper _ (split.mem_iff.mpr List.mem_cons_self))
      (small.ranges _ (List.mem_append_left _ (split.mem_iff.mpr List.mem_cons_self))) priced
    have cash := paid linear
    rw [within_perm split, within_cons, Nat.add_mul] at cash
    simp only at owes ⊢
    omega
  | burn burned =>
    obtain ⟨_, rfl⟩ := Bucket.burnExpiredOption_ok burned
    exact paid
  | flag value => exact paid
  | @closeOffset id p q amount _ _ split closed =>
    obtain ⟨_, _, _, _, unexercised, _, _, rfl, rfl⟩ := Bucket.closeOffset_ok closed
    intro linear
    have cash := paid linear
    -- only unexercised units are closed, so the exercised part of the range stays
    have same : (⟨p.range.start, p.range.stop - amount⟩ : Range).within 0 b.exerciseCursor =
        p.range.within 0 b.exerciseCursor := by
      simp only [Range.within]; omega
    rw [within_perm split, within_cons] at cash
    simp only [within_cons, same]
    exact cash
  | @destroy range _ split empty =>
    intro linear
    have cash := paid linear
    have nothing : range.within 0 b.exerciseCursor = 0 := by
      simp only [Range.within]; omega
    rw [within_perm split, within_cons, nothing, Nat.zero_add] at cash
    exact cash
  | writeSpread wrote =>
    obtain ⟨_, _, _, _, _, _, fits, rfl, _, rfl⟩ := Bucket.writeSpread_ok wrote
    exact paid
  | @unwind _ _ _ _ r spread unwound =>
    -- an unwound spread becomes a plain range, which is ahead of the cursor as a whole
    have ahead := backed.spreadsAhead r spread
    obtain ⟨_, _, _, _, _, _, rfl⟩ := Bucket.unwindSpread_ok.mp unwound
    intro linear
    have unexercised : r.within 0 b.exerciseCursor = 0 := by
      simp only [Range.within]; omega
    simp only [Queue.removeSpread, within_cons, unexercised, Nat.zero_add]
    exact paid linear
  | closeSpread closed =>
    obtain ⟨_, _, _, _, _, _, rfl⟩ := Bucket.closeSpread_ok closed
    exact paid
  | redeemSpread redeemed =>
    obtain ⟨_, _, _, _, rfl⟩ := Bucket.redeemSpreadPosition_ok redeemed
    exact paid

theorem applyStrike_error {amount strike strikeScale : Nat} {why : Error}
    (failed : applyStrike amount strike strikeScale = .error (.code why)) : why = .strikeScaleTooLarge := by
  rcases bind_error.mp failed with failed | ⟨_, _, failed⟩
  · rcases bind_error.mp failed with failed | ⟨_, _, failed⟩
    · exact Abort.code.inj (check_error.mp failed).2
    · cases failed
  · rcases bind_error.mp failed with failed | ⟨_, _, failed⟩
    · exact absurd failed fit_error
    · rcases bind_error.mp failed with failed | ⟨_, _, failed⟩
      · exact absurd failed fit_error
      · exact absurd failed fit_error

theorem Bucket.redeemPosition_short {id : ι} {p : Position ι}
    (refused : b.redeemPosition now id p = .error (.code .notEnoughSettlement)) :
    p.bucketId = id ∧ b.overlapsSpread p.range.start p.range.stop = false ∧
      ∃ owed, applyStrike (exercisedUnits b.exerciseCursor p.range) b.strike b.strikeScale = .ok owed ∧
        b.settlementBalance < owed := by
  obtain ⟨_, refused⟩ := (check_bind_error (by decide)).mp refused
  obtain ⟨own, refused⟩ := (check_bind_error (by decide)).mp refused
  obtain ⟨clear, refused⟩ := (check_bind_error (by decide)).mp refused
  rcases bind_error.mp refused with failed | ⟨_, _, refused⟩
  · exact absurd failed sub_error
  rcases bind_error.mp refused with failed | ⟨_, _, refused⟩
  · exact absurd failed sub_error
  rcases bind_error.mp refused with failed | ⟨_, _, refused⟩
  · exact absurd failed fit_error
  rcases bind_error.mp refused with failed | ⟨owed, priced, refused⟩
  · exact absurd (applyStrike_error failed) (by decide)
  rcases bind_error.mp refused with failed | ⟨_, split, refused⟩
  · exact absurd (Abort.code.inj (check_pure_error.mp failed).2) (by decide)
  obtain ⟨_, rfl⟩ := Bucket.splitUnderlying_ok.mp split
  exact ⟨own, clear, owed, priced, Nat.lt_of_not_le (check_pure_error.mp refused).1⟩

theorem callStep_redeem_short {s : CallSystem ι} {i : ι} {p : Position ι}
    (refused : callStep s (.redeemPosition i p) = .error (.code .notEnoughSettlement)) :
    p ∈ s.positions ∧ (s.buckets i).redeemPosition s.now i p = .error (.code .notEnoughSettlement) := by
  rcases bind_error.mp refused with failed | ⟨_, taken, refused⟩
  · exact absurd (Abort.code.inj (check_pure_error.mp failed).2) (by decide)
  obtain ⟨member, rfl⟩ := System.takePosition_ok.mp taken
  rcases bind_error.mp refused with refused | ⟨_, _, impossible⟩
  · exact ⟨member, refused⟩
  · cases impossible

/-- Every bucket of a reachable system is backed, small and, where its strike rounds linearly, paid. -/
theorem CallSystem.paid_of_run {now : Nat} {terms : ι → Terms} {ops : List (CallOp ι)} {s : CallSystem ι}
    (ran : exec callStep (CallSystem.create now terms) ops = .ok s) (i : ι) :
    ∃ plain, (s.ranges i).Perm (plain ++ (s.buckets i).spreads) ∧ (s.buckets i).Backed s.now plain (s.retired i) ∧
      (s.buckets i).Small plain ∧ (s.buckets i).Paid plain :=
  CallSystem.held_of_run (fun b plain => b.Small plain ∧ b.Paid plain)
    (fun terms => ⟨⟨by simp [Bucket.create, u64Bound], by simp [Bucket.create]⟩, fun _ => by simp [Bucket.create]⟩)
    (fun _ _ _ _ _ _ _ backed flowed holds => ⟨holds.1.flow flowed, holds.2.flow backed flowed holds.1⟩) ran i

theorem neverShort_of_linear {now : Nat} {terms : ι → Terms} {i : ι}
    (linear : RoundsLinearly (terms i).strike (terms i).strikeScale) :
    (CallSystem.create now terms).NeverShort i := by
  intro ops s p ran refused
  obtain ⟨member, refused⟩ := callStep_redeem_short refused
  obtain ⟨own, clear, owed, priced, lacking⟩ := Bucket.redeemPosition_short refused
  obtain ⟨plain, parts, backed, small, paid⟩ := CallSystem.paid_of_run ran i
  have same := CallSystem.terms_of_run ran i
  have linear : RoundsLinearly (s.buckets i).strike (s.buckets i).strikeScale := by
    rw [← same] at linear
    exact linear
  have listed : p.range ∈ plain ++ (s.buckets i).spreads := by
    refine parts.mem_iff.mp (List.mem_map.mpr ⟨p, List.mem_filter.mpr ⟨member, ?_⟩, rfl⟩)
    simpa using own
  have inside : p.range ∈ plain := by
    have other := not_spread_of_clear backed.sound.spreadsOrdered clear (Or.inr rfl)
    exact (List.mem_append.mp listed).resolve_right other
  have owes := owed_eq linear (backed.proper _ inside) (small.ranges _ listed) priced
  have part : p.range.within 0 _ * _ ≤ within plain 0 (s.buckets i).exerciseCursor * _ :=
    Nat.mul_le_mul_right (halfUp 1 (s.buckets i).strike (s.buckets i).strikeScale)
      (within_le_of_mem inside 0 (s.buckets i).exerciseCursor)
  have cash := paid linear
  omega

theorem roundsLinearly_of_dvd {strike strikeScale : Nat} (whole : 10 ^ strikeScale ∣ strike) :
    RoundsLinearly strike strikeScale := by
  obtain ⟨ratio, rfl⟩ := whole
  have positive : 0 < 10 ^ strikeScale := by positivity
  have rounds : ∀ amount, halfUp amount (10 ^ strikeScale * ratio) strikeScale = amount * ratio := by
    intro amount
    have below : 10 ^ strikeScale / 2 / 10 ^ strikeScale = 0 :=
      Nat.div_eq_of_lt (Nat.div_lt_self positive (by decide))
    rw [halfUp, show amount * (10 ^ strikeScale * ratio) = 10 ^ strikeScale * (amount * ratio) by ring,
      Nat.mul_add_div positive, below, Nat.add_zero]
  intro amount cost _ priced
  rw [(applyStrike_ok.mp priced).2.2.2, rounds, rounds, Nat.one_mul]

end Sufficient

section Necessary

/-- A bucket without closes or spreads. -/
structure Bucket.Staged (b : Bucket ι) (terms : Terms) (total cursor cash : Nat) : Prop where
  queue : b.toQueue = ⟨total, cursor, [], 0, []⟩
  terms : b.terms = terms
  valid : b.invalidated = false
  underlying : b.underlyingBalance = total - cursor
  settlement : b.settlementBalance = cash
  supply : b.supply = total - cursor

variable {b : Bucket ι} {now amount cost : Nat} {terms : Terms} {total cursor cash : Nat}

theorem Queue.advanceCursor_plain {total cursor amount : Nat} {nextSpread : Nat → Nat} {blocked : Error}
    (open' : ∀ cur, nextSpread cur = total) (room : cursor + amount ≤ total) :
    Queue.advanceCursor nextSpread blocked ⟨total, cursor, [], 0, []⟩ amount =
      .ok ⟨total, cursor + amount, [], 0, []⟩ := by
  have ready : Ready [] (Queue.walk ⟨total, cursor, [], 0, []⟩) := ⟨Separated.nil, by simp [Queue.walk], by simp⟩
  have bounding : Bounding [] nextSpread := by
    intro cur s member
    cases member
  obtain ⟨next, ran⟩ :
      ∃ next, Queue.advanceCursor nextSpread blocked ⟨total, cursor, [], 0, []⟩ amount = .ok next :=
    Queue.advanceCursor_succeeds ready bounding rfl (le_refl total) (fun cur _ _ => open' cur) (by simp)
      (by intro _; simp only [within_nil]; omega)
  obtain ⟨final, dropped, rfl, walked, _⟩ := Queue.advanceCursor_walked ready bounding ran
  rw [ran]
  have empty := walked.closed_eq
  have moved := walked.cur_eq
  have pending := walked.pending_eq
  simp only [Queue.walk, List.nil_eq, List.append_eq_nil_iff] at empty
  obtain ⟨rfl, empty⟩ := empty
  simp only [Queue.walk, size_nil, Nat.add_zero] at moved pending
  simp only [Queue.withWalk, moved, empty, ← pending]

omit [DecidableEq ι] in
theorem Bucket.Staged.write (staged : b.Staged terms total cursor cash) (live : now < terms.expiryMs)
    (reached : cursor ≤ total) (fits : total + amount < u64Bound - 1) :
    ∃ next, b.writeAndCheck now amount = .ok (⟨total, total + amount⟩, next) ∧
      next.Staged terms (total + amount) cursor cash := by
  obtain ⟨queue, rfl, valid, underlying, settlement, supply⟩ := staged
  have written : b.totalWritten = total := congrArg Queue.totalWritten queue
  have large : u64Bound < u128Bound := by decide
  refine ⟨_, writeAndCheck_ok.mpr ⟨live, valid, by omega, by omega, by rw [written], rfl⟩, ?_⟩
  refine ⟨?_, rfl, valid, ?_, settlement, ?_⟩
  · simp only [queue]
  · simp only [underlying]; omega
  · simp only [supply]; omega

omit [DecidableEq ι] in
theorem Bucket.Staged.exercise (staged : b.Staged terms total cursor cash) (live : now < terms.expiryMs)
    (positive : 0 < amount) (room : cursor + amount ≤ total) (small : total < u64Bound)
    (priced : applyStrike amount terms.strike terms.strikeScale = .ok cost) :
    ∃ next, b.exercise now amount cost = .ok next ∧ next.Staged terms total (cursor + amount) (cash + cost) ∧
      next.closed = [] := by
  obtain ⟨queue, rfl, valid, underlying, settlement, supply⟩ := staged
  have large : u64Bound < u128Bound := by decide
  have written : b.totalWritten = total := congrArg Queue.totalWritten queue
  have passed : b.exerciseCursor = cursor := congrArg Queue.exerciseCursor queue
  have pending : b.closedPending = 0 := congrArg Queue.closedPending queue
  have advanced : b.toQueue.advanceCursor b.toQueue.nextSpread .spreadUnwindRequired amount =
      .ok ⟨total, cursor + amount, [], 0, []⟩ := by
    rw [queue]
    exact Queue.advanceCursor_plain (fun _ => rfl) room
  refine ⟨_, exercise_ok.mpr ⟨live, positive, priced, by omega, by omega, by omega, _, advanced, by omega, rfl⟩, ?_, rfl⟩
  refine ⟨rfl, rfl, valid, ?_, ?_, ?_⟩
  · simp only [underlying]; omega
  · simp only [settlement]
  · simp only [supply]; omega

theorem Bucket.Staged.redeem {i : ι} {p : Position ι} {owed : Nat} (staged : b.Staged terms total total cash)
    (expired : terms.expiryMs ≤ now) (own : p.bucketId = i) (proper : p.range.start ≤ p.range.stop)
    (inside : p.range.stop ≤ total) (priced : applyStrike p.range.size terms.strike terms.strikeScale = .ok owed) :
    b.redeemPosition now i p = b.splitSettlement owed := by
  obtain ⟨queue, rfl, valid, underlying, settlement, supply⟩ := staged
  have passed : b.exerciseCursor = total := congrArg Queue.exerciseCursor queue
  have none : b.spreads = [] := congrArg Queue.spreads queue
  have clear : b.overlapsSpread p.range.start p.range.stop = false := by
    rw [Queue.overlapsSpread_false, none]
    simp
  have whole : exercisedUnits b.exerciseCursor p.range = p.range.stop - p.range.start := by
    simp only [exercisedUnits, passed]
    split_ifs <;> omega
  have free : b.splitUnderlying 0 = .ok b := splitUnderlying_ok.mpr ⟨by omega, rfl⟩
  have priced' : applyStrike (p.range.stop - p.range.start) b.strike b.strikeScale = .ok owed := priced
  rw [redeemPosition, check_of (show b.expiryMs ≤ now from expired), check_of own, check_of clear, whole,
    sub_of proper]
  simp only [bind, Except.bind]
  rw [sub_of (le_refl _), Nat.sub_self]
  simp only [castU64, fit_of (show 0 < u64Bound by decide), priced', free]

structure Staged (s : CallSystem ι) (i : ι) (terms : Terms) (total cursor cash : Nat) : Prop where
  bucket : (s.buckets i).Staged terms total cursor cash
  wallet : s.wallets i = total - cursor

variable {s : CallSystem ι} {i : ι}

theorem Staged.write (staged : Staged s i terms total cursor cash) (live : s.now < terms.expiryMs)
    (reached : cursor ≤ total) (fits : total + amount < u64Bound - 1) :
    ∃ next, callStep s (.write i amount) = .ok next ∧ Staged next i terms (total + amount) cursor cash ∧
      next.now = s.now ∧ next.positions = ⟨i, ⟨total, total + amount⟩⟩ :: s.positions := by
  obtain ⟨bucket, wallet⟩ := staged
  obtain ⟨b, wrote, after⟩ := bucket.write live reached fits
  refine ⟨_, bind_ok.mpr ⟨(_, _), wrote, rfl⟩, ⟨?_, ?_⟩, rfl, rfl⟩
  · simp only [System.pay, System.addPosition, System.setBucket, Function.update_self]
    exact after
  · simp only [System.pay, System.addPosition, System.setBucket, Function.update_self, wallet]
    omega

theorem Staged.exercise (staged : Staged s i terms total cursor cash) (live : s.now < terms.expiryMs)
    (positive : 0 < amount) (room : cursor + amount ≤ total) (small : total < u64Bound)
    (priced : applyStrike amount terms.strike terms.strikeScale = .ok cost) :
    ∃ next, callStep s (.exercise i amount cost) = .ok next ∧
      Staged next i terms total (cursor + amount) (cash + cost) ∧
      next.now = s.now ∧ next.positions = s.positions := by
  obtain ⟨bucket, wallet⟩ := staged
  obtain ⟨b, exercised, after, _⟩ := bucket.exercise live positive room small priced
  have taken : s.take i amount = .ok (s.spend i amount) := System.take_ok.mpr ⟨by omega, rfl⟩
  refine ⟨_, bind_ok.mpr ⟨_, taken, bind_ok.mpr ⟨b, exercised, rfl⟩⟩, ⟨?_, ?_⟩, rfl, rfl⟩
  · simp only [System.retire, System.setBucket, Function.update_self]
    exact after
  · simp only [System.retire, System.setBucket, System.spend, Function.update_self, wallet]
    omega

theorem Staged.redeem {p : Position ι} {owed : Nat} (staged : Staged s i terms total total cash)
    (expired : terms.expiryMs ≤ s.now) (member : p ∈ s.positions) (own : p.bucketId = i)
    (proper : p.range.start ≤ p.range.stop) (inside : p.range.stop ≤ total)
    (priced : applyStrike p.range.size terms.strike terms.strikeScale = .ok owed) (funded : owed ≤ cash) :
    ∃ next, callStep s (.redeemPosition i p) = .ok next ∧ Staged next i terms total total (cash - owed) ∧
      next.now = s.now ∧ next.positions = s.positions.erase p := by
  obtain ⟨bucket, wallet⟩ := staged
  have taken : s.takePosition p = .ok (s.dropPosition p) := System.takePosition_ok.mpr ⟨member, rfl⟩
  have redeemed := bucket.redeem expired own proper inside priced
  obtain ⟨queue, same, valid, underlying, settlement, supply⟩ := bucket
  have split := Bucket.splitSettlement_ok.mpr
    (⟨by omega, rfl⟩ : owed ≤ (s.buckets i).settlementBalance ∧ _ = _)
  refine ⟨_, bind_ok.mpr ⟨_, taken, bind_ok.mpr ⟨_, redeemed.trans split, rfl⟩⟩, ⟨?_, wallet⟩, rfl, rfl⟩
  simp only [System.retire, System.setBucket, Function.update_self]
  exact ⟨queue, same, valid, underlying, by simp only [settlement], supply⟩

theorem Staged.redeem_short {p : Position ι} {owed : Nat} (staged : Staged s i terms total total cash)
    (expired : terms.expiryMs ≤ s.now) (member : p ∈ s.positions) (own : p.bucketId = i)
    (proper : p.range.start ≤ p.range.stop) (inside : p.range.stop ≤ total)
    (priced : applyStrike p.range.size terms.strike terms.strikeScale = .ok owed) (lacking : cash < owed) :
    callStep s (.redeemPosition i p) = .error (.code .notEnoughSettlement) := by
  have taken : s.takePosition p = .ok (s.dropPosition p) := System.takePosition_ok.mpr ⟨member, rfl⟩
  have redeemed := staged.bucket.redeem expired own proper inside priced
  have refused : (s.buckets i).splitSettlement owed = .error (.code .notEnoughSettlement) :=
    check_pure_error.mpr ⟨by rw [staged.bucket.settlement]; omega, rfl⟩
  refine bind_error.mpr (Or.inr ⟨_, taken, bind_error.mpr (Or.inl ?_)⟩)
  exact redeemed.trans refused

omit [DecidableEq ι] in
theorem staged_create (start : Nat) (terms : ι → Terms) (i : ι) :
    Staged (CallSystem.create start terms) i (terms i) 0 0 0 :=
  ⟨⟨rfl, rfl, rfl, rfl, rfl, rfl⟩, rfl⟩

theorem staged_writes (start : Nat) {terms : ι → Terms} (live : start < (terms i).expiryMs) (count : Nat)
    (fits : count * amount < u64Bound - 1) :
    ∃ s, Reaches callStep (CallSystem.create start terms) s ∧ Staged s i (terms i) (count * amount) 0 0 ∧
      s.now = start ∧ ∀ k, k < count → ⟨i, ⟨k * amount, (k + 1) * amount⟩⟩ ∈ s.positions := by
  induction count with
  | zero =>
    refine ⟨_, Reaches.refl _ _, ?_, rfl, by simp⟩
    rw [Nat.zero_mul]
    exact staged_create start terms i
  | succ count ih =>
    have more : (count + 1) * amount = count * amount + amount := Nat.succ_mul count amount
    obtain ⟨s, reached, staged, time, listed⟩ := ih (by omega)
    obtain ⟨next, moved, after, same, added⟩ :=
      staged.write (time ▸ live) (Nat.zero_le _) (more ▸ fits : count * amount + amount < u64Bound - 1)
    refine ⟨next, reached.snoc moved, by rw [more]; exact after, by omega, ?_⟩
    intro k less
    rw [added]
    rcases Nat.lt_succ_iff_lt_or_eq.mp less with before | rfl
    · exact List.mem_cons_of_mem _ (listed k before)
    · rw [Nat.succ_mul]
      exact List.mem_cons_self

theorem staged_exercises (staged : Staged s i terms total cursor cash) (live : s.now < terms.expiryMs)
    (positive : 0 < amount) (small : total < u64Bound)
    (priced : applyStrike amount terms.strike terms.strikeScale = .ok cost) (count : Nat)
    (room : cursor + count * amount ≤ total) :
    ∃ next, Reaches callStep s next ∧ Staged next i terms total (cursor + count * amount) (cash + count * cost) ∧
      next.now = s.now ∧ next.positions = s.positions := by
  induction count with
  | zero =>
    refine ⟨s, Reaches.refl _ _, ?_, rfl, rfl⟩
    simpa using staged
  | succ count ih =>
    have units : (count + 1) * amount = count * amount + amount := Nat.succ_mul count amount
    have paid : (count + 1) * cost = count * cost + cost := Nat.succ_mul count cost
    obtain ⟨middle, reached, halfway, time, same⟩ := ih (by omega)
    obtain ⟨next, moved, after, still, kept⟩ :=
      halfway.exercise (by omega) positive (by omega) small priced
    refine ⟨next, reached.snoc moved, ?_, by omega, by rw [kept, same]⟩
    rw [units, paid, ← Nat.add_assoc, ← Nat.add_assoc]
    exact after

theorem Staged.expire (staged : Staged s i terms total cursor cash) (live : s.now ≤ terms.expiryMs) :
    ∃ next, callStep s (.tick terms.expiryMs) = .ok next ∧ Staged next i terms total cursor cash ∧
      next.now = terms.expiryMs ∧ next.positions = s.positions :=
  ⟨_, check_pure_ok.mpr ⟨live, rfl⟩, ⟨staged.bucket, staged.wallet⟩, rfl, rfl⟩

theorem staged_redeems (staged : Staged s i terms total total cash) (expired : terms.expiryMs ≤ s.now)
    (priced : applyStrike 1 terms.strike terms.strikeScale = .ok cost)
    (listed : ∀ k, k < total → ⟨i, ⟨k, k + 1⟩⟩ ∈ s.positions) (count : Nat) (bound : count ≤ total)
    (funded : count * cost ≤ cash) :
    ∃ next, Reaches callStep s next ∧ Staged next i terms total total (cash - count * cost) ∧
      next.now = s.now ∧ ∀ k, count ≤ k → k < total → ⟨i, ⟨k, k + 1⟩⟩ ∈ next.positions := by
  induction count with
  | zero =>
    refine ⟨s, Reaches.refl _ _, ?_, rfl, fun k _ => listed k⟩
    simpa using staged
  | succ count ih =>
    have owed : (count + 1) * cost = count * cost + cost := Nat.succ_mul count cost
    obtain ⟨middle, reached, halfway, time, left⟩ := ih (by omega) (by omega)
    have unit : (⟨count, count + 1⟩ : Range).size = 1 := by simp [Range.size]
    obtain ⟨next, moved, after, still, kept⟩ := halfway.redeem (p := ⟨i, ⟨count, count + 1⟩⟩) (by omega)
      (left count (le_refl _) (by omega)) rfl (Nat.le_succ _) bound (by rw [unit]; exact priced) (by omega)
    refine ⟨next, reached.snoc moved, ?_, by omega, ?_⟩
    · rw [owed, Nat.sub_add_eq]
      exact after
    · intro k low high
      rw [kept]
      refine (List.mem_erase_of_ne ?_).mpr (left k (by omega) high)
      intro same
      cases same
      omega

theorem halfUp_mono {amount more strike strikeScale : Nat} (less : amount ≤ more) :
    halfUp amount strike strikeScale ≤ halfUp more strike strikeScale :=
  Nat.div_le_div_right (Nat.add_le_add_right (Nat.mul_le_mul_right _ less) _)

theorem applyStrike_of_le {amount more strike strikeScale cost : Nat} (less : amount ≤ more)
    (priced : applyStrike more strike strikeScale = .ok cost) :
    applyStrike amount strike strikeScale = .ok (halfUp amount strike strikeScale) := by
  obtain ⟨scale, numerator, narrow, rfl⟩ := applyStrike_ok.mp priced
  have product : amount * strike ≤ more * strike := Nat.mul_le_mul_right _ less
  exact applyStrike_ok.mpr ⟨scale, by omega, lt_of_le_of_lt (halfUp_mono less) narrow, rfl⟩

theorem halfUp_zero (strike strikeScale : Nat) : halfUp 0 strike strikeScale = 0 := by
  have below : 10 ^ strikeScale / 2 / 10 ^ strikeScale = 0 :=
    Nat.div_eq_of_lt (Nat.div_lt_self (by positivity) (by decide))
  rw [halfUp, Nat.zero_mul, Nat.zero_add, below]

theorem linear_of_neverShort {now : Nat} {terms : ι → Terms} {i : ι} (live : now < (terms i).expiryMs)
    (never : (CallSystem.create now terms).NeverShort i) :
    RoundsLinearly (terms i).strike (terms i).strikeScale := by
  intro amount cost fits priced
  rcases Nat.eq_zero_or_pos amount with rfl | positive
  · rw [(applyStrike_ok.mp priced).2.2.2, halfUp_zero, Nat.zero_mul]
  have unit := applyStrike_of_le positive priced
  obtain ⟨price, priceEq⟩ : ∃ price, price = halfUp 1 (terms i).strike (terms i).strikeScale := ⟨_, rfl⟩
  rw [← priceEq] at unit ⊢
  rcases Nat.lt_trichotomy cost (amount * price) with less | same | more
  · -- One exercise of unit positions pays less than their redemptions owe.
    exfalso
    obtain ⟨written, toWritten, staged, time, listed⟩ := staged_writes now live amount (by rwa [Nat.mul_one])
    simp only [Nat.mul_one] at staged listed
    obtain ⟨exercised, exercise, staged, time', same⟩ :=
      staged.exercise (by omega) positive (by omega) (by omega) priced
    rw [Nat.zero_add, Nat.zero_add] at staged
    obtain ⟨expired, tick, staged, time'', same'⟩ := staged.expire (by omega)
    have count : cost / price < amount := Nat.div_lt_of_lt_mul (by rwa [Nat.mul_comm])
    have spent : cost / price * price ≤ cost := Nat.div_mul_le_self cost price
    obtain ⟨redeemed, toRedeemed, staged, time''', left⟩ := staged_redeems staged (by omega) unit
      (by rw [same', same]; exact listed) (cost / price) (by omega) spent
    obtain ⟨ops, ran⟩ := ((toWritten.snoc exercise).snoc tick).trans toRedeemed
    have rest : cost - cost / price * price < price := by
      have split := Nat.div_add_mod' cost price
      have small := Nat.mod_lt cost (by
        rcases Nat.eq_zero_or_pos price with zero | some
        · rw [zero, Nat.mul_zero] at less; omega
        · exact some : price > 0)
      omega
    refine never ops redeemed ⟨i, ⟨cost / price, cost / price + 1⟩⟩ ran ?_
    refine staged.redeem_short (by omega) (left _ (le_refl _) count) rfl (Nat.le_succ _) count ?_ rest
    rw [show (⟨cost / price, cost / price + 1⟩ : Range).size = 1 by simp [Range.size]]
    exact unit
  · exact same
  · -- Unit exercises of one position pay less than its redemption owes.
    exfalso
    obtain ⟨written, toWritten, staged, time, listed⟩ := staged_writes now live 1 (by rwa [Nat.one_mul])
    have member := listed 0 (by decide)
    simp only [Nat.one_mul, Nat.zero_mul, Nat.zero_add] at staged member
    obtain ⟨exercised, toExercised, staged, time', same⟩ :=
      staged_exercises staged (by omega) (by decide) (by omega) unit amount (by omega)
    rw [Nat.zero_add, Nat.zero_add, Nat.mul_one] at staged
    obtain ⟨expired, tick, staged, time'', same'⟩ := staged.expire (by omega)
    obtain ⟨ops, ran⟩ := (toWritten.trans toExercised).snoc tick
    refine never ops expired ⟨i, ⟨0, amount⟩⟩ ran ?_
    exact staged.redeem_short (by omega) (by rw [same', same]; exact member) rfl (Nat.zero_le _) (le_refl _)
      priced more

end Necessary

/-- A call bucket never runs short of cash, whatever is written, closed, exercised
and redeemed, exactly when the rounding of its strike is linear. -/
theorem call_settlement_solvent_iff {now : Nat} {terms : ι → Terms} {i : ι} (live : now < (terms i).expiryMs) :
    (CallSystem.create now terms).NeverShort i ↔ RoundsLinearly (terms i).strike (terms i).strikeScale :=
  ⟨linear_of_neverShort live, neverShort_of_linear⟩

theorem call_settlement_solvent_whole :
    RoundsLinearly 20 1 ∧ (CallSystem.create 0 (fun _ : Unit => ⟨100, 20, 1⟩)).NeverShort () := by
  have linear : RoundsLinearly 20 1 := roundsLinearly_of_dvd (by decide)
  exact ⟨linear, (call_settlement_solvent_iff (by decide)).mpr linear⟩

-- Two unit exercises at a price of 0.4 are free; the position they assign is owed 0.8, rounded to 1.
theorem call_settlement_shortfall :
    ¬ (CallSystem.create 0 (fun _ : Unit => ⟨100, 4, 1⟩)).NeverShort () := by
  intro never
  obtain ⟨s, ran, refused⟩ : ∃ s, exec callStep (CallSystem.create 0 (fun _ : Unit => ⟨100, 4, 1⟩))
      [.write () 2, .exercise () 1 0, .exercise () 1 0, .tick 100] = .ok s ∧
        callStep s (.redeemPosition () ⟨(), ⟨0, 2⟩⟩) = .error (.code .notEnoughSettlement) :=
    ⟨_, rfl, rfl⟩
  exact never _ s _ ran refused

end SuiOptions.Core
