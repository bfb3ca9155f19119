import SuiOptions.Core.Conservation
import SuiOptions.Core.PutInvariant

/-! Option coins are conserved on the put side. -/

set_option autoImplicit false

namespace SuiOptions.Core

open Execution Move Ranges

variable {ι : Type} [DecidableEq ι]

/-- The buckets of a system without their counters of redeemed units. -/
def PutSystem.base (s : PutSystem ι) : ι → Bucket ι := fun i => (s.buckets i).toBucket

theorem base_update (s : PutSystem ι) (i : ι) (b : PutBucket ι) :
    (fun k => (Function.update s.buckets i b k).toBucket) = Function.update s.base i b.toBucket := by
  funext k
  by_cases here : k = i
  · rw [here, Function.update_self, Function.update_self]
  · rw [Function.update_of_ne here, Function.update_of_ne here]
    rfl

variable [Fintype ι] {now : Nat} {terms : ι → Terms} {s next : PutSystem ι}

theorem conserved_of_update {i : ι} {b : PutBucket ι} (buckets : next.buckets = Function.update s.buckets i b)
    (done : Conserved (Function.update s.base i b.toBucket) next.wallets) : Conserved next.base next.wallets := by
  rw [← base_update] at done
  unfold PutSystem.base
  rwa [buckets]

/-- A spread exercise burns coins of the short bucket from a wallet and as many of
the long bucket from the escrow. -/
theorem Conserved.exerciseSpread {buckets : ι → Bucket ι} {wallets : ι → Nat} (conserved : Conserved buckets wallets)
    {i j : ι} {b long : Bucket ι} {r : Range} {escrow : SpreadEscrow ι} {amount cash : Nat} (different : i ≠ j)
    (held : amount ≤ wallets i) (sorted : Ordered (buckets i).spreads) (member : r ∈ (buckets i).spreads)
    (listed : (buckets i).escrows r.start = some escrow) (backer : escrow.longBucketId = j)
    (longs : amount ≤ escrow.long) (spreads : b.spreads = (buckets i).spreads)
    (escrows : b.escrows = Function.update (buckets i).escrows r.start
      (some ⟨escrow.long - amount, cash, escrow.longBucketId⟩))
    (supply : b.supply = (buckets i).supply - amount) (longSpreads : long.spreads = (buckets j).spreads)
    (longEscrows : long.escrows = (buckets j).escrows) (longSupply : long.supply = (buckets j).supply - amount) :
    Conserved (Function.update (Function.update buckets i b) j long)
      (Function.update wallets i (wallets i - amount)) := by
  subst backer
  have burned := conserved.burn (b := { buckets i with supply := (buckets i).supply - amount }) held rfl rfl rfl
  have drawn := burned.draw (i := i) (b := b) (s := r) ⟨escrow.long - amount, cash, escrow.longBucketId⟩ amount
    (by rw [Function.update_self]; exact sorted) (by rw [Function.update_self]; exact member)
    (show _ = some escrow by rw [Function.update_self]; exact listed) (by rw [Function.update_self]; exact spreads)
    (by rw [Function.update_self]; exact escrows) (by rw [Function.update_self]; exact supply) rfl
    (by simp only; omega)
  rw [Function.update_idem] at drawn
  have settled := drawn.burn (i := escrow.longBucketId) (b := long)
    (show amount ≤ _ by rw [Function.update_self]; omega)
    (by rw [Function.update_of_ne (Ne.symm different)]; exact longSpreads)
    (by rw [Function.update_of_ne (Ne.symm different)]; exact longEscrows)
    (by rw [Function.update_of_ne (Ne.symm different)]; exact longSupply)
  rw [Function.update_self, Nat.add_sub_cancel, Function.update_idem, Function.update_eq_self] at settled
  exact settled

theorem PutMove.conserved {op : PutOp ι} (moved : PutMove s op next) (held : s.Held terms) (conserved : Conserved s.base s.wallets) :
    Conserved next.base next.wallets := by
  cases moved with
  | tick later => exact conserved
  | @write i collateral amount range b wrote =>
    -- the new coins are in the wallets
    obtain ⟨_, _, _, _, _, _, rfl⟩ := PutBucket.writeAndCheck_ok.mp wrote
    refine conserved_of_update (i := i) rfl (conserved.update ?_ (fun k other => ?_))
    · simp only [System.pay, System.addPosition, System.setBucket, Function.update_self, Bucket.longsFor,
        PutSystem.base]
      omega
    · simp only [System.pay, System.addPosition, System.setBucket, Function.update_of_ne other, Bucket.longsFor,
        PutSystem.base]
  | @exercise i amount delivery payout b owned exercised =>
    obtain ⟨spreads, escrows, _, _, _, supply⟩ := PutBucket.exercise_frame exercised
    exact conserved_of_update rfl (conserved.burn owned spreads escrows supply)
  | @redeem i p b member redeemed =>
    obtain ⟨_, _, _, _, _, _, _, rfl⟩ := PutBucket.redeemPosition_ok redeemed
    exact conserved_of_update (i := i) rfl (conserved.update rfl (fun k _ => rfl))
  | @burn i amount owned expired =>
    exact conserved_of_update rfl (conserved.burn owned rfl rfl rfl)
  | invalidate i => exact conserved_of_update (i := i) rfl (conserved.update rfl (fun k _ => rfl))
  | revalidate i => exact conserved_of_update (i := i) rfl (conserved.update rfl (fun k _ => rfl))
  | @closeOffset i p q amount b owned member closed =>
    obtain ⟨_, _, _, _, _, _, _, _, _, _, _, rfl⟩ := PutBucket.closeOffset_ok closed
    exact conserved_of_update rfl (conserved.burn owned rfl rfl rfl)
  | @destroy p member empty => exact conserved
  | @writeSpread allowed i j amount topUp range b different owned wrote =>
    obtain ⟨plain, _, backed⟩ := held.bucket i
    obtain ⟨_, _, _, _, _, _, _, _, free, rfl⟩ := PutBucket.writeSpread_ok wrote
    -- the coins of the long bucket go from the wallets into the new escrow
    have added : ∀ k, longsFor _ _ k = longsFor (s.buckets i).spreads (s.buckets i).escrows k +
        escrowShare (some ⟨amount, topUp, j⟩) k := fun k =>
      longsFor_add (s := ⟨(s.buckets i).totalWritten, (s.buckets i).totalWritten + amount⟩) backed.escrowed free
    simp only [escrowShare] at added
    refine conserved_of_update (i := i) rfl (conserved.update ?_ (fun k other => ?_))
    · simp only [System.pay, System.addPosition, System.setBucket, System.spend, Function.update_self,
        Bucket.longsFor, PutSystem.base, added, Function.update_of_ne different, if_neg (Ne.symm different)]
      omega
    · simp only [System.pay, System.addPosition, System.setBucket, System.spend, Function.update_of_ne other,
        Bucket.longsFor, PutSystem.base, added]
      by_cases long : k = j
      · subst long
        simp only [Function.update_self, if_true]
        omega
      · simp only [Function.update_of_ne long, if_neg (Ne.symm long), Nat.add_zero]
  | @exerciseSpread i j amount delivery payout b long different owned exercised =>
    obtain ⟨plain, _, backed⟩ := held.bucket i
    obtain ⟨_, _, _, _, r, escrow, _, _, _, _, found, _, _, _, listed, backer, longs, _, _, _, inner, _, _, after⟩ :=
      PutBucket.exerciseSpread_ok.mp exercised
    obtain ⟨member, begins, _⟩ := backed.sound.spread_at_cursor found
    obtain ⟨spreads, escrows, _, _, _, supply⟩ := PutBucket.exercise_frame inner
    rw [← begins] at listed after
    -- two buckets change: the spread gives up coins, which the long bucket burns
    have both : (fun k => (Function.update (Function.update s.buckets i b) j long k).toBucket) =
        Function.update (Function.update s.base i b.toBucket) j long.toBucket := by
      rw [← base_update s i b]
      exact base_update (s.setBucket i b) j long
    change Conserved (fun k => (Function.update (Function.update s.buckets i b) j long k).toBucket)
      (Function.update s.wallets i (s.wallets i - amount))
    rw [both]
    exact conserved.exerciseSpread different owned backed.sound.spreadsOrdered member listed backer longs
      (by rw [after]; rfl) (by rw [after]; rfl) (by rw [after]; rfl) spreads escrows supply
  | @closeSpread i p amount escrow b owned member closed =>
    obtain ⟨plain, _, backed⟩ := held.bucket i
    obtain ⟨_, _, spread, _, _, listed, rfl⟩ := PutBucket.closeSpread_ok closed
    -- first the short coins are burned, then the escrow is opened
    have burned := conserved.burn (b := { (s.buckets i).toBucket with supply := (s.buckets i).supply - amount }) owned
      rfl rfl rfl
    have released := burned.release (i := i) (s := p.range) (b := { (s.buckets i).toBucket with
        toQueue := (PutBucket.closedQueue (s.buckets i).toQueue
          (assignedEnd (s.buckets i).exerciseCursor p.range) p.range).removeSpread p.range.start
        supply := (s.buckets i).supply - amount
        escrows := Function.update (s.buckets i).escrows p.range.start none })
      (by rw [Function.update_self]; exact backed.sound.spreadsOrdered) (by rw [Function.update_self]; exact spread)
      (show _ = some escrow by rw [Function.update_self]; exact listed)
      (by rw [Function.update_self]; rfl) (by rw [Function.update_self]) (by rw [Function.update_self])
    rw [Function.update_idem] at released
    exact conserved_of_update rfl released
  | @redeemSpread i p escrow b member redeemed =>
    obtain ⟨plain, _, backed⟩ := held.bucket i
    obtain ⟨_, _, spread, listed, rfl⟩ := PutBucket.redeemSpreadPosition_ok redeemed
    exact conserved_of_update rfl (conserved.release backed.sound.spreadsOrdered spread listed rfl rfl rfl)

theorem PutSystem.conserved_of_run {ops : List (PutOp ι)}
    (ran : exec putStep (PutSystem.create now terms) ops = .ok s) : Conserved s.base s.wallets := by
  have both : s.Held terms ∧ Conserved s.base s.wallets := by
    refine exec_invariant putStep (fun s => s.Held terms ∧ Conserved s.base s.wallets) ?_ ?_ ran
    · rintro s op next ⟨held, conserved⟩ stepped
      exact ⟨held.step stepped, (putStep_move stepped).conserved held conserved⟩
    · exact ⟨PutSystem.Held.create now terms, fun k => by
        simp [PutSystem.create, PutSystem.base, PutBucket.create, Bucket.create, escrowedTotal, Bucket.longsFor,
          Core.longsFor]⟩
  exact both.2

end SuiOptions.Core
