import SuiOptions.Core.Partition

/-! Option coins are conserved: those in wallets and those in the escrows of the
system's spreads make up the supply of their bucket. -/

set_option autoImplicit false

namespace SuiOptions.Core

open Execution Move Ranges

variable {ι : Type} [DecidableEq ι]

def escrowShare (escrow : Option (SpreadEscrow ι)) (k : ι) : Nat :=
  match escrow with
  | some escrow => if escrow.longBucketId = k then escrow.long else 0
  | none => 0

def longsFor (spreads : List Range) (escrows : Nat → Option (SpreadEscrow ι)) (k : ι) : Nat :=
  (spreads.map (fun s => escrowShare (escrows s.start) k)).sum

section Shares

variable {spreads : List Range} {escrows after : Nat → Option (SpreadEscrow ι)} {units : Range → Nat} {k : ι}

theorem longsFor_congr (same : ∀ s ∈ spreads, escrows s.start = after s.start) :
    longsFor spreads escrows k = longsFor spreads after k := by
  unfold longsFor
  rw [List.map_congr_left (fun s member => by rw [same s member])]

theorem longsFor_perm {left right : List Range} (same : left.Perm right) :
    longsFor left escrows k = longsFor right escrows k := (same.map _).sum_eq

theorem longsFor_cons (s : Range) (rest : List Range) :
    longsFor (s :: rest) escrows k = escrowShare (escrows s.start) k + longsFor rest escrows k := by
  simp [longsFor]

theorem share_le_longsFor (escrows : Nat → Option (SpreadEscrow ι)) (k : ι) {s : Range} (member : s ∈ spreads) :
    escrowShare (escrows s.start) k ≤ longsFor spreads escrows k := by
  rw [longsFor_perm (List.perm_cons_erase member), longsFor_cons]
  exact Nat.le_add_right _ _

theorem longsFor_add (escrowed : Escrowed spreads escrows units) {s : Range} {escrow : SpreadEscrow ι}
    (free : escrows s.start = none) :
    longsFor (spreads ++ [s]) (Function.update escrows s.start (some escrow)) k =
      longsFor spreads escrows k + escrowShare (some escrow) k := by
  have apart : ∀ r ∈ spreads, Function.update escrows s.start (some escrow) r.start = escrows r.start := by
    intro r member
    obtain ⟨_, found, _⟩ := escrowed.held r member
    refine Function.update_of_ne ?_ _ _
    intro same
    rw [same, free] at found
    cases found
  rw [longsFor_perm (List.perm_append_singleton s spreads), longsFor_cons, Function.update_self,
    longsFor_congr apart, Nat.add_comm]

theorem longsFor_remove (escrows : Nat → Option (SpreadEscrow ι)) (k : ι) (sorted : Ordered spreads) {s : Range} (member : s ∈ spreads) :
    longsFor spreads escrows k = escrowShare (escrows s.start) k +
      longsFor (spreads.eraseP (fun r => r.start == s.start)) (Function.update escrows s.start none) k := by
  have perm := eraseP_start sorted member
  have apart : ∀ r ∈ spreads.eraseP (fun r => r.start == s.start),
      escrows r.start = Function.update escrows s.start none r.start := by
    intro r left
    refine (Function.update_of_ne ?_ _ _).symm
    intro same
    have equal := sorted.eq_of_start (List.mem_of_mem_eraseP left) member same
    rw [equal] at left
    exact (List.nodup_cons.mp (perm.nodup_iff.mp sorted.nodup)).1 left
  rw [longsFor_perm perm, longsFor_cons, longsFor_congr apart]

theorem longsFor_replace (escrows : Nat → Option (SpreadEscrow ι)) (k : ι) (escrow : SpreadEscrow ι)
    (sorted : Ordered spreads) {s : Range} (member : s ∈ spreads) :
    longsFor spreads (Function.update escrows s.start (some escrow)) k + escrowShare (escrows s.start) k =
      longsFor spreads escrows k + escrowShare (some escrow) k := by
  have left := longsFor_remove escrows k sorted member
  have right := longsFor_remove (Function.update escrows s.start (some escrow)) k sorted member
  rw [Function.update_self, Function.update_idem] at right
  omega

end Shares

def Bucket.longsFor (b : Bucket ι) (k : ι) : Nat := Core.longsFor b.spreads b.escrows k

section Total

variable [Fintype ι] {buckets : ι → Bucket ι} {wallets spent : ι → Nat}

def escrowedTotal (buckets : ι → Bucket ι) (k : ι) : Nat := ∑ j, (buckets j).longsFor k

def Conserved (buckets : ι → Bucket ι) (wallets : ι → Nat) : Prop :=
  ∀ k, wallets k + escrowedTotal buckets k = (buckets k).supply

theorem escrowedTotal_update (buckets : ι → Bucket ι) (i : ι) (b : Bucket ι) (k : ι) :
    escrowedTotal (Function.update buckets i b) k + (buckets i).longsFor k =
      escrowedTotal buckets k + b.longsFor k := by
  unfold escrowedTotal
  rw [← Finset.add_sum_erase _ _ (Finset.mem_univ i), ← Finset.add_sum_erase _ (fun j => (buckets j).longsFor k)
    (Finset.mem_univ i), Function.update_self]
  have rest : ∑ j ∈ Finset.univ.erase i, (Function.update buckets i b j).longsFor k =
      ∑ j ∈ Finset.univ.erase i, (buckets j).longsFor k := by
    refine Finset.sum_congr rfl (fun j member => ?_)
    rw [Function.update_of_ne (Finset.ne_of_mem_erase member)]
  rw [rest]
  omega

/-- A transaction on one bucket conserves coins when its own books balance. -/
theorem Conserved.update (conserved : Conserved buckets wallets) {i : ι} {b : Bucket ι}
    (own : spent i + b.longsFor i + (buckets i).supply = wallets i + (buckets i).longsFor i + b.supply)
    (others : ∀ k, k ≠ i → spent k + b.longsFor k = wallets k + (buckets i).longsFor k) :
    Conserved (Function.update buckets i b) spent := by
  intro k
  have before := conserved k
  have total := escrowedTotal_update buckets i b k
  by_cases here : k = i
  · subst here
    rw [Function.update_self]
    omega
  · have books := others k here
    rw [Function.update_of_ne here]
    omega

theorem Conserved.wallet_le (conserved : Conserved buckets wallets) (k : ι) : wallets k ≤ (buckets k).supply := by
  have := conserved k
  omega

theorem Conserved.burn (conserved : Conserved buckets wallets) {i : ι} {b : Bucket ι} {amount : Nat}
    (held : amount ≤ wallets i) (spreads : b.spreads = (buckets i).spreads)
    (escrows : b.escrows = (buckets i).escrows) (supply : b.supply = (buckets i).supply - amount) :
    Conserved (Function.update buckets i b) (Function.update wallets i (wallets i - amount)) := by
  have enough := conserved.wallet_le i
  have longs : ∀ k, b.longsFor k = (buckets i).longsFor k := fun k => by
    rw [Bucket.longsFor, Bucket.longsFor, spreads, escrows]
  refine conserved.update ?_ (fun k other => ?_)
  · rw [Function.update_self, longs, supply]
    omega
  · rw [Function.update_of_ne other, longs]

theorem Conserved.release (conserved : Conserved buckets wallets) {i : ι} {b : Bucket ι} {s : Range}
    {escrow : SpreadEscrow ι} (sorted : Ordered (buckets i).spreads) (member : s ∈ (buckets i).spreads)
    (listed : (buckets i).escrows s.start = some escrow)
    (spreads : b.spreads = (buckets i).spreads.eraseP (fun r => r.start == s.start))
    (escrows : b.escrows = Function.update (buckets i).escrows s.start none) (supply : b.supply = (buckets i).supply) :
    Conserved (Function.update buckets i b)
      (Function.update wallets escrow.longBucketId (wallets escrow.longBucketId + escrow.long)) := by
  have longs : ∀ k, (buckets i).longsFor k = escrowShare (some escrow) k + b.longsFor k := fun k => by
    rw [Bucket.longsFor, Bucket.longsFor, longsFor_remove (buckets i).escrows k sorted member, listed, spreads, escrows]
  have moved : ∀ k, Function.update wallets escrow.longBucketId (wallets escrow.longBucketId + escrow.long) k =
      wallets k + escrowShare (some escrow) k := by
    intro k
    by_cases here : k = escrow.longBucketId
    · subst here
      simp [escrowShare]
    · simp [escrowShare, Function.update_of_ne here, Ne.symm here]
  refine conserved.update ?_ (fun k _ => ?_)
  · rw [moved, longs, supply]
    omega
  · rw [moved, longs]
    omega

theorem Conserved.draw (conserved : Conserved buckets wallets) {i : ι} {b : Bucket ι} {s : Range}
    {escrow : SpreadEscrow ι} (after : SpreadEscrow ι) (amount : Nat) (sorted : Ordered (buckets i).spreads)
    (member : s ∈ (buckets i).spreads) (listed : (buckets i).escrows s.start = some escrow)
    (spreads : b.spreads = (buckets i).spreads)
    (escrows : b.escrows = Function.update (buckets i).escrows s.start (some after))
    (supply : b.supply = (buckets i).supply) (same : after.longBucketId = escrow.longBucketId)
    (long : after.long + amount = escrow.long) :
    Conserved (Function.update buckets i b)
      (Function.update wallets escrow.longBucketId (wallets escrow.longBucketId + amount)) := by
  have longs : ∀ k, b.longsFor k + (if escrow.longBucketId = k then amount else 0) = (buckets i).longsFor k := by
    intro k
    have moved := longsFor_replace (buckets i).escrows k after sorted member
    rw [listed] at moved
    rw [Bucket.longsFor, Bucket.longsFor, spreads, escrows]
    simp only [escrowShare, same] at moved
    split_ifs at moved ⊢ <;> omega
  refine conserved.update ?_ (fun k other => ?_)
  · have own := longs i
    by_cases here : i = escrow.longBucketId
    · rw [here, Function.update_self, ← here]
      rw [if_pos here.symm] at own
      omega
    · rw [Function.update_of_ne here]
      rw [if_neg (Ne.symm here)] at own
      omega
  · have own := longs k
    by_cases here : k = escrow.longBucketId
    · rw [here, Function.update_self, ← here]
      rw [if_pos here.symm] at own
      omega
    · rw [Function.update_of_ne here]
      rw [if_neg (Ne.symm here)] at own
      omega

theorem Conserved.long_le (conserved : Conserved buckets wallets) {j : ι} {s : Range} {escrow : SpreadEscrow ι}
    (member : s ∈ (buckets j).spreads) (found : (buckets j).escrows s.start = some escrow) :
    escrow.long ≤ (buckets escrow.longBucketId).supply := by
  have share : escrowShare ((buckets j).escrows s.start) escrow.longBucketId = escrow.long := by
    rw [found]
    simp [escrowShare]
  have one := share_le_longsFor (buckets j).escrows escrow.longBucketId member
  have part : (buckets j).longsFor escrow.longBucketId ≤ escrowedTotal buckets escrow.longBucketId :=
    Finset.single_le_sum (f := fun j => (buckets j).longsFor escrow.longBucketId)
      (fun _ _ => Nat.zero_le _) (Finset.mem_univ j)
  have total := conserved escrow.longBucketId
  rw [share] at one
  unfold Bucket.longsFor at part
  omega

end Total

end SuiOptions.Core
