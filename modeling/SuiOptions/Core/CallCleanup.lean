import SuiOptions.Core.CallSolvency

/-! When an emptied call bucket can be cleaned up.

`cleanup_bucket` wants both balances at zero. The underlying always gets there.
The cash does for every history exactly when the rounding of the strike is linear:
otherwise some history leaves cash behind that no position is owed.
-/

set_option autoImplicit false

namespace SuiOptions.Core

open Execution Move Ranges

variable {ι : Type} [DecidableEq ι]

/-- The checks of `cleanup_bucket`; the admin cap is the caller's. -/
def Bucket.cleanupBucket (now : Nat) (b : Bucket ι) : Result Error Unit := do
  check (b.expiryMs ≤ now) .bucketNotExpired
  check (b.spreads = []) .bucketNotDrained
  check (b.underlyingBalance = 0) .bucketNotDrained
  check (b.settlementBalance = 0) .bucketNotDrained

def System.AllRetired {β : Type} (s : System ι β) (i : ι) : Prop :=
  ∀ p ∈ s.positions, p.bucketId = i → p.range.stop ≤ p.range.start

/-- Whenever the bucket has expired and all its positions are retired, it can be cleaned up. -/
def CallSystem.CleansUp (initial : CallSystem ι) (i : ι) : Prop :=
  ∀ ops s, exec callStep initial ops = .ok s → (s.buckets i).expiryMs ≤ s.now → s.AllRetired i →
    (s.buckets i).underlyingBalance = 0 ∧ (s.buckets i).settlementBalance = 0 ∧
      (s.buckets i).cleanupBucket s.now = .ok ()

section Sufficient

theorem System.AllRetired.ranges {β : Type} {s : System ι β} {i : ι} (retired : s.AllRetired i) :
    ∀ r ∈ s.ranges i, r.stop ≤ r.start := by
  intro r member
  obtain ⟨p, known, rfl⟩ := List.mem_map.mp member
  obtain ⟨listed, own⟩ := List.mem_filter.mp known
  exact retired p listed (by simpa using own)

theorem retired_nothing {live plain spreads : List Range} (empty : ∀ r ∈ live, r.stop ≤ r.start)
    (parts : live.Perm (plain ++ spreads)) (sorted : Ordered spreads) :
    spreads = [] ∧ ∀ low high, within plain low high = 0 := by
  constructor
  · rw [List.eq_nil_iff_forall_not_mem]
    intro s member
    have none := empty s (parts.mem_iff.mpr (List.mem_append_right _ member))
    have some := sorted.nonempty s member
    omega
  · intro low high
    refine within_eq_zero fun point _ _ => cover_eq_zero.mpr fun r member has => ?_
    have none := empty r (parts.mem_iff.mpr (List.mem_append_left _ member))
    have := has.1
    have := has.2
    omega

theorem cleansUp_of_linear {now : Nat} {terms : ι → Terms} {i : ι}
    (linear : RoundsLinearly (terms i).strike (terms i).strikeScale) : (CallSystem.create now terms).CleansUp i := by
  intro ops s ran expired retired
  obtain ⟨plain, parts, backed, _, paid⟩ := CallSystem.paid_of_run ran i
  obtain ⟨spreads, nothing⟩ := retired_nothing retired.ranges parts backed.sound.spreadsOrdered
  have same := CallSystem.terms_of_run ran i
  have underlying : (s.buckets i).underlyingBalance = 0 := by rw [backed.underlying, nothing]
  have settlement : (s.buckets i).settlementBalance = 0 := by
    rw [paid (by rw [← same] at linear; exact linear), nothing, Nat.zero_mul]
  refine ⟨underlying, settlement, ?_⟩
  rw [Bucket.cleanupBucket, check_of expired, check_of spreads, check_of underlying, check_of settlement]
  rfl

end Sufficient

section Necessary

variable {now : Nat} {terms : ι → Terms} {i : ι} {first second cost : Nat}

theorem Staged.clean {s : CallSystem ι} {total cash : Nat} (clean : (CallSystem.create now terms).CleansUp i)
    (reached : Reaches callStep (CallSystem.create now terms) s) (staged : Staged s i (terms i) total total cash)
    (expired : (terms i).expiryMs ≤ s.now) (none : s.positions = []) : cash = 0 := by
  obtain ⟨ops, ran⟩ := reached
  have past : (s.buckets i).expiryMs ≤ s.now := by
    rw [show (s.buckets i).expiryMs = (terms i).expiryMs from congrArg Terms.expiryMs staged.bucket.terms]
    exact expired
  have retired : s.AllRetired i := by
    intro p member
    rw [none] at member
    cases member
  rw [← staged.bucket.settlement]
  exact (clean ops s ran past retired).2.1

theorem exercises_le (live : now < (terms i).expiryMs) (clean : (CallSystem.create now terms).CleansUp i)
    (one : 0 < first) (two : 0 < second) (fits : first + second < u64Bound - 1)
    (priced : applyStrike (first + second) (terms i).strike (terms i).strikeScale = .ok cost) :
    halfUp first (terms i).strike (terms i).strikeScale + halfUp second (terms i).strike (terms i).strikeScale ≤ cost := by
  have priceFirst := applyStrike_of_le (Nat.le_add_right first second) priced
  have priceSecond := applyStrike_of_le (Nat.le_add_left second first) priced
  by_contra short
  obtain ⟨s₁, write, staged, time₁, held₁⟩ := (staged_create now terms i).write live (Nat.le_refl _)
    (by rw [Nat.zero_add]; exact fits)
  rw [Nat.zero_add] at staged held₁
  have early : s₁.now = now := time₁
  obtain ⟨s₂, exercise, staged, time₂, held₂⟩ := staged.exercise (by omega) one (by omega) (by omega) priceFirst
  rw [Nat.zero_add, Nat.zero_add] at staged
  obtain ⟨s₃, exercise', staged, time₃, held₃⟩ := staged.exercise (by omega) two (by omega) (by omega) priceSecond
  obtain ⟨s₄, tick, staged, time₄, held₄⟩ := staged.expire (by omega)
  have held : s₄.positions = [⟨i, ⟨0, first + second⟩⟩] := by rw [held₄, held₃, held₂, held₁]; rfl
  obtain ⟨s₅, redeem, staged, time₅, held₅⟩ := staged.redeem (p := ⟨i, ⟨0, first + second⟩⟩) (by omega)
    (by rw [held]; exact List.mem_singleton_self _) rfl (Nat.zero_le _) (Nat.le_refl _) priced (by omega)
  have reached := (((((Reaches.refl _ _).snoc write).snoc exercise).snoc exercise').snoc tick).snoc redeem
  have zero := staged.clean clean reached (by omega) (by rw [held₅, held, List.erase_cons_head])
  omega

theorem le_redemptions (live : now < (terms i).expiryMs) (clean : (CallSystem.create now terms).CleansUp i)
    (one : 0 < first) (two : 0 < second) (fits : first + second < u64Bound - 1)
    (priced : applyStrike (first + second) (terms i).strike (terms i).strikeScale = .ok cost) :
    cost ≤ halfUp first (terms i).strike (terms i).strikeScale + halfUp second (terms i).strike (terms i).strikeScale := by
  have priceFirst := applyStrike_of_le (Nat.le_add_right first second) priced
  have priceSecond := applyStrike_of_le (Nat.le_add_left second first) priced
  by_contra more
  obtain ⟨s₁, write, staged, time₁, held₁⟩ := (staged_create now terms i).write live (Nat.le_refl _)
    (by omega : 0 + first < u64Bound - 1)
  rw [Nat.zero_add] at staged held₁
  have early : s₁.now = now := time₁
  obtain ⟨s₂, write', staged, time₂, held₂⟩ := staged.write (by omega) (Nat.zero_le _) fits
  obtain ⟨s₃, exercise, staged, time₃, held₃⟩ := staged.exercise (by omega) (by omega) (by omega) (by omega) priced
  rw [Nat.zero_add, Nat.zero_add] at staged
  obtain ⟨s₄, tick, staged, time₄, held₄⟩ := staged.expire (by omega)
  have held : s₄.positions = [⟨i, ⟨first, first + second⟩⟩, ⟨i, ⟨0, first⟩⟩] := by rw [held₄, held₃, held₂, held₁]; rfl
  obtain ⟨s₅, redeem, staged, time₅, held₅⟩ := staged.redeem (p := ⟨i, ⟨first, first + second⟩⟩) (by omega)
    (by rw [held]; exact List.mem_cons_self) rfl (by simp) (Nat.le_refl _)
    (by rw [Range.size, Nat.add_sub_cancel_left]; exact priceSecond) (by omega)
  rw [held, List.erase_cons_head] at held₅
  obtain ⟨s₆, redeem', staged, time₆, held₆⟩ := staged.redeem (p := ⟨i, ⟨0, first⟩⟩) (by omega)
    (by rw [held₅]; exact List.mem_singleton_self _) rfl (Nat.zero_le _) (by simp) priceFirst (by omega)
  have reached := ((((((Reaches.refl _ _).snoc write).snoc write').snoc exercise).snoc tick).snoc redeem).snoc redeem'
  have zero := staged.clean clean reached (by omega) (by rw [held₆, held₅, List.erase_cons_head])
  omega

theorem linear_of_cleansUp (live : now < (terms i).expiryMs) (clean : (CallSystem.create now terms).CleansUp i) :
    RoundsLinearly (terms i).strike (terms i).strikeScale := by
  intro amount cost fits priced
  induction amount generalizing cost with
  | zero => rw [(applyStrike_ok.mp priced).2.2.2, halfUp_zero, Nat.zero_mul]
  | succ amount ih =>
    rcases Nat.eq_zero_or_pos amount with rfl | positive
    · rw [(applyStrike_ok.mp priced).2.2.2, Nat.zero_add, Nat.one_mul]
    have low := exercises_le live clean positive Nat.one_pos fits priced
    have high := le_redemptions live clean positive Nat.one_pos fits priced
    have rest := ih _ (by omega) (applyStrike_of_le (Nat.le_succ amount) priced)
    rw [Nat.succ_mul]
    omega

end Necessary

/-- A drained call bucket can always be cleaned up exactly when the rounding of its strike is linear. -/
theorem call_cleanup_iff {now : Nat} {terms : ι → Terms} {i : ι} (live : now < (terms i).expiryMs) :
    (CallSystem.create now terms).CleansUp i ↔ RoundsLinearly (terms i).strike (terms i).strikeScale :=
  ⟨linear_of_cleansUp live, cleansUp_of_linear⟩

theorem call_cleanup_whole :
    RoundsLinearly 20 1 ∧ (CallSystem.create 0 (fun _ : Unit => ⟨100, 20, 1⟩)).CleansUp () := by
  have linear : RoundsLinearly 20 1 := roundsLinearly_of_dvd (by decide)
  exact ⟨linear, (call_cleanup_iff (by decide)).mpr linear⟩

-- Two unit exercises at a price of 0.5 pay 1 each; the position they assign is owed 1, and the other 1 stays.
theorem call_cleanup_blocked : ¬ (CallSystem.create 0 (fun _ : Unit => ⟨100, 5, 1⟩)).CleansUp () := by
  intro clean
  obtain ⟨s, ran, expired, none, dust⟩ : ∃ s, exec callStep (CallSystem.create 0 (fun _ : Unit => ⟨100, 5, 1⟩))
      [.write () 2, .exercise () 1 1, .exercise () 1 1, .tick 100, .redeemPosition () ⟨(), ⟨0, 2⟩⟩] = .ok s ∧
        (s.buckets ()).expiryMs ≤ s.now ∧ s.positions = [] ∧ (s.buckets ()).settlementBalance = 1 :=
    ⟨_, rfl, Nat.le_refl _, rfl, rfl⟩
  have retired : s.AllRetired () := by
    intro p member
    rw [none] at member
    cases member
  have zero := (clean _ s ran expired retired).2.1
  rw [dust] at zero
  cases zero

end SuiOptions.Core
