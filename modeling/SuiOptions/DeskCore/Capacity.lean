import SuiOptions.DeskCore.Durable

/-! What is reserved stays within the NAV, and is split without loss.

A grant is checked against the NAV less what is deployed, every other transition frees
quantity or leaves it: only a mark that lowers the NAV or raises what is deployed, or
a boot, can put the desk over.
-/

set_option autoImplicit false

namespace SuiOptions.DeskCore

open Execution BTreeMap

/-! ### The split -/

/-- The live reservations as the capital policy reads them. -/
structure ReservedSplit where
  total : ℚ := 0
  calls : ℚ := 0
  puts : ℚ := 0
  byExpiry : BTreeMap Nat ℚ := ∅
  callStrikeCash : ℚ := 0
  putUnderlyingValue : ℚ := 0
  exerciseDemandByExpiry : BTreeMap Nat ℚ := ∅
  hedgeNotional : ℚ := 0
  hedgeNotionalByExpiry : BTreeMap Nat ℚ := ∅

namespace ReservedSplit

def add (s : ReservedSplit) (r : Reservation) : ReservedSplit :=
  let a : ℚ := r.amount
  { total := s.total + a
    puts := if r.isPut then s.puts + a else s.puts
    putUnderlyingValue := if r.isPut then s.putUnderlyingValue + r.exerciseCash else s.putUnderlyingValue
    calls := if r.isPut then s.calls else s.calls + a
    callStrikeCash := if r.isPut then s.callStrikeCash else s.callStrikeCash + r.exerciseCash
    byExpiry := s.byExpiry.entry r.expiryMs 0 (· + a)
    exerciseDemandByExpiry := s.exerciseDemandByExpiry.entry r.expiryMs 0 (· + r.exerciseCash)
    hedgeNotional := s.hedgeNotional + r.hedgeNotional
    hedgeNotionalByExpiry := s.hedgeNotionalByExpiry.entry r.expiryMs 0 (· + r.hedgeNotional) }

/-- Nothing is lost between the figures: the sides and the expiries add up to the whole. -/
structure Balanced (s : ReservedSplit) : Prop where
  sides : s.calls + s.puts = s.total
  expiries : s.byExpiry.total id = s.total
  exercise : s.exerciseDemandByExpiry.total id = s.callStrikeCash + s.putUnderlyingValue
  hedge : s.hedgeNotionalByExpiry.total id = s.hedgeNotional

variable {s : ReservedSplit} {r : Reservation}

theorem total_entry_add (map : BTreeMap Nat ℚ) (key : Nat) (amount : ℚ) :
    (map.entry key 0 (· + amount)).total id = map.total id + amount := by
  rw [total_entry (f := id) rfl]
  simp only [id]
  ring

theorem Balanced.add (balanced : s.Balanced) (r : Reservation) : (s.add r).Balanced := by
  obtain ⟨sides, expiries, exercise, hedge⟩ := balanced
  unfold ReservedSplit.add
  dsimp only
  refine ⟨?_, ?_, ?_, ?_⟩
  · cases r.isPut with
    | true =>
      simp only [if_true, ← sides]
      ring
    | false =>
      simp only [Bool.false_eq_true, if_false, ← sides]
      ring
  · simp only [total_entry_add, expiries]
  · rw [total_entry_add, exercise]
    cases r.isPut with
    | true =>
      simp only [if_true]
      ring
    | false =>
      simp only [Bool.false_eq_true, if_false]
      ring
  · simp only [total_entry_add, hedge]

end ReservedSplit

namespace Book

variable {b next : Book} {key : String} {r : Reservation}

def reservedSplit (b : Book) : ReservedSplit := b.ledger.reservations.toList.foldl (fun s entry => s.add entry.2) {}

theorem reservedSplit_spec (b : Book) : b.reservedSplit.Balanced ∧ b.reservedSplit.total = b.reservedTotal := by
  have gathered (list : List (String × Reservation)) (s : ReservedSplit) (balanced : s.Balanced) :
      (list.foldl (fun s entry => s.add entry.2) s).Balanced ∧
        (list.foldl (fun s entry => s.add entry.2) s).total = s.total + ((list.map fun entry => entry.2.amount).sum : Nat) := by
    induction list generalizing s with
    | nil => exact ⟨balanced, by simp⟩
    | cons entry rest ih =>
      obtain ⟨later, sum⟩ := ih (s.add entry.2) (balanced.add entry.2)
      refine ⟨later, ?_⟩
      rw [List.foldl_cons, sum]
      simp only [ReservedSplit.add, List.map_cons, List.sum_cons, Nat.cast_add]
      ring
  have start : ReservedSplit.Balanced {} := ⟨by simp, total_empty, by simp, total_empty⟩
  obtain ⟨balanced, total⟩ := gathered b.ledger.reservations.toList {} start
  exact ⟨balanced, total.trans (zero_add _)⟩

/-! ### The rule -/

theorem reservedTotal_eq (b : Book) : (b.reservedTotal : ℤ) = b.ledger.reservations.total fun r => (r.amount : ℤ) := by
  rw [reservedTotal, total, Nat.cast_list_sum, List.map_map]
  rfl

theorem Recorded.reservedTotal (recorded : Recorded b next key r) : (next.reservedTotal : ℤ) =
    b.reservedTotal - b.ledger.reservations.part (fun r => (r.amount : ℤ)) key + if r.state.isLive then (r.amount : ℤ) else 0 := by
  have elsewhere : ∀ other, other ≠ key → b.ledger.reservations.get? other = next.ledger.reservations.get? other := by
    intro other differs
    rw [recorded.get?, if_neg differs]
  have here : next.ledger.reservations.part (fun r => (r.amount : ℤ)) key =
      if r.state.isLive then (r.amount : ℤ) else 0 := by
    rw [part, recorded.get?, if_pos rfl]
    split <;> rfl
  rw [reservedTotal_eq, reservedTotal_eq, total_changed elsewhere, here]

/-- What is reserved and deployed is within the NAV. -/
def Within (b : Book) : Prop := b.reservedTotal + b.deployed ≤ b.nav

theorem Shift.reservedTotal (shift : Shift b next) : next.reservedTotal ≤ b.reservedTotal := by
  obtain ⟨key, r, state, now, held, recorded⟩ := shift
  have total := recorded.reservedTotal
  rw [part_of_some held] at total
  dsimp only at total
  split at total <;> omega

theorem Within.shifts (within : b.Within) (shifts : Shifts b next) : next.Within := by
  induction shifts with
  | refl => exact within
  | tail _ last ih =>
    have less := Shift.reservedTotal last
    obtain ⟨key, r, state, now, -, recorded⟩ := last
    unfold Within at ih ⊢
    rw [recorded.nav, recorded.deployed]
    omega

theorem within_of_grant {q : QuoteReservation} {now : Nat} (grant : Grant b next q now) : next.Within := by
  have total := grant.recorded.reservedTotal
  have live : (q.reservation now).state.isLive = true := rfl
  have amount : (q.reservation now).amount = q.amount := rfl
  rw [part_of_none grant.fresh, if_pos live, amount] at total
  have room := grant.within
  unfold Within
  rw [grant.recorded.nav, grant.recorded.deployed]
  omega

theorem Within.reserveQuote (within : b.Within) (q : QuoteReservation) (now : Nat) : (b.reserveQuote q now).1.Within := by
  obtain ⟨swept, shifts, ⟨why, ran⟩ | ⟨next, ran, grant, -⟩⟩ := b.reserveQuote_cases q now
  · rw [ran]
    exact within.shifts shifts
  · rw [ran]
    exact within_of_grant grant

theorem Within.reserve (within : b.Within) (amount ttlMs now : Nat) : (b.reserve amount ttlMs now).1.Within := by
  have quoted := within.reserveQuote (b.legacyQuote amount ttlMs) now
  unfold Book.reserve
  split
  · rename_i ran
    rwa [ran] at quoted
  · rename_i ran
    rw [ran] at quoted
    exact quoted

theorem Within.of_reservations (within : b.Within) (reservations : next.ledger.reservations = b.ledger.reservations)
    (room : b.nav + next.deployed ≤ next.nav + b.deployed) : next.Within := by
  unfold Within Book.reservedTotal at *
  rw [reservations]
  omega

end Book

namespace Desk

variable {d : Desk}

/-- A mark takes nothing away from what the NAV leaves; no boot. -/
def Roomy (d : Desk) : DeskCall → Prop
  | .mark nav deployed => d.book.nav + deployed ≤ nav + d.book.deployed
  | .restart _ _ _ | .restartUnloaded _ => False
  | _ => True

theorem within_call (within : d.book.Within) {what : DeskCall} (roomy : d.Roomy what) : (d.call what).book.Within := by
  cases what with
  | reserveQuote q now => exact within.reserveQuote q now
  | reserve amount ttlMs now => exact within.reserve amount ttlMs now
  | releaseReservation id now => exact within.shifts (d.book.transition_shifts _ .reverted now)
  | acceptReservation key now => exact within.shifts (d.book.transition_shifts key .accepted now)
  | revertReservation key now => exact within.shifts (d.book.transition_shifts key .reverted now)
  | expireReservation key now => exact within.shifts (d.book.transition_shifts key .expired now)
  | fillReservationByNonce nonce now => exact within.shifts (d.book.fillReservationByNonce_shifts nonce now)
  | expireReservations now => exact within.shifts (d.book.expireReservations_shifts now)
  | mark nav deployed => exact within.of_reservations rfl roomy
  | ledgerApply event foreign => exact within.of_reservations (d.book.ledger.apply_reservations foreign) (le_refl _)
  | drain => exact within.of_reservations rfl (le_refl _)
  | land index => exact within
  | failWrite index => exact within
  | restart nav filledNonces now => exact roomy.elim
  | restartUnloaded nav => exact roomy.elim

/-- While no mark takes from what the NAV leaves, what is reserved and deployed is within the NAV,
and its split by side and by expiry adds up to it. -/
theorem capacity_kept {calls : List DeskCall} {after : Desk} (within : d.book.Within) (roomy : Along step Roomy d calls)
    (ran : exec step d calls = .ok after) :
    after.book.reservedTotal + after.book.deployed ≤ after.book.nav ∧
      after.book.reservedSplit.calls + after.book.reservedSplit.puts = after.book.reservedTotal ∧
      after.book.reservedSplit.byExpiry.total id = after.book.reservedTotal ∧
      after.book.reservedSplit.exerciseDemandByExpiry.total id =
        after.book.reservedSplit.callStrikeCash + after.book.reservedSplit.putUnderlyingValue ∧
      after.book.reservedSplit.hedgeNotionalByExpiry.total id = after.book.reservedSplit.hedgeNotional := by
  have kept : after.book.Within := by
    refine exec_invariant_along step Roomy (fun d => d.book.Within) (fun state what next before room moved => ?_) within
      roomy ran
    cases moved
    exact within_call before room
  obtain ⟨balanced, total⟩ := after.book.reservedSplit_spec
  exact ⟨kept, balanced.sides.trans total, balanced.expiries.trans total, balanced.exercise, balanced.hedge⟩

/-- Two grants, a mark that leaves more room and a third grant. -/
theorem capacity_kept_granted : ∃ d, exec step (start 100)
      [.reserveQuote ⟨"call", some 7, 40, false, 900, 50, 60, 500⟩ 0, .reserveQuote ⟨"put", some 8, 30, true, 700, 20, 30, 500⟩ 0,
        .mark 120 10, .reserveQuote ⟨"late", none, 20, true, 900, 0, 0, 500⟩ 1] = .ok d ∧
      d.book.reservedTotal = 90 ∧ d.book.reservedTotal + d.book.deployed ≤ d.book.nav := by
  refine exists_ok (fun d => decide (d.book.reservedTotal = 90)) (by decide +kernel) fun d ran total => ?_
  have roomy : Along step Roomy (start 100)
      [.reserveQuote ⟨"call", some 7, 40, false, 900, 50, 60, 500⟩ 0, .reserveQuote ⟨"put", some 8, 30, true, 700, 20, 30, 500⟩ 0,
        .mark 120 10, .reserveQuote ⟨"late", none, 20, true, 900, 0, 0, 500⟩ 1] := by
    refine ⟨trivial, fun first one => ⟨trivial, fun second two => ⟨?_, fun third three => ⟨trivial, fun _ _ => trivial⟩⟩⟩⟩
    cases one
    cases two
    change (_ : Nat) ≤ _
    decide +kernel
  exact ⟨of_decide_eq_true total, (capacity_kept (by decide +kernel : (start 100).book.reservedTotal + 0 ≤ 100) roomy ran).1⟩

end Desk

end SuiOptions.DeskCore
