import SuiOptions.DeskCore.Apply
import SuiOptions.Lib.Execution

/-! The desk's book: the reservations of `book.rs`.

The reservations live in the exact ledger. The book keeps its own rule on top of it
(what is reserved and deployed is within the NAV) and queues every transition for the
desk to persist.
-/

set_option autoImplicit false

namespace SuiOptions.DeskCore

open Execution BTreeMap

inductive ReserveError where
  | exceedsNav
  | duplicateKey
  | exceedsAvailableCapital
  deriving DecidableEq, Repr

structure QuoteReservation where
  key : String
  nonce : Option Nat
  amount : Nat
  isPut : Bool
  expiryMs : Nat
  exerciseCash : ℚ
  hedgeNotional : ℚ
  ttlMs : Nat

def u64Max : Nat := 2 ^ 64 - 1

/-- `reserve_quote`: the reservation of a quote at a time. -/
def QuoteReservation.reservation (q : QuoteReservation) (now : Nat) : Reservation where
  key := q.key
  nonce := q.nonce
  amount := q.amount
  isPut := q.isPut
  expiryMs := q.expiryMs
  exerciseCash := q.exerciseCash
  hedgeNotional := q.hedgeNotional
  quotedAtMs := now
  expiresMs := min (now + q.ttlMs) u64Max
  state := .quoted
  stateAtMs := now

structure Book where
  nav : Nat
  deployed : Nat
  ledger : Ledger
  reservationOutbox : List Reservation
  nextReservationId : Nat

namespace Book

def new (nav : Nat) : Book where
  nav := nav
  deployed := 0
  ledger := Ledger.new nav
  reservationOutbox := []
  nextReservationId := 1

def reservedTotal (b : Book) : Nat := (b.ledger.reservations.toList.map fun entry => entry.2.amount).sum

def transition (b : Book) (key : String) (state : ReservationState) (now : Nat) : Book × Bool :=
  match b.ledger.reservations.get? key with
  | none => (b, false)
  | some r =>
    ({ b with
      ledger := (b.ledger.apply (.reservationTransition key state now)).1
      reservationOutbox := b.reservationOutbox ++ [{ r with state, stateAtMs := now }] }, true)

def acceptReservation (b : Book) (key : String) (now : Nat) : Book × Bool := b.transition key .accepted now

def revertReservation (b : Book) (key : String) (now : Nat) : Book × Bool := b.transition key .reverted now

def expireReservation (b : Book) (key : String) (now : Nat) : Book × Bool := b.transition key .expired now

def fillReservationByNonce (b : Book) (nonce now : Nat) : Book × Option String :=
  match b.ledger.reservations.find? fun _ r => r.nonce = some nonce with
  | none => (b, none)
  | some (_, r) => ((b.transition r.key .filled now).1, some r.key)

def expireReservations (b : Book) (now : Nat) : Book :=
  let stale := (b.ledger.reservations.toList.filter fun entry => entry.2.expiresMs ≤ now).map fun entry => entry.2.key
  stale.foldl (fun b key => (b.transition key .expired now).1) b

def reserveQuote (b : Book) (q : QuoteReservation) (now : Nat) : Book × Except ReserveError Unit :=
  let b := b.expireReservations now
  if b.ledger.reservations.get? q.key ≠ none then (b, .error .duplicateKey)
  else if b.nav < b.reservedTotal + b.deployed + q.amount then (b, .error .exceedsNav)
  else
    let r := q.reservation now
    match b.ledger.apply (.reserve r) with
    | (ledger, .error (.duplicateReservation _)) => ({ b with ledger }, .error .duplicateKey)
    | (ledger, .error _) => ({ b with ledger }, .error .exceedsAvailableCapital)
    | (ledger, .ok ()) => ({ b with ledger, reservationOutbox := b.reservationOutbox ++ [r] }, .ok ())

def legacyKey (id : Nat) : String := "legacy-" ++ toString id

def legacyQuote (b : Book) (amount ttlMs : Nat) : QuoteReservation :=
  ⟨legacyKey b.nextReservationId, none, amount, false, 0, 0, 0, ttlMs⟩

def reserve (b : Book) (amount ttlMs now : Nat) : Book × Except ReserveError Nat :=
  match b.reserveQuote (b.legacyQuote amount ttlMs) now with
  | (next, .error why) => (next, .error why)
  | (next, .ok ()) => ({ next with nextReservationId := next.nextReservationId + 1 }, .ok b.nextReservationId)

def releaseReservation (b : Book) (id now : Nat) : Book := (b.transition (legacyKey id) .reverted now).1

def restoreReservation (b : Book) (r : Reservation) : Book :=
  { b with ledger := (b.ledger.apply (.restoreReservation r)).1 }

def drainReservationTransitions (b : Book) : List Reservation × Book :=
  (b.reservationOutbox, { b with reservationOutbox := [] })

end Book

def reconcileReservations (rows : List Reservation) (filledNonces : Finset Nat) (now : Nat) :
    List Reservation × List Reservation :=
  rows.foldl (fun found r =>
    if r.state.isLive = false then found
    else if r.nonce.any (· ∈ filledNonces) then (found.1, found.2 ++ [{ r with state := .filled, stateAtMs := now }])
    else if r.expiresMs ≤ now then (found.1, found.2 ++ [{ r with state := .expired, stateAtMs := now }])
    else (found.1 ++ [r], found.2)) ([], [])

/-! ### One transition -/

namespace Ledger

variable {l : Ledger} {r : Reservation}

@[simp] theorem apply_transition (key : String) (state : ReservationState) (now : Nat) :
    (l.apply (.reservationTransition key state now)).1.reservations =
      (l.transitionReservation key state now).reservations := rfl

@[simp] theorem apply_restore : (l.apply (.restoreReservation r)).1.reservations = (l.installReservation r).reservations := rfl

theorem transitionReservation_reservations {key : String} (held : l.reservations.get? key = some r)
    (state : ReservationState) (now : Nat) : (l.transitionReservation key state now).reservations =
      if state.isLive then (l.reservations.remove key).insert key { r with state, stateAtMs := now }
      else l.reservations.remove key := by
  unfold transitionReservation
  rw [held]

theorem installReservation_reservations :
    (l.installReservation r).reservations = if r.state.isLive then l.reservations.insert r.key r else l.reservations := by
  unfold installReservation
  split <;> rfl

theorem apply_reserve (l : Ledger) (r : Reservation) :
    (∃ after, l.apply (.reserve r) = (after, .ok ()) ∧ after.reservations = (l.installReservation r).reservations) ∨
      ∃ why, l.apply (.reserve r) = (l, .error why) := by
  have inner : l.applyInner (.reserve r) = l.reserve r := rfl
  unfold apply
  rw [inner]
  unfold reserve
  by_cases held : l.reservations.get? r.key ≠ none
  · rw [if_pos held]
    exact Or.inr ⟨_, rfl⟩
  · rw [if_neg held]
    by_cases short : l.availableCapital < (r.amount : ℚ)
    · rw [if_pos short]
      exact Or.inr ⟨_, rfl⟩
    · rw [if_neg short]
      exact Or.inl ⟨_, rfl, rfl⟩

end Ledger

namespace Book

variable {b next : Book} {key : String} {r old : Reservation}

/-- The reservation of a key becomes `r`, which is queued for the desk to persist. -/
structure Recorded (b next : Book) (key : String) (r : Reservation) : Prop where
  get? : ∀ other, next.ledger.reservations.get? other =
    if other = key then (if r.state.isLive then some r else none) else b.ledger.reservations.get? other
  outbox : next.reservationOutbox = b.reservationOutbox ++ [r]
  nav : next.nav = b.nav
  deployed : next.deployed = b.deployed

def Shift (b next : Book) : Prop :=
  ∃ key r state now, b.ledger.reservations.get? key = some r ∧ Recorded b next key { r with state, stateAtMs := now }

abbrev Shifts : Book → Book → Prop := Relation.ReflTransGen Shift

structure Grant (b next : Book) (q : QuoteReservation) (now : Nat) : Prop where
  fresh : b.ledger.reservations.get? q.key = none
  within : b.reservedTotal + b.deployed + q.amount ≤ b.nav
  recorded : Recorded b next q.key (q.reservation now)

theorem transition_shifts (b : Book) (key : String) (state : ReservationState) (now : Nat) :
    Shifts b (b.transition key state now).1 := by
  unfold transition
  split
  · exact .refl
  · rename_i r held
    refine .single ⟨key, r, state, now, held, fun other => ?_, rfl, rfl, rfl⟩
    simp only [Ledger.apply_transition, Ledger.transitionReservation_reservations held]
    split
    · rw [get?_insert, get?_remove]
      split <;> rfl
    · rw [get?_remove]

theorem expireReservations_shifts (b : Book) (now : Nat) : Shifts b (b.expireReservations now) := by
  unfold expireReservations
  dsimp only
  generalize (b.ledger.reservations.toList.filter fun entry => entry.2.expiresMs ≤ now).map (fun entry => entry.2.key) = stale
  induction stale generalizing b with
  | nil => exact .refl
  | cons key rest ih => exact (b.transition_shifts key .expired now).trans (ih _)

theorem fillReservationByNonce_shifts (b : Book) (nonce now : Nat) : Shifts b (b.fillReservationByNonce nonce now).1 := by
  unfold fillReservationByNonce
  split
  · exact .refl
  · exact b.transition_shifts _ .filled now

/-- A quote's reservation sweeps the stale ones first; it is then granted or nothing more changes. -/
theorem reserveQuote_cases (b : Book) (q : QuoteReservation) (now : Nat) :
    ∃ swept, Shifts b swept ∧ ((∃ why, b.reserveQuote q now = (swept, .error why)) ∨
      ∃ next, b.reserveQuote q now = (next, .ok ()) ∧ Grant swept next q now ∧
        next.nextReservationId = swept.nextReservationId) := by
  refine ⟨_, b.expireReservations_shifts now, ?_⟩
  unfold reserveQuote
  dsimp only
  generalize b.expireReservations now = swept
  by_cases held : swept.ledger.reservations.get? q.key ≠ none
  · rw [if_pos held]
    exact Or.inl ⟨_, rfl⟩
  rw [if_neg held]
  by_cases exceeds : swept.nav < swept.reservedTotal + swept.deployed + q.amount
  · rw [if_pos exceeds]
    exact Or.inl ⟨_, rfl⟩
  rw [if_neg exceeds]
  rcases swept.ledger.apply_reserve (q.reservation now) with ⟨after, ran, installed⟩ | ⟨why, ran⟩
  · rw [ran]
    refine Or.inr ⟨_, rfl, ⟨not_not.mp held, not_lt.mp exceeds, ⟨fun other => ?_, rfl, rfl, rfl⟩⟩, rfl⟩
    have live : (q.reservation now).state.isLive = true := rfl
    simp only [installed, Ledger.installReservation_reservations, if_pos live]
    rw [get?_insert]
    rfl
  · rw [ran]
    cases why <;> exact Or.inl ⟨_, rfl⟩

end Book

end SuiOptions.DeskCore
