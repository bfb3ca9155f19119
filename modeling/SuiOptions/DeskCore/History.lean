import SuiOptions.DeskCore.Book
import SuiOptions.Lib.WriteBehind

/-! The durable side of the reservations: the desk's history database and its boot.

The desk drains the outbox and writes what it drained in the background: the batches land
in any order, a failed one is only counted and logged, and those that have not landed are
lost when the process stops. A boot reads the live rows back and closes those that were
filled or ran out meanwhile; when it cannot read them, it starts with an empty ledger.
-/

set_option autoImplicit false

namespace SuiOptions.DeskCore

open Execution BTreeMap

def ReservationState.asStr : ReservationState → String
  | .quoted => "quoted"
  | .accepted => "accepted"
  | .reverted => "reverted"
  | .expired => "expired"
  | .filled => "filled"

def ReservationState.parse (s : String) : Option ReservationState :=
  if s = "quoted" then some .quoted
  else if s = "accepted" then some .accepted
  else if s = "reverted" then some .reverted
  else if s = "expired" then some .expired
  else if s = "filled" then some .filled
  else none

/-! ### Rows -/

/-- A row of `desk_reservations`; the numbers are signed. -/
structure ReservationRow where
  requestId : String
  nonce : Option (BitVec 64)
  amount : BitVec 64
  isPut : Bool
  expiryMs : BitVec 64
  exerciseCash : ℚ
  hedgeNotional : ℚ
  quotedAtMs : BitVec 64
  expiresMs : BitVec 64
  state : String
  stateAtMs : BitVec 64
  deriving DecidableEq

def asI64 (n : Nat) : BitVec 64 := BitVec.ofNat 64 n

/-- `max(0) as u64` -/
def clip (x : BitVec 64) : Nat := x.toInt.toNat

namespace ReservationRow

def ofReservation (r : Reservation) : ReservationRow where
  requestId := r.key
  nonce := r.nonce.map asI64
  amount := asI64 r.amount
  isPut := r.isPut
  expiryMs := asI64 r.expiryMs
  exerciseCash := r.exerciseCash
  hedgeNotional := r.hedgeNotional
  quotedAtMs := asI64 r.quotedAtMs
  expiresMs := asI64 r.expiresMs
  state := r.state.asStr
  stateAtMs := asI64 r.stateAtMs

def intoReservation (row : ReservationRow) : Option Reservation :=
  (ReservationState.parse row.state).map fun state =>
    { key := row.requestId
      nonce := row.nonce.map BitVec.toNat
      amount := clip row.amount
      isPut := row.isPut
      expiryMs := clip row.expiryMs
      exerciseCash := row.exerciseCash
      hedgeNotional := row.hedgeNotional
      quotedAtMs := clip row.quotedAtMs
      expiresMs := clip row.expiresMs
      state
      stateAtMs := clip row.stateAtMs }

def isLive (row : ReservationRow) : Bool := row.state = "quoted" || row.state = "accepted"

/-- `ON CONFLICT (request_id) DO UPDATE .. WHERE`: a terminal row only becomes filled. -/
def merge (held row : ReservationRow) : ReservationRow :=
  if held.isLive = true ∨ row.state = "filled" then
    { held with nonce := row.nonce, state := row.state, stateAtMs := row.stateAtMs, expiresMs := row.expiresMs }
  else held

end ReservationRow

/-! ### The desk -/

structure Desk where
  book : Book
  history : WriteBehind String ReservationRow

def LedgerEvent.foreign : LedgerEvent → Bool
  | .reserve _ | .reservationTransition _ _ _ | .restoreReservation _ => false
  | _ => true

inductive DeskCall where
  | reserveQuote (q : QuoteReservation) (now : Nat)
  | reserve (amount ttlMs now : Nat)
  | releaseReservation (id now : Nat)
  | acceptReservation (key : String) (now : Nat)
  | revertReservation (key : String) (now : Nat)
  | expireReservation (key : String) (now : Nat)
  | fillReservationByNonce (nonce now : Nat)
  | expireReservations (now : Nat)
  /-- A mark pass overwrites the NAV and what is deployed. -/
  | mark (nav deployed : Nat)
  | ledgerApply (event : LedgerEvent) (foreign : event.foreign = true)
  | drain
  | land (index : Nat)
  | failWrite (index : Nat)
  | restart (nav : Nat) (filledNonces : Finset Nat) (now : Nat)
  | restartUnloaded (nav : Nat)

namespace Desk

def start (nav : Nat) : Desk := ⟨Book.new nav, .empty⟩

/-- `record_reservations`: the batch is written in the background. -/
def recordReservations (history : WriteBehind String ReservationRow) (transitions : List Reservation) :
    WriteBehind String ReservationRow :=
  if transitions = [] then history else history.submit (transitions.map fun r => (r.key, .ofReservation r))

def loadLiveReservations (table : BTreeMap String ReservationRow) : List Reservation :=
  ((table.toList.map Prod.snd).filter ReservationRow.isLive).filterMap ReservationRow.intoReservation

/-- A new process that has loaded the live rows, less what has ended meanwhile. -/
def restart (d : Desk) (nav : Nat) (filledNonces : Finset Nat) (now : Nat) : Desk :=
  let history := d.history.crash
  let (live, transitions) := reconcileReservations (loadLiveReservations history.table) filledNonces now
  ⟨live.foldl Book.restoreReservation (Book.new nav), recordReservations history transitions⟩

/-- A new process that could not load them. -/
def restartUnloaded (d : Desk) (nav : Nat) : Desk := ⟨Book.new nav, d.history.crash⟩

def drain (d : Desk) : Desk :=
  let (transitions, book) := d.book.drainReservationTransitions
  ⟨book, recordReservations d.history transitions⟩

def call (d : Desk) : DeskCall → Desk
  | .reserveQuote q now => { d with book := (d.book.reserveQuote q now).1 }
  | .reserve amount ttlMs now => { d with book := (d.book.reserve amount ttlMs now).1 }
  | .releaseReservation id now => { d with book := d.book.releaseReservation id now }
  | .acceptReservation key now => { d with book := (d.book.acceptReservation key now).1 }
  | .revertReservation key now => { d with book := (d.book.revertReservation key now).1 }
  | .expireReservation key now => { d with book := (d.book.expireReservation key now).1 }
  | .fillReservationByNonce nonce now => { d with book := (d.book.fillReservationByNonce nonce now).1 }
  | .expireReservations now => { d with book := d.book.expireReservations now }
  | .mark nav deployed => { d with book := { d.book with nav, deployed } }
  | .ledgerApply event _ => { d with book := { d.book with ledger := (d.book.ledger.apply event).1 } }
  | .drain => d.drain
  | .land index => { d with history := d.history.land ReservationRow.merge index }
  | .failWrite index => { d with history := d.history.drop index }
  | .restart nav filledNonces now => d.restart nav filledNonces now
  | .restartUnloaded nav => d.restartUnloaded nav

def step (d : Desk) (what : DeskCall) : Except Empty Desk := .ok (d.call what)

/-- What has been written of a key, and what will be: rows, batches under way and the outbox. -/
def written (d : Desk) : WriteBehind String ReservationRow :=
  d.history.submit (d.book.reservationOutbox.map fun r => (r.key, .ofReservation r))

def reserves (d : Desk) : DeskCall → Option String
  | .reserveQuote q _ => some q.key
  | .reserve _ _ _ => some (Book.legacyKey d.book.nextReservationId)
  | _ => none

/-- The key has been recorded before, or will be. -/
def Known (d : Desk) (key : String) : Prop := d.written.Tells key fun _ => True

/-- A terminal state has been recorded of the key, or will be. -/
def Closed (d : Desk) (key : String) : Prop := d.written.Tells key fun row => row.isLive = false

def Fresh (d : Desk) (what : DeskCall) : Prop := ∀ key, d.reserves what = some key → ¬ d.Known key

/-- The database neither fails a write nor a load. -/
def Answered : DeskCall → Prop
  | .failWrite _ | .restartUnloaded _ => False
  | _ => True

/-- Keys are reserved once, and the database answers. -/
def Lasting (d : Desk) (what : DeskCall) : Prop := d.Fresh what ∧ Answered what

end Desk

/-! ### Rows read back -/

@[simp] theorem parse_asStr (state : ReservationState) : ReservationState.parse state.asStr = some state := by
  cases state <;> rfl

theorem asStr_live (state : ReservationState) :
    (state.asStr = "quoted" || state.asStr = "accepted") = state.isLive := by
  cases state <;> decide

theorem clip_asI64 {n : Nat} (small : n < 2 ^ 63) : clip (asI64 n) = n := by
  unfold clip asI64
  rw [BitVec.toInt_eq_toNat_cond, BitVec.toNat_ofNat]
  omega

@[simp] theorem asI64_toNat (x : BitVec 64) : asI64 x.toNat = x := by simp [asI64]

/-- What has been read back once is read back the same. -/
@[simp] theorem clip_again (x : BitVec 64) : clip (asI64 (clip x)) = clip x := by
  apply clip_asI64
  have below := BitVec.toInt_lt (x := x)
  unfold clip
  omega

namespace ReservationRow

variable {r : Reservation} {row held : ReservationRow}

/-- The reservation that is read back, but for its state. -/
def read (row : ReservationRow) : Reservation where
  key := row.requestId
  nonce := row.nonce.map BitVec.toNat
  amount := clip row.amount
  isPut := row.isPut
  expiryMs := clip row.expiryMs
  exerciseCash := row.exerciseCash
  hedgeNotional := row.hedgeNotional
  quotedAtMs := clip row.quotedAtMs
  expiresMs := clip row.expiresMs
  state := .quoted
  stateAtMs := 0

theorem intoReservation_eq : row.intoReservation = (ReservationState.parse row.state).map fun state =>
    { row.read with state, stateAtMs := clip row.stateAtMs } := rfl

theorem read_ofReservation_read (state : ReservationState) (now : Nat) :
    (ofReservation { row.read with state, stateAtMs := now }).read = row.read := by
  have nonce : ((row.nonce.map BitVec.toNat).map asI64).map BitVec.toNat = row.nonce.map BitVec.toNat := by
    cases row.nonce with
    | none => rfl
    | some n => simp
  simp only [read, ofReservation, clip_again, nonce]

@[simp] theorem isLive_ofReservation : (ofReservation r).isLive = r.state.isLive := asStr_live r.state

theorem closed_merge : (merge held row).isLive = false ↔ held.isLive = false ∨ row.isLive = false := by
  cases live : held.isLive with
  | true =>
    have merged : (merge held row).isLive = row.isLive := by
      unfold merge
      rw [if_pos (Or.inl live)]
      rfl
    simp [merged]
  | false =>
    refine iff_of_true ?_ (Or.inl rfl)
    unfold merge
    split
    · rename_i filled
      have filled : row.state = "filled" := by simpa [live] using filled
      simp [isLive, filled]
    · exact live

theorem read_merge (same : held.read = row.read) : (merge held row).read = row.read := by
  unfold merge
  split
  · simp only [read, Reservation.mk.injEq] at same ⊢
    tauto
  · exact same

end ReservationRow

end SuiOptions.DeskCore
