import SuiOptions.DeskCore.Backing
import SuiOptions.DeskCore.History

/-! The history database mirrors the reservations.

At any time a reservation is held just when its key has been recorded and no terminal
state of it has: what was recorded is in the table, on its way there, or in the outbox.
This lasts whatever the order in which batches land, and it lasts over a restart that loads
the rows. A write that fails takes what it recorded with it.
-/

set_option autoImplicit false

namespace SuiOptions.DeskCore

open Execution BTreeMap

/-! ### Events that leave the reservations -/

namespace Ledger

variable {l : Ledger}

theorem syncSettlement_reservations (l : Ledger) (settlement : Option ℚ) :
    (l.syncSettlement settlement).reservations = l.reservations := by
  cases settlement <;> rfl

theorem syncUnderlying_reservations (l : Ledger) (row : String × ℚ × ℚ) :
    (l.syncUnderlying row).reservations = l.reservations := rfl

theorem syncOption_reservations (l : Ledger) (s : OptionSync) : (l.syncOption s).reservations = l.reservations := by
  unfold syncOption
  dsimp only
  split <;> rfl

theorem loseOption_reservations (l : Ledger) (id : OptionId) : (l.loseOption id).reservations = l.reservations := by
  unfold loseOption
  split <;> rfl

theorem markOption_reservations (l : Ledger) (row : OptionId × ℚ) : (l.markOption row).reservations = l.reservations := by
  unfold markOption
  split <;> rfl

theorem markUnderlying_reservations (l : Ledger) (asset : String) (mark : ℚ) :
    (l.markUnderlying asset mark).reservations = l.reservations := by
  unfold markUnderlying
  split <;> rfl

theorem dropIfEmpty_reservations (l : Ledger) (id : OptionId) : (l.dropIfEmpty id).reservations = l.reservations := by
  unfold dropIfEmpty
  split
  · rfl
  · split <;> rfl

theorem resyncOptions_reservations (l : Ledger) (positions : List OptionSync) :
    (l.resyncOptions positions).reservations = l.reservations :=
  (foldl_view Ledger.reservations loseOption_reservations _).trans (foldl_view Ledger.reservations syncOption_reservations _)

theorem resyncPerp_reservations (l : Ledger) (market : Market) (units : ℚ) (mark : Option ℚ) :
    (l.resyncPerp market units mark).reservations = l.reservations := by
  unfold resyncPerp
  dsimp only
  split <;> rfl

theorem expireLine_reservations (l : Ledger) (id : OptionId) : (l.expireLine id).reservations = l.reservations := by
  unfold expireLine
  split <;> rfl

theorem submitResale_reservations (l : Ledger) (op : OpId) (resale : PendingResale) :
    (l.submitResale op resale).1.reservations = l.reservations := by
  unfold submitResale
  split
  · rfl
  · split <;> rfl

theorem settleResale_reservations (l : Ledger) (op : OpId) (proceeds : Option ℚ) :
    (l.settleResale op proceeds).1.reservations = l.reservations := by
  unfold settleResale
  split
  · rfl
  · dsimp only
    split
    · rfl
    · split
      · rfl
      · exact dropIfEmpty_reservations _ _

theorem submitExercise_reservations (l : Ledger) (op : OpId) (exercise : PendingExercise) :
    (l.submitExercise op exercise).1.reservations = l.reservations := by
  unfold submitExercise
  dsimp only
  split
  · rfl
  · split <;> rfl

theorem settleExercise_reservations (l : Ledger) (op : OpId) (ok : Bool) (actual : Option ExercisePlan) :
    (l.settleExercise op ok actual).1.reservations = l.reservations := by
  unfold settleExercise
  split
  · rfl
  dsimp only
  split
  · exact dropIfEmpty_reservations _ _
  split
  · rfl
  split
  · rfl
  split
  · exact dropIfEmpty_reservations _ _
  · exact dropIfEmpty_reservations _ _

theorem resolveHedge_reservations (l : Ledger) (op : OpId) (rejected : Bool) :
    (l.resolveHedge op rejected).reservations = l.reservations := by
  unfold resolveHedge
  split <;> rfl

theorem landTopUp_reservations (l : Ledger) (op : OpId) (accepted : Bool) :
    (l.landTopUp op accepted).1.reservations = l.reservations := by
  unfold landTopUp
  split
  · rfl
  · dsimp only
    split <;> rfl

theorem applyInner_reservations (l : Ledger) {event : LedgerEvent} (foreign : event.foreign = true) :
    (l.applyInner event).1.reservations = l.reservations := by
  cases event with
  | resyncBalances settlement underlying atMs =>
    exact (foldl_view Ledger.reservations syncUnderlying_reservations underlying).trans (l.syncSettlement_reservations settlement)
  | resyncOptions positions atMs => exact l.resyncOptions_reservations positions
  | resyncPerp market units mark atMs => exact l.resyncPerp_reservations market units mark
  | queuedWithdrawals queue => rfl
  | external account => rfl
  | markOptions marks atMs => exact foldl_view Ledger.reservations markOption_reservations marks
  | markUnderlying asset mark atMs => exact l.markUnderlying_reservations asset mark
  | markPerp market mark atMs => rfl
  | expireOptions atMs => exact foldl_view Ledger.reservations expireLine_reservations _
  | reserve reservation => cases foreign
  | reservationTransition key state atMs => cases foreign
  | restoreReservation reservation => cases foreign
  | optionBought option spec qty premium markPerUnit atMs => rfl
  | resaleSubmitted op option qty expectedProceeds atMs => exact l.submitResale_reservations op _
  | resaleSettled op proceeds atMs => exact l.settleResale_reservations op proceeds
  | exerciseSubmitted op plan atMs => exact l.submitExercise_reservations op _
  | exerciseSettled op ok actual atMs => exact l.settleExercise_reservations op ok actual
  | hedgeSubmitted op market sizeUnits spot atMs => rfl
  | perpFill op market sizeUnits price fee reference gas isPassive isPartial atMs => rfl
  | hedgeResolved op rejected atMs => exact l.resolveHedge_reservations op rejected
  | funding market paid atMs => rfl
  | marginMoved market amount atMs => rfl
  | marginTopUpSent op market amount atMs => rfl
  | marginTopUpLanded op accepted atMs => exact l.landTopUp_reservations op accepted
  | liquidation market sizeClosed price penalty full atMs => rfl
  | gas amount atMs => rfl
  | penalty amount atMs => rfl

theorem apply_reservations (l : Ledger) {event : LedgerEvent} (foreign : event.foreign = true) :
    (l.apply event).1.reservations = l.reservations := by
  have inner := l.applyInner_reservations foreign
  unfold apply
  split
  · rename_i ran
    rwa [ran] at inner
  · rename_i ran
    rwa [ran] at inner

end Ledger

namespace Desk

variable {d : Desk} {b next : Book} {history : WriteBehind String ReservationRow} {key other : String}
  {r old : Reservation} {what : ReservationRow → Prop}

abbrev terms (r : Reservation) : Reservation := (ReservationRow.ofReservation r).read

/-- What is held is what has been recorded and not closed, on the terms that were recorded. -/
structure Mirrors (d : Desk) : Prop where
  live : ∀ key r, d.book.ledger.reservations.get? key = some r → r.key = key ∧ r.state.isLive = true
  held : ∀ key, d.book.ledger.reservations.get? key ≠ none ↔ d.Known key ∧ ¬ d.Closed key
  same : ∀ key r, d.book.ledger.reservations.get? key = some r → ¬ d.written.Tells key fun row => row.read ≠ terms r
  ids : ∀ key, ¬ d.written.Tells key fun row => row.requestId ≠ key

theorem start_mirrors (nav : Nat) : (start nav).Mirrors := by
  have nothing (key : String) (what : ReservationRow → Prop) : ¬ (start nav).written.Tells key what := by
    intro told
    rcases WriteBehind.tells_submit.mp told with empty | ⟨row, member, -⟩
    · exact WriteBehind.not_tells_empty empty
    · exact absurd member List.not_mem_nil
  have empty (key : String) : (start nav).book.ledger.reservations.get? key = none := get?_empty
  refine ⟨fun key r found => ?_, fun key => ?_, fun key r found => ?_, fun key => nothing key _⟩
  · rw [empty] at found
    cases found
  · exact iff_of_false (fun present => present (empty key)) fun told => nothing key _ told.1
  · rw [empty] at found
    cases found

/-! ### A transition -/

theorem tells_recorded (recorded : Book.Recorded b next key r) (named : r.key = key) :
    (Desk.written ⟨next, history⟩).Tells other what ↔
      (Desk.written ⟨b, history⟩).Tells other what ∨ (other = key ∧ what (.ofReservation r)) := by
  unfold Desk.written
  simp only [WriteBehind.tells_submit, recorded.outbox, List.map_append, List.mem_append, List.map_cons, List.map_nil,
    List.mem_singleton, Prod.mk.injEq, named, or_and_right, exists_or, or_assoc, and_assoc]
  simp

theorem known_of_closed (closed : d.Closed key) : d.Known key := WriteBehind.tells_mono (fun _ _ => trivial) closed

theorem Mirrors.recorded (mirrors : Mirrors ⟨b, history⟩) (recorded : Book.Recorded b next key r) (named : r.key = key)
    (before : (∃ old, b.ledger.reservations.get? key = some old ∧ terms old = terms r) ∨ ¬ Known ⟨b, history⟩ key) :
    Mirrors ⟨next, history⟩ := by
  -- a key that is held, or has never been seen, is not closed
  have unclosed : ¬ Closed ⟨b, history⟩ key := by
    rcases before with ⟨old, found, -⟩ | unknown
    · exact ((mirrors.held key).mp (by rw [found]; nofun)).2
    · exact fun closed => unknown (known_of_closed closed)
  -- other keys are told what they were
  have told {other : String} (what : ReservationRow → Prop) (elsewhere : other ≠ key) :
      (written ⟨next, history⟩).Tells other what ↔ (written ⟨b, history⟩).Tells other what := by
    rw [tells_recorded recorded named]
    simp [elsewhere]
  refine ⟨fun other found held => ?_, fun other => ?_, fun other found held => ?_, fun other => ?_⟩
  · rw [recorded.get?] at held
    split at held
    · rename_i here
      split at held
      · rename_i live
        cases held
        exact ⟨named.trans here.symm, live⟩
      · cases held
    · exact mirrors.live other found held
  · rw [recorded.get?]
    -- the key is known now, and closed when its state has ended
    by_cases here : other = key
    · subst here
      have known : Known ⟨next, history⟩ other := (tells_recorded recorded named).mpr (Or.inr ⟨rfl, trivial⟩)
      have closed : Closed ⟨next, history⟩ other ↔ r.state.isLive = false := by
        refine (tells_recorded recorded named).trans ?_
        rw [ReservationRow.isLive_ofReservation]
        exact ⟨fun either => either.elim (fun was => absurd was unclosed) And.right, fun ended => Or.inr ⟨rfl, ended⟩⟩
      rw [if_pos rfl, closed]
      cases r.state.isLive with
      | true => simp [known]
      | false => simp
    · rw [if_neg here]
      refine (mirrors.held other).trans (and_congr ?_ (not_congr ?_))
      · exact (told _ here).symm
      · exact (told _ here).symm
  · rw [recorded.get?] at held
    by_cases here : other = key
    · subst here
      rw [if_pos rfl] at held
      split at held
      · cases held
        intro differs
        -- what was written before agrees with the terms the reservation keeps
        rcases (tells_recorded recorded named).mp differs with was | ⟨-, now⟩
        · rcases before with ⟨old, found, agreed⟩ | unknown
          · rw [← agreed] at was
            exact mirrors.same other old found was
          · exact unknown (WriteBehind.tells_mono (fun _ _ => trivial) was)
        · exact now rfl
      · cases held
    · rw [if_neg here] at held
      rw [told _ here]
      exact mirrors.same other found held
  · intro misnamed
    rcases (tells_recorded recorded named).mp misnamed with was | ⟨here, now⟩
    · exact mirrors.ids other was
    · exact now (named.trans here.symm)

theorem Mirrors.shift (mirrors : Mirrors ⟨b, history⟩) (shift : Book.Shift b next) :
    Mirrors ⟨next, history⟩ ∧ ∀ other, Known ⟨next, history⟩ other ↔ Known ⟨b, history⟩ other := by
  obtain ⟨key, r, state, now, held, recorded⟩ := shift
  have named := (mirrors.live key r held).1
  refine ⟨mirrors.recorded recorded named (Or.inl ⟨r, held, rfl⟩), fun other => ?_⟩
  have known : Known ⟨b, history⟩ key := ((mirrors.held key).mp (by rw [held]; nofun)).1
  refine (tells_recorded recorded named).trans ⟨fun either => ?_, Or.inl⟩
  rcases either with was | ⟨rfl, -⟩
  · exact was
  · exact known

theorem Mirrors.shifts (mirrors : Mirrors ⟨b, history⟩) (shifts : Book.Shifts b next) :
    Mirrors ⟨next, history⟩ ∧ ∀ other, Known ⟨next, history⟩ other ↔ Known ⟨b, history⟩ other := by
  induction shifts with
  | refl => exact ⟨mirrors, fun _ => Iff.rfl⟩
  | tail _ last ih =>
    obtain ⟨after, known⟩ := ih.1.shift last
    exact ⟨after, fun other => (known other).trans (ih.2 other)⟩

theorem Mirrors.of_view (mirrors : Mirrors ⟨b, history⟩) (reservations : next.ledger.reservations = b.ledger.reservations)
    (outbox : next.reservationOutbox = b.reservationOutbox) : Mirrors ⟨next, history⟩ := by
  have written : Desk.written ⟨next, history⟩ = Desk.written ⟨b, history⟩ := by
    unfold Desk.written
    rw [outbox]
  refine ⟨?_, ?_, ?_, ?_⟩
  · simp only [reservations]
    exact mirrors.live
  · simp only [reservations, Known, Closed, written]
    exact mirrors.held
  · simp only [reservations, written]
    exact mirrors.same
  · rw [written]
    exact mirrors.ids

theorem Mirrors.reserveQuote (mirrors : Mirrors ⟨b, history⟩) {q : QuoteReservation} (fresh : ¬ Known ⟨b, history⟩ q.key)
    (now : Nat) : Mirrors ⟨(b.reserveQuote q now).1, history⟩ := by
  obtain ⟨swept, shifts, ⟨why, ran⟩ | ⟨next, ran, grant, -⟩⟩ := b.reserveQuote_cases q now
  · rw [ran]
    exact (mirrors.shifts shifts).1
  · rw [ran]
    obtain ⟨after, known⟩ := mirrors.shifts shifts
    exact after.recorded grant.recorded rfl (Or.inr fun was => fresh ((known q.key).mp was))

theorem Mirrors.reserve (mirrors : Mirrors ⟨b, history⟩) (amount ttlMs : Nat)
    (fresh : ¬ Known ⟨b, history⟩ (Book.legacyKey b.nextReservationId)) (now : Nat) :
    Mirrors ⟨(b.reserve amount ttlMs now).1, history⟩ := by
  have quoted : Mirrors ⟨(b.reserveQuote (b.legacyQuote amount ttlMs) now).1, history⟩ := mirrors.reserveQuote fresh now
  unfold Book.reserve
  split
  · rename_i ran
    rwa [ran] at quoted
  · rename_i ran
    rw [ran] at quoted
    exact quoted.of_view rfl rfl

/-! ### The background -/

theorem tells_record {transitions : List Reservation} : (recordReservations history transitions).Tells key what ↔
    history.Tells key what ∨ ∃ r ∈ transitions, r.key = key ∧ what (.ofReservation r) := by
  unfold recordReservations
  split
  · rename_i nothing
    simp [nothing]
  · rw [WriteBehind.tells_submit]
    simp only [List.mem_map, Prod.mk.injEq]
    refine or_congr_right ⟨?_, ?_⟩
    · rintro ⟨row, ⟨r, inside, named, rfl⟩, holds⟩
      exact ⟨r, inside, named, holds⟩
    · rintro ⟨r, inside, named, holds⟩
      exact ⟨_, ⟨r, inside, named, rfl⟩, holds⟩

theorem tells_written : d.written.Tells key what ↔
    d.history.Tells key what ∨ ∃ r ∈ d.book.reservationOutbox, r.key = key ∧ what (.ofReservation r) := by
  unfold written
  rw [WriteBehind.tells_submit]
  simp only [List.mem_map, Prod.mk.injEq]
  refine or_congr_right ⟨?_, ?_⟩
  · rintro ⟨row, ⟨r, inside, named, rfl⟩, holds⟩
    exact ⟨r, inside, named, holds⟩
  · rintro ⟨r, inside, named, holds⟩
    exact ⟨_, ⟨r, inside, named, rfl⟩, holds⟩

theorem Mirrors.of_told (mirrors : d.Mirrors) {after : Desk}
    (reservations : after.book.ledger.reservations = d.book.ledger.reservations)
    (known : ∀ key, after.Known key ↔ d.Known key) (closed : ∀ key, after.Closed key ↔ d.Closed key)
    (less : ∀ key (what : ReservationRow → Prop), (∀ held row, what (held.merge row) → what held ∨ what row) →
      after.written.Tells key what → d.written.Tells key what) : after.Mirrors := by
  refine ⟨?_, fun key => ?_, fun key r held told => ?_, fun key told => ?_⟩
  · rw [reservations]
    exact mirrors.live
  · rw [reservations, known, closed]
    exact mirrors.held key
  · rw [reservations] at held
    refine mirrors.same key r held (less key _ (fun first row differs => ?_) told)
    by_contra both
    obtain ⟨one, two⟩ := not_or.mp both
    have one := not_not.mp one
    have two := not_not.mp two
    exact differs ((ReservationRow.read_merge (one.trans two.symm)).trans two)
  · refine mirrors.ids key (less key _ (fun first row differs => Or.inl fun same => differs ?_) told)
    unfold ReservationRow.merge
    split <;> exact same

theorem Mirrors.drain (mirrors : d.Mirrors) : d.drain.Mirrors := by
  have told (key : String) (what : ReservationRow → Prop) : d.drain.written.Tells key what ↔ d.written.Tells key what := by
    rw [tells_written, tells_written]
    unfold Desk.drain Book.drainReservationTransitions
    dsimp only
    rw [tells_record]
    simp
  exact mirrors.of_told rfl (fun key => told key _) (fun key => told key _) fun key what _ => (told key what).mp

theorem Mirrors.land (mirrors : d.Mirrors) (index : Nat) :
    Mirrors { d with history := d.history.land ReservationRow.merge index } := by
  have told {key : String} {what : ReservationRow → Prop} (lasting : ∀ held row, what (held.merge row) ↔ what held ∨ what row) :
      (written { d with history := d.history.land ReservationRow.merge index }).Tells key what ↔ d.written.Tells key what := by
    rw [tells_written, tells_written]
    exact or_congr_left (WriteBehind.tells_land lasting)
  refine mirrors.of_told rfl (fun key => told fun _ _ => by simp) (fun key => told fun _ _ => ReservationRow.closed_merge) ?_
  intro key what apart
  rw [tells_written, tells_written]
  exact Or.imp_left (WriteBehind.tells_of_land apart)

/-! ### A restart -/

/-- A reservation that a boot closes. -/
def Ended (filledNonces : Finset Nat) (now : Nat) (r : Reservation) : Prop :=
  r.nonce.any (· ∈ filledNonces) = true ∨ r.expiresMs ≤ now

instance (filledNonces : Finset Nat) (now : Nat) (r : Reservation) : Decidable (Ended filledNonces now r) :=
  inferInstanceAs (Decidable (_ ∨ _))

def ending (filledNonces : Finset Nat) (now : Nat) (r : Reservation) : Reservation :=
  { r with state := if r.nonce.any (· ∈ filledNonces) = true then .filled else .expired, stateAtMs := now }

theorem ending_isLive (filledNonces : Finset Nat) (now : Nat) (r : Reservation) :
    (ending filledNonces now r).state.isLive = false := by
  unfold ending
  dsimp only
  split <;> rfl

theorem reconcile_eq (rows : List Reservation) (filledNonces : Finset Nat) (now : Nat) :
    reconcileReservations rows filledNonces now =
      (rows.filter fun r => r.state.isLive = true ∧ ¬ Ended filledNonces now r,
        (rows.filter fun r => r.state.isLive = true ∧ Ended filledNonces now r).map (ending filledNonces now)) := by
  have gathered (rows : List Reservation) (found : List Reservation × List Reservation) :
      rows.foldl (fun found r =>
          if r.state.isLive = false then found
          else if r.nonce.any (· ∈ filledNonces) then (found.1, found.2 ++ [{ r with state := .filled, stateAtMs := now }])
          else if r.expiresMs ≤ now then (found.1, found.2 ++ [{ r with state := .expired, stateAtMs := now }])
          else (found.1 ++ [r], found.2)) found =
        (found.1 ++ rows.filter fun r => r.state.isLive = true ∧ ¬ Ended filledNonces now r,
          found.2 ++ (rows.filter fun r => r.state.isLive = true ∧ Ended filledNonces now r).map
            (ending filledNonces now)) := by
    induction rows generalizing found with
    | nil => simp
    | cons r rest ih =>
      rw [List.foldl_cons, ih]
      cases live : r.state.isLive with
      | false => simp [live]
      | true =>
        by_cases filled : r.nonce.any (· ∈ filledNonces) = true
        · have ended : Ended filledNonces now r := Or.inl filled
          simp [live, filled, ended, ending]
        · by_cases late : r.expiresMs ≤ now
          · have ended : Ended filledNonces now r := Or.inr late
            simp [live, filled, late, ended, ending]
          · have kept : ¬ Ended filledNonces now r := not_or.mpr ⟨filled, late⟩
            simp [live, filled, late, kept]
  exact (gathered rows ([], [])).trans (by simp)

theorem restoreAll_get? {rows : List Reservation} (live : ∀ r ∈ rows, r.state.isLive = true)
    (once : ∀ first ∈ rows, ∀ second ∈ rows, first.key = second.key → first = second) (b : Book) (key : String)
    (r : Reservation) : (rows.foldl Book.restoreReservation b).ledger.reservations.get? key = some r ↔
      (r ∈ rows ∧ r.key = key) ∨ (b.ledger.reservations.get? key = some r ∧ ∀ other ∈ rows, other.key ≠ key) := by
  induction rows generalizing b with
  | nil => simp
  | cons first rest ih =>
    have restored : (b.restoreReservation first).ledger.reservations.get? key =
        if key = first.key then some first else b.ledger.reservations.get? key := by
      unfold Book.restoreReservation
      simp only [Ledger.apply_restore, Ledger.installReservation_reservations, if_pos (live first List.mem_cons_self)]
      exact get?_insert
    rw [List.foldl_cons, ih (fun r inside => live r (List.mem_cons_of_mem _ inside))
      (fun one inside two within => once one (List.mem_cons_of_mem _ inside) two (List.mem_cons_of_mem _ within)), restored]
    by_cases here : key = first.key
    · subst here
      rw [if_pos rfl]
      constructor
      · rintro (⟨inside, named⟩ | ⟨same, -⟩)
        · exact Or.inl ⟨List.mem_cons_of_mem _ inside, named⟩
        · cases same
          exact Or.inl ⟨List.mem_cons_self, rfl⟩
      · rintro (⟨inside, named⟩ | ⟨-, elsewhere⟩)
        · obtain rfl := once r inside first List.mem_cons_self named
          by_cases later : ∃ other ∈ rest, other.key = r.key
          · obtain ⟨other, within, same⟩ := later
            obtain rfl := once other (List.mem_cons_of_mem _ within) r List.mem_cons_self same
            exact Or.inl ⟨within, rfl⟩
          · exact Or.inr ⟨rfl, fun other within same => later ⟨other, within, same⟩⟩
        · exact absurd rfl (elsewhere first List.mem_cons_self)
    · rw [if_neg here]
      simp only [List.mem_cons, forall_eq_or_imp]
      constructor
      · rintro (⟨inside, named⟩ | ⟨was, elsewhere⟩)
        · exact Or.inl ⟨Or.inr inside, named⟩
        · exact Or.inr ⟨was, fun same => here same.symm, elsewhere⟩
      · rintro (⟨rfl | inside, named⟩ | ⟨was, -, elsewhere⟩)
        · exact absurd named.symm here
        · exact Or.inl ⟨inside, named⟩
        · exact Or.inr ⟨was, elsewhere⟩

theorem restoreAll_outbox (rows : List Reservation) (b : Book) :
    (rows.foldl Book.restoreReservation b).reservationOutbox = b.reservationOutbox := by
  induction rows generalizing b with
  | nil => rfl
  | cons first rest ih => exact ih (b.restoreReservation first)

theorem mem_loadLive {table : BTreeMap String ReservationRow} : r ∈ loadLiveReservations table ↔
    ∃ key row, table.get? key = some row ∧ row.isLive = true ∧ row.intoReservation = some r := by
  unfold loadLiveReservations
  simp only [List.mem_filterMap, List.mem_filter, List.mem_map, Prod.exists]
  constructor
  · rintro ⟨row, ⟨⟨key, other, listed, rfl⟩, live⟩, loaded⟩
    exact ⟨key, other, mem_toList.mp listed, live, loaded⟩
  · rintro ⟨key, row, found, live, loaded⟩
    exact ⟨row, ⟨⟨key, row, mem_toList.mpr found, rfl⟩, live⟩, loaded⟩

theorem load_live {row : ReservationRow} (live : row.isLive = true) :
    ∃ state, state.isLive = true ∧
      row.intoReservation = some { row.read with state, stateAtMs := clip row.stateAtMs } := by
  rcases Bool.or_eq_true _ _ ▸ live with quoted | accepted
  · refine ⟨.quoted, rfl, ?_⟩
    rw [ReservationRow.intoReservation_eq, of_decide_eq_true quoted]
    rfl
  · refine ⟨.accepted, rfl, ?_⟩
    rw [ReservationRow.intoReservation_eq, of_decide_eq_true accepted]
    rfl

theorem loadLive_live {table : BTreeMap String ReservationRow} (inside : r ∈ loadLiveReservations table) :
    r.state.isLive = true := by
  obtain ⟨key, row, -, live, loaded⟩ := mem_loadLive.mp inside
  obtain ⟨state, alive, into⟩ := load_live live
  rw [into] at loaded
  cases loaded
  exact alive

section Restart

variable {row : ReservationRow} (named : ∀ key row, d.history.table.get? key = some row → row.requestId = key)
  (nav : Nat) (filledNonces : Finset Nat) (now : Nat)

include named

theorem mem_loadLive_key (key : String) : r ∈ loadLiveReservations d.history.table ∧ r.key = key ↔
    ∃ row, d.history.table.get? key = some row ∧ row.isLive = true ∧ row.intoReservation = some r := by
  rw [mem_loadLive]
  constructor
  · rintro ⟨⟨other, row, found, live, loaded⟩, rfl⟩
    obtain ⟨state, -, into⟩ := load_live live
    have here : d.history.table.get? row.requestId = some row := by
      rw [named other row found]
      exact found
    rw [into] at loaded
    cases loaded
    exact ⟨row, here, live, into⟩
  · rintro ⟨row, found, live, loaded⟩
    refine ⟨⟨key, row, found, live, loaded⟩, ?_⟩
    obtain ⟨state, -, into⟩ := load_live live
    rw [into] at loaded
    cases loaded
    exact named key row found

theorem loadLive_once (first : old ∈ loadLiveReservations d.history.table) (second : r ∈ loadLiveReservations d.history.table)
    (same : old.key = r.key) : old = r := by
  obtain ⟨one, oneFound, -, oneLoaded⟩ := (mem_loadLive_key named r.key).mp ⟨first, same⟩
  obtain ⟨two, twoFound, -, twoLoaded⟩ := (mem_loadLive_key named r.key).mp ⟨second, rfl⟩
  rw [twoFound] at oneFound
  cases oneFound
  exact Option.some.inj (oneLoaded.symm.trans twoLoaded)

theorem restart_get? : (d.restart nav filledNonces now).book.ledger.reservations.get? key = some r ↔
    ∃ row, d.history.table.get? key = some row ∧ row.isLive = true ∧ row.intoReservation = some r ∧
      ¬ Ended filledNonces now r := by
  unfold restart
  simp only [reconcile_eq]
  rw [restoreAll_get?]
  · have empty : (Book.new nav).ledger.reservations.get? key = none := get?_empty
    simp only [empty, List.mem_filter, decide_eq_true_eq]
    constructor
    · rintro (⟨⟨inside, -, kept⟩, here⟩ | ⟨impossible, -⟩)
      · obtain ⟨row, found, live, loaded⟩ := (mem_loadLive_key named key).mp ⟨inside, here⟩
        exact ⟨row, found, live, loaded, kept⟩
      · cases impossible
    · rintro ⟨row, found, live, loaded, kept⟩
      obtain ⟨inside, here⟩ := (mem_loadLive_key named key).mpr ⟨row, found, live, loaded⟩
      exact Or.inl ⟨⟨inside, loadLive_live inside, kept⟩, here⟩
  · exact fun r inside => loadLive_live (List.mem_filter.mp inside).1
  · exact fun first one second two => loadLive_once named (List.mem_filter.mp one).1 (List.mem_filter.mp two).1

theorem restart_tells : (d.restart nav filledNonces now).written.Tells key what ↔
    (∃ row, d.history.table.get? key = some row ∧ what row) ∨
      ∃ row r, d.history.table.get? key = some row ∧ row.isLive = true ∧ row.intoReservation = some r ∧
        Ended filledNonces now r ∧ what (.ofReservation (ending filledNonces now r)) := by
  have outbox : (d.restart nav filledNonces now).book.reservationOutbox = [] := restoreAll_outbox _ _
  rw [tells_written, outbox]
  unfold restart
  simp only [reconcile_eq, List.not_mem_nil, false_and, exists_false, or_false]
  rw [tells_record, WriteBehind.tells_settled rfl]
  refine or_congr_right ⟨?_, ?_⟩
  · rintro ⟨t, inside, here, holds⟩
    obtain ⟨r, listed, rfl⟩ := List.mem_map.mp inside
    obtain ⟨loaded, -, ended⟩ := by simpa [List.mem_filter] using listed
    obtain ⟨row, found, live, into⟩ := (mem_loadLive_key named key).mp ⟨loaded, here⟩
    exact ⟨row, r, found, live, into, ended, holds⟩
  · rintro ⟨row, r, found, live, into, ended, holds⟩
    obtain ⟨loaded, here⟩ := (mem_loadLive_key named key).mpr ⟨row, found, live, into⟩
    refine ⟨_, List.mem_map_of_mem (List.mem_filter.mpr ⟨loaded, ?_⟩), here, holds⟩
    exact decide_eq_true ⟨loadLive_live loaded, ended⟩

end Restart

theorem Mirrors.restart (mirrors : d.Mirrors) (nav : Nat) (filledNonces : Finset Nat) (now : Nat) :
    (d.restart nav filledNonces now).Mirrors := by
  -- a row stands under its own request id, in the new process as in the old one
  have named : ∀ key row, d.history.table.get? key = some row → row.requestId = key := by
    intro key row found
    by_contra differs
    exact mirrors.ids key (tells_written.mpr (Or.inl (Or.inl ⟨row, found, differs⟩)))
  refine ⟨fun key r held => ?_, fun key => ?_, fun key r held told => ?_, fun key told => ?_⟩
  · obtain ⟨row, found, live, loaded, -⟩ := (restart_get? named nav filledNonces now).mp held
    obtain ⟨state, alive, into⟩ := load_live live
    rw [into] at loaded
    cases loaded
    exact ⟨named key row found, alive⟩
  · rw [Option.ne_none_iff_exists']
    simp only [restart_get? named nav filledNonces now]
    -- a key is held after the boot when its row is live and has not ended meanwhile
    constructor
    · rintro ⟨r, row, found, live, loaded, kept⟩
      refine ⟨(restart_tells named nav filledNonces now).mpr (Or.inl ⟨row, found, trivial⟩), fun closed => ?_⟩
      rcases (restart_tells named nav filledNonces now).mp closed with ⟨other, same, ended⟩ | ⟨other, t, same, -, into, ended, -⟩
      · rw [found] at same
        cases same
        rw [live] at ended
        cases ended
      · rw [found] at same
        cases same
        rw [loaded] at into
        cases into
        exact kept ended
    · rintro ⟨known, unclosed⟩
      have stored : ∃ row, d.history.table.get? key = some row := by
        rcases (restart_tells named nav filledNonces now).mp known with ⟨row, found, -⟩ | ⟨row, -, found, -⟩
        · exact ⟨row, found⟩
        · exact ⟨row, found⟩
      obtain ⟨row, found⟩ := stored
      -- a row in a terminal state would have told that the key is closed
      have live : row.isLive = true := by
        by_contra ended
        refine unclosed ((restart_tells named nav filledNonces now).mpr (Or.inl ⟨row, found, ?_⟩))
        exact Bool.eq_false_iff.mpr ended
      obtain ⟨state, -, into⟩ := load_live live
      refine ⟨_, row, found, live, into, fun ended => unclosed ?_⟩
      refine (restart_tells named nav filledNonces now).mpr (Or.inr ⟨row, _, found, live, into, ended, ?_⟩)
      rw [ReservationRow.isLive_ofReservation]
      exact ending_isLive _ _ _
  · obtain ⟨row, found, live, loaded, kept⟩ := (restart_get? named nav filledNonces now).mp held
    obtain ⟨state, alive, into⟩ := load_live live
    -- what is persisted of a loaded reservation is what it was loaded from
    rcases (restart_tells named nav filledNonces now).mp told with ⟨other, same, differs⟩ | ⟨other, t, same, -, gone, ended, -⟩
    · rw [found] at same
      cases same
      rw [into] at loaded
      cases loaded
      exact differs (ReservationRow.read_ofReservation_read state _).symm
    · rw [found] at same
      cases same
      rw [loaded] at gone
      cases gone
      exact kept ended
  · rcases (restart_tells named nav filledNonces now).mp told with ⟨row, found, differs⟩ | ⟨row, t, found, live, into, -, differs⟩
    · exact differs (named key row found)
    · obtain ⟨state, -, loaded⟩ := load_live live
      rw [into] at loaded
      cases loaded
      exact differs (named key row found)

/-! ### Runs -/

theorem Mirrors.call (mirrors : d.Mirrors) {what : DeskCall} (fresh : d.Fresh what) (answered : Answered what) :
    (d.call what).Mirrors := by
  cases what with
  | reserveQuote q now => exact mirrors.reserveQuote (fresh q.key rfl) now
  | reserve amount ttlMs now => exact mirrors.reserve amount ttlMs (fresh _ rfl) now
  | releaseReservation id now => exact (mirrors.shifts (d.book.transition_shifts _ .reverted now)).1
  | acceptReservation key now => exact (mirrors.shifts (d.book.transition_shifts key .accepted now)).1
  | revertReservation key now => exact (mirrors.shifts (d.book.transition_shifts key .reverted now)).1
  | expireReservation key now => exact (mirrors.shifts (d.book.transition_shifts key .expired now)).1
  | fillReservationByNonce nonce now => exact (mirrors.shifts (d.book.fillReservationByNonce_shifts nonce now)).1
  | expireReservations now => exact (mirrors.shifts (d.book.expireReservations_shifts now)).1
  | mark nav deployed => exact mirrors.of_view rfl rfl
  | ledgerApply event foreign => exact mirrors.of_view (d.book.ledger.apply_reservations foreign) rfl
  | drain => exact mirrors.drain
  | land index => exact mirrors.land index
  | failWrite index => exact answered.elim
  | restart nav filledNonces now => exact mirrors.restart nav filledNonces now
  | restartUnloaded nav => exact answered.elim

theorem mirrors_of_run {nav : Nat} {calls : List DeskCall} (lasting : Along step Lasting (start nav) calls)
    (ran : exec step (start nav) calls = .ok d) : d.Mirrors := by
  refine exec_invariant_along step Lasting Mirrors (fun state what next before kept moved => ?_) (start_mirrors nav)
    lasting ran
  cases moved
  exact before.call kept.1 kept.2

/-- While the database answers, a reservation is held just when its key has been recorded and no
terminal state of it has; once all is written, the live rows are the reservations held. -/
theorem reservations_durable {nav : Nat} {calls : List DeskCall} (lasting : Along step Lasting (start nav) calls)
    (ran : exec step (start nav) calls = .ok d) :
    (∀ key, d.book.ledger.reservations.get? key ≠ none ↔ d.Known key ∧ ¬ d.Closed key) ∧
      (d.book.reservationOutbox = [] → d.history.pending = [] → ∀ key,
        d.book.ledger.reservations.get? key ≠ none ↔ ∃ row, d.history.table.get? key = some row ∧ row.isLive = true) := by
  have mirrors := mirrors_of_run lasting ran
  refine ⟨mirrors.held, fun drained landed key => (mirrors.held key).trans ?_⟩
  have told (what : ReservationRow → Prop) :
      d.written.Tells key what ↔ ∃ row, d.history.table.get? key = some row ∧ what row := by
    rw [tells_written, drained, WriteBehind.tells_settled landed]
    simp
  unfold Known Closed
  rw [told, told]
  constructor
  · rintro ⟨⟨row, found, -⟩, unclosed⟩
    refine ⟨row, found, ?_⟩
    by_contra ended
    exact unclosed ⟨row, found, Bool.eq_false_iff.mpr ended⟩
  · rintro ⟨row, found, live⟩
    refine ⟨⟨row, found, trivial⟩, ?_⟩
    rintro ⟨other, same, ended⟩
    rw [found] at same
    cases same
    rw [live] at ended
    cases ended

def lastingTest (d : Desk) (what : DeskCall) : Bool :=
  ((d.reserves what).all fun key =>
    (d.written.table.get? key).isNone && d.written.pending.all fun batch => batch.all fun row => row.1 ≠ key) &&
  match what with
  | .failWrite _ | .restartUnloaded _ => false
  | _ => true

theorem lastingTest_sound {what : DeskCall} (passed : d.lastingTest what = true) : d.Lasting what := by
  obtain ⟨fresh, answered⟩ := Bool.and_eq_true_iff.mp passed
  constructor
  · intro key reserved known
    simp only [reserved, Option.all_some, Bool.and_eq_true, List.all_eq_true] at fresh
    obtain ⟨missing, elsewhere⟩ := fresh
    rcases known with ⟨row, found, -⟩ | ⟨batch, inside, row, member, -⟩
    · rw [found] at missing
      cases missing
    · exact of_decide_eq_true (elsewhere batch inside _ member) rfl
  · cases what with
    | failWrite _ | restartUnloaded _ => cases answered
    | _ => trivial

/-- Two quotes, of which one is taken and the other taken back; the batches land in the reverse order. -/
def reversed : List DeskCall :=
  [.reserveQuote ⟨"taken", some 7, 40, false, 900, 50, 60, 500⟩ 0, .reserveQuote ⟨"left", some 8, 30, true, 900, 20, 30, 500⟩ 0,
    .drain, .acceptReservation "taken" 1, .drain, .revertReservation "left" 2, .drain, .land 0, .land 0, .land 0]

theorem reversed_lasting : Along step Lasting (start 100) reversed :=
  along_of_test step (fun _ _ _ (_ : True) _ => trivial) (fun _ _ _ tested => lastingTest_sound tested) trivial
    (by decide +kernel)

theorem reservations_durable_reversed : ∃ d, exec step (start 100) reversed = .ok d ∧
    ∀ key, d.book.ledger.reservations.get? key ≠ none ↔ ∃ row, d.history.table.get? key = some row ∧ row.isLive = true :=
  exists_ok (fun d => decide (d.book.reservationOutbox = []) && decide (d.history.pending = [])) (by decide +kernel)
    fun d ran settled => by
      rw [Bool.and_eq_true] at settled
      exact (reservations_durable reversed_lasting ran).2 (of_decide_eq_true settled.1) (of_decide_eq_true settled.2)

/-- A reservation in the range of the columns is read back as it was. -/
structure InRange (r : Reservation) : Prop where
  nonce : ∀ n, r.nonce = some n → n < 2 ^ 64
  amount : r.amount < 2 ^ 63
  expiryMs : r.expiryMs < 2 ^ 63
  quotedAtMs : r.quotedAtMs < 2 ^ 63
  expiresMs : r.expiresMs < 2 ^ 63

theorem InRange.terms (inRange : InRange r) : terms r = { r with state := .quoted, stateAtMs := 0 } := by
  have nonce : (r.nonce.map asI64).map BitVec.toNat = r.nonce := by
    cases given : r.nonce with
    | none => rfl
    | some n =>
      have small := inRange.nonce n given
      simp only [asI64, Option.map_some, BitVec.toNat_ofNat]
      rw [Nat.mod_eq_of_lt small]
  simp only [ReservationRow.read, ReservationRow.ofReservation, nonce, clip_asI64 inRange.amount,
    clip_asI64 inRange.expiryMs, clip_asI64 inRange.quotedAtMs, clip_asI64 inRange.expiresMs]

/-- A restart that loads what was written, all of it, keeps the reservations that have neither been filled nor run out,
on the terms on which they are read back. -/
theorem restart_restores {nav : Nat} {calls : List DeskCall} (lasting : Along step Lasting (start nav) calls)
    (ran : exec step (start nav) calls = .ok d) (drained : d.book.reservationOutbox = []) (landed : d.history.pending = [])
    (newNav : Nat) (filledNonces : Finset Nat) (now : Nat) (key : String) :
    ((d.restart newNav filledNonces now).book.ledger.reservations.get? key ≠ none ↔
        ∃ r, d.book.ledger.reservations.get? key = some r ∧ ¬ Ended filledNonces now (terms r)) ∧
      ∀ r restored, d.book.ledger.reservations.get? key = some r →
        (d.restart newNav filledNonces now).book.ledger.reservations.get? key = some restored →
          restored.state.isLive = true ∧ terms restored = terms r ∧
            (InRange r → restored = { r with state := restored.state, stateAtMs := restored.stateAtMs }) := by
  have mirrors := mirrors_of_run lasting ran
  have settled := (reservations_durable lasting ran).2 drained landed
  have named : ∀ key row, d.history.table.get? key = some row → row.requestId = key := by
    intro key row found
    by_contra differs
    exact mirrors.ids key (tells_written.mpr (Or.inl (Or.inl ⟨row, found, differs⟩)))
  have agreed : ∀ r row, d.book.ledger.reservations.get? key = some r → d.history.table.get? key = some row →
      row.read = terms r := by
    intro r row held found
    by_contra differs
    exact mirrors.same key r held (tells_written.mpr (Or.inl (Or.inl ⟨row, found, differs⟩)))
  constructor
  · rw [Option.ne_none_iff_exists']
    simp only [restart_get? named newNav filledNonces now]
    constructor
    · rintro ⟨restored, row, found, live, loaded, kept⟩
      obtain ⟨r, held⟩ := Option.ne_none_iff_exists'.mp ((settled key).mpr ⟨row, found, live⟩)
      obtain ⟨state, -, into⟩ := load_live live
      rw [into] at loaded
      cases loaded
      refine ⟨r, held, fun ended => kept ?_⟩
      rw [← agreed r row held found] at ended
      exact ended
    · rintro ⟨r, held, kept⟩
      obtain ⟨row, found, live⟩ := (settled key).mp (by rw [held]; exact Option.some_ne_none r)
      obtain ⟨state, -, into⟩ := load_live live
      refine ⟨_, row, found, live, into, fun ended => kept ?_⟩
      rw [← agreed r row held found]
      exact ended
  · intro r restored held kept
    obtain ⟨row, found, live, loaded, -⟩ := (restart_get? named newNav filledNonces now).mp kept
    obtain ⟨state, alive, into⟩ := load_live live
    rw [into] at loaded
    cases loaded
    refine ⟨alive, (ReservationRow.read_ofReservation_read state _).trans (agreed r row held found), fun inRange => ?_⟩
    have terms := (agreed r row held found).trans inRange.terms
    rw [terms]

theorem restart_restores_taken : ∃ d, exec step (start 100) reversed = .ok d ∧
    (d.restart 80 {3} 400).book.ledger.reservations.get? "taken" ≠ none := by
  refine exists_ok (fun d => decide (d.book.reservationOutbox = []) && decide (d.history.pending = []) &&
    decide (d.book.ledger.reservations.get? "taken" =
      some ⟨"taken", some 7, 40, false, 900, 50, 60, 0, 500, .accepted, 1⟩)) (by decide +kernel) fun d ran settled => ?_
  rw [Bool.and_eq_true, Bool.and_eq_true] at settled
  obtain ⟨⟨drained, landed⟩, held⟩ := settled
  refine (restart_restores reversed_lasting ran (of_decide_eq_true drained) (of_decide_eq_true landed) 80 {3} 400 "taken").1.mpr
    ⟨_, of_decide_eq_true held, by decide⟩

end Desk

end SuiOptions.DeskCore
