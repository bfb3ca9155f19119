import SuiOptions.Orderbook.SelfTrade

/-! The book against the chain.

A match reaches the book twice: the settlement worker confirms it, and chain
sync delivers a fill event for each of its orders. A `Service` is the book with
the intents handed to the worker and the events that chain sync has not yet
delivered.
-/

set_option autoImplicit false

namespace SuiOptions.Orderbook

open Exchange Execution Book

structure Fill where
  digest : Bytes
  baseAmount : Nat
  deriving DecidableEq, Repr

structure Service where
  book : Book
  /-- Intents whose transaction has not executed. -/
  submitted : List MatchIntent
  /-- Intents whose transaction has executed and whose outcome is not yet handled. -/
  executed : List MatchIntent
  /-- Events on their way to the book, oldest first. -/
  stream : List Fill
  /-- The stored orders with the base size they were signed for. -/
  opened : Bytes → Option Nat
  /-- Base units of the delivered events. Only proofs read it. -/
  delivered : Bytes → Nat
  /-- Base units that the book left out when it placed the order, or that confirmations took
  from it. Only proofs read it. -/
  lost : Bytes → Nat

namespace Service

inductive Event where
  | place (digest : Bytes) (order : Order)
  | rematch (digest : Bytes)
  | execute (which : Nat)
  | externalFill (digest : Bytes) (baseAmount : Nat)
  | deliver
  | confirmed (which : Nat)
  | stale (which : Nat)
  | orderDead (which : Nat) (digest : Bytes)
  | remove (digest : Bytes)

def openBase (book : Book) (digest : Bytes) : Nat := ((book.get digest).map (·.remainingBase)).getD 0

def pendingIn (book : Book) (digest : Bytes) : Nat := ((book.get digest).map (·.pendingBase)).getD 0

def fillsOf (intent : MatchIntent) : List Fill :=
  [⟨intent.askDigest, intent.fillBaseAmount⟩, ⟨intent.bidDigest, intent.fillBaseAmount⟩]

def confirmedBy (intent : MatchIntent) (book : Book) (digest : Bytes) : Nat :=
  if intent.names digest then min intent.fillBaseAmount (pendingIn book digest) else 0

/-- Outcomes and events in any order; a digest is stored, and so placed, once. -/
def step (s : Service) : Event → Except BookError Service
  | .place digest order =>
    if (s.opened digest).isSome then .error .duplicate
    else
      match s.book.place digest order with
      | .error why => .error why
      | .ok (_, intents, book) => .ok { s with
          book
          submitted := s.submitted ++ intents
          opened := Function.update s.opened digest (some (s.book.signedBase order))
          lost := Function.update s.lost digest (s.lost digest + (s.book.signedBase order - openBase book digest)) }
  | .rematch digest => .ok { s with
      book := (s.book.rematch digest).2
      submitted := s.submitted ++ (s.book.rematch digest).1 }
  | .execute which =>
    match s.submitted[which]? with
    | none => .ok s
    | some intent => .ok { s with
        submitted := s.submitted.eraseIdx which
        executed := s.executed ++ [intent]
        stream := s.stream ++ fillsOf intent }
  | .externalFill digest baseAmount => .ok { s with stream := s.stream ++ [⟨digest, baseAmount⟩] }
  | .deliver =>
    match s.stream with
    | [] => .ok s
    | fill :: rest => .ok { s with
        book := s.book.applyExternalFill fill.digest fill.baseAmount
        stream := rest
        delivered := Function.update s.delivered fill.digest (s.delivered fill.digest + fill.baseAmount) }
  | .confirmed which =>
    match s.executed[which]? with
    | none => .ok s
    | some intent => .ok { s with
        book := s.book.settleSuccess intent
        executed := s.executed.eraseIdx which
        lost := fun digest => s.lost digest + confirmedBy intent s.book digest }
  | .stale which =>
    match s.submitted[which]? with
    | none => .ok s
    | some intent => .ok { s with
        book := s.book.settleFailed intent []
        submitted := s.submitted.eraseIdx which }
  | .orderDead which digest =>
    match s.submitted[which]? with
    | none => .ok s
    | some intent => .ok { s with
        book := s.book.settleFailed intent [digest]
        submitted := s.submitted.eraseIdx which }
  | .remove digest => .ok { s with book := s.book.remove digest }

def start (market : Market) (policy : SelfTradePolicy) : Service :=
  { book := { Book.new market with selfTradePolicy := policy }
    submitted := []
    executed := []
    stream := []
    opened := fun _ => none
    delivered := fun _ => 0
    lost := fun _ => 0 }

/-- Base units of a digest in events that are not delivered yet. -/
def awaited (s : Service) (digest : Bytes) : Nat :=
  (s.stream.map fun fill => if fill.digest = digest then fill.baseAmount else 0).sum

/-- What the chain has filled of an order. -/
def fills (s : Service) (digest : Bytes) : Nat := s.delivered digest + s.awaited digest

/-- The book shows what the chain leaves of an order, and drops the order exactly when
nothing is left. -/
def Mirrors (s : Service) (digest : Bytes) (size : Nat) : Prop :=
  (∀ o ∈ s.book.orders, o.digest = digest → o.remainingBase = size - s.fills digest) ∧
    ((∀ o ∈ s.book.orders, o.digest ≠ digest) ↔ size - s.fills digest = 0)

/-! ### Conditions on runs -/

/-- The order is not withdrawn, and no event of it comes before its placement. -/
def Stays (digest : Bytes) (s : Service) : Event → Prop
  | .place placed _ => placed = digest → s.delivered digest = 0
  | .orderDead _ dead => dead ≠ digest
  | .remove removed => removed ≠ digest
  | _ => True

/-- Self-trade prevention does not cut the order when it is placed, and a confirmation finds
nothing pending of it. -/
def KeepsWhole (digest : Bytes) (s : Service) : Event → Prop
  | .place placed order => placed = digest → ¬ s.book.SelfTrades digest order
  | .confirmed which => ∀ intent, s.executed[which]? = some intent → intent.names digest = true →
      ∀ o ∈ s.book.orders, o.digest = digest → o.pendingBase = 0
  | _ => True

/-! ### One order in the book -/

/-- The order's numbers, or its absence, once the spent base is taken from its size. -/
structure Tracks (book : Book) (digest : Bytes) (size spent : Nat) : Prop where
  present : ∀ o ∈ book.orders, o.digest = digest →
    0 < o.remainingBase ∧ o.pendingBase ≤ o.remainingBase ∧ o.remainingBase + spent = size
  absent : (∀ o ∈ book.orders, o.digest ≠ digest) → size ≤ spent

variable {book after : Book} {digest : Bytes} {size spent more : Nat}

theorem Tracks.change (tracks : Tracks book digest size spent) (f : RestingOrder → RestingOrder) (kept : RestingOrder → Prop)
    (mem : ∀ o, o.digest = digest → (o ∈ after.orders ↔ ∃ old ∈ book.orders, o = f old ∧ kept old))
    (same : ∀ old, (f old).digest = old.digest) (grows : spent ≤ more)
    (each : ∀ old ∈ book.orders, old.digest = digest →
      (kept old → 0 < (f old).remainingBase ∧ (f old).pendingBase ≤ (f old).remainingBase ∧
        (f old).remainingBase + more = size) ∧ (¬ kept old → size ≤ more)) :
    Tracks after digest size more := by
  refine ⟨fun o member named => ?_, fun gone => ?_⟩
  · obtain ⟨old, inside, rfl, stays⟩ := (mem o named).mp member
    rw [same] at named
    exact (each old inside named).1 stays
  · by_cases here : ∃ old ∈ book.orders, old.digest = digest
    · obtain ⟨old, inside, named⟩ := here
      refine (each old inside named).2 fun stays => ?_
      have renamed : (f old).digest = digest := (same old).trans named
      exact gone (f old) ((mem _ renamed).mpr ⟨old, inside, rfl, stays⟩) renamed
    · exact Nat.le_trans (tracks.absent fun o member named => here ⟨o, member, named⟩) grows

theorem Tracks.lock {intents : List MatchIntent} (tracks : Tracks book digest size spent)
    (mem : ∀ o, o.digest = digest →
      (o ∈ after.orders ↔ ∃ old ∈ book.orders, o = old.lock (share intents old.digest)))
    (fits : ∀ o ∈ book.orders, share intents o.digest ≤ o.availableBase) : Tracks after digest size spent := by
  refine tracks.change (fun old => old.lock (share intents old.digest)) (fun _ => True) ?_
    (fun _ => rfl) (Nat.le_refl _) fun old inside named => ⟨fun _ => ?_, fun never => absurd trivial never⟩
  · intro o named
    rw [mem o named]
    simp only [and_true]
  · have numbers := tracks.present old inside named
    have room := fits old inside
    simp only [RestingOrder.availableBase] at room
    simp only [lock_remainingBase, lock_pendingBase]
    omega

theorem pendingIn_of (shaped : book.Shaped) {o : RestingOrder} (member : o ∈ book.orders) :
    pendingIn book o.digest = o.pendingBase := by
  rw [pendingIn, shaped.get_iff.mpr ⟨member, rfl⟩]
  rfl

theorem openBase_of (shaped : book.Shaped) {o : RestingOrder} (member : o ∈ book.orders) :
    openBase book o.digest = o.remainingBase := by
  rw [openBase, shaped.get_iff.mpr ⟨member, rfl⟩]
  rfl

theorem pendingIn_absent (shaped : book.Shaped) (gone : ∀ o ∈ book.orders, o.digest ≠ digest) :
    pendingIn book digest = 0 := by
  rw [pendingIn, shaped.get_none.mpr gone]
  rfl

theorem openBase_absent (shaped : book.Shaped) (gone : ∀ o ∈ book.orders, o.digest ≠ digest) :
    openBase book digest = 0 := by
  rw [openBase, shaped.get_none.mpr gone]
  rfl

/-- A confirmation takes its quantity from the pending part of both orders. -/
theorem Tracks.settleSuccess {intent : MatchIntent} (tracks : Tracks book digest size spent) (shaped : book.Shaped)
    (differs : intent.askDigest ≠ intent.bidDigest) :
    Tracks (book.settleSuccess intent) digest size (spent + confirmedBy intent book digest) := by
  refine tracks.change (onNamed intent (consume intent.fillBaseAmount))
    (fun old => ¬ (intent.names old.digest = true ∧ Done (onNamed intent (consume intent.fillBaseAmount) old)))
    (fun o _ => ((shaped.settleSuccess differs).2 o).trans ?_) (fun old => ?_) (Nat.le_add_right _ _) fun old inside named => ?_
  · constructor <;> rintro ⟨old, inside, rfl, stays⟩ <;> exact ⟨old, inside, rfl, stays⟩
  · unfold onNamed
    split <;> rfl
  · have numbers := tracks.present old inside named
    have pending := pendingIn_of shaped inside
    rw [named] at pending
    unfold onNamed confirmedBy
    by_cases touched : intent.names digest = true
    · simp only [named, touched, if_true, true_and, pending, Done, consume]
      omega
    · simp only [named, touched, if_false, Bool.false_eq_true, false_and, not_false_eq_true, forall_const,
        not_true_eq_false, false_implies, and_true, Nat.add_zero]
      exact numbers

theorem Tracks.settleFailed {intent : MatchIntent} {drop : List Bytes} (tracks : Tracks book digest size spent)
    (shaped : book.Shaped) (differs : intent.askDigest ≠ intent.bidDigest) (spared : digest ∉ drop) :
    Tracks (book.settleFailed intent drop) digest size spent := by
  refine tracks.change _ _ (fun o _ => (shaped.settleFailed drop differs).2 o) (fun old => ?_) (Nat.le_refl _) fun old inside named => ⟨fun _ => ?_, fun out => ?_⟩
  · unfold onNamed
    split <;> rfl
  · have numbers := tracks.present old inside named
    unfold onNamed
    split
    · simp only [release]
      omega
    · exact numbers
  · rw [named] at out
    exact absurd spared out

theorem Tracks.deliver {target : Bytes} {amount : Nat} (tracks : Tracks book digest size spent) (shaped : book.Shaped) :
    Tracks (book.applyExternalFill target amount) digest size (spent + if target = digest then amount else 0) := by
  refine tracks.change (onDigest target (shrink amount))
    (fun old => ¬ (old.digest = target ∧ Done (onDigest target (shrink amount) old)))
    (fun o _ => ((shaped.modify_prune (shrink_keeps amount) target).2 o).trans ?_)
    (fun old => ((shrink_keeps amount).onDigest target).digest old) (Nat.le_add_right _ _) fun old inside named => ?_
  · constructor <;> rintro ⟨old, inside, rfl, stays⟩ <;> exact ⟨old, inside, rfl, stays⟩
  · have numbers := tracks.present old inside named
    unfold onDigest
    by_cases here : target = digest
    · subst here
      simp only [named, if_true, true_and, Done, shrink]
      omega
    · have elsewhere : ¬ digest = target := Ne.symm here
      simp only [named, here, elsewhere, if_false, false_and, not_false_eq_true, forall_const, not_true_eq_false,
        false_implies, and_true, Nat.add_zero]
      exact numbers

theorem Tracks.remove {target : Bytes} (tracks : Tracks book digest size spent) (shaped : book.Shaped)
    (other : target ≠ digest) : Tracks (book.remove target) digest size spent := by
  refine tracks.change id (fun old => old.digest ≠ target) (fun o _ => ?_) (fun _ => rfl)
    (Nat.le_refl _) fun old inside named => ⟨fun _ => tracks.present old inside named, fun out => ?_⟩
  · rw [shaped.remove_orders, List.mem_filter, decide_eq_true_eq]
    simp only [id, existsAndEq, true_and]
  · rw [named] at out
    exact absurd other.symm out

/-! ### Runs -/

/-- The book is well formed, the intents name two orders and a quantity, and the order is
tracked from its placement on. -/
structure Accounted (digest : Bytes) (s : Service) : Prop where
  shaped : s.book.Shaped
  differ : ∀ intent ∈ s.submitted ++ s.executed, intent.askDigest ≠ intent.bidDigest ∧ 0 < intent.fillBaseAmount
  unplaced : s.opened digest = none → (∀ o ∈ s.book.orders, o.digest ≠ digest) ∧ s.lost digest = 0
  placed : ∀ size, s.opened digest = some size → Tracks s.book digest size (s.delivered digest + s.lost digest)

variable {s next : Service} {event : Event}

theorem Tracks.of_placed {order : Order} {outcome : PlaceOutcome} {intents : List MatchIntent} (shaped : book.Shaped)
    (ran : book.place digest order = .ok (outcome, intents, after)) :
    Tracks after digest (book.signedBase order) (book.signedBase order - openBase after digest) := by
  obtain ⟨incoming, kept, placed⟩ := shaped.place ran
  refine ⟨fun o member named => ?_, fun gone => ?_⟩
  · have size := openBase_of placed.shaped member
    have within := (shaped.place_size ran).1 o member named
    rw [named] at size
    rcases (placed.orders o).mp member with entered | ⟨old, inside, rfl⟩
    · obtain ⟨-, -, -, pending, some, sizes⟩ := placed.entered o entered
      have fits := placed.incomingFits
      omega
    · exact absurd named (placed.fresh old inside)
  · rw [openBase_absent placed.shaped gone]
    exact Nat.le_refl _

/-- Nothing is cut off exactly when self-trade prevention does not stop the placement. -/
theorem cut_eq_zero_iff {order : Order} {outcome : PlaceOutcome} {intents : List MatchIntent} (shaped : book.Shaped)
    (ran : book.place digest order = .ok (outcome, intents, after)) :
    book.signedBase order - openBase after digest = 0 ↔ ¬ book.SelfTrades digest order := by
  obtain ⟨incoming, kept, placed⟩ := shaped.place ran
  obtain ⟨within, whole⟩ := shaped.place_size ran
  rw [← whole]
  constructor
  · intro none
    by_cases here : ∃ o ∈ after.orders, o.digest = digest
    · obtain ⟨o, member, named⟩ := here
      have size := openBase_of placed.shaped member
      have most := within o member named
      rw [named] at size
      exact ⟨o, member, named, by omega⟩
    · have gone := openBase_absent placed.shaped fun o member named => here ⟨o, member, named⟩
      have positive := priceAndSize_pos placed.priced
      have signed : book.signedBase order = incoming.remainingBase := by rw [signedBase, placed.priced]
      omega
  · rintro ⟨o, member, named, full⟩
    have size := openBase_of placed.shaped member
    rw [named] at size
    omega

theorem mem_of_placed_other {order : Order} {intents : List MatchIntent} {incoming : RestingOrder}
    {kept : Option RestingOrder} {target : Bytes} (placed : Placed book target order intents after incoming kept)
    (other : target ≠ digest) (o : RestingOrder) (named : o.digest = digest) :
    o ∈ after.orders ↔ ∃ old ∈ book.orders, o = old.lock (share intents old.digest) := by
  rw [placed.orders]
  refine or_iff_right fun entered => ?_
  exact other ((placed.entered o entered).1.symm.trans named)

theorem Accounted.differ_append (accounted : s.Accounted digest) {intents : List MatchIntent}
    (added : ∀ intent ∈ intents, intent.askDigest ≠ intent.bidDigest ∧ 0 < intent.fillBaseAmount) :
    ∀ intent ∈ s.submitted ++ intents ++ s.executed, intent.askDigest ≠ intent.bidDigest ∧ 0 < intent.fillBaseAmount := by
  intro intent member
  rcases List.mem_append.mp member with queued | done
  · rcases List.mem_append.mp queued with old | new
    · exact accounted.differ intent (List.mem_append_left _ old)
    · exact added intent new
  · exact accounted.differ intent (List.mem_append_right _ done)

theorem Accounted.of_tracks (accounted : s.Accounted digest) (shaped : next.book.Shaped)
    (differ : ∀ intent ∈ next.submitted ++ next.executed, intent.askDigest ≠ intent.bidDigest ∧ 0 < intent.fillBaseAmount)
    (opened : next.opened = s.opened)
    (lost : (∀ o ∈ s.book.orders, o.digest ≠ digest) → next.lost digest = s.lost digest)
    (kept : ∀ o ∈ next.book.orders, ∃ old ∈ s.book.orders, old.digest = o.digest)
    (tracks : ∀ size, Tracks s.book digest size (s.delivered digest + s.lost digest) →
      Tracks next.book digest size (next.delivered digest + next.lost digest)) : next.Accounted digest := by
  refine ⟨shaped, differ, fun missing => ⟨fun o member named => ?_, ?_⟩, fun size stored => ?_⟩
  · rw [opened] at missing
    obtain ⟨old, inside, same⟩ := kept o member
    exact (accounted.unplaced missing).1 old inside (same.trans named)
  · rw [opened] at missing
    rw [lost (accounted.unplaced missing).1]
    exact (accounted.unplaced missing).2
  · rw [opened] at stored
    exact tracks size (accounted.placed size stored)

theorem confirmedBy_absent {intent : MatchIntent} (shaped : book.Shaped) (gone : ∀ o ∈ book.orders, o.digest ≠ digest) :
    confirmedBy intent book digest = 0 := by
  rw [confirmedBy, pendingIn_absent shaped gone, Nat.min_zero, ite_self]

/-- A confirmation takes nothing from the order exactly when nothing of it is pending. -/
theorem confirmedBy_eq_zero_iff {intent : MatchIntent} (shaped : book.Shaped) (positive : 0 < intent.fillBaseAmount) :
    confirmedBy intent book digest = 0 ↔
      (intent.names digest = true → ∀ o ∈ book.orders, o.digest = digest → o.pendingBase = 0) := by
  by_cases here : ∃ o ∈ book.orders, o.digest = digest
  · obtain ⟨o, member, rfl⟩ := here
    have alone : (∀ other ∈ book.orders, other.digest = o.digest → other.pendingBase = 0) ↔ o.pendingBase = 0 := by
      refine ⟨fun all => all o member rfl, fun none other inside same => ?_⟩
      rw [shaped.unique inside member same]
      exact none
    rw [confirmedBy, pendingIn_of shaped member, alone]
    split
    · rename_i named
      simp only [named, forall_const]
      omega
    · rename_i unnamed
      exact ⟨fun _ named => absurd named unnamed, fun _ => rfl⟩
  · have gone : ∀ o ∈ book.orders, o.digest ≠ digest := fun o member named => here ⟨o, member, named⟩
    rw [confirmedBy_absent shaped gone]
    exact ⟨fun _ _ o member named => absurd named (gone o member), fun _ => rfl⟩

/-- The order stays accounted for, and the step loses some of it unless it keeps it whole. -/
def Accounts (digest : Bytes) (event : Event) (s next : Service) : Prop :=
  next.Accounted digest ∧ s.lost digest ≤ next.lost digest ∧
    (next.lost digest = s.lost digest ↔ s.KeepsWhole digest event)

theorem Accounted.keeps (accounted : next.Accounted digest) (lost : next.lost digest = s.lost digest)
    (whole : s.KeepsWhole digest event) : Accounts digest event s next :=
  ⟨accounted, Nat.le_of_eq lost.symm, fun _ => whole, fun _ => lost⟩

theorem Accounted.place {target : Bytes} {order : Order} (accounted : s.Accounted digest)
    (fresh : target = digest → s.delivered digest = 0) (moved : s.step (.place target order) = .ok next) :
    Accounts digest (.place target order) s next := by
  simp only [Service.step] at moved
  split at moved
  · cases moved
  rename_i stored
  have unstored : s.opened target = none := by simpa using stored
  split at moved
  · cases moved
  rename_i outcome intents after ran
  cases moved
  obtain ⟨incoming, kept, placed⟩ := accounted.shaped.place ran
  have differ : ∀ intent ∈ s.submitted ++ intents ++ s.executed,
      intent.askDigest ≠ intent.bidDigest ∧ 0 < intent.fillBaseAmount := by
    refine accounted.differ_append fun intent new => ?_
    obtain ⟨o, inside, -, emitted⟩ := placed.emitted intent new
    have apart := placed.fresh o inside
    rw [← placed.digest] at apart
    exact ⟨emitted.differs apart, emitted.positive⟩
  by_cases same : digest = target
  · subst same
    have none := (accounted.unplaced unstored).2
    refine ⟨⟨placed.shaped, differ, fun missing => ?_, fun size stored => ?_⟩, ?_, ?_⟩
    · simp only [Function.update_self, reduceCtorEq] at missing
    · simp only [Function.update_self, Option.some.injEq] at stored
      subst stored
      simp only [Function.update_self, fresh rfl, none, Nat.zero_add]
      exact Tracks.of_placed accounted.shaped ran
    · simp only [Function.update_self]
      omega
    · simp only [Function.update_self, none, Nat.zero_add, KeepsWhole, forall_const]
      exact cut_eq_zero_iff accounted.shaped ran
  · refine Accounted.keeps ⟨placed.shaped, differ, fun missing => ?_, fun size stored => ?_⟩ ?_ fun here => ?_
    · simp only [Function.update_of_ne same] at missing ⊢
      refine ⟨fun o member named => ?_, (accounted.unplaced missing).2⟩
      obtain ⟨old, inside, rfl⟩ := (mem_of_placed_other placed (Ne.symm same) o named).mp member
      exact (accounted.unplaced missing).1 old inside named
    · simp only [Function.update_of_ne same] at stored ⊢
      exact (accounted.placed size stored).lock (mem_of_placed_other placed (Ne.symm same)) placed.restingFits
    · exact Function.update_of_ne same _ _
    · exact absurd here.symm same

theorem Accounted.rematch (accounted : s.Accounted digest) (target : Bytes) :
    Accounted digest { s with
      book := (s.book.rematch target).2
      submitted := s.submitted ++ (s.book.rematch target).1 } := by
  have rematched := accounted.shaped.rematch target
  refine accounted.of_tracks rematched.shaped (accounted.differ_append fun intent new => ?_) rfl (fun _ => rfl)
    (fun o member => ?_) fun size tracks => tracks.lock (fun o _ => rematched.orders o) rematched.fits
  · obtain ⟨incoming, -, o, -, -, -, apart, emitted⟩ := rematched.emitted intent new
    exact ⟨emitted.differs apart, emitted.positive⟩
  · obtain ⟨old, inside, rfl⟩ := (rematched.orders o).mp member
    exact ⟨old, inside, rfl⟩

theorem Accounted.execute {which : Nat} {intent : MatchIntent} (accounted : s.Accounted digest)
    (found : s.submitted[which]? = some intent) :
    Accounted digest { s with
      submitted := s.submitted.eraseIdx which
      executed := s.executed ++ [intent]
      stream := s.stream ++ fillsOf intent } := by
  refine accounted.of_tracks accounted.shaped (fun other member => ?_) rfl (fun _ => rfl)
    (fun o member => ⟨o, member, rfl⟩) fun _ tracks => tracks
  refine accounted.differ other ?_
  simp only [List.mem_append, List.mem_singleton] at member
  rcases member with queued | done | rfl
  · exact List.mem_append_left _ (List.mem_of_mem_eraseIdx queued)
  · exact List.mem_append_right _ done
  · exact List.mem_append_left _ (List.mem_of_getElem? found)

theorem Accounted.deliver (accounted : s.Accounted digest) (fill : Fill) (rest : List Fill) :
    Accounted digest { s with
      book := s.book.applyExternalFill fill.digest fill.baseAmount
      stream := rest
      delivered := Function.update s.delivered fill.digest (s.delivered fill.digest + fill.baseAmount) } := by
  obtain ⟨shaped, mem⟩ := accounted.shaped.modify_prune (shrink_keeps fill.baseAmount) fill.digest
  refine accounted.of_tracks shaped accounted.differ rfl (fun _ => rfl) (fun o member => ?_) fun size tracks => ?_
  · obtain ⟨old, inside, rfl, -⟩ := (mem o).mp member
    exact ⟨old, inside, (((shrink_keeps _).onDigest _).digest old).symm⟩
  · have total : Function.update s.delivered fill.digest (s.delivered fill.digest + fill.baseAmount) digest +
        s.lost digest =
        s.delivered digest + s.lost digest + if fill.digest = digest then fill.baseAmount else 0 := by
      by_cases here : digest = fill.digest
      · subst here
        simp only [Function.update_self, if_true]
        omega
      · simp only [Function.update_of_ne here, if_neg (Ne.symm here), Nat.add_zero]
    simp only [total]
    exact tracks.deliver accounted.shaped

theorem Accounted.confirmed {which : Nat} {intent : MatchIntent} (accounted : s.Accounted digest)
    (found : s.executed[which]? = some intent) :
    Accounts digest (.confirmed which) s { s with
      book := s.book.settleSuccess intent
      executed := s.executed.eraseIdx which
      lost := fun digest => s.lost digest + confirmedBy intent s.book digest } := by
  obtain ⟨differs, positive⟩ := accounted.differ intent (List.mem_append_right _ (List.mem_of_getElem? found))
  obtain ⟨shaped, mem⟩ := accounted.shaped.settleSuccess differs
  refine ⟨accounted.of_tracks shaped (fun other member => ?_) rfl (fun gone => ?_) (fun o member => ?_)
    fun size tracks => ?_, Nat.le_add_right _ _, ?_⟩
  · refine accounted.differ other ?_
    rcases List.mem_append.mp member with queued | done
    · exact List.mem_append_left _ queued
    · exact List.mem_append_right _ (List.mem_of_mem_eraseIdx done)
  · simp only [confirmedBy_absent accounted.shaped gone, Nat.add_zero]
  · obtain ⟨old, inside, rfl, -⟩ := (mem o).mp member
    refine ⟨old, inside, ?_⟩
    unfold onNamed
    split <;> rfl
  · rw [← Nat.add_assoc]
    exact tracks.settleSuccess accounted.shaped differs
  · rw [Nat.add_eq_left, confirmedBy_eq_zero_iff accounted.shaped positive]
    refine ⟨fun none other same => ?_, fun none => none intent found⟩
    cases found.symm.trans same
    exact none

theorem Accounted.failed {which : Nat} {intent : MatchIntent} {drop : List Bytes} (accounted : s.Accounted digest)
    (found : s.submitted[which]? = some intent) (spared : digest ∉ drop) :
    Accounted digest { s with
      book := s.book.settleFailed intent drop
      submitted := s.submitted.eraseIdx which } := by
  obtain ⟨differs, -⟩ := accounted.differ intent (List.mem_append_left _ (List.mem_of_getElem? found))
  obtain ⟨shaped, mem⟩ := accounted.shaped.settleFailed drop differs
  refine accounted.of_tracks shaped (fun other member => ?_) rfl (fun _ => rfl) (fun o member => ?_)
    fun _ tracks => tracks.settleFailed accounted.shaped differs spared
  · refine accounted.differ other ?_
    rcases List.mem_append.mp member with queued | done
    · exact List.mem_append_left _ (List.mem_of_mem_eraseIdx queued)
    · exact List.mem_append_right _ done
  · obtain ⟨old, inside, rfl, -⟩ := (mem o).mp member
    refine ⟨old, inside, ?_⟩
    unfold onNamed
    split <;> rfl

theorem Accounted.remove {target : Bytes} (accounted : s.Accounted digest) (other : target ≠ digest) :
    Accounted digest { s with book := s.book.remove target } := by
  refine accounted.of_tracks (accounted.shaped.remove target) accounted.differ rfl (fun _ => rfl)
    (fun o member => ?_) fun _ tracks => tracks.remove accounted.shaped other
  rw [accounted.shaped.remove_orders] at member
  exact ⟨o, List.mem_of_mem_filter member, rfl⟩

theorem Accounted.step (accounted : s.Accounted digest) (stays : s.Stays digest event) (moved : s.step event = .ok next) :
    Accounts digest event s next := by
  cases event with
  | place target order => exact accounted.place stays moved
  | rematch target =>
    cases moved
    exact (accounted.rematch target).keeps rfl trivial
  | execute which =>
    simp only [Service.step] at moved
    split at moved
    · cases moved
      exact accounted.keeps rfl trivial
    · rename_i intent found
      cases moved
      exact (accounted.execute found).keeps rfl trivial
  | externalFill target amount =>
    cases moved
    -- a fill by a stranger is in the stream before the book hears of it
    have announced : Service.Accounted digest { s with stream := s.stream ++ [⟨target, amount⟩] } :=
      accounted.of_tracks accounted.shaped accounted.differ rfl (fun _ => rfl) (fun o member => ⟨o, member, rfl⟩)
        fun _ tracks => tracks
    exact announced.keeps rfl trivial
  | deliver =>
    simp only [Service.step] at moved
    split at moved
    · cases moved
      exact accounted.keeps rfl trivial
    · rename_i fill rest pending
      cases moved
      exact (accounted.deliver fill rest).keeps rfl trivial
  | confirmed which =>
    simp only [Service.step] at moved
    split at moved
    · rename_i missing
      cases moved
      refine accounted.keeps rfl fun intent found => ?_
      -- the worker answers for an intent that is gone
      cases missing.symm.trans found
    · rename_i intent found
      cases moved
      exact accounted.confirmed found
  | stale which =>
    simp only [Service.step] at moved
    split at moved
    · cases moved
      exact accounted.keeps rfl trivial
    · rename_i intent found
      cases moved
      exact (accounted.failed found (by simp)).keeps rfl trivial
  | orderDead which dead =>
    simp only [Service.step] at moved
    split at moved
    · cases moved
      exact accounted.keeps rfl trivial
    · rename_i intent found
      cases moved
      -- the dead order is withdrawn, and the one in question is not it
      exact (accounted.failed found (by simpa using Ne.symm stays)).keeps rfl trivial
  | remove target =>
    cases moved
    exact (accounted.remove stays).keeps rfl trivial

theorem start_accounted (market : Market) (policy : SelfTradePolicy) (digest : Bytes) :
    (start market policy).Accounted digest := by
  refine ⟨(Flight.start_safe market policy).shaped, by simp [start], fun _ => ⟨?_, rfl⟩, by simp [start]⟩
  simp [start, Book.new, Book.orders, Levels.orders]

theorem mirrors_of_accounted {size : Nat} (accounted : s.Accounted digest) (stored : s.opened digest = some size)
    (settled : s.awaited digest = 0) :
    s.Mirrors digest size ↔ s.lost digest = 0 ∨ size ≤ s.fills digest := by
  have tracks := accounted.placed size stored
  have all : s.fills digest = s.delivered digest := by rw [fills, settled, Nat.add_zero]
  rw [Mirrors, all]
  constructor
  · rintro ⟨shown, gone⟩
    by_cases here : ∃ o ∈ s.book.orders, o.digest = digest
    · obtain ⟨o, member, named⟩ := here
      have numbers := tracks.present o member named
      have remaining := shown o member named
      omega
    · have nothing := gone.mp fun o member named => here ⟨o, member, named⟩
      omega
  · intro either
    refine ⟨fun o member named => ?_, fun gone => ?_, fun nothing o member named => ?_⟩
    · have numbers := tracks.present o member named
      omega
    · have spent := tracks.absent gone
      omega
    · have numbers := tracks.present o member named
      omega

/-- In every run, once its events are delivered, the book mirrors an order at its signed size
exactly when self-trade prevention did not cut it and no confirmation found quantity of it
pending, or the chain has filled all of it. -/
theorem mirrors_iff (market : Market) (policy : SelfTradePolicy) (digest : Bytes) {events : List Event} {s : Service}
    {size : Nat} (stays : Along step (Stays digest) (start market policy) events)
    (ran : exec step (start market policy) events = .ok s) (stored : s.opened digest = some size)
    (settled : s.awaited digest = 0) :
    s.Mirrors digest size ↔
      Along step (KeepsWhole digest) (start market policy) events ∨ size ≤ s.fills digest := by
  have initial := start_accounted market policy digest
  have accounted : s.Accounted digest := exec_invariant_along step (Stays digest) (Accounted digest)
    (fun _ _ _ before condition ranStep => (before.step condition ranStep).1) initial stays ran
  have counted := counter_eq_iff_along step (fun _ _ _ before allowed ranStep => before.step allowed ranStep) initial stays ran
  rw [mirrors_of_accounted accounted stored settled, ← counted.2]
  rfl

/-! An ask of ten, of which four are matched. -/

namespace Sample

def settled : List Event :=
  [.place [1] (Flight.Sample.ask 1 10), .place [2] (Flight.Sample.bid 2 4), .execute 0, .deliver, .deliver, .confirmed 0]

/-- The match goes stale, and another taker fills three. -/
def raced : List Event :=
  [.place [1] (Flight.Sample.ask 1 10), .place [2] (Flight.Sample.bid 2 4), .stale 0, .externalFill [1] 3, .deliver]

def stays (s : Service) : Event → Bool
  | .place _ _ => s.delivered [1] = 0
  | .orderDead _ dead => dead ≠ [1]
  | .remove removed => removed ≠ [1]
  | _ => true

theorem stays_sound {s : Service} {event : Event} (passed : stays s event = true) : s.Stays [1] event := by
  cases event with
  | place _ _ => exact fun _ => of_decide_eq_true passed
  | orderDead _ _ | remove _ => simpa [stays, Stays] using passed
  | _ => trivial

def whole (s : Service) : Event → Bool
  | .place _ order => s.book.orders.all fun o => o.maker ≠ order.maker
  | .confirmed _ => false
  | _ => true

theorem whole_sound {s : Service} {event : Event} (passed : whole s event = true) : s.KeepsWhole [1] event := by
  cases event with
  | place _ order => exact fun _ => not_selfTrades fun o member => of_decide_eq_true (List.all_eq_true.mp passed o member)
  | confirmed _ => cases passed
  | _ => trivial

end Sample

/-- The chain fills four of ten; the book takes them off twice and shows two. -/
theorem fill_counted_twice : ∃ s, exec step (start Flight.Sample.market .cancelNewest) Sample.settled = .ok s ∧
    s.opened [1] = some 10 ∧ s.stream = [] ∧ s.executed = [] ∧ s.fills [1] = 4 ∧ ¬ s.Mirrors [1] 10 := by
  refine exists_ok (fun s => decide (s.opened [1] = some 10 ∧ s.stream = [] ∧ s.executed = [] ∧ s.fills [1] = 4) &&
    s.book.orders.any fun o => decide (o.digest = [1] ∧ o.remainingBase = 2)) (by decide +kernel) fun s _ passed => ?_
  simp only [Bool.and_eq_true, decide_eq_true_eq, List.any_eq_true] at passed
  obtain ⟨⟨opened, stream, executed, filled⟩, o, member, named, remaining⟩ := passed
  refine ⟨opened, stream, executed, filled, fun mirrors => ?_⟩
  have shown := mirrors.1 o member named
  omega

theorem mirrors_iff_raced : ∃ s, exec step (start Flight.Sample.market .cancelNewest) Sample.raced = .ok s ∧
    s.opened [1] = some 10 ∧ s.fills [1] = 3 ∧ s.Mirrors [1] 10 := by
  refine exists_ok (fun s => decide (s.opened [1] = some 10 ∧ s.awaited [1] = 0 ∧ s.fills [1] = 3)) (by decide +kernel)
    fun s ran passed => ?_
  obtain ⟨opened, settled, filled⟩ := of_decide_eq_true passed
  have stays : Along step (Stays [1]) (start Flight.Sample.market .cancelNewest) Sample.raced :=
    along_of_test step (fun _ _ _ (_ : True) _ => trivial) (fun _ _ _ passed => Sample.stays_sound passed) trivial
      (by decide +kernel)
  have whole : Along step (KeepsWhole [1]) (start Flight.Sample.market .cancelNewest) Sample.raced :=
    along_of_test step (fun _ _ _ (_ : True) _ => trivial) (fun _ _ _ passed => Sample.whole_sound passed) trivial
      (by decide +kernel)
  exact ⟨opened, filled, (mirrors_iff _ _ [1] stays ran opened settled).mpr (Or.inl whole)⟩

end Service

end SuiOptions.Orderbook
