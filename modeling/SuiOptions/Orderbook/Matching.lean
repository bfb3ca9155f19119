import SuiOptions.Orderbook.Shape

/-! What the matching loop does: it emits intents against crossing orders of the
other side and locks exactly the emitted quantities on both sides. -/

set_option autoImplicit false

namespace SuiOptions.Orderbook

open Exchange

/-- The intent is a match of the order with this digest. -/
def MatchIntent.names (intent : MatchIntent) (digest : Bytes) : Bool :=
  intent.askDigest = digest ∨ intent.bidDigest = digest

def share (intents : List MatchIntent) (digest : Bytes) : Nat :=
  (intents.map fun intent => if intent.names digest then intent.fillBaseAmount else 0).sum

@[simp] theorem share_nil (digest : Bytes) : share [] digest = 0 := rfl

@[simp] theorem share_cons (intent : MatchIntent) (intents : List MatchIntent) (digest : Bytes) :
    share (intent :: intents) digest =
      (if intent.names digest then intent.fillBaseAmount else 0) + share intents digest := rfl

@[simp] theorem share_append (first second : List MatchIntent) (digest : Bytes) :
    share (first ++ second) digest = share first digest + share second digest := by
  simp [share]

theorem share_eq_zero {intents : List MatchIntent} {digest : Bytes}
    (unnamed : ∀ intent ∈ intents, intent.names digest = false) : share intents digest = 0 := by
  induction intents with
  | nil => rfl
  | cons intent rest ih =>
    rw [share_cons, unnamed intent List.mem_cons_self, ih fun i member => unnamed i (List.mem_cons_of_mem _ member)]
    rfl

structure Emitted (registry : ID) (incoming resting : RestingOrder) (intent : MatchIntent) : Prop where
  shape : intent = intentOf registry resting.priceTicks intent.fillBaseAmount incoming resting
  positive : 0 < intent.fillBaseAmount
  incomingFits : intent.fillBaseAmount ≤ incoming.availableBase
  restingFits : intent.fillBaseAmount ≤ resting.availableBase
  crosses : crosses incoming resting.priceTicks = true

/-- An intent between two orders names two digests. -/
theorem Emitted.differs {registry : ID} {incoming resting : RestingOrder} {intent : MatchIntent}
    (emitted : Emitted registry incoming resting intent) (apart : resting.digest ≠ incoming.digest) :
    intent.askDigest ≠ intent.bidDigest := by
  rw [emitted.shape]
  unfold intentOf
  cases incoming.side with
  | ask => exact Ne.symm apart
  | bid => exact apart

section Locks

variable {o : RestingOrder} {qty more : Nat}

@[simp] theorem lock_digest : (o.lock qty).digest = o.digest := rfl
@[simp] theorem lock_side : (o.lock qty).side = o.side := rfl
@[simp] theorem lock_priceTicks : (o.lock qty).priceTicks = o.priceTicks := rfl
@[simp] theorem lock_remainingBase : (o.lock qty).remainingBase = o.remainingBase := rfl
@[simp] theorem lock_pendingBase : (o.lock qty).pendingBase = o.pendingBase + qty := rfl
@[simp] theorem lock_zero : o.lock 0 = o := rfl

theorem lock_lock : (o.lock qty).lock more = o.lock (qty + more) := by
  simp [RestingOrder.lock, Nat.add_assoc]

theorem lock_available : (o.lock qty).availableBase = o.availableBase - qty := by
  simp only [RestingOrder.availableBase, lock_remainingBase, lock_pendingBase]
  omega

@[simp] theorem crosses_lock (price : Nat) : crosses (o.lock qty) price = crosses o price := rfl

end Locks

theorem intentOf_names {registry : ID} {price qty : Nat} {incoming resting : RestingOrder} {digest : Bytes} :
    (intentOf registry price qty incoming resting).names digest = true ↔
      incoming.digest = digest ∨ resting.digest = digest := by
  unfold MatchIntent.names intentOf
  cases incoming.side with
  | ask => simp
  | bid => simp [or_comm]

theorem Emitted.names_iff {registry : ID} {incoming resting : RestingOrder} {intent : MatchIntent}
    (emitted : Emitted registry incoming resting intent) (digest : Bytes) :
    intent.names digest = true ↔ incoming.digest = digest ∨ resting.digest = digest := by
  rw [emitted.shape]
  exact intentOf_names

/-- A walk over resting orders: the intents it emits, and both sides with the
emitted quantities locked. -/
structure Walked (registry : ID) (incoming : RestingOrder) (before after : List RestingOrder) (final : RestingOrder)
    (intents : List MatchIntent) : Prop where
  after : after = before.map fun o => o.lock (share intents o.digest)
  final : final = incoming.lock (share intents incoming.digest)
  emitted : ∀ intent ∈ intents, ∃ o ∈ before, Emitted registry incoming o intent
  incomingFits : share intents incoming.digest ≤ incoming.availableBase
  restingFits : ∀ o ∈ before, share intents o.digest ≤ o.availableBase

section Walks

variable {registry : ID} {incoming middle final : RestingOrder} {before after : List RestingOrder}
  {intents : List MatchIntent} {policy : SelfTradePolicy} {price : Nat}

theorem Walked.idle (registry : ID) (incoming : RestingOrder) (orders : List RestingOrder) :
    Walked registry incoming orders orders incoming [] :=
  ⟨by simp, by simp, by simp, by simp, by simp⟩

theorem Walked.one {resting : RestingOrder} {qty : Nat} (positive : 0 < qty) (incomingFits : qty ≤ incoming.availableBase)
    (restingFits : qty ≤ resting.availableBase) (crossing : crosses incoming resting.priceTicks = true) :
    Walked registry incoming [resting] [resting.lock qty] (incoming.lock qty)
      [intentOf registry resting.priceTicks qty incoming resting] := by
  have emitted : Emitted registry incoming resting (intentOf registry resting.priceTicks qty incoming resting) :=
    ⟨rfl, positive, incomingFits, restingFits, crossing⟩
  have mine := (emitted.names_iff incoming.digest).mpr (Or.inl rfl)
  have theirs := (emitted.names_iff resting.digest).mpr (Or.inr rfl)
  have amount : (intentOf registry resting.priceTicks qty incoming resting).fillBaseAmount = qty := rfl
  refine ⟨?_, ?_, ?_, ?_, ?_⟩
  · simp [theirs, amount]
  · simp [mine, amount]
  · simp [emitted]
  · simp [mine, amount, incomingFits]
  · simp [theirs, amount, restingFits]

/-- A walk does not name what it has not met. -/
theorem Walked.unnamed (walked : Walked registry incoming before after final intents) {digest : Bytes}
    (notIncoming : incoming.digest ≠ digest) (absent : ∀ o ∈ before, o.digest ≠ digest) :
    share intents digest = 0 := by
  refine share_eq_zero fun intent member => ?_
  obtain ⟨o, inside, emitted⟩ := walked.emitted intent member
  by_contra named
  rcases (emitted.names_iff digest).mp (by simpa using named) with mine | theirs
  · exact notIncoming mine
  · exact absent o inside theirs

theorem Walked.append {later laterAfter : List RestingOrder} {more : List MatchIntent}
    (first : Walked registry incoming before after middle intents)
    (second : Walked registry middle later laterAfter final more)
    (once : ((before ++ later).map (·.digest)).Nodup)
    (fresh : ∀ o ∈ before ++ later, o.digest ≠ incoming.digest) :
    Walked registry incoming (before ++ later) (after ++ laterAfter) final (intents ++ more) := by
  have same : middle.digest = incoming.digest := by rw [first.final, lock_digest]
  rw [List.map_append, List.nodup_append] at once
  -- the two parts have no digest in common, so neither walk locks orders of the other
  have apart : ∀ o ∈ before, ∀ x ∈ later, x.digest ≠ o.digest := fun o inside x outside repeated =>
    once.2.2 o.digest (List.mem_map_of_mem inside) x.digest (List.mem_map_of_mem outside) repeated.symm
  have quietLater : ∀ o ∈ before, share more o.digest = 0 := fun o inside =>
    second.unnamed (same ▸ (fresh o (List.mem_append_left _ inside)).symm) (apart o inside)
  have quietBefore : ∀ o ∈ later, share intents o.digest = 0 := fun o inside =>
    first.unnamed (fresh o (List.mem_append_right _ inside)).symm
      (fun x earlier repeated => apart x earlier o inside repeated.symm)
  have spent := first.incomingFits
  have rest := second.incomingFits
  rw [first.final, lock_available, lock_digest] at rest
  refine ⟨?_, ?_, ?_, ?_, ?_⟩
  · rw [List.map_append, first.after, second.after]
    congr 1
    · refine List.map_congr_left fun o inside => ?_
      rw [share_append, quietLater o inside, Nat.add_zero]
    · refine List.map_congr_left fun o inside => ?_
      rw [share_append, quietBefore o inside, Nat.zero_add]
  · rw [second.final, first.final, lock_lock, lock_digest, share_append]
  · intro intent member
    rcases List.mem_append.mp member with early | late
    · obtain ⟨o, inside, emitted⟩ := first.emitted intent early
      exact ⟨o, List.mem_append_left _ inside, emitted⟩
    · obtain ⟨o, inside, emitted⟩ := second.emitted intent late
      refine ⟨o, List.mem_append_right _ inside, ?_⟩
      rw [first.final] at emitted
      refine ⟨emitted.shape, emitted.positive, ?_, emitted.restingFits, emitted.crosses⟩
      have fits := emitted.incomingFits
      rw [lock_available] at fits
      omega
  · rw [share_append]
    omega
  · intro o member
    rw [share_append]
    rcases List.mem_append.mp member with inside | outside
    · rw [quietLater o inside]
      exact first.restingFits o inside
    · rw [quietBefore o outside, Nat.zero_add]
      exact second.restingFits o outside

theorem matchQueue_walked (registry : ID) (policy : SelfTradePolicy) {queue : List RestingOrder} (once : (queue.map (·.digest)).Nodup)
    (fresh : ∀ o ∈ queue, o.digest ≠ incoming.digest) (priced : ∀ o ∈ queue, o.priceTicks = price)
    (crossing : crosses incoming price = true) :
    Walked registry incoming queue (matchQueue registry policy price incoming queue).items
      (matchQueue registry policy price incoming queue).incoming
      (matchQueue registry policy price incoming queue).intents := by
  induction queue generalizing incoming with
  | nil => exact Walked.idle registry incoming []
  | cons resting rest ih =>
    have onceTail := (List.nodup_cons.mp once).2
    have freshTail : ∀ o ∈ rest, o.digest ≠ incoming.digest := fun o member => fresh o (List.mem_cons_of_mem _ member)
    have pricedTail : ∀ o ∈ rest, o.priceTicks = price := fun o member => priced o (List.mem_cons_of_mem _ member)
    unfold matchQueue
    split
    · exact Walked.idle registry incoming _
    · split
      · -- an order without available quantity is passed over
        exact (Walked.idle registry incoming [resting]).append (ih onceTail freshTail pricedTail crossing) once fresh
      · split
        · exact Walked.idle registry incoming _
        · rename_i incomingSome restingSome _
          have here := priced resting List.mem_cons_self
          subst here
          refine Walked.append (Walked.one (by omega) (Nat.min_le_left _ _) (Nat.min_le_right _ _) crossing) ?_ once fresh
          exact ih onceTail freshTail pricedTail crossing

theorem matchLevels_walked (registry : ID) (policy : SelfTradePolicy) (incoming : RestingOrder) (levels : Levels)
    (once : (levels.orders.map (·.digest)).Nodup)
    (fresh : ∀ o ∈ levels.orders, o.digest ≠ incoming.digest)
    (priced : ∀ level ∈ levels, ∀ o ∈ level.queue, o.priceTicks = level.price) :
    Walked registry incoming levels.orders (Levels.orders (matchLevels registry policy incoming levels).items)
      (matchLevels registry policy incoming levels).incoming
      (matchLevels registry policy incoming levels).intents := by
  induction levels generalizing incoming with
  | nil => exact Walked.idle registry incoming []
  | cons level rest ih =>
    have parts := once
    rw [Levels.orders_cons, List.map_append, List.nodup_append] at parts
    have freshHere : ∀ o ∈ level.queue, o.digest ≠ incoming.digest :=
      fun o member => fresh o (List.mem_append_left _ member)
    have freshTail : ∀ o ∈ Levels.orders rest, o.digest ≠ incoming.digest :=
      fun o member => fresh o (List.mem_append_right _ member)
    have pricedTail : ∀ l ∈ rest, ∀ o ∈ l.queue, o.priceTicks = l.price :=
      fun l member => priced l (List.mem_cons_of_mem _ member)
    unfold matchLevels
    split
    · exact Walked.idle registry incoming _
    · split
      · exact (Walked.idle registry incoming level.queue).append (ih incoming parts.2.1 freshTail pricedTail) once fresh
      · rename_i _ chosen
        have crossing : crosses incoming level.price = true := by
          by_contra missed
          exact chosen (Or.inl (by simpa using missed))
        have here := matchQueue_walked registry policy parts.1 freshHere
          (priced level List.mem_cons_self) crossing
        simp only
        split
        · -- self-trade prevention leaves the later levels as they are
          have whole := here.append (Walked.idle registry _ (Levels.orders rest)) once fresh
          rw [List.append_nil] at whole
          exact whole
        · refine here.append (ih _ parts.2.1 (fun o member => ?_) pricedTail) once fresh
          rw [here.final, lock_digest]
          exact freshTail o member

theorem matchQueue_length {queue : List RestingOrder} :
    (matchQueue registry policy price incoming queue).items.length = queue.length := by
  induction queue generalizing incoming with
  | nil => rfl
  | cons resting rest ih =>
    unfold matchQueue
    split
    · rfl
    · split
      · simp [ih]
      · split
        · rfl
        · simp [ih]

end Walks

/-! ### Levels of a walk -/

def Level.onQueue (f : RestingOrder → RestingOrder) (level : Level) : Level :=
  { level with queue := level.queue.map f }

def Aligned : Levels → Levels → Prop :=
  List.Forall₂ fun before after => after.price = before.price ∧ after.queue.length = before.queue.length

theorem Aligned.refl (levels : Levels) : Aligned levels levels := List.forall₂_same.mpr fun _ _ => ⟨rfl, rfl⟩

theorem matchLevels_aligned {registry : ID} {policy : SelfTradePolicy} {incoming : RestingOrder} {levels : Levels} :
    Aligned levels (matchLevels registry policy incoming levels).items := by
  induction levels generalizing incoming with
  | nil => exact List.Forall₂.nil
  | cons level rest ih =>
    unfold matchLevels
    split
    · exact Aligned.refl _
    · split
      · exact List.Forall₂.cons ⟨rfl, rfl⟩ ih
      · simp only
        split
        · exact List.Forall₂.cons ⟨rfl, matchQueue_length⟩ (Aligned.refl rest)
        · exact List.Forall₂.cons ⟨rfl, matchQueue_length⟩ ih

theorem Aligned.eq_map {before after : Levels} {f : RestingOrder → RestingOrder} (aligned : Aligned before after)
    (orders : after.orders = before.orders.map f) : after = before.map (Level.onQueue f) := by
  induction aligned with
  | nil => rfl
  | cons head tail ih =>
    rw [Levels.orders_cons, Levels.orders_cons, List.map_append] at orders
    obtain ⟨queue, rest⟩ := List.append_inj orders (by rw [List.length_map, head.2])
    rw [List.map_cons, ih rest]
    congr 1
    unfold Level.onQueue
    rw [← queue, ← head.1]

theorem Levels.orders_map (levels : Levels) (f : RestingOrder → RestingOrder) :
    Levels.orders (levels.map (Level.onQueue f)) = levels.orders.map f := by
  unfold Levels.orders
  rw [List.flatMap_map, List.map_flatMap]
  rfl

theorem Levels.Tidy.map {side : Side} {levels : Levels} {f : RestingOrder → RestingOrder}
    (tidy : Levels.Tidy side levels) (keeps : Keeps f) : Levels.Tidy side (levels.map (Level.onQueue f)) := by
  refine ⟨List.pairwise_map.mpr tidy.sorted, ?_, ?_⟩
  · intro level member
    obtain ⟨old, inside, rfl⟩ := List.mem_map.mp member
    simpa [Level.onQueue] using tidy.filled old inside
  · intro level member o queued
    obtain ⟨old, inside, rfl⟩ := List.mem_map.mp member
    obtain ⟨x, listed, rfl⟩ := List.mem_map.mp queued
    rw [keeps.side, keeps.priceTicks]
    exact tidy.placed old inside x listed

namespace Book

theorem bestFirst_bestFirst (side : Side) (levels : Levels) : bestFirst side (bestFirst side levels) = levels := by
  cases side <;> simp [bestFirst]

theorem bestFirst_mem {side : Side} {levels : Levels} {level : Level} :
    level ∈ bestFirst side levels ↔ level ∈ levels := by
  cases side <;> simp [bestFirst]

theorem bestFirst_map (side : Side) (levels : Levels) (f : Level → Level) :
    bestFirst side (levels.map f) = (bestFirst side levels).map f := by
  cases side <;> simp [bestFirst]

theorem bestFirst_orders (side : Side) (levels : Levels) : (bestFirst side levels).orders.Perm levels.orders := by
  cases side with
  | ask => exact List.Perm.refl _
  | bid => exact (List.reverse_perm levels).flatMap_right _

theorem lock_keeps (intents : List MatchIntent) : Keeps fun o => o.lock (share intents o.digest) :=
  ⟨fun _ => rfl, fun _ => rfl, fun _ => rfl⟩

/-- What matching an order that does not rest does to the book. -/
structure MatchedAgainst (b : Book) (incoming : RestingOrder) (next : Book) (final : RestingOrder)
    (intents : List MatchIntent) : Prop where
  shaped : next.Shaped
  market : next.market = b.market
  index : next.index = b.index
  orders : next.orders = b.orders.map fun o => o.lock (share intents o.digest)
  final : final = incoming.lock (share intents incoming.digest)
  emitted : ∀ intent ∈ intents, ∃ o ∈ b.orders, o.side = incoming.side.opposite ∧
    Emitted b.market.registryId incoming o intent
  incomingFits : share intents incoming.digest ≤ incoming.availableBase
  restingFits : ∀ o ∈ b.orders, share intents o.digest ≤ o.availableBase

/-- Replacing one side's orders in place, when the change is idle on the other side. -/
theorem orders_withLevels_map (b : Book) (side : Side) (f : RestingOrder → RestingOrder)
    (idle : ∀ o ∈ (b.levels side.opposite).orders, f o = o) :
    (b.withLevels side ((b.levels side).map (Level.onQueue f))).orders = b.orders.map f := by
  have other : (b.levels side.opposite).orders.map f = (b.levels side.opposite).orders :=
    (List.map_congr_left idle).trans (List.map_id _)
  cases side with
  | bid =>
    simp only [orders, withLevels, levels, Side.opposite, List.map_append, Levels.orders_map] at other ⊢
    rw [other]
  | ask =>
    simp only [orders, withLevels, levels, Side.opposite, List.map_append, Levels.orders_map] at other ⊢
    rw [other]

theorem Shaped.matchIncoming {b next : Book} {incoming final : RestingOrder} {intents : List MatchIntent}
    {selfTrade : Bool} (shaped : b.Shaped) (fresh : ∀ o ∈ b.orders, o.digest ≠ incoming.digest)
    (ran : b.matchIncoming incoming = (next, final, intents, selfTrade)) :
    MatchedAgainst b incoming next final intents := by
  have perm := bestFirst_orders incoming.side.opposite (b.levels incoming.side.opposite)
  have tidy := shaped.tidy incoming.side.opposite
  have walked := matchLevels_walked b.market.registryId b.selfTradePolicy incoming
    (bestFirst incoming.side.opposite (b.levels incoming.side.opposite))
    ((perm.map _).nodup_iff.mpr (shaped.side_once _))
    (fun o member => fresh o (mem_orders.mpr ⟨_, perm.mem_iff.mp member⟩)) (fun level member o queued =>
      (tidy.placed level (bestFirst_mem.mp member) o queued).2)
  have items := matchLevels_aligned.eq_map walked.after
  unfold Book.matchIncoming at ran
  obtain ⟨rfl, rfl, rfl, -⟩ : _ ∧ _ ∧ _ ∧ _ := by simpa only [Prod.mk.injEq] using ran
  rw [items, bestFirst_map, bestFirst_bestFirst]
  -- orders of the incoming side are met by no walk
  have idle : ∀ o ∈ b.orders, o.side ≠ incoming.side.opposite → share (matchLevels b.market.registryId
      b.selfTradePolicy incoming (bestFirst incoming.side.opposite (b.levels incoming.side.opposite))).intents
        o.digest = 0 := by
    intro o member elsewhere
    refine walked.unnamed (fresh o member).symm fun x inside same => elsewhere ?_
    have listed := perm.mem_iff.mp inside
    rw [← shaped.unique (mem_orders.mpr ⟨_, listed⟩) member same]
    exact tidy.of_mem listed
  have orders := orders_withLevels_map b incoming.side.opposite
    (fun o => o.lock (share (matchLevels b.market.registryId b.selfTradePolicy incoming
      (bestFirst incoming.side.opposite (b.levels incoming.side.opposite))).intents o.digest)) (fun o member => by
      rw [idle o (mem_orders.mpr ⟨_, member⟩) ?_, lock_zero]
      rw [(shaped.tidy _).of_mem member]
      exact opposite_ne _)
  refine ⟨?_, market_withLevels, index_withLevels, orders, walked.final, ?_, walked.incomingFits, ?_⟩
  · refine shaped.of_map (lock_keeps _) orders index_withLevels fun which => ?_
    by_cases same : which = incoming.side.opposite
    · subst same
      rw [levels_withLevels]
      exact tidy.map (lock_keeps _)
    · rw [levels_withLevels_of_ne same]
      exact shaped.tidy which
  · intro intent member
    obtain ⟨o, inside, emitted⟩ := walked.emitted intent member
    have listed := perm.mem_iff.mp inside
    exact ⟨o, mem_orders.mpr ⟨_, listed⟩, tidy.of_mem listed, emitted⟩
  · intro o member
    by_cases same : o.side = incoming.side.opposite
    · exact walked.restingFits o (perm.mem_iff.mpr (shaped.mem_levels.mpr ⟨member, same⟩))
    · rw [idle o member same]
      exact Nat.zero_le _

end Book

end SuiOptions.Orderbook
