import SuiOptions.Orderbook.InFlight

/-! The book under any sequence of its public operations.

Settlement outcomes and fill events come from outside, so nothing is assumed of
the arguments: an intent may never have been emitted, or be confirmed twice, and
an amount may exceed the order.
-/

set_option autoImplicit false

namespace SuiOptions.Orderbook

open Exchange Execution

inductive BookCall where
  | place (digest : Bytes) (order : Order)
  | settleSuccess (intent : MatchIntent)
  | settleFailed (intent : MatchIntent) (drop : List Bytes)
  | applyExternalFill (digest : Bytes) (baseAmount : Nat)
  | remove (digest : Bytes)
  | rematch (digest : Bytes)

namespace Book

/-- The book after a call and the intents it emits; a refused order changes nothing. -/
def call (b : Book) : BookCall → Book × List MatchIntent
  | .place digest order =>
    match b.place digest order with
    | .error _ => (b, [])
    | .ok (_, intents, next) => (next, intents)
  | .settleSuccess intent => (b.settleSuccess intent, [])
  | .settleFailed intent drop => (b.settleFailed intent drop, [])
  | .applyExternalFill digest baseAmount => (b.applyExternalFill digest baseAmount, [])
  | .remove digest => (b.remove digest, [])
  | .rematch digest => ((b.rematch digest).2, (b.rematch digest).1)

def step (b : Book) (what : BookCall) : Except BookError Book := .ok (b.call what).1

/-- The empty book of a market, under a self-trade policy. -/
def start (market : Market) (policy : SelfTradePolicy) : Book :=
  { Book.new market with selfTradePolicy := policy }

variable {b next : Book} {digest : Bytes} {f : RestingOrder → RestingOrder} {o : RestingOrder}

/-! ### Sizes -/

/-- Something of the order is open, and what is pending is part of it. -/
def Fits (o : RestingOrder) : Prop := 0 < o.remainingBase ∧ o.pendingBase ≤ o.remainingBase

/-- A well-formed book whose orders are all in range. -/
structure Sound (b : Book) : Prop where
  shaped : b.Shaped
  fits : ∀ o ∈ b.orders, Fits o

theorem Fits.lock (fits : Fits o) {qty : Nat} (within : qty ≤ o.availableBase) : Fits (o.lock qty) := by
  simp only [Fits, RestingOrder.availableBase, lock_remainingBase, lock_pendingBase] at *
  omega

theorem Fits.release (fits : Fits o) (amount : Nat) : Fits (release amount o) := by
  simp only [Fits, Book.release] at *
  omega

/-- A change that keeps in range whatever it does not use up, followed by pruning. -/
theorem Sound.change (sound : b.Sound) (keeps : Keeps f) (fine : ∀ o, Fits o → ¬ Done (f o) → Fits (f o))
    (digest : Bytes) : ((b.modify digest f).pruneIfDone digest).Sound := by
  obtain ⟨shaped, mem⟩ := sound.shaped.modify_prune keeps digest
  refine ⟨shaped, fun o member => ?_⟩
  obtain ⟨old, inside, rfl, kept⟩ := (mem o).mp member
  have fits := sound.fits old inside
  unfold onDigest at kept ⊢
  split
  · rename_i same
    rw [if_pos same] at kept
    exact fine old fits fun done => kept ⟨same, done⟩
  · exact fits

theorem Sound.settleSuccess (sound : b.Sound) (intent : MatchIntent) : (b.settleSuccess intent).Sound := by
  have fine : ∀ o, Fits o → ¬ Done (consume intent.fillBaseAmount o) → Fits (consume intent.fillBaseAmount o) := by
    intro o fits busy
    simp only [Fits, Done, consume] at *
    omega
  have keeps := consume_keeps intent.fillBaseAmount
  exact (sound.change keeps fine intent.askDigest).change keeps fine intent.bidDigest

theorem Sound.applyExternalFill (sound : b.Sound) (digest : Bytes) (amount : Nat) :
    (b.applyExternalFill digest amount).Sound := by
  refine sound.change (shrink_keeps amount) (fun o fits busy => ?_) digest
  simp only [Fits, Done, shrink] at *
  omega

theorem Sound.releases (sound : b.Sound) (amount : Nat) (digest : Bytes) : (b.modify digest (Book.release amount)).Sound := by
  refine ⟨sound.shaped.modify (release_keeps amount) digest, fun o member => ?_⟩
  rw [sound.shaped.modify_orders] at member
  obtain ⟨old, inside, rfl⟩ := List.mem_map.mp member
  have fits := sound.fits old inside
  unfold onDigest
  split
  · exact fits.release amount
  · exact fits

theorem Sound.removeAll (sound : b.Sound) (drop : List Bytes) : (drop.foldl Book.remove b).Sound := by
  obtain ⟨shaped, mem⟩ := sound.shaped.removeAll drop
  exact ⟨shaped, fun o member => sound.fits o ((mem o).mp member).1⟩

theorem Sound.settleFailed (sound : b.Sound) (intent : MatchIntent) (drop : List Bytes) :
    (b.settleFailed intent drop).Sound :=
  ((sound.releases _ intent.askDigest).releases _ intent.bidDigest).removeAll drop

theorem Sound.place (sound : b.Sound) {order : Order} {outcome : PlaceOutcome} {intents : List MatchIntent}
    (ran : b.place digest order = .ok (outcome, intents, next)) : next.Sound := by
  obtain ⟨incoming, kept, placed⟩ := sound.shaped.place ran
  refine ⟨placed.shaped, fun o member => ?_⟩
  rcases (placed.orders o).mp member with entered | ⟨old, inside, rfl⟩
  · obtain ⟨-, -, -, pending, some, sizes⟩ := placed.entered o entered
    have fits := placed.incomingFits
    exact ⟨some, by omega⟩
  · exact (sound.fits old inside).lock (placed.restingFits old inside)

theorem Sound.rematch (sound : b.Sound) (digest : Bytes) : (b.rematch digest).2.Sound := by
  have rematched := sound.shaped.rematch digest
  refine ⟨rematched.shaped, fun o member => ?_⟩
  obtain ⟨old, inside, rfl⟩ := (rematched.orders o).mp member
  exact (sound.fits old inside).lock (rematched.fits old inside)

theorem Sound.call (sound : b.Sound) (what : BookCall) : (b.call what).1.Sound := by
  cases what with
  | place digest order =>
    simp only [Book.call]
    split
    · exact sound
    · rename_i ran
      exact sound.place ran
  | settleSuccess intent => exact sound.settleSuccess intent
  | settleFailed intent drop => exact sound.settleFailed intent drop
  | applyExternalFill digest amount => exact sound.applyExternalFill digest amount
  | remove digest => exact sound.removeAll [digest]
  | rematch digest => exact sound.rematch digest

theorem Sound.start (market : Market) (policy : SelfTradePolicy) : (start market policy).Sound := by
  have shaped := Shaped.new market
  refine ⟨⟨fun side => ?_, shaped.once, shaped.index⟩, ?_⟩
  · cases side with
    | bid => exact shaped.tidy .bid
    | ask => exact shaped.tidy .ask
  · simp [Book.start, Book.new, Book.orders, Levels.orders]

theorem sound_of_run {market : Market} {policy : SelfTradePolicy} {calls : List BookCall}
    (ran : exec step (start market policy) calls = .ok b) : b.Sound := by
  refine exec_invariant step Sound (fun state what next before moved => ?_) (Sound.start market policy) ran
  cases moved
  exact before.call what

/-! ### Crossing -/

/-- No available bid reaches an available ask. -/
def Uncrossed (b : Book) : Prop :=
  ∀ bid ∈ b.orders, ∀ ask ∈ b.orders, bid.side = .bid → ask.side = .ask →
    0 < bid.availableBase → 0 < ask.availableBase → bid.priceTicks < ask.priceTicks

end Book

section Exhausts

variable {registry : ID} {policy : SelfTradePolicy} {price qty : Nat} {incoming resting : RestingOrder}
  {queue : List RestingOrder} {level : Level} {rest : Levels}

/-! The walks, one resting order or one level at a time. -/

theorem matchQueue_satisfied (satisfied : incoming.availableBase = 0) :
    matchQueue registry policy price incoming queue = ⟨queue, incoming, [], false⟩ := by
  cases queue with
  | nil => rfl
  | cons resting rest => rw [matchQueue, if_pos satisfied]

theorem matchQueue_idle (hungry : incoming.availableBase ≠ 0) (idle : resting.availableBase = 0) :
    matchQueue registry policy price incoming (resting :: queue) =
      { matchQueue registry policy price incoming queue with
        items := resting :: (matchQueue registry policy price incoming queue).items } := by
  rw [matchQueue, if_neg hungry, if_pos idle]

theorem matchQueue_own (hungry : incoming.availableBase ≠ 0) (available : resting.availableBase ≠ 0)
    (own : resting.maker = incoming.maker ∧ policy = .cancelNewest) :
    matchQueue registry policy price incoming (resting :: queue) = ⟨resting :: queue, incoming, [], true⟩ := by
  rw [matchQueue, if_neg hungry, if_neg available, if_pos own]

theorem matchQueue_take (hungry : incoming.availableBase ≠ 0) (available : resting.availableBase ≠ 0)
    (foreign : ¬ (resting.maker = incoming.maker ∧ policy = .cancelNewest))
    (amount : qty = min incoming.availableBase resting.availableBase) :
    matchQueue registry policy price incoming (resting :: queue) =
      { matchQueue registry policy price (incoming.lock qty) queue with
        items := resting.lock qty :: (matchQueue registry policy price (incoming.lock qty) queue).items
        intents := intentOf registry price qty incoming resting ::
          (matchQueue registry policy price (incoming.lock qty) queue).intents } := by
  subst amount
  rw [matchQueue, if_neg hungry, if_neg available, if_neg foreign]

theorem matchQueue_locks :
    ∃ total, (matchQueue registry policy price incoming queue).incoming = incoming.lock total := by
  induction queue generalizing incoming with
  | nil => exact ⟨0, rfl⟩
  | cons resting rest ih =>
    by_cases satisfied : incoming.availableBase = 0
    · rw [matchQueue_satisfied satisfied]
      exact ⟨0, rfl⟩
    · by_cases idle : resting.availableBase = 0
      · rw [matchQueue_idle satisfied idle]
        exact ih
      · by_cases own : resting.maker = incoming.maker ∧ policy = .cancelNewest
        · rw [matchQueue_own satisfied idle own]
          exact ⟨0, rfl⟩
        · rw [matchQueue_take satisfied idle own rfl]
          obtain ⟨total, final⟩ : ∃ total, (matchQueue registry policy price
            (incoming.lock (min incoming.availableBase resting.availableBase)) rest).incoming = _ := ih
          exact ⟨_, final.trans lock_lock⟩

/-- A walk over a queue that is neither stopped nor satisfied leaves nothing available. -/
theorem matchQueue_exhausts (unstopped : (matchQueue registry policy price incoming queue).selfTrade = false)
    (hungry : (matchQueue registry policy price incoming queue).incoming.availableBase ≠ 0) :
    ∀ o ∈ (matchQueue registry policy price incoming queue).items, o.availableBase = 0 := by
  induction queue generalizing incoming with
  | nil => simp [matchQueue]
  | cons resting rest ih =>
    have wants : incoming.availableBase ≠ 0 := fun satisfied => hungry (by rw [matchQueue_satisfied satisfied, satisfied])
    by_cases idle : resting.availableBase = 0
    · rw [matchQueue_idle wants idle] at unstopped hungry ⊢
      intro o member
      rcases List.mem_cons.mp member with rfl | later
      · exact idle
      · exact ih unstopped hungry o later
    · by_cases own : resting.maker = incoming.maker ∧ policy = .cancelNewest
      · rw [matchQueue_own wants idle own] at unstopped
        cases unstopped
      · rw [matchQueue_take wants idle own rfl] at unstopped hungry ⊢
        intro o member
        rcases List.mem_cons.mp member with rfl | later
        · -- the incoming order still wants some, so the resting one gave all it had
          obtain ⟨total, final⟩ : ∃ total, (matchQueue registry policy price
            (incoming.lock (min incoming.availableBase resting.availableBase)) rest).incoming = _ := matchQueue_locks
          simp only [final, lock_available] at hungry ⊢
          omega
        · exact ih unstopped hungry o later

theorem matchLevels_satisfied {levels : Levels} (satisfied : incoming.availableBase = 0) :
    matchLevels registry policy incoming levels = ⟨levels, incoming, [], false⟩ := by
  cases levels with
  | nil => rfl
  | cons level rest => rw [matchLevels, if_pos satisfied]

theorem matchLevels_skip (hungry : incoming.availableBase ≠ 0)
    (skipped : crosses incoming level.price = false ∨ level.queue.all (·.availableBase = 0) = true) :
    matchLevels registry policy incoming (level :: rest) =
      { matchLevels registry policy incoming rest with
        items := level :: (matchLevels registry policy incoming rest).items } := by
  rw [matchLevels, if_neg hungry, if_pos skipped]

theorem matchLevels_stop {here : Walk RestingOrder} (hungry : incoming.availableBase ≠ 0)
    (chosen : ¬ (crosses incoming level.price = false ∨ level.queue.all (·.availableBase = 0) = true))
    (walk : matchQueue registry policy level.price incoming level.queue = here) (stopped : here.selfTrade = true) :
    matchLevels registry policy incoming (level :: rest) =
      ⟨{ level with queue := here.items } :: rest, here.incoming, here.intents, true⟩ := by
  rw [matchLevels, if_neg hungry, if_neg chosen, walk]
  exact if_pos stopped

theorem matchLevels_pass {here : Walk RestingOrder} (hungry : incoming.availableBase ≠ 0)
    (chosen : ¬ (crosses incoming level.price = false ∨ level.queue.all (·.availableBase = 0) = true))
    (walk : matchQueue registry policy level.price incoming level.queue = here) (passed : here.selfTrade = false) :
    matchLevels registry policy incoming (level :: rest) =
      { matchLevels registry policy here.incoming rest with
        items := { level with queue := here.items } :: (matchLevels registry policy here.incoming rest).items
        intents := here.intents ++ (matchLevels registry policy here.incoming rest).intents } := by
  rw [matchLevels, if_neg hungry, if_neg chosen, walk]
  exact if_neg (by rw [passed]; exact Bool.false_ne_true)

theorem matchLevels_locks {levels : Levels} :
    ∃ total, (matchLevels registry policy incoming levels).incoming = incoming.lock total := by
  induction levels generalizing incoming with
  | nil => exact ⟨0, rfl⟩
  | cons level rest ih =>
    by_cases satisfied : incoming.availableBase = 0
    · rw [matchLevels_satisfied satisfied]
      exact ⟨0, rfl⟩
    · by_cases skipped : crosses incoming level.price = false ∨ level.queue.all (·.availableBase = 0) = true
      · rw [matchLevels_skip satisfied skipped]
        exact ih
      · generalize walk : matchQueue registry policy level.price incoming level.queue = here
        obtain ⟨first, locked⟩ : ∃ total, here.incoming = incoming.lock total := walk ▸ matchQueue_locks
        cases stopped : here.selfTrade with
        | true =>
          rw [matchLevels_stop satisfied skipped walk stopped]
          exact ⟨first, locked⟩
        | false =>
          rw [matchLevels_pass satisfied skipped walk stopped]
          obtain ⟨second, final⟩ : ∃ total, (matchLevels registry policy here.incoming rest).incoming = _ := ih
          exact ⟨first + second, final.trans (by rw [locked, lock_lock])⟩

/-- What a walk over the levels leaves of an incoming order that still wants some:
the crossing levels have nothing for it. -/
theorem matchLevels_exhausts {levels : Levels}
    (unstopped : (matchLevels registry policy incoming levels).selfTrade = false)
    (hungry : (matchLevels registry policy incoming levels).incoming.availableBase ≠ 0) :
    ∀ level ∈ (matchLevels registry policy incoming levels).items, crosses incoming level.price = true →
      ∀ o ∈ level.queue, o.availableBase = 0 := by
  induction levels generalizing incoming with
  | nil => simp [matchLevels]
  | cons level rest ih =>
    have wants : incoming.availableBase ≠ 0 := fun satisfied => hungry (by rw [matchLevels_satisfied satisfied, satisfied])
    by_cases skipped : crosses incoming level.price = false ∨ level.queue.all (·.availableBase = 0) = true
    · rw [matchLevels_skip wants skipped] at unstopped hungry ⊢
      intro other member crossing
      rcases List.mem_cons.mp member with rfl | later
      · rcases skipped with apart | idle
        · rw [crossing] at apart
          cases apart
        · simpa using idle
      · exact ih unstopped hungry other later crossing
    · generalize walk : matchQueue registry policy level.price incoming level.queue = here
      obtain ⟨first, locked⟩ : ∃ total, here.incoming = incoming.lock total := walk ▸ matchQueue_locks
      cases stopped : here.selfTrade with
      | true =>
        rw [matchLevels_stop wants skipped walk stopped] at unstopped
        cases unstopped
      | false =>
        rw [matchLevels_pass wants skipped walk stopped] at unstopped hungry ⊢
        obtain ⟨second, final⟩ : ∃ total, (matchLevels registry policy here.incoming rest).incoming =
          here.incoming.lock total := matchLevels_locks
        have wantsMore : here.incoming.availableBase ≠ 0 := by
          simp only [final, lock_available] at hungry
          omega
        intro other member crossing
        rcases List.mem_cons.mp member with rfl | later
        · subst walk
          exact matchQueue_exhausts stopped wantsMore
        · refine ih unstopped hungry other later ?_
          rw [locked, crosses_lock]
          exact crossing

end Exhausts

namespace Book

variable {b next : Book} {digest : Bytes}

theorem crosses_false {incoming o : RestingOrder} (apart : crosses incoming o.priceTicks = false) :
    (incoming.side = .ask → o.priceTicks < incoming.priceTicks) ∧
      (incoming.side = .bid → incoming.priceTicks < o.priceTicks) := by
  unfold crosses at apart
  cases side : incoming.side with
  | ask =>
    simp only [side, decide_eq_false_iff_not, Nat.not_le] at apart
    exact ⟨fun _ => apart, nofun⟩
  | bid =>
    simp only [side, decide_eq_false_iff_not, Nat.not_le] at apart
    exact ⟨nofun, fun _ => apart⟩

/-- An order that rests with available quantity meets no available order it crosses. -/
theorem matchIncoming_exhausts {incoming final : RestingOrder} {intents : List MatchIntent} (shaped : b.Shaped)
    (fresh : ∀ o ∈ b.orders, o.digest ≠ incoming.digest)
    (ran : b.matchIncoming incoming = (next, final, intents, false)) (hungry : final.availableBase ≠ 0) :
    ∀ o ∈ next.orders, o.side = incoming.side.opposite → 0 < o.availableBase →
      crosses incoming o.priceTicks = false := by
  have matched := shaped.matchIncoming fresh ran
  unfold matchIncoming at ran
  obtain ⟨rfl, rfl, rfl, unstopped⟩ : _ ∧ _ ∧ _ ∧ _ := by simpa only [Prod.mk.injEq] using ran
  intro o member side available
  have listed := matched.shaped.mem_levels.mpr ⟨member, side⟩
  rw [levels_withLevels] at listed
  obtain ⟨level, inside, queued⟩ := Levels.mem_orders.mp listed
  have priced := ((matched.shaped.tidy incoming.side.opposite).placed level (by rw [levels_withLevels]; exact inside) o
    queued).2
  rw [bestFirst_mem] at inside
  by_contra crossing
  have nothing := matchLevels_exhausts unstopped hungry level inside (by simpa [priced] using crossing) o queued
  omega

theorem Uncrossed.place {order : Order} {outcome : PlaceOutcome} {intents : List MatchIntent} (shaped : b.Shaped)
    (uncrossed : b.Uncrossed) (ran : b.place digest order = .ok (outcome, intents, next)) : next.Uncrossed := by
  obtain ⟨side, price, size, middle, final, selfTrade, unindexed, -, matching, ends⟩ := place_ok ran
  have fresh : ∀ o ∈ ({ b with nextSeq := b.nextSeq + 1 } : Book).orders,
      o.digest ≠ (⟨digest, order.maker, side, price, size, 0, b.nextSeq⟩ : RestingOrder).digest :=
    shaped.not_indexed.mp unindexed
  have counted := shaped.nextSeq (b.nextSeq + 1)
  have matched := counted.matchIncoming fresh matching
  have old : ∀ o ∈ middle.orders, ∃ x ∈ b.orders, x.side = o.side ∧ x.priceTicks = o.priceTicks ∧
      (0 < o.availableBase → 0 < x.availableBase) := by
    intro o member
    rw [matched.orders] at member
    obtain ⟨x, inside, rfl⟩ := List.mem_map.mp member
    refine ⟨x, inside, rfl, rfl, fun some => ?_⟩
    rw [lock_available] at some
    omega
  have among : middle.Uncrossed := by
    intro bid bidIn ask askIn isBid isAsk bidSome askSome
    obtain ⟨x, xIn, xSide, xPrice, xSome⟩ := old bid bidIn
    obtain ⟨y, yIn, ySide, yPrice, ySome⟩ := old ask askIn
    rw [← xPrice, ← yPrice]
    exact uncrossed x xIn y yIn (xSide.trans isBid) (ySide.trans isAsk) (xSome bidSome) (ySome askSome)
  rcases ends with ⟨rfl, -⟩ | ⟨kept, rfl, which⟩
  · exact among
  · have mine : kept.side = side ∧ kept.priceTicks = price := by
      rcases which with ⟨-, rfl⟩ | ⟨-, rfl⟩ <;> rw [matched.final] <;> exact ⟨rfl, rfl⟩
    -- only the order itself can be new, and with quantity left it met no counterpart
    have apart : 0 < kept.availableBase → ∀ o ∈ middle.orders, o.side = side.opposite → 0 < o.availableBase →
        (side = .ask → o.priceTicks < price) ∧ (side = .bid → price < o.priceTicks) := by
      intro some o member opposite available
      rcases which with ⟨rfl, rfl⟩ | ⟨-, rfl⟩
      · exact crosses_false (matchIncoming_exhausts counted fresh matching (by omega) o member opposite available)
      · simp [RestingOrder.availableBase] at some
    intro bid bidIn ask askIn isBid isAsk bidSome askSome
    rw [(rest_orders middle kept).mem_iff, List.mem_cons] at bidIn askIn
    rcases bidIn with rfl | bidIn
    · rcases askIn with rfl | askIn
      · rw [isBid] at isAsk
        cases isAsk
      · have buys : side = .bid := mine.1.symm.trans isBid
        rw [mine.2]
        exact (apart bidSome ask askIn (by rw [isAsk, buys]; rfl) askSome).2 buys
    · rcases askIn with rfl | askIn
      · have sells : side = .ask := mine.1.symm.trans isAsk
        rw [mine.2]
        exact (apart askSome bid bidIn (by rw [isBid, sells]; rfl) bidSome).1 sells
      · exact among bid bidIn ask askIn isBid isAsk bidSome askSome

/-- Index and levels represent the same orders, with sizes in range. -/
structure Consistent (b : Book) : Prop where
  /-- The index says on which side and at which price a digest rests. -/
  index : ∀ digest side price, b.index digest = some (side, price) ↔
    ∃ level ∈ b.levels side, level.price = price ∧ ∃ o ∈ level.queue, o.digest = digest
  once : (b.orders.map (·.digest)).Nodup
  placed : ∀ side, ∀ level ∈ b.levels side, ∀ o ∈ level.queue, o.side = side ∧ o.priceTicks = level.price
  filled : ∀ side, ∀ level ∈ b.levels side, level.queue ≠ []
  sizes : ∀ o ∈ b.orders, 0 < o.remainingBase ∧ o.pendingBase ≤ o.remainingBase

theorem Sound.consistent (sound : b.Sound) : b.Consistent := by
  have tidy := sound.shaped.tidy
  refine ⟨fun digest side price => ?_, sound.shaped.once, fun side => (tidy side).placed,
    fun side => (tidy side).filled, sound.fits⟩
  rw [sound.shaped.index]
  constructor
  · rintro ⟨o, member, same, rfl, rfl⟩
    obtain ⟨level, inside, queued⟩ := Levels.mem_orders.mp (sound.shaped.mem_levels.mpr ⟨member, rfl⟩)
    exact ⟨level, inside, ((tidy o.side).placed level inside o queued).2.symm, o, queued, same⟩
  · rintro ⟨level, inside, rfl, o, queued, same⟩
    obtain ⟨onSide, atPrice⟩ := (tidy side).placed level inside o queued
    exact ⟨o, mem_orders.mpr ⟨side, Levels.mem_orders.mpr ⟨level, inside, queued⟩⟩, same, onSide, atPrice⟩

/-- Whatever the calls, the book stays consistent, and no placement crosses it. -/
theorem consistent_of_run (market : Market) (policy : SelfTradePolicy) {calls : List BookCall} {b : Book}
    (ran : exec step (start market policy) calls = .ok b) :
    b.Consistent ∧ ∀ digest order outcome intents next, b.place digest order = .ok (outcome, intents, next) →
      b.Uncrossed → next.Uncrossed := by
  have sound := sound_of_run ran
  exact ⟨sound.consistent, fun _ _ _ _ _ placed uncrossed => uncrossed.place sound.shaped placed⟩

/-- A match that is confirmed twice, a failure that was never emitted and a fill larger than the order. -/
def disorder : List BookCall :=
  [.place [1] (Flight.Sample.ask 1 10), .place [2] (Flight.Sample.bid 2 4), .settleSuccess ⟨1, [1], [2], 4, 1⟩,
    .settleSuccess ⟨1, [1], [2], 4, 1⟩, .settleFailed ⟨1, [1], [1], 7, 1⟩ [[9]], .place [3] (Flight.Sample.ask 3 5),
    .applyExternalFill [3] 100]

theorem consistent_after_disorder :
    ∃ b, exec step (start Flight.Sample.market .cancelNewest) disorder = .ok b ∧
      b.orders.map (fun o => (o.digest, o.remainingBase, o.pendingBase)) = [([1], 6, 0)] ∧ b.Consistent :=
  exists_ok (fun b => decide (b.orders.map (fun o => (o.digest, o.remainingBase, o.pendingBase)) = [([1], 6, 0)]))
    (by decide +kernel)
    (fun _ ran left => ⟨of_decide_eq_true left, (consistent_of_run Flight.Sample.market .cancelNewest ran).1⟩)

end Book

end SuiOptions.Orderbook
