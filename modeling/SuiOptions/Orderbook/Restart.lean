import SuiOptions.Orderbook.SelfTrade
import SuiOptions.Orderbook.Store

/-! The book that a start-up rebuilds.

Stored orders are placed again at their full size, and a placement matches. So
the rebuilt book is the book of the stored orders exactly when no open row has
been filled and no two open rows cross: a crossing pair is matched during the
replay, and the intents that would resolve the match are dropped.
-/

set_option autoImplicit false

namespace SuiOptions.Orderbook

open Exchange Execution

/-! ### Queues -/

theorem filter_mem_of_sublist {part whole : List Bytes} (nodup : whole.Nodup) (sub : part.Sublist whole) :
    whole.filter (· ∈ part) = part := by
  have kept := sub.filter (· ∈ part)
  rw [List.filter_eq_self.mpr fun digest member => decide_eq_true member] at kept
  refine (kept.eq_of_length_le (List.Nodup.subperm (nodup.filter _) fun digest member => ?_).length_le).symm
  exact of_decide_eq_true (List.mem_filter.mp member).2

/-- Parts of a list without repetitions are the same list when they have the same members. -/
theorem sublist_ext {first second whole : List Bytes} (nodup : whole.Nodup) (early : first.Sublist whole)
    (late : second.Sublist whole) (same : ∀ digest, digest ∈ first ↔ digest ∈ second) : first = second := by
  rw [← filter_mem_of_sublist nodup early, ← filter_mem_of_sublist nodup late]
  simp only [same]

def Levels.queueAt (levels : Levels) (price : Nat) : List RestingOrder :=
  ((levels.find? (·.price = price)).map Level.queue).getD []

theorem Levels.queueAt_cons (level : Level) (rest : Levels) (price : Nat) :
    Levels.queueAt (level :: rest) price = if level.price = price then level.queue else Levels.queueAt rest price := by
  unfold Levels.queueAt
  by_cases here : level.price = price
  · simp [here]
  · simp [here]

theorem Levels.queueAt_absent {levels : Levels} {price : Nat} (absent : ∀ level ∈ levels, level.price ≠ price) :
    levels.queueAt price = [] := by
  unfold Levels.queueAt
  rw [List.find?_eq_none.mpr fun level member => by simpa using absent level member]
  rfl

theorem Levels.queueAt_cases (levels : Levels) (price : Nat) :
    levels.queueAt price = [] ∨ ∃ level ∈ levels, levels.queueAt price = level.queue := by
  unfold Levels.queueAt
  cases found : levels.find? (·.price = price) with
  | none => exact Or.inl rfl
  | some level => exact Or.inr ⟨level, List.mem_of_find?_eq_some found, rfl⟩

theorem Levels.queueAt_push {side : Side} {levels : Levels} (tidy : Levels.Tidy side levels) (o : RestingOrder) (price : Nat) :
    (levels.push o).queueAt price = levels.queueAt price ++ if o.priceTicks = price then [o] else [] := by
  induction levels with
  | nil =>
    rw [Levels.push, Levels.queueAt_cons]
    split <;> rfl
  | cons level rest ih =>
    unfold Levels.push
    split
    · rename_i below
      rw [Levels.queueAt_cons]
      by_cases here : o.priceTicks = price
      · -- all levels are above the new one
        have absent : ∀ other ∈ level :: rest, other.price ≠ price := by
          intro other member
          rcases List.mem_cons.mp member with rfl | later
          · omega
          · have above := tidy.above other later
            omega
        rw [Levels.queueAt_absent absent, if_pos here, List.nil_append]
      · rw [if_neg here, if_neg here, List.append_nil]
    · split
      · rename_i same
        simp only [Levels.queueAt_cons, same]
        split
        · rfl
        · rw [List.append_nil]
      · rename_i differs
        rw [Levels.queueAt_cons, Levels.queueAt_cons, ih tidy.tail]
        split
        · rename_i here
          rw [if_neg (by omega), List.append_nil]
        · rfl

namespace Book

variable {b next : Book} {o : RestingOrder} {digest : Bytes} {side : Side} {price size : Nat} {order : Order}

def queueAt (b : Book) (side : Side) (price : Nat) : List RestingOrder := (b.levels side).queueAt price

theorem queueAt_rest (shaped : b.Shaped) (o : RestingOrder) (side : Side) (price : Nat) :
    (b.rest o).queueAt side price =
      b.queueAt side price ++ if o.side = side ∧ o.priceTicks = price then [o] else [] := by
  unfold queueAt Book.rest
  by_cases here : o.side = side
  · subst here
    have levels : ({ b with index := Function.update b.index o.digest (some (o.side, o.priceTicks)) } : Book).levels
        o.side = b.levels o.side := by cases o.side <;> rfl
    simp only [levels_withLevels, levels, Levels.queueAt_push (shaped.tidy o.side), true_and]
  · rw [levels_withLevels_of_ne (Ne.symm here), if_neg fun same => here same.1, List.append_nil]
    cases side <;> rfl

theorem Shaped.mem_queueAt (shaped : b.Shaped) :
    o ∈ b.queueAt side price ↔ o ∈ b.orders ∧ o.side = side ∧ o.priceTicks = price := by
  constructor
  · intro member
    unfold queueAt Levels.queueAt at member
    cases found : (b.levels side).find? (·.price = price) with
    | none =>
      rw [found] at member
      cases member
    | some level =>
      rw [found] at member
      have inside := List.mem_of_find?_eq_some found
      have priced := List.find?_some found
      obtain ⟨onSide, atPrice⟩ := (shaped.tidy side).placed level inside o member
      exact ⟨mem_orders.mpr ⟨side, Levels.mem_orders.mpr ⟨level, inside, member⟩⟩, onSide,
        atPrice.trans (by simpa using priced)⟩
  · rintro ⟨member, rfl, rfl⟩
    obtain ⟨level, found, queued⟩ := find_level (shaped.tidy o.side) (shaped.mem_levels.mpr ⟨member, rfl⟩) rfl
    unfold queueAt Levels.queueAt
    rw [found]
    exact queued

/-! ### Placing an order -/

theorem matchLevels_apart {registry : ID} {policy : SelfTradePolicy} {incoming : RestingOrder} {levels : Levels}
    (apart : ∀ level ∈ levels, ∀ o ∈ level.queue, 0 < o.availableBase → crosses incoming level.price = false) :
    matchLevels registry policy incoming levels = ⟨levels, incoming, [], false⟩ := by
  induction levels with
  | nil => rfl
  | cons level rest ih =>
    by_cases satisfied : incoming.availableBase = 0
    · exact matchLevels_satisfied satisfied
    · have skipped : crosses incoming level.price = false ∨ level.queue.all (·.availableBase = 0) = true := by
        by_contra chosen
        obtain ⟨crossing, busy⟩ := not_or.mp chosen
        refine busy (List.all_eq_true.mpr fun o queued => decide_eq_true (Nat.eq_zero_of_not_pos fun some => ?_))
        exact crossing (apart level List.mem_cons_self o queued some)
      rw [matchLevels_skip satisfied skipped, ih fun level later => apart level (List.mem_cons_of_mem _ later)]

theorem withLevels_levels (b : Book) (side : Side) : b.withLevels side (b.levels side) = b := by
  cases side <;> rfl

theorem Shaped.matchIncoming_apart {incoming : RestingOrder} (shaped : b.Shaped)
    (apart : ∀ o ∈ b.orders, o.side = incoming.side.opposite → 0 < o.availableBase →
      crosses incoming o.priceTicks = false) : b.matchIncoming incoming = (b, incoming, [], false) := by
  have idle : matchLevels b.market.registryId b.selfTradePolicy incoming
      (bestFirst incoming.side.opposite (b.levels incoming.side.opposite)) =
        ⟨bestFirst incoming.side.opposite (b.levels incoming.side.opposite), incoming, [], false⟩ := by
    refine matchLevels_apart fun level member o queued some => ?_
    have inside := bestFirst_mem.mp member
    obtain ⟨onSide, atPrice⟩ := (shaped.tidy _).placed level inside o queued
    rw [← atPrice]
    exact apart o (mem_orders.mpr ⟨_, Levels.mem_orders.mpr ⟨level, inside, queued⟩⟩) onSide some
  unfold Book.matchIncoming
  simp only [idle, bestFirst_bestFirst, withLevels_levels]

theorem Shaped.place_apart (shaped : b.Shaped) (fresh : ∀ o ∈ b.orders, o.digest ≠ digest)
    (priced : priceAndSize b.market order = .ok (side, price, size))
    (apart : ∀ o ∈ b.orders, o.side = side.opposite → 0 < o.availableBase →
      crosses (b.arriving digest order side price size) o.priceTicks = false) :
    b.place digest order = .ok (.rested size, [],
      ({ b with nextSeq := b.nextSeq + 1 } : Book).rest (b.arriving digest order side price size)) := by
  have unindexed := shaped.not_indexed.mpr fresh
  have idle : Book.matchIncoming { b with nextSeq := b.nextSeq + 1 } (b.arriving digest order side price size) = _ :=
    (shaped.nextSeq (b.nextSeq + 1)).matchIncoming_apart apart
  have some : (b.arriving digest order side price size).availableBase ≠ 0 := Nat.ne_of_gt (priceAndSize_pos priced)
  have placed : b.place digest order = .ok (conclude (Book.matchIncoming { b with nextSeq := b.nextSeq + 1 }
      (b.arriving digest order side price size))) := by
    unfold Book.place
    rw [unindexed, priced]
    rfl
  rw [placed, idle]
  exact congrArg Except.ok (if_neg some)

def Locked (b : Book) : Prop := ∃ o ∈ b.orders, 0 < o.pendingBase

theorem Shaped.place_crossed {outcome : PlaceOutcome} {intents : List MatchIntent} (shaped : b.Shaped)
    (ran : b.place digest order = .ok (outcome, intents, next))
    (priced : priceAndSize b.market order = .ok (side, price, size)) {met : RestingOrder} (inside : met ∈ b.orders)
    (opposite : met.side = side.opposite) (available : 0 < met.availableBase)
    (crossing : crosses (b.arriving digest order side price size) met.priceTicks = true) :
    next.Locked ∨ ∀ o ∈ next.orders, o.digest ≠ digest := by
  obtain ⟨side', price', size', middle, final, selfTrade, unindexed, same, matching, ends⟩ := place_ok ran
  cases priced.symm.trans same
  have fresh : ∀ o ∈ ({ b with nextSeq := b.nextSeq + 1 } : Book).orders,
      o.digest ≠ (b.arriving digest order side price size).digest := shaped.not_indexed.mp unindexed
  have counted := shaped.nextSeq (b.nextSeq + 1)
  have matched := counted.matchIncoming fresh matching
  rcases ends with ⟨rfl, -⟩ | ⟨kept, rfl, which⟩
  · -- self-trade prevention drops what is left of the order
    refine Or.inr fun o member => ?_
    rw [matched.orders] at member
    obtain ⟨old, listed, rfl⟩ := List.mem_map.mp member
    exact fresh old listed
  · left
    have listed : ∀ o ∈ middle.orders, o ∈ (middle.rest kept).orders := fun o member =>
      (rest_orders middle kept).mem_iff.mpr (List.mem_cons_of_mem _ member)
    have resting : kept ∈ (middle.rest kept).orders := (rest_orders middle kept).mem_iff.mpr List.mem_cons_self
    -- the order rests; either it was matched, or the one it crosses was
    by_cases locked : 0 < final.pendingBase
    · rcases which with ⟨-, rfl⟩ | ⟨-, rfl⟩ <;> exact ⟨_, resting, locked⟩
    · rcases which with ⟨rfl, rfl⟩ | ⟨some, -⟩
      · -- nothing was taken from the order, so the walk went on until nothing that crosses was available
        have hungry : kept.availableBase ≠ 0 := by
          have whole : kept.remainingBase = size := by rw [matched.final]; rfl
          have positive := priceAndSize_pos priced
          simp only [RestingOrder.availableBase]
          omega
        have image : met.lock (share intents met.digest) ∈ middle.orders := by
          rw [matched.orders]
          exact List.mem_map_of_mem inside
        by_cases taken : 0 < share intents met.digest
        · refine ⟨_, listed _ image, ?_⟩
          rw [lock_pendingBase]
          omega
        · have left : 0 < (met.lock (share intents met.digest)).availableBase := by
            rw [lock_available]
            omega
          have apart := matchIncoming_exhausts counted fresh matching hungry _ image opposite left
          rw [lock_priceTicks] at apart
          exact absurd (crossing.symm.trans apart) Bool.true_eq_false.mp
      · exact absurd some locked

theorem Shaped.locked_call (shaped : b.Shaped) (locked : b.Locked) (digest : Bytes) (order : Order) :
    (b.call (.place digest order)).1.Locked := by
  simp only [Book.call]
  split
  · exact locked
  · rename_i ran
    obtain ⟨incoming, kept, placed⟩ := shaped.place ran
    obtain ⟨o, member, pending⟩ := locked
    refine ⟨_, (placed.orders _).mpr (Or.inr ⟨o, member, rfl⟩), ?_⟩
    rw [lock_pendingBase]
    omega

end Book

/-! ### Rows one after the other -/

namespace StoredOrder

def queuedAt (side : Side) (price : Nat) (row : StoredOrder) : Bool := row.side = side ∧ row.priceTicks = price

def Crossing (bid ask : StoredOrder) : Prop := bid.side = .bid ∧ ask.side = .ask ∧ ask.priceTicks ≤ bid.priceTicks

def Apart (rows : List StoredOrder) : Prop := ∀ bid ∈ rows, ∀ ask ∈ rows, ¬ Crossing bid ask

theorem crosses_iff {row old : StoredOrder} {o : RestingOrder} (incoming : RestingOrder) (named : row.Names incoming) (known : old.Names o)
    (opposite : o.side = incoming.side.opposite) :
    crosses incoming o.priceTicks = true ↔ Crossing row old ∨ Crossing old row := by
  obtain ⟨-, side, price⟩ := named
  obtain ⟨-, oldSide, oldPrice⟩ := known
  rw [opposite] at oldSide
  unfold crosses Crossing
  cases here : incoming.side with
  | ask => simp [side, oldSide, here, Side.opposite, price, oldPrice]
  | bid => simp [side, oldSide, here, Side.opposite, price, oldPrice]

end StoredOrder

def RestingOrder.entry (o : RestingOrder) : Bytes × Nat × Nat := (o.digest, o.remainingBase, o.pendingBase)

namespace Book

open StoredOrder

variable {market : Market} {rows done todo : List StoredOrder} {row : StoredOrder} {b : Book}

/-- The book holds these rows at their full size, in their order, with nothing pending. -/
structure Carries (market : Market) (rows : List StoredOrder) (b : Book) : Prop where
  sound : b.Sound
  market : b.market = market
  queues : ∀ side price, (b.queueAt side price).map RestingOrder.entry =
    (rows.filter (·.queuedAt side price)).map fun row => (row.digest, row.base, 0)

theorem Carries.row_of (carries : Carries market rows b) {o : RestingOrder} (member : o ∈ b.orders) :
    ∃ row ∈ rows, row.Names o ∧ o.remainingBase = row.base ∧ o.pendingBase = 0 := by
  have queued := List.mem_map_of_mem (f := RestingOrder.entry) (carries.sound.shaped.mem_queueAt.mpr ⟨member, rfl, rfl⟩)
  rw [carries.queues] at queued
  obtain ⟨row, listed, same⟩ := List.mem_map.mp queued
  obtain ⟨inside, placed⟩ := List.mem_filter.mp listed
  simp only [RestingOrder.entry, Prod.mk.injEq] at same
  obtain ⟨side, price⟩ := of_decide_eq_true placed
  exact ⟨row, inside, ⟨same.1, side, price⟩, same.2.1.symm, same.2.2.symm⟩

theorem Carries.order_of (carries : Carries market rows b) (inside : row ∈ rows) :
    ∃ o ∈ b.orders, row.Names o ∧ o.remainingBase = row.base ∧ o.pendingBase = 0 := by
  have listed : (row.digest, row.base, 0) ∈ (b.queueAt row.side row.priceTicks).map RestingOrder.entry := by
    rw [carries.queues]
    exact List.mem_map.mpr ⟨row, List.mem_filter.mpr ⟨inside, by simp [StoredOrder.queuedAt]⟩, rfl⟩
  obtain ⟨o, queued, same⟩ := List.mem_map.mp listed
  obtain ⟨member, side, price⟩ := carries.sound.shaped.mem_queueAt.mp queued
  simp only [RestingOrder.entry, Prod.mk.injEq] at same
  exact ⟨o, member, ⟨same.1.symm, side.symm, price.symm⟩, same.2.1, same.2.2⟩

theorem Carries.fresh (carries : Carries market rows b) (unused : ∀ old ∈ rows, old.digest ≠ row.digest) :
    ∀ o ∈ b.orders, o.digest ≠ row.digest := by
  intro o member same
  obtain ⟨old, inside, named, -⟩ := carries.row_of member
  exact unused old inside (named.1.trans same)

theorem Carries.join (carries : Carries market done b) (priced : Priced market row)
    (unused : ∀ old ∈ done, old.digest ≠ row.digest)
    (apart : ∀ old ∈ done, ¬ (Crossing row old ∨ Crossing old row)) :
    Carries market (done ++ [row]) (b.call (.place row.digest row.order)).1 := by
  have terms : priceAndSize b.market row.order = .ok (row.side, row.priceTicks, row.base) := carries.market ▸ priced
  have fresh := carries.fresh unused
  have placed := carries.sound.shaped.place_apart fresh terms fun o member opposite _ => by
    obtain ⟨old, inside, named, -⟩ := carries.row_of member
    by_contra crossing
    refine apart old inside ((crosses_iff (b.arriving row.digest row.order row.side row.priceTicks row.base)
      ⟨rfl, rfl, rfl⟩ named opposite).mp (by simpa using crossing))
  have counted := carries.sound.shaped.nextSeq (b.nextSeq + 1)
  refine ⟨carries.sound.call _, (carries.sound.shaped.market_call _).trans carries.market, fun side price => ?_⟩
  simp only [Book.call, placed]
  have before : ({ b with nextSeq := b.nextSeq + 1 } : Book).queueAt side price = b.queueAt side price := by
    cases side <;> rfl
  rw [queueAt_rest counted, before, List.map_append, carries.queues, List.filter_append, List.map_append]
  congr 1
  by_cases here : row.side = side ∧ row.priceTicks = price
  · simp [arriving, here, StoredOrder.queuedAt, RestingOrder.entry]
  · simp [arriving, here, StoredOrder.queuedAt]

theorem Carries.collide (carries : Carries market done b) (priced : Priced market row)
    (unused : ∀ old ∈ done, old.digest ≠ row.digest) {old : StoredOrder} (inside : old ∈ done)
    (crossing : Crossing row old ∨ Crossing old row) :
    (b.call (.place row.digest row.order)).1.Locked ∨
      ∀ o ∈ (b.call (.place row.digest row.order)).1.orders, o.digest ≠ row.digest := by
  have terms : priceAndSize b.market row.order = .ok (row.side, row.priceTicks, row.base) := carries.market ▸ priced
  obtain ⟨o, member, named, remaining, pending⟩ := carries.order_of inside
  have opposite : o.side = row.side.opposite := by
    rw [← named.2.1]
    rcases crossing with ⟨left, right, -⟩ | ⟨left, right, -⟩ <;> rw [left, right] <;> rfl
  simp only [Book.call]
  split
  · exact Or.inr (carries.fresh unused)
  · rename_i ran
    refine carries.sound.shaped.place_crossed ran terms member opposite ?_ ?_
    · have fits := carries.sound.fits o member
      simp only [Fits, RestingOrder.availableBase, pending] at fits ⊢
      omega
    · exact (crosses_iff (b.arriving row.digest row.order row.side row.priceTicks row.base)
        ⟨rfl, rfl, rfl⟩ named opposite).mpr crossing

theorem apart_append_singleton (before : Apart done) (apart : ∀ old ∈ done, ¬ (Crossing row old ∨ Crossing old row)) :
    Apart (done ++ [row]) := by
  intro bid bidIn ask askIn crossing
  rcases List.mem_append.mp bidIn with oldBid | newBid
  · rcases List.mem_append.mp askIn with oldAsk | newAsk
    · exact before bid oldBid ask oldAsk crossing
    · rw [List.mem_singleton.mp newAsk] at crossing
      exact apart bid oldBid (Or.inr crossing)
  · rw [List.mem_singleton.mp newBid] at crossing
    rcases List.mem_append.mp askIn with oldAsk | newAsk
    · exact apart ask oldAsk (Or.inl crossing)
    · rw [List.mem_singleton.mp newAsk] at crossing
      -- no row is on both sides
      cases crossing.1.symm.trans crossing.2.1

section Replay

variable (priced : ∀ row ∈ done ++ todo, Priced market row) (once : ((done ++ todo).map (·.digest)).Nodup)

include once in
theorem unused_of_once {rest : List StoredOrder} (first : todo = row :: rest) : ∀ old ∈ done, old.digest ≠ row.digest := by
  subst first
  rw [List.map_append, List.nodup_append] at once
  intro old inside same
  exact once.2.2 _ (List.mem_map_of_mem inside) _ (List.mem_map_of_mem List.mem_cons_self) same

include priced once in
theorem Carries.replay (carries : Carries market done b) (apart : Apart (done ++ todo)) :
    Carries market (done ++ todo) (b.replay todo) := by
  induction todo generalizing b done with
  | nil =>
    rw [List.append_nil]
    exact carries
  | cons row rest ih =>
    have inside : row ∈ done ++ row :: rest := List.mem_append_right _ List.mem_cons_self
    have joined := carries.join (priced row inside) (unused_of_once once rfl) fun old member crossing => by
      have listed := List.mem_append_left (row :: rest) member
      exact crossing.elim (apart row inside old listed) (apart old listed row inside)
    rw [List.append_cons] at priced once apart ⊢
    exact ih priced once joined apart

theorem Sound.locked_replay (sound : b.Sound) (locked : b.Locked) (rows : List StoredOrder) : (b.replay rows).Locked :=
  (replay_induction (fun b => b.Sound ∧ b.Locked) (fun _ _ _ before =>
    ⟨before.1.call _, before.1.shaped.locked_call before.2 _ _⟩) ⟨sound, locked⟩).2

/-- Placing other rows does not bring an order back. -/
theorem Sound.absent_replay (sound : b.Sound) {digest : Bytes} (absent : ∀ o ∈ b.orders, o.digest ≠ digest)
    (others : ∀ row ∈ rows, row.digest ≠ digest) : ∀ o ∈ (b.replay rows).orders, o.digest ≠ digest := by
  refine (replay_induction (fun b => b.Sound ∧ ∀ o ∈ b.orders, o.digest ≠ digest) (fun b row member before =>
    ⟨before.1.call _, fun o inside same => ?_⟩) ⟨sound, absent⟩).2
  rcases before.1.shaped.from_call (.place row.digest row.order) with inherited | ⟨_, _, which, entered⟩
  · obtain ⟨old, listed, kept⟩ := inherited o inside
    exact before.2 old listed (kept.1.symm.trans same)
  · cases which
    rcases entered o inside with ⟨old, listed, kept⟩ | ⟨new, -⟩
    · exact before.2 old listed (kept.1.symm.trans same)
    · exact others row member (new.symm.trans same)

include priced once in
theorem Carries.apart_of_replay (carries : Carries market done b) (before : Apart done)
    (unlocked : ¬ (b.replay todo).Locked)
    (present : ∀ row ∈ todo, ∃ o ∈ (b.replay todo).orders, o.digest = row.digest) : Apart (done ++ todo) := by
  induction todo generalizing b done with
  | nil =>
    rw [List.append_nil]
    exact before
  | cons row rest ih =>
    have inside : row ∈ done ++ row :: rest := List.mem_append_right _ List.mem_cons_self
    have unused := unused_of_once once rfl
    -- a row that crosses one before it would lock quantity, or be cut and lost
    have apart : ∀ old ∈ done, ¬ (Crossing row old ∨ Crossing old row) := by
      intro old member crossing
      have sound := carries.sound.call (.place row.digest row.order)
      rcases carries.collide (priced row inside) unused member crossing with locked | lost
      · exact unlocked (sound.locked_replay locked rest)
      · obtain ⟨o, found, named⟩ := present row List.mem_cons_self
        refine sound.absent_replay lost (fun later listed same => ?_) o found named
        rw [List.map_append, List.nodup_append] at once
        exact (List.nodup_cons.mp once.2.1).1 (List.mem_map.mpr ⟨later, listed, same⟩)
    have joined := carries.join (priced row inside) unused apart
    rw [List.append_cons] at priced once ⊢
    exact ih priced once joined (apart_append_singleton before apart) unlocked
      fun later member => present later (List.mem_cons_of_mem _ member)

end Replay

theorem Carries.nil (market : Market) : Carries market [] (Book.new market) :=
  ⟨Sound.start market .cancelNewest, rfl, fun side _ => by cases side <;> rfl⟩

end Book

/-! ### The restart -/

namespace Server

open StoredOrder Book

def live (s : Server) (now : Nat) : List StoredOrder := s.rows.filter (·.live now)

def underWay (s : Server) (digest : Bytes) : Bool := digest ∈ s.accepted.map Prod.fst

/-- The stored order has expired, so that a start-up closes it. -/
def expired (s : Server) (now : Nat) (digest : Bytes) : Bool :=
  ∃ row ∈ s.rows, row.digest = digest ∧ row.order.expiryMs.toNat ≤ now

def standing (s : Server) (now : Nat) (side : Side) (price : Nat) : List Bytes :=
  ((s.flight.book.queueAt side price).map (·.digest)).filter fun digest =>
    !s.expired now digest && !s.underWay digest

/-- What the book after a restart is to the rows and to the book before it. -/
structure Restored (s : Server) (now : Nat) : Prop where
  /-- The digests, sides and prices of the live rows, oldest first. -/
  listed : ∀ side price, ((s.restart now).flight.book.queueAt side price).map (·.digest) =
    ((s.live now).filter (·.queuedAt side price)).map (·.digest)
  /-- Rows written ahead aside, the orders of the book before, where they stood, and no others. -/
  same : ∀ side price, (((s.restart now).flight.book.queueAt side price).map (·.digest)).filter (!s.underWay ·) =
    s.standing now side price
  remaining : ∀ o ∈ (s.restart now).flight.book.orders, ∃ row ∈ s.live now,
    row.digest = o.digest ∧ o.remainingBase = row.base - row.filledBase
  /-- What is pending is held by matches in flight. -/
  resolved : ∀ o ∈ (s.restart now).flight.book.orders, o.pendingBase ≤ (s.restart now).flight.unresolved o.digest

/-- The state before the restart: no live row is filled in part and no two of them cross, book
and store hold the same orders, and the orders of a queue were stored in its order. -/
structure Quiet (s : Server) (now : Nat) : Prop where
  unfilled : ∀ row ∈ s.live now, row.filledBase = 0
  apart : Apart (s.live now)
  /-- No row is left open whose order has gone from the book or never rested there. -/
  held : ∀ row ∈ s.live now, s.underWay row.digest = false → ∃ o ∈ s.flight.book.orders, o.digest = row.digest
  /-- No order is left in the book whose row is closed. -/
  opened : ∀ side price, ∀ digest ∈ s.standing now side price, digest ∈ (s.live now).map (·.digest)
  inOrder : ∀ side price, (s.standing now side price).Sublist (s.rows.map (·.digest))

variable {market : Market} {cfg : IntakeConfig} {s : Server} {now : Nat}

theorem Backed.live_once (backed : s.Backed market) (now : Nat) : ((s.live now).map (·.digest)).Nodup :=
  backed.once.sublist (List.filter_sublist.map _)

theorem Backed.restart_book (backed : s.Backed market) (now : Nat) :
    (s.restart now).flight.book = (Book.new market).replay (s.live now) := by
  rw [← backed.market]
  exact rebuild_eq _ now s.rows

theorem Backed.row_unique (backed : s.Backed market) {row other : StoredOrder} (stored : row ∈ s.rows) (also : other ∈ s.rows)
    (same : other.digest = row.digest) : other = row :=
  List.inj_on_of_nodup_map backed.once also stored same

theorem Backed.expired_iff (backed : s.Backed market) {row : StoredOrder} (stored : row ∈ s.rows) :
    s.expired now row.digest = true ↔ row.order.expiryMs.toNat ≤ now := by
  rw [expired, decide_eq_true_eq]
  constructor
  · rintro ⟨other, inside, same, past⟩
    exact backed.row_unique stored inside same ▸ past
  · exact fun past => ⟨row, stored, rfl, past⟩

theorem Backed.mem_standing (backed : s.Backed market) {side : Side} {price : Nat} {row : StoredOrder} (stored : row ∈ s.rows) :
    row.digest ∈ s.standing now side price ↔ (∃ o ∈ s.flight.book.orders, o.digest = row.digest) ∧
      row.queuedAt side price = true ∧ now < row.order.expiryMs.toNat ∧ s.underWay row.digest = false := by
  have expiry : s.expired now row.digest = true ↔ row.order.expiryMs.toNat ≤ now := backed.expired_iff stored
  simp only [standing, List.mem_filter, Bool.and_eq_true, Bool.not_eq_true', ← Bool.not_eq_true (s.expired _ _), expiry,
    Nat.not_le, List.mem_map]
  constructor
  · rintro ⟨⟨o, queued, named⟩, unexpired, arrived⟩
    obtain ⟨listed, onSide, atPrice⟩ := backed.sound.shaped.mem_queueAt.mp queued
    obtain ⟨other, inside, digest, rowSide, rowPrice⟩ := backed.known o listed
    cases backed.row_unique stored inside (digest.trans named)
    exact ⟨⟨o, listed, named⟩, decide_eq_true ⟨rowSide.trans onSide, rowPrice.trans atPrice⟩, unexpired, arrived⟩
  · rintro ⟨⟨o, listed, named⟩, placed, unexpired, arrived⟩
    obtain ⟨other, inside, digest, rowSide, rowPrice⟩ := backed.known o listed
    cases backed.row_unique stored inside (digest.trans named)
    obtain ⟨side, price⟩ := of_decide_eq_true placed
    exact ⟨⟨o, backed.sound.shaped.mem_queueAt.mpr ⟨listed, rowSide.symm.trans side, rowPrice.symm.trans price⟩, named⟩,
      unexpired, arrived⟩

theorem mem_live {row : StoredOrder} :
    row ∈ s.live now ↔ row ∈ s.rows ∧ row.status = .opened ∧ now < row.order.expiryMs.toNat := by
  rw [live, List.mem_filter, StoredOrder.live, decide_eq_true_eq]

/-- The queues of live rows are the queues of the book, when book and store hold the same orders. -/
theorem Quiet.queues (quiet : s.Quiet now) (backed : s.Backed market) (side : Side) (price : Nat) :
    (((s.live now).filter (·.queuedAt side price)).map (·.digest)).filter (!s.underWay ·) = s.standing now side price := by
  have stored : (((s.live now).filter (·.queuedAt side price)).map (·.digest)).Sublist (s.rows.map (·.digest)) :=
    (List.filter_sublist.trans List.filter_sublist).map _
  refine sublist_ext backed.once (List.filter_sublist.trans stored) (quiet.inOrder side price) fun digest => ?_
  constructor
  · intro member
    obtain ⟨listed, arrived⟩ := List.mem_filter.mp member
    obtain ⟨row, placed, rfl⟩ := List.mem_map.mp listed
    obtain ⟨alive, queued⟩ := List.mem_filter.mp placed
    obtain ⟨inside, -, unexpired⟩ := mem_live.mp alive
    have ahead : s.underWay row.digest = false := by simpa using arrived
    exact (backed.mem_standing inside).mpr ⟨quiet.held row alive ahead, queued, unexpired, ahead⟩
  · intro member
    obtain ⟨row, alive, rfl⟩ := List.mem_map.mp (quiet.opened side price _ member)
    obtain ⟨-, queued, -, ahead⟩ := (backed.mem_standing (mem_live.mp alive).1).mp member
    exact List.mem_filter.mpr ⟨List.mem_map_of_mem (List.mem_filter.mpr ⟨alive, queued⟩), by simpa using ahead⟩

theorem Backed.carries (backed : s.Backed market) (apart : Apart (s.live now)) :
    Carries market (s.live now) (s.restart now).flight.book := by
  rw [backed.restart_book]
  exact (Carries.nil market).replay (fun row member => backed.priced row (List.mem_of_mem_filter member))
    (backed.live_once now) apart

theorem Restored.apart (restored : s.Restored now) (backed : s.Backed market) : Apart (s.live now) := by
  have book := backed.restart_book now
  have unlocked : ¬ (s.restart now).flight.book.Locked := by
    rintro ⟨o, member, pending⟩
    have held : o.pendingBase ≤ 0 := restored.resolved o member
    omega
  -- no live row is lost in the replay
  have present : ∀ row ∈ s.live now, ∃ o ∈ (s.restart now).flight.book.orders, o.digest = row.digest := by
    intro row member
    have listed : row.digest ∈ ((s.restart now).flight.book.queueAt row.side row.priceTicks).map (·.digest) := by
      rw [restored.listed]
      exact List.mem_map.mpr ⟨row, List.mem_filter.mpr ⟨member, decide_eq_true ⟨rfl, rfl⟩⟩, rfl⟩
    obtain ⟨o, queued, same⟩ := List.mem_map.mp listed
    exact ⟨o, ((backed.restart now).sound.shaped.mem_queueAt.mp queued).1, same⟩
  rw [book] at unlocked present
  have priced : ∀ row ∈ s.live now, Priced market row := fun row member => backed.priced row (List.mem_of_mem_filter member)
  exact (Carries.nil market).apart_of_replay priced (backed.live_once now) (fun _ member => by cases member) unlocked present

theorem Restored.quiet (restored : s.Restored now) (backed : s.Backed market) : s.Quiet now := by
  have carries := backed.carries (restored.apart backed)
  have rebuilt : ∀ side price, s.standing now side price =
      (((s.live now).filter (·.queuedAt side price)).map (·.digest)).filter (!s.underWay ·) := by
    intro side price
    rw [← restored.same, restored.listed]
  refine ⟨fun row member => ?_, restored.apart backed, fun row alive ahead => ?_, fun side price digest member => ?_,
    fun side price => ?_⟩
  · -- start-up places the signed size, so the net size is that only where nothing was filled
    obtain ⟨o, inside, named, whole, -⟩ := carries.order_of member
    obtain ⟨other, live, same, net⟩ := restored.remaining o inside
    cases backed.row_unique (mem_live.mp member).1 (mem_live.mp live).1 (same.trans named.1.symm)
    have positive := (carries.sound.fits o inside).1
    omega
  · -- a live row that is not on its way stands in a queue of the old book
    have stands : row.digest ∈ s.standing now row.side row.priceTicks := by
      rw [rebuilt]
      refine List.mem_filter.mpr ⟨List.mem_map_of_mem (List.mem_filter.mpr ⟨alive, ?_⟩), by simpa using ahead⟩
      exact decide_eq_true ⟨rfl, rfl⟩
    exact ((backed.mem_standing (mem_live.mp alive).1).mp stands).1
  · rw [rebuilt] at member
    exact (List.filter_sublist.map _).subset (List.mem_of_mem_filter member)
  · rw [rebuilt]
    exact List.filter_sublist.trans ((List.filter_sublist.trans List.filter_sublist).map _)

theorem Quiet.restored (quiet : s.Quiet now) (backed : s.Backed market) : s.Restored now := by
  have carries := backed.carries quiet.apart
  have listed : ∀ side price, ((s.restart now).flight.book.queueAt side price).map (·.digest) =
      ((s.live now).filter (·.queuedAt side price)).map (·.digest) := by
    intro side price
    have entries := congrArg (List.map Prod.fst) (carries.queues side price)
    rw [List.map_map, List.map_map] at entries
    exact entries
  refine ⟨listed, fun side price => ?_, fun o member => ?_, fun o member => ?_⟩
  · rw [listed, quiet.queues backed]
  · obtain ⟨row, inside, named, whole, -⟩ := carries.row_of member
    refine ⟨row, inside, named.1, ?_⟩
    rw [quiet.unfilled row inside, Nat.sub_zero]
    exact whole
  · obtain ⟨_, _, _, _, none⟩ := carries.row_of member
    rw [none]
    exact Nat.zero_le _

/-- In every state the service reaches, a restart brings back the book of before, with the rows
written ahead, exactly when none of the rows it places is filled in part or crosses another,
book and store hold the same orders, and those were stored in the order of their queues. -/
theorem restored_iff (market : Market) (cfg : IntakeConfig) (now : Nat) {events : List Event} {s : Server}
    (ran : exec (step cfg) (start market) events = .ok s) : s.Restored now ↔ s.Quiet now := by
  have backed := backed_of_run ran
  exact ⟨fun restored => restored.quiet backed, fun quiet => quiet.restored backed⟩

/-! An ask of ten, of which a bid takes four, and a quiet book. -/

namespace Sample

def ask (maker : Address) (amount : UInt64) (price : UInt64) : Order :=
  { Flight.Sample.ask maker amount with takerAmount := amount * price, expiryMs := 60000 }

def bid (maker : Address) (amount : UInt64) : Order := { Flight.Sample.bid maker amount with expiryMs := 60000 }

def matched : List Event :=
  [.intake 0 [1] (ask 1 10 1), .place 0, .intake 0 [2] (bid 2 4), .place 0]

def partlyFilled : List Event :=
  [.intake 0 [1] (ask 1 10 1), .place 0, .applyFill [1] 3, .applyExternalFill [1] 3]

/-- A bid that meets an ask of its own maker never rests, and its row stays open. -/
def selfTraded : List Event :=
  [.intake 0 [1] (ask 1 10 1), .place 0, .intake 0 [2] (bid 1 4), .place 0, .remove [1], .setOrderStatus [1] .cancelled]

def resting : List Event :=
  [.intake 0 [1] (ask 1 10 2), .intake 0 [2] (bid 2 4), .place 0, .place 0, .intake 0 [3] (ask 3 5 2), .place 0,
    .intake 0 [4] (bid 5 2)]

end Sample

/-- A match in flight comes back as pending quantity with no intent, a fill is forgotten, and an
order that never rested comes back with its full size. -/
theorem restart_diverges :
    (∃ s, exec (step .standard) (start Flight.Sample.market) Sample.matched = .ok s ∧
      (∃ o ∈ (s.restart 0).flight.book.orders, o.digest = [1] ∧ o.pendingBase = 4 ∧
        (s.restart 0).flight.unresolved [1] = 0) ∧ ¬ s.Restored 0) ∧
    (∃ s, exec (step .standard) (start Flight.Sample.market) Sample.partlyFilled = .ok s ∧
      (∃ o ∈ (s.restart 0).flight.book.orders, o.digest = [1] ∧ o.remainingBase = 10 ∧
        ∀ row ∈ s.rows, row.base - row.filledBase = 7) ∧ ¬ s.Restored 0) ∧
    ∃ s, exec (step .standard) (start Flight.Sample.market) Sample.selfTraded = .ok s ∧
      s.flight.book.orders = [] ∧ s.accepted = [] ∧
      (∃ o ∈ (s.restart 0).flight.book.orders, o.digest = [2] ∧ o.remainingBase = 4) ∧ ¬ s.Restored 0 := by
  refine ⟨?_, ?_, ?_⟩
  · refine exists_ok (fun s => (s.restart 0).flight.book.orders.any fun o => decide (o.digest = [1] ∧ o.pendingBase = 4))
      (by decide +kernel) fun s _ passed => ?_
    simp only [List.any_eq_true, decide_eq_true_eq] at passed
    obtain ⟨o, member, named, pending⟩ := passed
    refine ⟨⟨o, member, named, pending, rfl⟩, fun restored => ?_⟩
    have held : o.pendingBase ≤ 0 := restored.resolved o member
    omega
  · refine exists_ok (fun s => ((s.restart 0).flight.book.orders.any fun o => decide (o.digest = [1] ∧ o.remainingBase = 10)) &&
      decide (∀ row ∈ s.rows, row.base - row.filledBase = 7)) (by decide +kernel) fun s _ passed => ?_
    simp only [Bool.and_eq_true, List.any_eq_true, decide_eq_true_eq] at passed
    obtain ⟨⟨o, member, named, whole⟩, net⟩ := passed
    refine ⟨⟨o, member, named, whole, net⟩, fun restored => ?_⟩
    obtain ⟨row, live, -, remaining⟩ := restored.remaining o member
    have seven := net row (List.mem_of_mem_filter live)
    omega
  · refine exists_ok (fun s => decide (s.flight.book.orders = [] ∧ s.accepted = []) &&
      ((s.restart 0).flight.book.orders.any fun o => decide (o.digest = [2] ∧ o.remainingBase = 4)) &&
      decide (s.standing 0 .bid 1 = [] ∧
        ((s.restart 0).flight.book.queueAt .bid 1).map (·.digest) = [[2]])) (by decide +kernel) fun s _ passed => ?_
    simp only [Bool.and_eq_true, List.any_eq_true, decide_eq_true_eq] at passed
    obtain ⟨⟨⟨none, arrived⟩, o, member, named, whole⟩, nothing, queue⟩ := passed
    refine ⟨none, arrived, ⟨o, member, named, whole⟩, fun restored => ?_⟩
    have same := restored.same .bid 1
    rw [nothing, queue] at same
    simp [underWay, arrived] at same

def quietTest (s : Server) (now : Nat) : Bool :=
  decide (∀ row ∈ s.live now, row.filledBase = 0) &&
    decide (∀ bid ∈ s.live now, ∀ ask ∈ s.live now,
      ¬ (bid.side = .bid ∧ ask.side = .ask ∧ ask.priceTicks ≤ bid.priceTicks)) &&
    decide (∀ row ∈ s.live now, s.underWay row.digest = false → ∃ o ∈ s.flight.book.orders, o.digest = row.digest) &&
    (s.flight.book.bids ++ s.flight.book.asks).all fun level =>
      let digests := (level.queue.map (·.digest)).filter fun digest => !s.expired now digest && !s.underWay digest
      decide (∀ digest ∈ digests, digest ∈ (s.live now).map (·.digest)) && decide (digests.Sublist (s.rows.map (·.digest)))

theorem quietTest_sound (passed : s.quietTest now = true) : s.Quiet now := by
  simp only [quietTest, Bool.and_eq_true, decide_eq_true_eq, List.all_eq_true] at passed
  obtain ⟨⟨⟨unfilled, apart⟩, held⟩, levels⟩ := passed
  have queues : ∀ side price, (∀ digest ∈ s.standing now side price, digest ∈ (s.live now).map (·.digest)) ∧
      (s.standing now side price).Sublist (s.rows.map (·.digest)) := by
    intro side price
    rcases Levels.queueAt_cases (s.flight.book.levels side) price with empty | ⟨level, member, queue⟩
    · simp [standing, queueAt, empty]
    · rw [standing, queueAt, queue]
      refine levels level (List.mem_append.mpr ?_)
      cases side with
      | bid => exact Or.inl member
      | ask => exact Or.inr member
  exact ⟨unfilled, apart, held, fun side price => (queues side price).1, fun side price => (queues side price).2⟩

/-- Three orders rest as they did, and the one that was under way joins them. -/
theorem restored_iff_resting : ∃ s, exec (step .standard) (start Flight.Sample.market) Sample.resting = .ok s ∧
    (s.live 0).length = 4 ∧ s.underWay [4] = true ∧ s.Restored 0 := by
  refine exists_ok (fun s => decide ((s.live 0).length = 4 ∧ s.underWay [4] = true) && s.quietTest 0) (by decide +kernel)
    fun s ran passed => ?_
  simp only [Bool.and_eq_true, decide_eq_true_eq] at passed
  exact ⟨passed.1.1, passed.1.2, (restored_iff _ _ 0 ran).mpr (quietTest_sound passed.2)⟩

end Server

end SuiOptions.Orderbook
