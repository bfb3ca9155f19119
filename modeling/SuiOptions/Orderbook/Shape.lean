import SuiOptions.Orderbook.Engine

/-! The representation invariant of the book, and what each operation does to the
collection of its orders.

Levels and index are an implementation of a set of resting orders: an operation
inserts one, drops one, or changes orders in place. The rest of the development
reads the book through `Book.orders`.
-/

set_option autoImplicit false

namespace SuiOptions.Orderbook

open Exchange

/-! ### Levels -/

/-- Levels by ascending price, none empty, each order at its own price and side. -/
structure Levels.Tidy (side : Side) (levels : Levels) : Prop where
  sorted : levels.Pairwise (fun first second => first.price < second.price)
  filled : ∀ level ∈ levels, level.queue ≠ []
  placed : ∀ level ∈ levels, ∀ o ∈ level.queue, o.side = side ∧ o.priceTicks = level.price

section Levels

variable {side : Side} {level : Level} {levels rest : Levels} {o : RestingOrder} {digest : Bytes} {price : Nat}
  {f : RestingOrder → RestingOrder}

theorem Levels.Tidy.tail (tidy : Levels.Tidy side (level :: rest)) : Levels.Tidy side rest :=
  ⟨(List.pairwise_cons.mp tidy.sorted).2, fun l member => tidy.filled l (List.mem_cons_of_mem _ member),
    fun l member => tidy.placed l (List.mem_cons_of_mem _ member)⟩

theorem Levels.mem_orders : o ∈ levels.orders ↔ ∃ level ∈ levels, o ∈ level.queue := List.mem_flatMap

theorem Levels.Tidy.nil : Levels.Tidy side [] := ⟨.nil, by simp, by simp⟩

theorem Levels.orders_cons : Levels.orders (level :: rest) = level.queue ++ Levels.orders rest := rfl

theorem Levels.Tidy.of_mem (tidy : Levels.Tidy side levels) (member : o ∈ levels.orders) : o.side = side := by
  obtain ⟨level, inside, queued⟩ := Levels.mem_orders.mp member
  exact (tidy.placed level inside o queued).1

theorem Levels.push_perm (o : RestingOrder) (levels : Levels) :
    (levels.push o).orders.Perm (o :: levels.orders) := by
  induction levels with
  | nil => exact List.Perm.refl _
  | cons level rest ih =>
    unfold Levels.push
    split
    · exact List.Perm.refl _
    · split
      · simp only [Levels.orders_cons]
        rw [List.append_assoc]
        exact List.perm_middle
      · simp only [Levels.orders_cons]
        exact (ih.append_left level.queue).trans List.perm_middle

theorem Levels.push_price {level : Level} (member : level ∈ levels.push o) :
    level.price = o.priceTicks ∨ ∃ old ∈ levels, old.price = level.price := by
  induction levels with
  | nil =>
    simp only [Levels.push, List.mem_singleton] at member
    exact Or.inl (by rw [member])
  | cons first rest ih =>
    unfold Levels.push at member
    split at member
    · rcases List.mem_cons.mp member with rfl | old
      · exact Or.inl rfl
      · exact Or.inr ⟨level, old, rfl⟩
    · split at member
      · rcases List.mem_cons.mp member with rfl | old
        · exact Or.inr ⟨first, List.mem_cons_self, rfl⟩
        · exact Or.inr ⟨level, List.mem_cons_of_mem _ old, rfl⟩
      · rcases List.mem_cons.mp member with rfl | later
        · exact Or.inr ⟨level, List.mem_cons_self, rfl⟩
        · rcases ih later with here | ⟨old, inside, same⟩
          · exact Or.inl here
          · exact Or.inr ⟨old, List.mem_cons_of_mem _ inside, same⟩

def onDigest (digest : Bytes) (f : RestingOrder → RestingOrder) (o : RestingOrder) : RestingOrder :=
  if o.digest = digest then f o else o

theorem map_onDigest_of_absent {orders : List RestingOrder} (absent : ∀ o ∈ orders, o.digest ≠ digest) :
    orders.map (onDigest digest f) = orders := by
  refine (List.map_congr_left fun o member => ?_).trans (List.map_id orders)
  exact if_neg (absent o member)

theorem modifyFirst_eq {queue : List RestingOrder} (once : (queue.map (·.digest)).Nodup) :
    modifyFirst digest f queue = queue.map (onDigest digest f) := by
  induction queue with
  | nil => rfl
  | cons o rest ih =>
    rw [List.map_cons, List.nodup_cons] at once
    unfold modifyFirst
    split
    · rename_i same
      rw [List.map_cons, map_onDigest_of_absent, onDigest, if_pos same]
      intro other member repeated
      exact once.1 (List.mem_map.mpr ⟨other, member, repeated.trans same.symm⟩)
    · rename_i differs
      rw [List.map_cons, ih once.2, onDigest, if_neg differs]

def Levels.At (levels : Levels) (price : Nat) (digest : Bytes) : Prop :=
  ∀ o ∈ levels.orders, o.digest = digest → o.priceTicks = price

theorem Levels.absent_of_price (tidy : Levels.Tidy side levels) (here : levels.At price digest)
    (member : level ∈ levels) (elsewhere : level.price ≠ price) : ∀ o ∈ level.queue, o.digest ≠ digest := by
  intro o queued same
  have found := here o (Levels.mem_orders.mpr ⟨level, member, queued⟩) same
  have placed := (tidy.placed level member o queued).2
  exact elsewhere (placed.symm.trans found)

theorem Levels.At.tail (here : Levels.At (level :: rest) price digest) : Levels.At rest price digest :=
  fun o member => here o (List.mem_append_right _ member)

theorem Levels.modifyAt_orders (tidy : Levels.Tidy side levels) (once : (levels.orders.map (·.digest)).Nodup)
    (here : levels.At price digest) :
    (levels.modifyAt price digest f).orders = levels.orders.map (onDigest digest f) := by
  induction levels with
  | nil => rfl
  | cons level rest ih =>
    rw [Levels.orders_cons, List.map_append, List.nodup_append] at once
    unfold Levels.modifyAt
    split
    · rename_i same
      rw [Levels.orders_cons, Levels.orders_cons, List.map_append, modifyFirst_eq once.1]
      congr 1
      refine (map_onDigest_of_absent fun o member => ?_).symm
      obtain ⟨later, inside, queued⟩ := Levels.mem_orders.mp member
      have higher := (List.pairwise_cons.mp tidy.sorted).1 later inside
      exact Levels.absent_of_price tidy here (List.mem_cons_of_mem _ inside) (by omega) o queued
    · rename_i differs
      rw [Levels.orders_cons, Levels.orders_cons, List.map_append, ih tidy.tail once.2.1 here.tail,
        map_onDigest_of_absent (Levels.absent_of_price tidy here List.mem_cons_self differs)]

theorem Levels.removeAt_orders (tidy : Levels.Tidy side levels) (here : levels.At price digest) :
    (levels.removeAt price digest).orders = levels.orders.filter (·.digest ≠ digest) := by
  induction levels with
  | nil => rfl
  | cons level rest ih =>
    unfold Levels.removeAt
    rw [Levels.orders_cons, List.filter_append]
    split
    · rename_i same
      have others : (Levels.orders rest).filter (·.digest ≠ digest) = Levels.orders rest := by
        refine List.filter_eq_self.mpr fun o member => ?_
        obtain ⟨later, inside, queued⟩ := Levels.mem_orders.mp member
        have higher := (List.pairwise_cons.mp tidy.sorted).1 later inside
        exact decide_eq_true
          (Levels.absent_of_price tidy here (List.mem_cons_of_mem _ inside) (by omega) o queued)
      rw [others]
      split
      · rename_i emptied
        rw [emptied, List.nil_append]
      · rfl
    · rename_i differs
      have unchanged : level.queue.filter (·.digest ≠ digest) = level.queue :=
        List.filter_eq_self.mpr fun o member =>
          decide_eq_true (Levels.absent_of_price tidy here List.mem_cons_self differs o member)
      rw [Levels.orders_cons, ih tidy.tail here.tail, unchanged]

structure Keeps (f : RestingOrder → RestingOrder) : Prop where
  digest : ∀ o, (f o).digest = o.digest
  side : ∀ o, (f o).side = o.side
  priceTicks : ∀ o, (f o).priceTicks = o.priceTicks

theorem Keeps.onDigest (keeps : Keeps f) (digest : Bytes) : Keeps (onDigest digest f) := by
  refine ⟨fun o => ?_, fun o => ?_, fun o => ?_⟩
  · unfold Orderbook.onDigest
    split
    · exact keeps.digest o
    · rfl
  · unfold Orderbook.onDigest
    split
    · exact keeps.side o
    · rfl
  · unfold Orderbook.onDigest
    split
    · exact keeps.priceTicks o
    · rfl

theorem mem_modifyFirst {queue : List RestingOrder} (member : o ∈ modifyFirst digest f queue) :
    o ∈ queue ∨ ∃ old ∈ queue, o = f old := by
  induction queue with
  | nil => cases member
  | cons first rest ih =>
    unfold modifyFirst at member
    split at member
    · rcases List.mem_cons.mp member with rfl | later
      · exact Or.inr ⟨first, List.mem_cons_self, rfl⟩
      · exact Or.inl (List.mem_cons_of_mem _ later)
    · rcases List.mem_cons.mp member with rfl | later
      · exact Or.inl List.mem_cons_self
      · rcases ih later with old | ⟨old, inside, changed⟩
        · exact Or.inl (List.mem_cons_of_mem _ old)
        · exact Or.inr ⟨old, List.mem_cons_of_mem _ inside, changed⟩

theorem modifyFirst_ne_nil {queue : List RestingOrder} (filled : queue ≠ []) : modifyFirst digest f queue ≠ [] := by
  cases queue with
  | nil => exact absurd rfl filled
  | cons first rest =>
    unfold modifyFirst
    split <;> simp

theorem Levels.Tidy.cons (above : ∀ later ∈ rest, level.price < later.price) (filled : level.queue ≠ [])
    (placed : ∀ o ∈ level.queue, o.side = side ∧ o.priceTicks = level.price) (tidy : Levels.Tidy side rest) :
    Levels.Tidy side (level :: rest) := by
  refine ⟨List.pairwise_cons.mpr ⟨above, tidy.sorted⟩, fun l member => ?_, fun l member => ?_⟩
  · rcases List.mem_cons.mp member with rfl | later
    · exact filled
    · exact tidy.filled l later
  · rcases List.mem_cons.mp member with rfl | later
    · exact placed
    · exact tidy.placed l later

theorem Levels.Tidy.above (tidy : Levels.Tidy side (level :: rest)) : ∀ later ∈ rest, level.price < later.price :=
  (List.pairwise_cons.mp tidy.sorted).1

theorem Levels.Tidy.push (tidy : Levels.Tidy o.side levels) : Levels.Tidy o.side (levels.push o) := by
  induction levels with
  | nil => exact Levels.Tidy.cons (by simp) (by simp) (by simp) tidy
  | cons level rest ih =>
    have placed := tidy.placed level List.mem_cons_self
    unfold Levels.push
    split
    · rename_i below
      refine Levels.Tidy.cons (fun l member => ?_) (by simp) (by simp) tidy
      rcases List.mem_cons.mp member with rfl | later
      · exact below
      · exact Nat.lt_trans below (tidy.above l later)
    · split
      · rename_i same
        refine Levels.Tidy.cons tidy.above (by simp) (fun x queued => ?_) tidy.tail
        rcases List.mem_append.mp queued with early | late
        · exact placed x early
        · rw [List.mem_singleton.mp late]
          exact ⟨rfl, same⟩
      · rename_i notBelow notSame
        refine Levels.Tidy.cons (fun l member => ?_) (tidy.filled level List.mem_cons_self) placed (ih tidy.tail)
        rcases Levels.push_price member with here | ⟨old, inside, same⟩
        · omega
        · rw [← same]
          exact tidy.above old inside

theorem Levels.modifyAt_price {new : Level} (member : new ∈ levels.modifyAt price digest f) :
    ∃ old ∈ levels, old.price = new.price := by
  induction levels with
  | nil => cases member
  | cons first rest ih =>
    unfold Levels.modifyAt at member
    split at member
    · rcases List.mem_cons.mp member with rfl | later
      · exact ⟨first, List.mem_cons_self, rfl⟩
      · exact ⟨new, List.mem_cons_of_mem _ later, rfl⟩
    · rcases List.mem_cons.mp member with rfl | later
      · exact ⟨new, List.mem_cons_self, rfl⟩
      · obtain ⟨old, inside, same⟩ := ih later
        exact ⟨old, List.mem_cons_of_mem _ inside, same⟩

theorem Levels.Tidy.modifyAt (tidy : Levels.Tidy side levels) (keeps : Keeps f) :
    Levels.Tidy side (levels.modifyAt price digest f) := by
  induction levels with
  | nil => exact tidy
  | cons level rest ih =>
    have placed := tidy.placed level List.mem_cons_self
    unfold Levels.modifyAt
    split
    · refine Levels.Tidy.cons tidy.above (modifyFirst_ne_nil (tidy.filled level List.mem_cons_self)) ?_ tidy.tail
      intro o queued
      rcases mem_modifyFirst queued with old | ⟨old, inside, rfl⟩
      · exact placed o old
      · rw [keeps.side, keeps.priceTicks]
        exact placed old inside
    · refine Levels.Tidy.cons (fun l member => ?_) (tidy.filled level List.mem_cons_self) placed (ih tidy.tail)
      obtain ⟨old, inside, same⟩ := Levels.modifyAt_price member
      rw [← same]
      exact tidy.above old inside

theorem Levels.removeAt_price {new : Level} (member : new ∈ levels.removeAt price digest) :
    ∃ old ∈ levels, old.price = new.price := by
  induction levels with
  | nil => cases member
  | cons first rest ih =>
    unfold Levels.removeAt at member
    split at member
    · split at member
      · exact ⟨new, List.mem_cons_of_mem _ member, rfl⟩
      · rcases List.mem_cons.mp member with rfl | later
        · exact ⟨first, List.mem_cons_self, rfl⟩
        · exact ⟨new, List.mem_cons_of_mem _ later, rfl⟩
    · rcases List.mem_cons.mp member with rfl | later
      · exact ⟨new, List.mem_cons_self, rfl⟩
      · obtain ⟨old, inside, same⟩ := ih later
        exact ⟨old, List.mem_cons_of_mem _ inside, same⟩

theorem Levels.Tidy.removeAt (tidy : Levels.Tidy side levels) : Levels.Tidy side (levels.removeAt price digest) := by
  induction levels with
  | nil => exact tidy
  | cons level rest ih =>
    have placed := tidy.placed level List.mem_cons_self
    unfold Levels.removeAt
    split
    · split
      · exact tidy.tail
      · rename_i some
        exact Levels.Tidy.cons tidy.above some (fun o queued => placed o (List.mem_of_mem_filter queued)) tidy.tail
    · refine Levels.Tidy.cons (fun l member => ?_) (tidy.filled level List.mem_cons_self) placed (ih tidy.tail)
      obtain ⟨old, inside, same⟩ := Levels.removeAt_price member
      rw [← same]
      exact tidy.above old inside

end Levels

/-! ### The book -/

namespace Book

def orders (b : Book) : List RestingOrder := b.bids.orders ++ b.asks.orders

/-- Levels and index represent a set of orders, each with its own digest. -/
structure Shaped (b : Book) : Prop where
  tidy : ∀ side, Levels.Tidy side (b.levels side)
  once : (b.orders.map (·.digest)).Nodup
  index : ∀ digest side price, b.index digest = some (side, price) ↔
    ∃ o ∈ b.orders, o.digest = digest ∧ o.side = side ∧ o.priceTicks = price

variable {b : Book} {o : RestingOrder} {digest : Bytes} {f : RestingOrder → RestingOrder} {side : Side} {levels : Levels}

@[simp] theorem levels_withLevels : (b.withLevels side levels).levels side = levels := by
  cases side <;> rfl

theorem levels_withLevels_of_ne {which : Side} (differs : which ≠ side) :
    (b.withLevels side levels).levels which = b.levels which := by
  cases side <;> cases which <;> first | rfl | exact absurd rfl differs

@[simp] theorem index_withLevels : (b.withLevels side levels).index = b.index := by
  cases side <;> rfl

@[simp] theorem market_withLevels : (b.withLevels side levels).market = b.market := by
  cases side <;> rfl

theorem mem_orders : o ∈ b.orders ↔ ∃ side, o ∈ (b.levels side).orders := by
  rw [orders, List.mem_append]
  constructor
  · rintro (bid | ask)
    · exact ⟨.bid, bid⟩
    · exact ⟨.ask, ask⟩
  · rintro ⟨side, member⟩
    cases side with
    | bid => exact Or.inl member
    | ask => exact Or.inr member

theorem Shaped.mem_levels (shaped : b.Shaped) : o ∈ (b.levels side).orders ↔ o ∈ b.orders ∧ o.side = side := by
  constructor
  · intro member
    exact ⟨mem_orders.mpr ⟨side, member⟩, (shaped.tidy side).of_mem member⟩
  · rintro ⟨member, rfl⟩
    obtain ⟨side, inside⟩ := mem_orders.mp member
    rw [(shaped.tidy side).of_mem inside]
    exact inside

theorem Shaped.unique (shaped : b.Shaped) {first second : RestingOrder} (left : first ∈ b.orders)
    (right : second ∈ b.orders) (same : first.digest = second.digest) : first = second :=
  List.inj_on_of_nodup_map shaped.once left right same

theorem Shaped.side_once (shaped : b.Shaped) (side : Side) : ((b.levels side).orders.map (·.digest)).Nodup := by
  have once := shaped.once
  rw [orders, List.map_append, List.nodup_append] at once
  cases side with
  | bid => exact once.1
  | ask => exact once.2.1

theorem Shaped.at (shaped : b.Shaped) {price : Nat} (indexed : b.index digest = some (side, price))
    (which : Side) : (b.levels which).At price digest := by
  intro o member same
  obtain ⟨found, listed, digestEq, -, priceEq⟩ := (shaped.index digest side price).mp indexed
  rw [shaped.unique (mem_orders.mpr ⟨which, member⟩) listed (same.trans digestEq.symm)]
  exact priceEq

theorem Shaped.not_indexed (shaped : b.Shaped) : b.index digest = none ↔ ∀ o ∈ b.orders, o.digest ≠ digest := by
  constructor
  · intro missing o member same
    have indexed := (shaped.index digest o.side o.priceTicks).mpr ⟨o, member, same, rfl, rfl⟩
    rw [missing] at indexed
    cases indexed
  · intro absent
    cases indexed : b.index digest with
    | none => rfl
    | some place =>
      obtain ⟨o, member, same, -⟩ := (shaped.index digest place.1 place.2).mp indexed
      exact absurd same (absent o member)

theorem find_level {price : Nat} (tidy : Levels.Tidy side levels) (member : o ∈ levels.orders)
    (priced : o.priceTicks = price) : ∃ level, levels.find? (·.price = price) = some level ∧ o ∈ level.queue := by
  induction levels with
  | nil => cases member
  | cons level rest ih =>
    by_cases same : level.price = price
    · refine ⟨level, by simp [same], ?_⟩
      rcases List.mem_append.mp member with here | later
      · exact here
      · obtain ⟨other, inside, queued⟩ := Levels.mem_orders.mp later
        have higher := tidy.above other inside
        have placed := (tidy.placed other (List.mem_cons_of_mem _ inside) o queued).2
        omega
    · rw [List.find?_cons_of_neg (by simpa using same)]
      rcases List.mem_append.mp member with here | later
      · have placed := (tidy.placed level List.mem_cons_self o here).2
        exact absurd (placed.symm.trans priced) same
      · exact ih tidy.tail later

theorem Shaped.get_iff (shaped : b.Shaped) : b.get digest = some o ↔ o ∈ b.orders ∧ o.digest = digest := by
  constructor
  · intro found
    unfold get at found
    split at found
    · cases found
    · rename_i side price indexed
      split at found
      · cases found
      · rename_i level located
        refine ⟨mem_orders.mpr ⟨side, Levels.mem_orders.mpr ⟨level, List.mem_of_find?_eq_some located, ?_⟩⟩, ?_⟩
        · exact List.mem_of_find?_eq_some found
        · simpa using List.find?_some found
  · rintro ⟨member, rfl⟩
    have indexed := (shaped.index o.digest o.side o.priceTicks).mpr ⟨o, member, rfl, rfl, rfl⟩
    have listed := shaped.mem_levels.mpr ⟨member, rfl⟩
    obtain ⟨level, located, queued⟩ := find_level (shaped.tidy o.side) listed rfl
    unfold get
    rw [indexed]
    simp only [located]
    cases searched : level.queue.find? (·.digest = o.digest) with
    | none =>
      have missing := List.find?_eq_none.mp searched o queued
      simp at missing
    | some other =>
      have same : other.digest = o.digest := by simpa using List.find?_some searched
      have inside := Levels.mem_orders.mpr
        ⟨level, List.mem_of_find?_eq_some located, List.mem_of_find?_eq_some searched⟩
      rw [shaped.unique (mem_orders.mpr ⟨o.side, inside⟩) member same]

theorem Shaped.get_none (shaped : b.Shaped) : b.get digest = none ↔ ∀ o ∈ b.orders, o.digest ≠ digest := by
  constructor
  · intro missing o member same
    rw [shaped.get_iff.mpr ⟨member, same⟩] at missing
    cases missing
  · intro absent
    cases found : b.get digest with
    | none => rfl
    | some o =>
      obtain ⟨member, same⟩ := shaped.get_iff.mp found
      exact absurd same (absent o member)

/-! ### The market of a book -/

theorem market_modify (b : Book) (digest : Bytes) (f : RestingOrder → RestingOrder) :
    (b.modify digest f).market = b.market := by
  unfold modify
  split
  · rfl
  · exact market_withLevels

theorem market_remove (b : Book) (digest : Bytes) : (b.remove digest).market = b.market := by
  unfold remove
  split
  · rfl
  · exact market_withLevels

theorem market_pruneIfDone (b : Book) (digest : Bytes) : (b.pruneIfDone digest).market = b.market := by
  unfold pruneIfDone
  split
  · rfl
  · split
    · exact market_remove b digest
    · rfl

theorem market_rest (b : Book) (o : RestingOrder) : (b.rest o).market = b.market := market_withLevels

theorem market_applyExternalFill (b : Book) (digest : Bytes) (amount : Nat) :
    (b.applyExternalFill digest amount).market = b.market :=
  (market_pruneIfDone _ _).trans (market_modify _ _ _)

theorem market_settleSuccess (b : Book) (intent : MatchIntent) : (b.settleSuccess intent).market = b.market := by
  simp only [settleSuccess, List.foldl_cons, List.foldl_nil, market_pruneIfDone, market_modify]

theorem market_settleFailed (b : Book) (intent : MatchIntent) (drop : List Bytes) :
    (b.settleFailed intent drop).market = b.market := by
  have kept : ∀ (start : Book), (drop.foldl remove start).market = start.market := by
    induction drop with
    | nil => exact fun _ => rfl
    | cons digest rest ih =>
      intro start
      rw [List.foldl_cons, ih, market_remove]
  simp only [settleFailed, kept, List.foldl_cons, List.foldl_nil, market_modify]

/-! ### Operations on the set of orders -/

theorem Shaped.new (market : Market) : (Book.new market).Shaped :=
  ⟨fun side => by cases side <;> exact Levels.Tidy.nil, List.nodup_nil, fun _ _ _ => by simp [Book.new, orders, Levels.orders]⟩

theorem orders_withLevels (b : Book) (side : Side) (levels : Levels) :
    (b.withLevels side levels).orders.Perm (levels.orders ++ (b.levels side.opposite).orders) := by
  cases side with
  | bid => exact List.Perm.refl _
  | ask => exact List.perm_append_comm

theorem orders_perm (b : Book) (side : Side) :
    b.orders.Perm ((b.levels side).orders ++ (b.levels side.opposite).orders) := by
  cases side with
  | bid => exact List.Perm.refl _
  | ask => exact List.perm_append_comm

theorem opposite_ne (side : Side) : side.opposite ≠ side := by
  cases side <;> simp [Side.opposite]

theorem rest_orders (b : Book) (o : RestingOrder) : (b.rest o).orders.Perm (o :: b.orders) := by
  refine (orders_withLevels _ _ _).trans ?_
  refine ((Levels.push_perm o _).append_right _).trans ?_
  exact List.Perm.cons o (orders_perm b o.side).symm

theorem Shaped.rest (shaped : b.Shaped) (fresh : ∀ other ∈ b.orders, other.digest ≠ o.digest) :
    (b.rest o).Shaped := by
  have perm := rest_orders b o
  refine ⟨fun side => ?_, ?_, fun digest side price => ?_⟩
  · by_cases same : side = o.side
    · subst same
      simp only [Book.rest, levels_withLevels]
      exact (shaped.tidy o.side).push
    · simp only [Book.rest, levels_withLevels_of_ne same]
      exact shaped.tidy side
  · rw [(perm.map _).nodup_iff, List.map_cons, List.nodup_cons]
    refine ⟨fun repeated => ?_, shaped.once⟩
    obtain ⟨other, member, same⟩ := List.mem_map.mp repeated
    exact fresh other member same
  · have indexed : (b.rest o).index = Function.update b.index o.digest (some (o.side, o.priceTicks)) :=
      index_withLevels
    rw [indexed]
    simp only [perm.mem_iff, List.mem_cons]
    by_cases same : digest = o.digest
    · subst same
      rw [Function.update_self]
      constructor
      · intro placed
        cases placed
        exact ⟨o, Or.inl rfl, rfl, rfl, rfl⟩
      · rintro ⟨other, rfl | member, digestEq, rfl, rfl⟩
        · rfl
        · exact absurd digestEq (fresh other member)
    · rw [Function.update_of_ne same, shaped.index]
      constructor
      · rintro ⟨other, member, rest⟩
        exact ⟨other, Or.inr member, rest⟩
      · rintro ⟨other, rfl | member, digestEq, rest⟩
        · exact absurd digestEq.symm same
        · exact ⟨other, member, digestEq, rest⟩

theorem Shaped.modify_orders (shaped : b.Shaped) :
    (b.modify digest f).orders = b.orders.map (onDigest digest f) := by
  unfold modify
  split
  · rename_i missing
    exact (map_onDigest_of_absent (shaped.not_indexed.mp missing)).symm
  · rename_i side price indexed
    have here := Levels.modifyAt_orders (f := f) (shaped.tidy side) (shaped.side_once side) (shaped.at indexed side)
    obtain ⟨o, member, digestEq, sideEq, -⟩ := (shaped.index digest side price).mp indexed
    have other : (b.levels side.opposite).orders.map (onDigest digest f) = (b.levels side.opposite).orders := by
      refine map_onDigest_of_absent fun x inside same => ?_
      have listed := shaped.mem_levels.mp inside
      have identical := shaped.unique listed.1 member (same.trans digestEq.symm)
      rw [identical, sideEq] at listed
      exact opposite_ne side listed.2.symm
    cases side with
    | bid => simp only [orders, withLevels, levels, Side.opposite, List.map_append] at here other ⊢; rw [here, other]
    | ask => simp only [orders, withLevels, levels, Side.opposite, List.map_append] at here other ⊢; rw [here, other]

theorem map_digest_of_keeps (keeps : Keeps f) (orders : List RestingOrder) :
    (orders.map f).map (·.digest) = orders.map (·.digest) := by
  rw [List.map_map]
  exact List.map_congr_left fun o _ => keeps.digest o

/-- A book whose orders changed in place has the same index. -/
theorem Shaped.of_map {next : Book} (shaped : b.Shaped) (keeps : Keeps f) (orders : next.orders = b.orders.map f)
    (index : next.index = b.index) (tidy : ∀ side, Levels.Tidy side (next.levels side)) : next.Shaped := by
  refine ⟨tidy, ?_, fun digest side price => ?_⟩
  · rw [orders, map_digest_of_keeps keeps]
    exact shaped.once
  · rw [index, shaped.index, orders]
    constructor
    · rintro ⟨o, member, digestEq, sideEq, priceEq⟩
      exact ⟨f o, List.mem_map_of_mem member, (keeps.digest o).trans digestEq, (keeps.side o).trans sideEq,
        (keeps.priceTicks o).trans priceEq⟩
    · rintro ⟨o, member, digestEq, sideEq, priceEq⟩
      obtain ⟨old, inside, rfl⟩ := List.mem_map.mp member
      exact ⟨old, inside, (keeps.digest old).symm.trans digestEq, (keeps.side old).symm.trans sideEq,
        (keeps.priceTicks old).symm.trans priceEq⟩

theorem Shaped.modify (shaped : b.Shaped) (keeps : Keeps f) (digest : Bytes) : (b.modify digest f).Shaped := by
  refine shaped.of_map (keeps.onDigest digest) shaped.modify_orders ?_ (fun which => ?_)
  · unfold Book.modify
    split
    · rfl
    · exact index_withLevels
  · unfold Book.modify
    split
    · exact shaped.tidy which
    · rename_i side price indexed
      by_cases same : which = side
      · subst same
        rw [levels_withLevels]
        exact (shaped.tidy which).modifyAt keeps
      · rw [levels_withLevels_of_ne same]
        exact shaped.tidy which

theorem Shaped.remove_orders (shaped : b.Shaped) (digest : Bytes) :
    (b.remove digest).orders = b.orders.filter (·.digest ≠ digest) := by
  unfold remove
  split
  · rename_i missing
    refine (List.filter_eq_self.mpr fun o member => ?_).symm
    exact decide_eq_true (shaped.not_indexed.mp missing o member)
  · rename_i side price indexed
    have here := Levels.removeAt_orders (shaped.tidy side) (shaped.at indexed side)
    obtain ⟨o, member, digestEq, sideEq, -⟩ := (shaped.index digest side price).mp indexed
    have other : (b.levels side.opposite).orders.filter (·.digest ≠ digest) = (b.levels side.opposite).orders := by
      refine List.filter_eq_self.mpr fun x inside => decide_eq_true fun same => ?_
      have listed := shaped.mem_levels.mp inside
      have identical := shaped.unique listed.1 member (same.trans digestEq.symm)
      rw [identical, sideEq] at listed
      exact opposite_ne side listed.2.symm
    cases side with
    | bid => simp only [orders, withLevels, levels, Side.opposite, List.filter_append] at here other ⊢; rw [here, other]
    | ask => simp only [orders, withLevels, levels, Side.opposite, List.filter_append] at here other ⊢; rw [here, other]

theorem Shaped.remove (shaped : b.Shaped) (digest : Bytes) : (b.remove digest).Shaped := by
  have kept := shaped.remove_orders digest
  have indexAfter : (b.remove digest).index = Function.update b.index digest none := by
    unfold Book.remove
    split
    · rename_i missing
      exact (Function.update_eq_self_iff.mpr missing.symm).symm
    · exact index_withLevels
  refine ⟨fun which => ?_, ?_, fun target side price => ?_⟩
  · unfold Book.remove
    split
    · exact shaped.tidy which
    · rename_i side price indexed
      by_cases same : which = side
      · subst same
        rw [levels_withLevels]
        exact (shaped.tidy which).removeAt
      · rw [levels_withLevels_of_ne same]
        exact shaped.tidy which
  · rw [kept]
    exact shaped.once.sublist ((List.filter_sublist).map _)
  · rw [indexAfter, kept]
    by_cases same : target = digest
    · subst same
      rw [Function.update_self]
      constructor
      · intro impossible
        cases impossible
      · rintro ⟨o, member, digestEq, -⟩
        exact absurd digestEq (of_decide_eq_true (List.mem_filter.mp member).2)
    · rw [Function.update_of_ne same, shaped.index]
      constructor
      · rintro ⟨o, member, digestEq, place⟩
        exact ⟨o, List.mem_filter.mpr ⟨member, decide_eq_true (digestEq ▸ same)⟩, digestEq, place⟩
      · rintro ⟨o, member, digestEq, place⟩
        exact ⟨o, List.mem_of_mem_filter member, digestEq, place⟩

end Book

end SuiOptions.Orderbook
