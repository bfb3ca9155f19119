import SuiOptions.Orderbook.Calls

/-! Where self-trade prevention cuts an arriving order.

Matching takes the available quantity of the crossing orders, best price first
and first in first out. It stops at an order of the arriving order's own maker
when what lies ahead does not satisfy the arriving order, and only then is the
unmatched part dropped.
-/

set_option autoImplicit false

namespace SuiOptions.Orderbook

open Exchange

def available (orders : List RestingOrder) : Nat := (orders.map (·.availableBase)).sum

@[simp] theorem available_nil : available [] = 0 := rfl

@[simp] theorem available_cons (o : RestingOrder) (rest : List RestingOrder) :
    available (o :: rest) = o.availableBase + available rest := rfl

@[simp] theorem available_append (first second : List RestingOrder) :
    available (first ++ second) = available first + available second := by
  simp [available]

/-- One of the orders, with something available, is the maker's own, and the orders ahead of it
have less than is wanted. -/
def ReachesOwn (maker : Address) (wanted : Nat) (orders : List RestingOrder) : Prop :=
  ∃ ahead own behind, orders = ahead ++ own :: behind ∧ own.maker = maker ∧ 0 < own.availableBase ∧
    available ahead < wanted

section Reaching

variable {maker : Address} {wanted : Nat} {orders first second : List RestingOrder} {o : RestingOrder}

theorem not_reachesOwn_nil : ¬ ReachesOwn maker wanted [] := by
  rintro ⟨ahead, own, behind, split, -⟩
  exact List.append_ne_nil_of_right_ne_nil ahead (List.cons_ne_nil own behind) split.symm

theorem reachesOwn_cons : ReachesOwn maker wanted (o :: orders) ↔
    o.maker = maker ∧ 0 < o.availableBase ∧ 0 < wanted ∨ ReachesOwn maker (wanted - o.availableBase) orders := by
  constructor
  · rintro ⟨ahead, own, behind, split, mine, some, short⟩
    cases ahead with
    | nil =>
      cases split
      exact Or.inl ⟨mine, some, short⟩
    | cons other ahead =>
      cases split
      rw [available_cons] at short
      exact Or.inr ⟨ahead, own, behind, rfl, mine, some, by omega⟩
  · rintro (⟨mine, some, short⟩ | ⟨ahead, own, behind, rfl, mine, some, short⟩)
    · exact ⟨[], o, orders, rfl, mine, some, short⟩
    · exact ⟨o :: ahead, own, behind, rfl, mine, some, by rw [available_cons]; omega⟩

theorem reachesOwn_append : ReachesOwn maker wanted (first ++ second) ↔
    ReachesOwn maker wanted first ∨ ReachesOwn maker (wanted - available first) second := by
  induction first generalizing wanted with
  | nil => simp [not_reachesOwn_nil]
  | cons o rest ih => rw [List.cons_append, reachesOwn_cons, reachesOwn_cons, ih, available_cons, or_assoc, Nat.sub_sub]

theorem ReachesOwn.exists (reaches : ReachesOwn maker wanted orders) :
    ∃ o ∈ orders, o.maker = maker ∧ 0 < o.availableBase ∧ 0 < wanted := by
  obtain ⟨ahead, own, behind, rfl, mine, some, short⟩ := reaches
  exact ⟨own, List.mem_append_right _ List.mem_cons_self, mine, some, by omega⟩

end Reaching

section Walks

variable {registry : ID} {policy : SelfTradePolicy} {price : Nat} {incoming : RestingOrder} {queue : List RestingOrder}
  {levels : Levels}

/-- A walk over a queue stops at an own order that it reaches, with something left; else it
takes all that is there, or all it wants. -/
theorem matchQueue_selfTrade :
    ((matchQueue registry policy price incoming queue).selfTrade = true ↔
      policy = .cancelNewest ∧ ReachesOwn incoming.maker incoming.availableBase queue) ∧
    ((matchQueue registry policy price incoming queue).selfTrade = true →
      0 < (matchQueue registry policy price incoming queue).incoming.availableBase) ∧
    ((matchQueue registry policy price incoming queue).selfTrade = false →
      (matchQueue registry policy price incoming queue).incoming.availableBase =
        incoming.availableBase - available queue) := by
  induction queue generalizing incoming with
  | nil => exact ⟨by simp [matchQueue, not_reachesOwn_nil], by simp [matchQueue], by simp [matchQueue]⟩
  | cons resting rest ih =>
    rw [reachesOwn_cons, available_cons]
    by_cases satisfied : incoming.availableBase = 0
    · rw [matchQueue_satisfied satisfied]
      refine ⟨?_, by simp, fun _ => by rw [satisfied, Nat.zero_sub]⟩
      simp only [Bool.false_eq_true, false_iff, not_and]
      rintro - (⟨-, -, wanted⟩ | later)
      · omega
      · obtain ⟨_, _, _, _, wanted⟩ := later.exists
        omega
    · by_cases idle : resting.availableBase = 0
      · rw [matchQueue_idle satisfied idle, idle]
        simpa using ih
      · by_cases own : resting.maker = incoming.maker ∧ policy = .cancelNewest
        · rw [matchQueue_own satisfied idle own]
          have wanted := Nat.pos_of_ne_zero satisfied
          exact ⟨by simp [own, Nat.pos_of_ne_zero idle, wanted], fun _ => wanted, by simp⟩
        · rw [matchQueue_take satisfied idle own rfl]
          have left : (incoming.lock (min incoming.availableBase resting.availableBase)).availableBase =
              incoming.availableBase - resting.availableBase := by
            rw [lock_available]
            omega
          have later : _ ∧ _ ∧ _ := @ih (incoming.lock (min incoming.availableBase resting.availableBase))
          rw [left] at later
          refine ⟨later.1.trans (and_congr_right fun prevents => ?_), later.2.1, fun unstopped => ?_⟩
          · refine (or_iff_right fun here => own ⟨here.1, prevents⟩).symm
          · rw [later.2.2 unstopped, Nat.sub_sub]

theorem available_eq_zero {orders : List RestingOrder} (idle : ∀ o ∈ orders, o.availableBase = 0) : available orders = 0 := by
  rw [available, List.sum_eq_zero]
  rintro _ listed
  obtain ⟨o, member, rfl⟩ := List.mem_map.mp listed
  exact idle o member

def crossedBy (incoming : RestingOrder) (levels : Levels) : List RestingOrder :=
  Levels.orders (levels.filter fun level => crosses incoming level.price)

theorem crossedBy_cons (incoming : RestingOrder) (level : Level) (rest : Levels) :
    crossedBy incoming (level :: rest) =
      (if crosses incoming level.price = true then level.queue else []) ++ crossedBy incoming rest := by
  unfold crossedBy
  rw [List.filter_cons]
  split
  · rw [Levels.orders_cons]
  · rfl

@[simp] theorem crossedBy_lock (incoming : RestingOrder) (qty : Nat) (levels : Levels) :
    crossedBy (incoming.lock qty) levels = crossedBy incoming levels := rfl

theorem matchLevels_selfTrade :
    ((matchLevels registry policy incoming levels).selfTrade = true ↔
      policy = .cancelNewest ∧ ReachesOwn incoming.maker incoming.availableBase (crossedBy incoming levels)) ∧
    ((matchLevels registry policy incoming levels).selfTrade = true →
      0 < (matchLevels registry policy incoming levels).incoming.availableBase) ∧
    ((matchLevels registry policy incoming levels).selfTrade = false →
      (matchLevels registry policy incoming levels).incoming.availableBase =
        incoming.availableBase - available (crossedBy incoming levels)) := by
  induction levels generalizing incoming with
  | nil =>
    have none : crossedBy incoming [] = [] := rfl
    exact ⟨by simp [matchLevels, none, not_reachesOwn_nil], by simp [matchLevels], by simp [matchLevels, none]⟩
  | cons level rest ih =>
    rw [crossedBy_cons, reachesOwn_append, available_append]
    -- the order is filled: no level is visited any more
    by_cases satisfied : incoming.availableBase = 0
    · rw [matchLevels_satisfied satisfied, satisfied, Nat.zero_sub, Nat.zero_sub]
      refine ⟨?_, by simp, fun _ => rfl⟩
      simp only [Bool.false_eq_true, false_iff, not_and]
      rintro - (here | later)
      · obtain ⟨_, _, _, _, wanted⟩ := here.exists
        omega
      · obtain ⟨_, _, _, _, wanted⟩ := later.exists
        omega
    · -- a level that does not cross, or has nothing available, is passed
      by_cases skipped : crosses incoming level.price = false ∨ level.queue.all (·.availableBase = 0) = true
      · rw [matchLevels_skip satisfied skipped]
        have nothing : available (if crosses incoming level.price = true then level.queue else []) = 0 ∧
            ¬ ReachesOwn incoming.maker incoming.availableBase
              (if crosses incoming level.price = true then level.queue else []) := by
          split
          · rename_i crossing
            have idle : ∀ o ∈ level.queue, o.availableBase = 0 := by simpa [crossing] using skipped
            refine ⟨available_eq_zero idle, fun reached => ?_⟩
            obtain ⟨o, member, -, some, -⟩ := reached.exists
            have none := idle o member
            omega
          · exact ⟨rfl, not_reachesOwn_nil⟩
        rw [nothing.1, Nat.zero_add, Nat.sub_zero, or_iff_right nothing.2]
        exact ih
      · have crossing : crosses incoming level.price = true := by
          by_contra missed
          exact skipped (Or.inl (by simpa using missed))
        rw [if_pos crossing]
        generalize walk : matchQueue registry policy level.price incoming level.queue = here
        have queue := @matchQueue_selfTrade registry policy level.price incoming level.queue
        rw [walk] at queue
        cases stopped : here.selfTrade with
        -- the walk stops at an own order of this level
        | true =>
          rw [matchLevels_stop satisfied skipped walk stopped]
          obtain ⟨prevents, reached⟩ := queue.1.mp stopped
          exact ⟨⟨fun _ => ⟨prevents, Or.inl reached⟩, fun _ => rfl⟩, fun _ => queue.2.1 stopped, by simp⟩
        -- the level is used up, and the rest is matched against the next one
        | false =>
          rw [matchLevels_pass satisfied skipped walk stopped]
          have left := queue.2.2 stopped
          obtain ⟨total, locked⟩ : ∃ total, here.incoming = incoming.lock total := walk ▸ matchQueue_locks
          have later : _ ∧ _ ∧ _ := @ih here.incoming
          rw [left] at later
          simp only [locked, crossedBy_lock] at later ⊢
          refine ⟨later.1.trans (and_congr_right fun prevents => ?_), later.2.1, fun unstopped => ?_⟩
          · refine (or_iff_right fun reached => ?_).symm
            cases stopped.symm.trans (queue.1.mpr ⟨prevents, reached⟩)
          · rw [later.2.2 unstopped, Nat.sub_sub]

end Walks

namespace Book

variable {b next : Book} {digest : Bytes} {order : Order} {side : Side} {price size : Nat}

/-- The order that `place` takes to the book. -/
def arriving (b : Book) (digest : Bytes) (order : Order) (side : Side) (price size : Nat) : RestingOrder :=
  ⟨digest, order.maker, side, price, size, 0, b.nextSeq⟩

/-- The resting orders that an arriving order crosses, best price first and first in first out. -/
def crossed (b : Book) (incoming : RestingOrder) : List RestingOrder :=
  crossedBy incoming (bestFirst incoming.side.opposite (b.levels incoming.side.opposite))

def signedBase (b : Book) (order : Order) : Nat :=
  match priceAndSize b.market order with
  | .ok (_, _, size) => size
  | .error _ => 0

def SelfTrades (b : Book) (digest : Bytes) (order : Order) : Prop :=
  b.selfTradePolicy = .cancelNewest ∧ ∃ side price size, priceAndSize b.market order = .ok (side, price, size) ∧
    ReachesOwn order.maker size (b.crossed (b.arriving digest order side price size))

theorem crossed_orders {incoming : RestingOrder} : ∀ o ∈ b.crossed incoming, o ∈ b.orders := by
  intro o member
  obtain ⟨level, listed, queued⟩ := Levels.mem_orders.mp member
  exact mem_orders.mpr ⟨_, Levels.mem_orders.mpr ⟨level, bestFirst_mem.mp (List.mem_of_mem_filter listed), queued⟩⟩

theorem not_selfTrades (foreign : ∀ o ∈ b.orders, o.maker ≠ order.maker) : ¬ b.SelfTrades digest order := by
  rintro ⟨-, side, price, size, -, reached⟩
  obtain ⟨o, member, mine, -⟩ := reached.exists
  exact foreign o (crossed_orders o member) mine

theorem matchIncoming_selfTrade {incoming final : RestingOrder} {intents : List MatchIntent} {selfTrade : Bool}
    (ran : b.matchIncoming incoming = (next, final, intents, selfTrade)) :
    (selfTrade = true ↔ b.selfTradePolicy = .cancelNewest ∧
      ReachesOwn incoming.maker incoming.availableBase (b.crossed incoming)) ∧
    (selfTrade = true → 0 < final.availableBase) := by
  cases ran
  exact ⟨matchLevels_selfTrade.1, matchLevels_selfTrade.2.1⟩

theorem mem_rest_iff {kept o : RestingOrder} (fresh : ∀ o ∈ b.orders, o.digest ≠ digest) (named : o.digest = digest) :
    o ∈ (b.rest kept).orders ↔ o = kept := by
  rw [(rest_orders b kept).mem_iff, List.mem_cons]
  exact or_iff_left fun old => fresh o old named

/-- A placed order rests with the size it was signed for, unless self-trade prevention cuts it. -/
theorem Shaped.place_size {outcome : PlaceOutcome} {intents : List MatchIntent} (shaped : b.Shaped)
    (ran : b.place digest order = .ok (outcome, intents, next)) :
    (∀ o ∈ next.orders, o.digest = digest → o.remainingBase ≤ b.signedBase order) ∧
      ((∃ o ∈ next.orders, o.digest = digest ∧ o.remainingBase = b.signedBase order) ↔ ¬ b.SelfTrades digest order) := by
  unfold Book.place at ran
  split at ran
  · cases ran
  rename_i unindexed
  split at ran
  · cases ran
  rename_i side price size priced
  have signed : b.signedBase order = size := by rw [signedBase, priced]
  have positive := priceAndSize_pos priced
  generalize matching : Book.matchIncoming { b with nextSeq := b.nextSeq + 1 }
    ⟨digest, order.maker, side, price, size, 0, b.nextSeq⟩ = result at ran
  obtain ⟨middle, final, emitted, selfTrade⟩ := result
  have fresh : ∀ o ∈ ({ b with nextSeq := b.nextSeq + 1 } : Book).orders,
      o.digest ≠ (⟨digest, order.maker, side, price, size, 0, b.nextSeq⟩ : RestingOrder).digest :=
    shaped.not_indexed.mp (by simpa using unindexed)
  have matched := (shaped.nextSeq (b.nextSeq + 1)).matchIncoming fresh matching
  have whole : final.remainingBase = size := by rw [matched.final]; rfl
  have unlisted : ∀ o ∈ middle.orders, o.digest ≠ digest := by
    intro o member
    rw [matched.orders] at member
    obtain ⟨old, listed, rfl⟩ := List.mem_map.mp member
    exact fresh old listed
  have named : final.digest = digest := by rw [matched.final]; rfl
  obtain ⟨stops, left⟩ := matchIncoming_selfTrade matching
  have cut : b.SelfTrades digest order ↔ selfTrade = true := by
    rw [stops]
    refine and_congr_right fun _ => ⟨?_, fun reached => ⟨side, price, size, priced, ?_⟩⟩
    · rintro ⟨_, _, _, same, reached⟩
      cases priced.symm.trans same
      cases side <;> exact reached
    · cases side <;> exact reached
  rw [signed, cut]
  rcases (conclude_ok (Except.ok.inj ran)).2 with ⟨rfl, ends⟩ | ⟨rfl, ends⟩
  · -- what was not matched is dropped, and there was something
    have short : final.pendingBase < size := by
      have some := left rfl
      simp only [RestingOrder.availableBase] at some
      omega
    rcases ends with ⟨rfl, nothing⟩ | ⟨-, rfl⟩
    · refine ⟨fun o member same => absurd same (unlisted o member), ?_⟩
      simp only [not_true_eq_false, iff_false, not_exists, not_and]
      exact fun o member same => absurd same (unlisted o member)
    · refine ⟨fun o member same => ?_, ?_⟩
      · rw [(mem_rest_iff unlisted same).mp member]
        exact Nat.le_of_lt short
      · simp only [not_true_eq_false, iff_false, not_exists, not_and]
        intro o member same
        rw [(mem_rest_iff unlisted same).mp member]
        exact Nat.ne_of_lt short
  · rcases ends with ⟨rfl, satisfied, nothing⟩ | rfl
    · simp only [RestingOrder.availableBase] at satisfied
      omega
    · refine ⟨fun o member same => ?_, ?_⟩
      · rw [(mem_rest_iff unlisted same).mp member, whole]
      · simp only [Bool.false_eq_true, not_false_eq_true, iff_true]
        exact ⟨final, (mem_rest_iff unlisted named).mpr rfl, named, whole⟩

end Book

end SuiOptions.Orderbook
