import SuiOptions.Orderbook.Calls

/-! Where a bid and an ask that rest can cross.

An order is placed uncrossed, and what is settled, filled on chain or removed only takes
quantity away. A failed match gives quantity back: only an order it names can be one of
two that cross.
-/

set_option autoImplicit false

namespace SuiOptions.Orderbook

open Exchange Execution

/-- An available bid reaches an available ask. -/
structure Tradable (bid ask : RestingOrder) : Prop where
  buys : bid.side = .bid
  sells : ask.side = .ask
  bidAvailable : 0 < bid.availableBase
  askAvailable : 0 < ask.availableBase
  reaches : ask.priceTicks ≤ bid.priceTicks

structure Wanes (old o : RestingOrder) : Prop where
  digest : o.digest = old.digest
  side : o.side = old.side
  priceTicks : o.priceTicks = old.priceTicks
  available : o.availableBase ≤ old.availableBase

section Wanes

variable {o old bid ask : RestingOrder} {f : RestingOrder → RestingOrder}

theorem Wanes.refl (o : RestingOrder) : Wanes o o := ⟨rfl, rfl, rfl, le_refl _⟩

theorem Wanes.trans {last : RestingOrder} (first : Wanes old o) (second : Wanes o last) : Wanes old last :=
  ⟨second.digest.trans first.digest, second.side.trans first.side, second.priceTicks.trans first.priceTicks,
    second.available.trans first.available⟩

theorem Wanes.lock (o : RestingOrder) (qty : Nat) : Wanes o (o.lock qty) :=
  ⟨rfl, rfl, rfl, by rw [lock_available]; exact Nat.sub_le _ _⟩

theorem Wanes.onDigest (keeps : Keeps f) (wanes : ∀ o, (f o).availableBase ≤ o.availableBase) (digest : Bytes)
    (o : RestingOrder) : Wanes o (onDigest digest f o) := by
  unfold Orderbook.onDigest
  split
  · exact ⟨keeps.digest o, keeps.side o, keeps.priceTicks o, wanes o⟩
  · exact Wanes.refl o

theorem Tradable.of_wanes {oldBid oldAsk : RestingOrder} (crossing : Tradable bid ask) (bidWanes : Wanes oldBid bid)
    (askWanes : Wanes oldAsk ask) : Tradable oldBid oldAsk where
  buys := bidWanes.side.symm.trans crossing.buys
  sells := askWanes.side.symm.trans crossing.sells
  bidAvailable := lt_of_lt_of_le crossing.bidAvailable bidWanes.available
  askAvailable := lt_of_lt_of_le crossing.askAvailable askWanes.available
  reaches := by
    rw [← bidWanes.priceTicks, ← askWanes.priceTicks]
    exact crossing.reaches

end Wanes

theorem consume_available (amount : Nat) (o : RestingOrder) : (Book.consume amount o).availableBase ≤ o.availableBase := by
  simp only [Book.consume, RestingOrder.availableBase]
  omega

theorem shrink_available (amount : Nat) (o : RestingOrder) : (Book.shrink amount o).availableBase ≤ o.availableBase := by
  simp only [Book.shrink, RestingOrder.availableBase]
  omega

def Frees (digest : Bytes) : BookCall → Prop
  | .settleFailed intent _ => intent.names digest = true
  | _ => False

namespace Book

variable {b next : Book} {digest : Bytes} {f : RestingOrder → RestingOrder} {o : RestingOrder}

def Follows (b next : Book) (freed : Bytes → Prop) : Prop :=
  ∀ o ∈ next.orders, freed o.digest ∨ ∃ old ∈ b.orders, Wanes old o

def Excused (b : Book) (freed : Bytes → Prop) : Prop :=
  ∀ bid ∈ b.orders, ∀ ask ∈ b.orders, Tradable bid ask → freed bid.digest ∨ freed ask.digest

theorem Excused.follows {freed more : Bytes → Prop} (excused : b.Excused freed) (follows : Follows b next more) :
    next.Excused fun digest => freed digest ∨ more digest := by
  intro bid bidIn ask askIn crossing
  rcases follows bid bidIn with freed | ⟨oldBid, oldBidIn, bidWanes⟩
  · exact Or.inl (Or.inr freed)
  rcases follows ask askIn with freed | ⟨oldAsk, oldAskIn, askWanes⟩
  · exact Or.inr (Or.inr freed)
  rw [bidWanes.digest, askWanes.digest]
  exact (excused oldBid oldBidIn oldAsk oldAskIn (crossing.of_wanes bidWanes askWanes)).imp Or.inl Or.inl

section Calls

variable (shaped : b.Shaped)

include shaped

theorem follows_change (keeps : Keeps f) (wanes : ∀ o, (f o).availableBase ≤ o.availableBase) (digest : Bytes) :
    Follows b ((b.modify digest f).pruneIfDone digest) fun _ => False := by
  intro o member
  obtain ⟨old, inside, rfl, -⟩ := ((shaped.modify_prune keeps digest).2 o).mp member
  exact Or.inr ⟨old, inside, Wanes.onDigest keeps wanes digest old⟩

theorem follows_settleSuccess (intent : MatchIntent) : Follows b (b.settleSuccess intent) fun _ => False := by
  have keeps := consume_keeps intent.fillBaseAmount
  have wanes := consume_available intent.fillBaseAmount
  intro o member
  have middle := (shaped.modify_prune keeps intent.askDigest).1
  rcases follows_change middle keeps wanes intent.bidDigest o member with impossible | ⟨half, inside, last⟩
  · exact impossible.elim
  rcases follows_change shaped keeps wanes intent.askDigest half inside with impossible | ⟨old, was, first⟩
  · exact impossible.elim
  · exact Or.inr ⟨old, was, first.trans last⟩

theorem follows_removeAll (drop : List Bytes) : Follows b (drop.foldl Book.remove b) fun _ => False := by
  intro o member
  exact Or.inr ⟨o, (((shaped.removeAll drop).2 o).mp member).1, Wanes.refl o⟩

/-- A failed match gives back to the orders it names only. -/
theorem follows_release (amount : Nat) (digest : Bytes) : Follows b (b.modify digest (release amount)) (· = digest) := by
  intro o member
  rw [shaped.modify_orders] at member
  obtain ⟨old, inside, rfl⟩ := List.mem_map.mp member
  by_cases named : old.digest = digest
  · exact Or.inl (((release_keeps amount).onDigest digest).digest old |>.trans named)
  · refine Or.inr ⟨old, inside, ?_⟩
    rw [onDigest, if_neg named]
    exact Wanes.refl old

theorem follows_settleFailed (intent : MatchIntent) (drop : List Bytes) :
    Follows b (b.settleFailed intent drop) fun digest => intent.names digest = true := by
  have keeps := release_keeps intent.fillBaseAmount
  have first := shaped.modify keeps intent.askDigest
  have second := first.modify keeps intent.bidDigest
  intro o member
  rcases follows_removeAll second drop o member with impossible | ⟨late, lateIn, dropped⟩
  · exact impossible.elim
  rcases follows_release first intent.fillBaseAmount intent.bidDigest late lateIn with bid | ⟨half, halfIn, last⟩
  · exact Or.inl (decide_eq_true (Or.inr (bid.symm.trans dropped.digest.symm)))
  rcases follows_release shaped intent.fillBaseAmount intent.askDigest half halfIn with ask | ⟨old, was, early⟩
  · exact Or.inl (decide_eq_true (Or.inl (ask.symm.trans (last.digest.symm.trans dropped.digest.symm))))
  · exact Or.inr ⟨old, was, (early.trans last).trans dropped⟩

theorem follows_rematch (digest : Bytes) : Follows b (b.rematch digest).2 fun _ => False := by
  intro o member
  obtain ⟨old, inside, rfl⟩ := ((shaped.rematch digest).orders o).mp member
  exact Or.inr ⟨old, inside, Wanes.lock old _⟩

theorem Excused.place {order : Order} {outcome : PlaceOutcome} {intents : List MatchIntent} {freed : Bytes → Prop}
    (excused : b.Excused freed) (ran : b.place digest order = .ok (outcome, intents, next)) : next.Excused freed := by
  obtain ⟨side, price, size, middle, final, selfTrade, unindexed, -, matching, ends⟩ := place_ok ran
  have fresh : ∀ o ∈ ({ b with nextSeq := b.nextSeq + 1 } : Book).orders,
      o.digest ≠ (⟨digest, order.maker, side, price, size, 0, b.nextSeq⟩ : RestingOrder).digest :=
    shaped.not_indexed.mp unindexed
  have counted := shaped.nextSeq (b.nextSeq + 1)
  have matched := counted.matchIncoming fresh matching
  have follows : Follows b middle fun _ => False := by
    intro o member
    rw [matched.orders] at member
    obtain ⟨old, inside, rfl⟩ := List.mem_map.mp member
    exact Or.inr ⟨old, inside, Wanes.lock old _⟩
  have among : middle.Excused freed := by
    intro bid bidIn ask askIn crossing
    exact ((excused.follows follows) bid bidIn ask askIn crossing).imp (·.elim id False.elim) (·.elim id False.elim)
  rcases ends with ⟨rfl, -⟩ | ⟨kept, rfl, which⟩
  · exact among
  have mine : kept.side = side ∧ kept.priceTicks = price := by
    rcases which with ⟨-, rfl⟩ | ⟨-, rfl⟩ <;> rw [matched.final] <;> exact ⟨rfl, rfl⟩
  have apart : 0 < kept.availableBase → ∀ o ∈ middle.orders, o.side = side.opposite → 0 < o.availableBase →
      (side = .ask → o.priceTicks < price) ∧ (side = .bid → price < o.priceTicks) := by
    intro some o member opposite available
    rcases which with ⟨rfl, rfl⟩ | ⟨-, rfl⟩
    · exact crosses_false (matchIncoming_exhausts counted fresh matching (by omega) o member opposite available)
    · simp [RestingOrder.availableBase] at some
  intro bid bidIn ask askIn crossing
  obtain ⟨buys, sells, bidAvailable, askAvailable, reaches⟩ := crossing
  rw [(rest_orders middle kept).mem_iff, List.mem_cons] at bidIn askIn
  rcases bidIn with rfl | bidIn
  · rcases askIn with rfl | askIn
    · exact absurd (buys.symm.trans sells) (by decide)
    · have buying : side = .bid := mine.1.symm.trans buys
      have above := (apart bidAvailable ask askIn (by rw [sells, buying]; rfl) askAvailable).2 buying
      omega
  · rcases askIn with rfl | askIn
    · have selling : side = .ask := mine.1.symm.trans sells
      have below := (apart askAvailable bid bidIn (by rw [buys, selling]; rfl) bidAvailable).1 selling
      omega
    · exact among bid bidIn ask askIn ⟨buys, sells, bidAvailable, askAvailable, reaches⟩

theorem Excused.call {freed : Bytes → Prop} (excused : b.Excused freed) (what : BookCall) :
    (b.call what).1.Excused fun digest => freed digest ∨ Frees digest what := by
  cases what with
  | place digest order =>
    have weaker : ∀ {next : Book}, next.Excused freed →
        next.Excused fun other => freed other ∨ Frees other (.place digest order) :=
      fun kept bid bidIn ask askIn crossing => (kept bid bidIn ask askIn crossing).imp Or.inl Or.inl
    simp only [Book.call]
    split
    · exact weaker excused
    · rename_i ran
      exact weaker (excused.place shaped ran)
  | settleSuccess intent => exact excused.follows (follows_settleSuccess shaped intent)
  | settleFailed intent drop => exact excused.follows (follows_settleFailed shaped intent drop)
  | applyExternalFill digest amount =>
    exact excused.follows (follows_change shaped (shrink_keeps amount) (shrink_available amount) digest)
  | remove digest => exact excused.follows (follows_removeAll shaped [digest])
  | rematch digest => exact excused.follows (follows_rematch shaped digest)

end Calls

theorem Excused.exec {calls : List BookCall} {freed : Bytes → Prop} (sound : b.Sound) (excused : b.Excused freed)
    (ran : exec step b calls = .ok next) :
    next.Excused fun digest => freed digest ∨ ∃ what ∈ calls, Frees digest what := by
  induction calls generalizing b freed with
  | nil =>
    cases ran
    exact fun bid bidIn ask askIn crossing => (excused bid bidIn ask askIn crossing).imp Or.inl Or.inl
  | cons what rest ih =>
    obtain ⟨middle, moved, tail⟩ := (exec_cons_ok step).mp ran
    cases moved
    have later := ih (sound.call what) (excused.call sound.shaped what) tail
    have earlier : ∀ digest, ((freed digest ∨ Frees digest what) ∨ ∃ what ∈ rest, Frees digest what) →
        freed digest ∨ ∃ other ∈ what :: rest, Frees digest other := by
      rintro digest ((was | now) | ⟨other, inside, frees⟩)
      · exact Or.inl was
      · exact Or.inr ⟨what, List.mem_cons_self, now⟩
      · exact Or.inr ⟨other, List.mem_cons_of_mem _ inside, frees⟩
    exact fun bid bidIn ask askIn crossing => (later bid bidIn ask askIn crossing).imp (earlier _) (earlier _)

/-- Whatever the calls, two resting orders cross only after a match of one of them has failed. -/
theorem crossing_after_failure (market : Market) (policy : SelfTradePolicy) {calls : List BookCall} {b : Book}
    (ran : exec step (start market policy) calls = .ok b) :
    ∀ bid ∈ b.orders, ∀ ask ∈ b.orders, Tradable bid ask →
      ∃ intent drop, .settleFailed intent drop ∈ calls ∧
        (intent.names bid.digest = true ∨ intent.names ask.digest = true) := by
  have empty : (start market policy).Excused fun _ => False := by
    intro bid bidIn
    simp [Book.start, Book.new, Book.orders, Levels.orders] at bidIn
  have named : ∀ {digest : Bytes}, (False ∨ ∃ what ∈ calls, Frees digest what) →
      ∃ intent drop, .settleFailed intent drop ∈ calls ∧ intent.names digest = true := by
    rintro digest (impossible | ⟨what, inside, frees⟩)
    · exact impossible.elim
    · cases what with
      | settleFailed intent drop => exact ⟨intent, drop, inside, frees⟩
      | _ => exact frees.elim
  intro bid bidIn ask askIn crossing
  rcases empty.exec (Sound.start market policy) ran bid bidIn ask askIn crossing with freed | freed
  · obtain ⟨intent, drop, inside, names⟩ := named freed
    exact ⟨intent, drop, inside, Or.inl names⟩
  · obtain ⟨intent, drop, inside, names⟩ := named freed
    exact ⟨intent, drop, inside, Or.inr names⟩

/-- A match fails and nothing is matched again: its orders cross. -/
theorem crossing_after_failed_match :
    ∃ b, exec step (start Flight.Sample.market .cancelNewest)
        [.place [1] (Flight.Sample.ask 1 10), .place [2] (Flight.Sample.bid 2 4),
          .settleFailed ⟨1, [1], [2], 4, 1⟩ []] = .ok b ∧
      b.orders.map (fun o => (o.digest, o.availableBase)) = [([2], 4), ([1], 10)] ∧
      ∀ bid ∈ b.orders, ∀ ask ∈ b.orders, Tradable bid ask →
        ∃ intent drop, BookCall.settleFailed intent drop ∈
            [.place [1] (Flight.Sample.ask 1 10), .place [2] (Flight.Sample.bid 2 4),
              .settleFailed ⟨1, [1], [2], 4, 1⟩ []] ∧
          (intent.names bid.digest = true ∨ intent.names ask.digest = true) :=
  exists_ok (fun b => decide (b.orders.map (fun o => (o.digest, o.availableBase)) = [([2], 4), ([1], 10)]))
    (by decide +kernel)
    (fun _ ran left => ⟨of_decide_eq_true left, crossing_after_failure Flight.Sample.market .cancelNewest ran⟩)

end Book

end SuiOptions.Orderbook
