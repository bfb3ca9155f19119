import SuiOptions.Orderbook.Matching
import SuiOptions.Lib.Sums
import SuiOptions.Lib.Execution

/-! Quantity in flight.

The book keeps one counter of pending quantity per order; the intents it stands
for live in the settlement queue. A `Flight` is a book with the intents that
have been emitted and not yet resolved.
-/

set_option autoImplicit false

namespace SuiOptions.Orderbook

open Exchange Execution

structure Flight where
  book : Book
  inFlight : List MatchIntent

inductive Op where
  | place (digest : Bytes) (order : Order)
  | rematch (digest : Bytes)
  | settleSuccess (which : Nat)
  | settleFailed (which : Nat) (drop : List Bytes)
  | applyExternalFill (digest : Bytes) (baseAmount : Nat)
  | remove (digest : Bytes)

namespace Flight

/-- An intent leaves the queue when it is resolved, so it is resolved once. -/
def step (s : Flight) : Op → Except BookError Flight
  | .place digest order =>
    match s.book.place digest order with
    | .error why => .error why
    | .ok (_, intents, book) => .ok ⟨book, s.inFlight ++ intents⟩
  | .rematch digest => .ok ⟨(s.book.rematch digest).2, s.inFlight ++ (s.book.rematch digest).1⟩
  | .settleSuccess which =>
    match s.inFlight[which]? with
    | none => .ok s
    | some intent => .ok ⟨s.book.settleSuccess intent, s.inFlight.eraseIdx which⟩
  | .settleFailed which drop =>
    match s.inFlight[which]? with
    | none => .ok s
    | some intent => .ok ⟨s.book.settleFailed intent drop, s.inFlight.eraseIdx which⟩
  | .applyExternalFill digest baseAmount => .ok { s with book := s.book.applyExternalFill digest baseAmount }
  | .remove digest => .ok { s with book := s.book.remove digest }

/-- The base quantity of a digest in unresolved intents. -/
def unresolved (s : Flight) (digest : Bytes) : Nat := share s.inFlight digest

end Flight

namespace Book

variable {b : Book} {digest : Bytes} {f : RestingOrder → RestingOrder} {o : RestingOrder}

/-! ### Changes in place, followed by pruning -/

def Done (o : RestingOrder) : Prop := o.remainingBase = 0 ∧ o.pendingBase = 0

instance (o : RestingOrder) : Decidable (Done o) := inferInstanceAs (Decidable (_ ∧ _))

theorem Shaped.pruneIfDone (shaped : b.Shaped) (digest : Bytes) :
    (b.pruneIfDone digest).Shaped ∧
      ∀ o, o ∈ (b.pruneIfDone digest).orders ↔ o ∈ b.orders ∧ ¬ (o.digest = digest ∧ Done o) := by
  unfold Book.pruneIfDone
  split
  · rename_i missing
    have absent := shaped.get_none.mp missing
    refine ⟨shaped, fun o => ⟨fun member => ⟨member, fun done => absent o member done.1⟩, And.left⟩⟩
  · rename_i found located
    obtain ⟨member, same⟩ := shaped.get_iff.mp located
    split
    · rename_i done
      refine ⟨shaped.remove digest, fun o => ?_⟩
      rw [shaped.remove_orders, List.mem_filter]
      refine and_congr_right fun listed => ?_
      constructor
      · intro kept out
        exact absurd out.1 (of_decide_eq_true kept)
      · intro kept
        refine decide_eq_true fun repeated => kept ⟨repeated, ?_⟩
        rw [shaped.unique listed member (repeated.trans same.symm)]
        exact done
    · rename_i busy
      refine ⟨shaped, fun o => ⟨fun listed => ⟨listed, fun out => busy ?_⟩, And.left⟩⟩
      rw [← shaped.unique listed member (out.1.trans same.symm)]
      exact out.2

/-- One digest of a settlement: the order changes, and leaves when nothing is left. -/
theorem Shaped.modify_prune (shaped : b.Shaped) (keeps : Keeps f) (digest : Bytes) :
    ((b.modify digest f).pruneIfDone digest).Shaped ∧
      ∀ o, o ∈ ((b.modify digest f).pruneIfDone digest).orders ↔
        ∃ old ∈ b.orders, o = onDigest digest f old ∧ ¬ (old.digest = digest ∧ Done o) := by
  obtain ⟨pruned, mem⟩ := (shaped.modify keeps digest).pruneIfDone digest
  refine ⟨pruned, fun o => ?_⟩
  rw [mem, shaped.modify_orders, List.mem_map]
  constructor
  · rintro ⟨⟨old, member, rfl⟩, kept⟩
    rw [(keeps.onDigest digest).digest] at kept
    exact ⟨old, member, rfl, kept⟩
  · rintro ⟨old, member, rfl, kept⟩
    refine ⟨⟨old, member, rfl⟩, ?_⟩
    rw [(keeps.onDigest digest).digest]
    exact kept

theorem consume_keeps (amount : Nat) : Keeps (consume amount) := ⟨fun _ => rfl, fun _ => rfl, fun _ => rfl⟩

theorem release_keeps (amount : Nat) : Keeps (release amount) := ⟨fun _ => rfl, fun _ => rfl, fun _ => rfl⟩

theorem shrink_keeps (amount : Nat) : Keeps (shrink amount) := ⟨fun _ => rfl, fun _ => rfl, fun _ => rfl⟩

def onNamed (intent : MatchIntent) (f : RestingOrder → RestingOrder) (o : RestingOrder) : RestingOrder :=
  if intent.names o.digest then f o else o

theorem onDigest_onDigest {intent : MatchIntent} (differs : intent.askDigest ≠ intent.bidDigest) (keeps : Keeps f)
    (o : RestingOrder) :
    onDigest intent.bidDigest f (onDigest intent.askDigest f o) = onNamed intent f o := by
  unfold onDigest onNamed MatchIntent.names
  by_cases ask : o.digest = intent.askDigest
  · have notBid : o.digest ≠ intent.bidDigest := fun bid => differs (ask.symm.trans bid)
    simp [ask, keeps.digest, differs]
  · by_cases bid : o.digest = intent.bidDigest
    · simp [bid, Ne.symm differs]
    · simp [ask, bid, Ne.symm ask, Ne.symm bid]

theorem Shaped.settleSuccess (shaped : b.Shaped) {intent : MatchIntent}
    (differs : intent.askDigest ≠ intent.bidDigest) :
    (b.settleSuccess intent).Shaped ∧ ∀ o, o ∈ (b.settleSuccess intent).orders ↔
      ∃ old ∈ b.orders, o = onNamed intent (consume intent.fillBaseAmount) old ∧
        ¬ (intent.names old.digest = true ∧ Done o) := by
  have keeps := consume_keeps intent.fillBaseAmount
  obtain ⟨askShaped, askMem⟩ := shaped.modify_prune keeps intent.askDigest
  obtain ⟨bidShaped, bidMem⟩ := askShaped.modify_prune keeps intent.bidDigest
  refine ⟨bidShaped, fun o => (bidMem o).trans ?_⟩
  constructor
  · rintro ⟨middle, inside, rfl, keptBid⟩
    obtain ⟨old, member, rfl, keptAsk⟩ := (askMem middle).mp inside
    refine ⟨old, member, onDigest_onDigest differs keeps old, ?_⟩
    rintro ⟨named, done⟩
    rw [(keeps.onDigest _).digest] at keptBid
    rcases of_decide_eq_true named with ask | bid
    · -- the bid's change does not touch the ask
      refine keptAsk ⟨ask.symm, ?_⟩
      have untouched : onDigest intent.bidDigest (consume intent.fillBaseAmount)
          (onDigest intent.askDigest (consume intent.fillBaseAmount) old) =
          onDigest intent.askDigest (consume intent.fillBaseAmount) old := by
        refine if_neg ?_
        rw [(keeps.onDigest _).digest, ← ask]
        exact differs
      rwa [untouched] at done
    · exact keptBid ⟨bid.symm, done⟩
  · rintro ⟨old, member, rfl, kept⟩
    refine ⟨onDigest intent.askDigest (consume intent.fillBaseAmount) old, (askMem _).mpr ⟨old, member, rfl, ?_⟩,
      (onDigest_onDigest differs keeps old).symm, ?_⟩
    · rintro ⟨ask, done⟩
      refine kept ⟨decide_eq_true (Or.inl ask.symm), ?_⟩
      rw [← onDigest_onDigest differs keeps]
      have untouched : onDigest intent.bidDigest (consume intent.fillBaseAmount)
          (onDigest intent.askDigest (consume intent.fillBaseAmount) old) =
          onDigest intent.askDigest (consume intent.fillBaseAmount) old := by
        refine if_neg ?_
        rw [(keeps.onDigest _).digest, ask]
        exact differs
      rwa [untouched]
    · rintro ⟨bid, done⟩
      rw [(keeps.onDigest _).digest] at bid
      exact kept ⟨decide_eq_true (Or.inr bid.symm), done⟩

theorem Shaped.removeAll (shaped : b.Shaped) (drop : List Bytes) :
    (drop.foldl Book.remove b).Shaped ∧
      ∀ o, o ∈ (drop.foldl Book.remove b).orders ↔ o ∈ b.orders ∧ o.digest ∉ drop := by
  induction drop generalizing b with
  | nil => exact ⟨shaped, by simp⟩
  | cons digest rest ih =>
    obtain ⟨done, mem⟩ := ih (shaped.remove digest)
    refine ⟨done, fun o => ?_⟩
    rw [List.foldl_cons, mem, shaped.remove_orders, List.mem_filter]
    simp only [ne_eq, decide_not, Bool.not_eq_eq_eq_not, Bool.not_true, decide_eq_false_iff_not, List.mem_cons,
      not_or, and_assoc]

theorem Shaped.settleFailed (shaped : b.Shaped) {intent : MatchIntent} (drop : List Bytes)
    (differs : intent.askDigest ≠ intent.bidDigest) :
    (b.settleFailed intent drop).Shaped ∧ ∀ o, o ∈ (b.settleFailed intent drop).orders ↔
      ∃ old ∈ b.orders, o = onNamed intent (release intent.fillBaseAmount) old ∧ old.digest ∉ drop := by
  have keeps := release_keeps intent.fillBaseAmount
  have ask := shaped.modify keeps intent.askDigest
  have bid := ask.modify keeps intent.bidDigest
  obtain ⟨final, mem⟩ := bid.removeAll drop
  refine ⟨final, fun o => (mem o).trans ?_⟩
  rw [ask.modify_orders, shaped.modify_orders, List.map_map, List.mem_map]
  constructor
  · rintro ⟨⟨old, member, rfl⟩, kept⟩
    rw [Function.comp_apply, (keeps.onDigest _).digest, (keeps.onDigest _).digest] at kept
    exact ⟨old, member, onDigest_onDigest differs keeps old, kept⟩
  · rintro ⟨old, member, rfl, kept⟩
    refine ⟨⟨old, member, onDigest_onDigest differs keeps old⟩, ?_⟩
    rw [← onDigest_onDigest differs keeps, (keeps.onDigest _).digest, (keeps.onDigest _).digest]
    exact kept

/-! ### Placing and rematching -/

theorem Shaped.nextSeq (shaped : b.Shaped) (seq : Nat) : { b with nextSeq := seq }.Shaped :=
  ⟨fun side => by cases side <;> exact shaped.tidy _, shaped.once, shaped.index⟩

/-- What `place` leaves: the other orders with their matched quantities locked, and
the new order, if anything of it is tracked. -/
structure Placed (b : Book) (target : Bytes) (order : Order) (intents : List MatchIntent) (next : Book)
    (incoming : RestingOrder) (kept : Option RestingOrder) : Prop where
  fresh : ∀ o ∈ b.orders, o.digest ≠ target
  priced : priceAndSize b.market order = .ok (incoming.side, incoming.priceTicks, incoming.remainingBase)
  digest : incoming.digest = target
  unlocked : incoming.pendingBase = 0
  shaped : next.Shaped
  market : next.market = b.market
  emitted : ∀ intent ∈ intents, ∃ o ∈ b.orders, o.side = incoming.side.opposite ∧
    Emitted b.market.registryId incoming o intent
  incomingFits : share intents target ≤ incoming.remainingBase
  restingFits : ∀ o ∈ b.orders, share intents o.digest ≤ o.availableBase
  orders : ∀ o, o ∈ next.orders ↔ kept = some o ∨ ∃ old ∈ b.orders, o = old.lock (share intents old.digest)
  /-- The new order keeps its size, or only what is pending after a self-trade. -/
  entered : ∀ o, kept = some o → o.digest = target ∧ o.side = incoming.side ∧ o.priceTicks = incoming.priceTicks ∧
    o.pendingBase = share intents target ∧ 0 < o.remainingBase ∧
      (o.remainingBase = incoming.remainingBase ∨ o.remainingBase = o.pendingBase)
  dropped : kept = none → share intents target = 0

theorem MatchedAgainst.rest {next : Book} {incoming final : RestingOrder} {intents : List MatchIntent}
    (matched : MatchedAgainst b incoming next final intents) (fresh : ∀ o ∈ b.orders, o.digest ≠ incoming.digest)
    (kept : RestingOrder) (digest : kept.digest = incoming.digest) :
    (next.rest kept).Shaped ∧ ∀ o, o ∈ (next.rest kept).orders ↔
      o = kept ∨ ∃ old ∈ b.orders, o = old.lock (share intents old.digest) := by
  refine ⟨matched.shaped.rest fun other member => ?_, fun o => ?_⟩
  · rw [matched.orders] at member
    obtain ⟨old, inside, rfl⟩ := List.mem_map.mp member
    rw [digest]
    exact fresh old inside
  · rw [(rest_orders next kept).mem_iff, List.mem_cons, matched.orders, List.mem_map]
    simp only [eq_comm]

theorem priceAndSize_pos {market : Market} {order : Order} {side : Side} {price size : Nat}
    (priced : priceAndSize market order = .ok (side, price, size)) : 0 < size := by
  unfold priceAndSize at priced
  split at priced
  · cases priced
  · simp only at priced
    split at priced
    · cases priced
    · rename_i some
      split at priced
      · cases priced
      · split at priced
        · cases priced
        · split at priced
          · cases priced
          · split at priced
            · cases priced
            · cases priced
              exact Nat.pos_of_ne_zero fun none => some (Or.inl none)

/-- The end of `place`: nothing was matched and nothing rests, or the order rests,
with its size or, cut by self-trade prevention, with what is pending of it. -/
theorem conclude_ok {next : Book} {final : RestingOrder} {intents emitted : List MatchIntent} {selfTrade : Bool}
    {outcome : PlaceOutcome} (ran : conclude (b, final, intents, selfTrade) = (outcome, emitted, next)) :
    emitted = intents ∧
      (selfTrade = true ∧ (next = b ∧ final.pendingBase = 0 ∨
          0 < final.pendingBase ∧ next = b.rest { final with remainingBase := final.pendingBase }) ∨
        selfTrade = false ∧ (next = b ∧ final.availableBase = 0 ∧ final.pendingBase = 0 ∨ next = b.rest final)) := by
  cases selfTrade with
  | true =>
    obtain ⟨-, rfl, rfl⟩ : _ ∧ _ ∧ _ := by simpa only [conclude, Prod.mk.injEq] using ran
    refine ⟨rfl, Or.inl ⟨rfl, ?_⟩⟩
    split
    · rename_i some
      exact Or.inr ⟨some, rfl⟩
    · rename_i none
      exact Or.inl ⟨rfl, Nat.eq_zero_of_not_pos none⟩
  | false =>
    unfold conclude at ran
    simp only at ran
    split at ran
    · rename_i satisfied
      obtain ⟨-, rfl, rfl⟩ : _ ∧ _ ∧ _ := by simpa only [Prod.mk.injEq] using ran
      refine ⟨rfl, Or.inr ⟨rfl, ?_⟩⟩
      split
      · exact Or.inr rfl
      · rename_i none
        exact Or.inl ⟨rfl, satisfied, Nat.eq_zero_of_not_pos none⟩
    · cases ran
      exact ⟨rfl, Or.inr ⟨rfl, Or.inr rfl⟩⟩

theorem place_ok {order : Order} {outcome : PlaceOutcome} {intents : List MatchIntent} {next : Book}
    (ran : b.place digest order = .ok (outcome, intents, next)) :
    ∃ side price size middle final selfTrade, b.index digest = none ∧
      priceAndSize b.market order = .ok (side, price, size) ∧
      matchIncoming { b with nextSeq := b.nextSeq + 1 } ⟨digest, order.maker, side, price, size, 0, b.nextSeq⟩ =
        (middle, final, intents, selfTrade) ∧
      (next = middle ∧ final.pendingBase = 0 ∨ ∃ kept, next = middle.rest kept ∧
        (selfTrade = false ∧ kept = final ∨
          0 < final.pendingBase ∧ kept = { final with remainingBase := final.pendingBase })) := by
  unfold place at ran
  split at ran
  · cases ran
  · rename_i unindexed
    split at ran
    · cases ran
    · rename_i side price size priced
      generalize matching : matchIncoming { b with nextSeq := b.nextSeq + 1 }
        ⟨digest, order.maker, side, price, size, 0, b.nextSeq⟩ = result at ran
      obtain ⟨middle, final, emitted, selfTrade⟩ := result
      obtain ⟨rfl, ends⟩ := conclude_ok (Except.ok.inj ran)
      refine ⟨side, price, size, middle, final, selfTrade, by simpa using unindexed, priced, matching, ?_⟩
      rcases ends with ⟨-, ⟨rfl, nothing⟩ | ⟨some, rfl⟩⟩ | ⟨rest, ⟨rfl, -, nothing⟩ | rfl⟩
      · exact Or.inl ⟨rfl, nothing⟩
      · exact Or.inr ⟨_, rfl, Or.inr ⟨some, rfl⟩⟩
      · exact Or.inl ⟨rfl, nothing⟩
      · exact Or.inr ⟨_, rfl, Or.inl ⟨rest, rfl⟩⟩

theorem Shaped.place (shaped : b.Shaped) {order : Order} {outcome : PlaceOutcome} {intents : List MatchIntent}
    {next : Book} (ran : b.place digest order = .ok (outcome, intents, next)) :
    ∃ incoming kept, Placed b digest order intents next incoming kept := by
  obtain ⟨side, price, size, middle, final, selfTrade, unindexed, priced, matching, ends⟩ := place_ok ran
  have fresh : ∀ o ∈ ({ b with nextSeq := b.nextSeq + 1 } : Book).orders,
      o.digest ≠ (⟨digest, order.maker, side, price, size, 0, b.nextSeq⟩ : RestingOrder).digest :=
    shaped.not_indexed.mp unindexed
  have matched := (shaped.nextSeq (b.nextSeq + 1)).matchIncoming fresh matching
  have pending : final.pendingBase = share intents digest := by
    rw [matched.final]
    exact Nat.zero_add _
  refine ⟨⟨digest, order.maker, side, price, size, 0, b.nextSeq⟩, ?_⟩
  rcases ends with ⟨rfl, nothing⟩ | ⟨kept, rfl, which⟩
  · refine ⟨none, ?_⟩
    exact {
      fresh, priced, digest := rfl, unlocked := rfl, shaped := matched.shaped, market := matched.market
      emitted := matched.emitted, incomingFits := matched.incomingFits, restingFits := matched.restingFits
      orders := fun o => by
        rw [matched.orders, List.mem_map]
        simp only [reduceCtorEq, false_or, eq_comm]
        rfl
      entered := nofun
      dropped := fun _ => pending.symm.trans nothing }
  · have same : kept.digest = digest ∧ kept.side = side ∧ kept.priceTicks = price ∧
        kept.pendingBase = share intents digest := by
      rcases which with ⟨-, rfl⟩ | ⟨-, rfl⟩ <;>
        exact ⟨by rw [matched.final]; rfl, by rw [matched.final]; rfl, by rw [matched.final]; rfl, pending⟩
    have sizes : 0 < kept.remainingBase ∧ (kept.remainingBase = size ∨ kept.remainingBase = kept.pendingBase) := by
      rcases which with ⟨-, rfl⟩ | ⟨some, rfl⟩
      · rw [matched.final]
        exact ⟨priceAndSize_pos priced, Or.inl rfl⟩
      · exact ⟨some, Or.inr rfl⟩
    obtain ⟨done, mem⟩ := matched.rest fresh kept same.1
    refine ⟨some kept, ?_⟩
    exact {
      fresh, priced, digest := rfl, unlocked := rfl, shaped := done
      market := (market_rest middle kept).trans matched.market
      emitted := matched.emitted, incomingFits := matched.incomingFits, restingFits := matched.restingFits
      orders := fun o => by
        rw [mem]
        simp only [Option.some.injEq, eq_comm]
        rfl
      entered := fun o entered => by
        cases entered
        exact ⟨same.1, same.2.1, same.2.2.1, same.2.2.2, sizes.1, sizes.2⟩
      dropped := nofun }

/-- A rematch does nothing, or takes the order out, matches it and rests what it became. -/
theorem Shaped.rematch_cases (shaped : b.Shaped) (digest : Bytes) :
    b.rematch digest = ([], b) ∨ ∃ found middle final intents selfTrade, b.get digest = some found ∧
      0 < found.availableBase ∧ (b.remove digest).matchIncoming found = (middle, final, intents, selfTrade) ∧
      (∀ o ∈ (b.remove digest).orders, o.digest ≠ found.digest) ∧ b.rematch digest = (intents, middle.rest final) := by
  unfold Book.rematch
  split
  · exact Or.inl rfl
  · rename_i found located
    split
    · exact Or.inl rfl
    · rename_i hungry
      generalize matching : (b.remove digest).matchIncoming found = result
      obtain ⟨middle, final, intents, selfTrade⟩ := result
      refine Or.inr ⟨found, middle, final, intents, selfTrade, located, Nat.pos_of_ne_zero hungry, matching, ?_, rfl⟩
      intro o inside
      rw [shaped.remove_orders, List.mem_filter, decide_eq_true_eq] at inside
      rw [(shaped.get_iff.mp located).2]
      exact inside.2

/-- Rematching locks the matched quantities on both sides and moves the order to the back. -/
structure Rematched (b : Book) (target : Bytes) (intents : List MatchIntent) (next : Book) : Prop where
  shaped : next.Shaped
  market : next.market = b.market
  orders : ∀ o, o ∈ next.orders ↔ ∃ old ∈ b.orders, o = old.lock (share intents old.digest)
  fits : ∀ o ∈ b.orders, share intents o.digest ≤ o.availableBase
  emitted : ∀ intent ∈ intents, ∃ incoming ∈ b.orders, ∃ o ∈ b.orders, incoming.digest = target ∧
    o.side = incoming.side.opposite ∧ o.digest ≠ incoming.digest ∧ Emitted b.market.registryId incoming o intent

theorem Shaped.rematch (shaped : b.Shaped) (digest : Bytes) :
    Rematched b digest (b.rematch digest).1 (b.rematch digest).2 := by
  rcases shaped.rematch_cases digest with idle | ⟨found, middle, final, emitted, _, located, -, matching, fresh, ran⟩
  · rw [idle]
    exact ⟨shaped, rfl, by simp, by simp, by simp⟩
  · rw [ran]
    obtain ⟨member, same⟩ := shaped.get_iff.mp located
    have others : ∀ o, o ∈ (b.remove digest).orders ↔ o ∈ b.orders ∧ o.digest ≠ digest := by
      intro o
      rw [shaped.remove_orders, List.mem_filter, decide_eq_true_eq]
    have market := market_remove b digest
    have matched := (shaped.remove digest).matchIncoming fresh matching
    obtain ⟨done, mem⟩ := matched.rest fresh final (by rw [matched.final]; rfl)
    have split : ∀ o, o ∈ b.orders → o = found ∨ o ∈ (b.remove digest).orders := by
      intro o inside
      by_cases repeated : o.digest = digest
      · exact Or.inl (shaped.unique inside member (repeated.trans same.symm))
      · exact Or.inr ((others o).mpr ⟨inside, repeated⟩)
    refine ⟨done, (market_rest middle final).trans (matched.market.trans market), fun o => ?_, fun o inside => ?_,
      fun intent listed => ?_⟩
    · rw [mem, matched.final]
      constructor
      · rintro (rfl | ⟨old, inside, rfl⟩)
        · exact ⟨found, member, rfl⟩
        · exact ⟨old, ((others old).mp inside).1, rfl⟩
      · rintro ⟨old, inside, rfl⟩
        rcases split old inside with rfl | elsewhere
        · exact Or.inl rfl
        · exact Or.inr ⟨old, elsewhere, rfl⟩
    · rcases split o inside with rfl | elsewhere
      · exact matched.incomingFits
      · exact matched.restingFits o elsewhere
    · obtain ⟨o, inside, side, emission⟩ := matched.emitted intent listed
      rw [market] at emission
      exact ⟨found, member, o, ((others o).mp inside).1, same, side, fresh o inside, emission⟩

end Book

/-! ### Runs -/

namespace Flight

open Book

def Covered (held : Nat) (o : RestingOrder) : Prop := held ≤ o.pendingBase ∨ o.pendingBase = o.remainingBase

/-- The book is well formed, its sizes are in range and the intents in flight are
covered by the pending counters. -/
structure Safe (s : Flight) : Prop where
  shaped : s.book.Shaped
  sizes : ∀ o ∈ s.book.orders, 0 < o.remainingBase ∧ o.pendingBase ≤ o.remainingBase
  covered : ∀ o ∈ s.book.orders, Covered (s.unresolved o.digest) o
  differ : ∀ intent ∈ s.inFlight, intent.askDigest ≠ intent.bidDigest

/-- What keeps the counters honest: an order is placed when no intent on it is
unresolved, and a failure is applied to an order only if its counter covers all its
unresolved intents or the failed one is the last. -/
def Careful (s : Flight) : Op → Prop
  | .place digest _ => ∀ intent ∈ s.inFlight, intent.names digest = false
  | .settleFailed which drop => ∀ intent, s.inFlight[which]? = some intent → ∀ o ∈ s.book.orders,
      intent.names o.digest = true → o.digest ∉ drop →
        s.unresolved o.digest ≤ o.pendingBase ∨ s.unresolved o.digest = intent.fillBaseAmount
  | _ => True

variable {s next : Flight}

theorem unresolved_append {book : Book} {intents : List MatchIntent} (digest : Bytes) :
    Flight.unresolved ⟨book, s.inFlight ++ intents⟩ digest = s.unresolved digest + share intents digest :=
  share_append _ _ _

theorem unresolved_erase (book : Book) {which : Nat} {intent : MatchIntent} (found : s.inFlight[which]? = some intent)
    (digest : Bytes) :
    Flight.unresolved ⟨book, s.inFlight.eraseIdx which⟩ digest +
      (if intent.names digest then intent.fillBaseAmount else 0) = s.unresolved digest :=
  Sums.sum_map_eraseIdx (fun intent => if intent.names digest then intent.fillBaseAmount else 0) found

theorem locked_safe {held qty : Nat} {o : RestingOrder} (size : 0 < o.remainingBase ∧ o.pendingBase ≤ o.remainingBase)
    (covered : Covered held o) (fits : qty ≤ o.availableBase) :
    (0 < (o.lock qty).remainingBase ∧ (o.lock qty).pendingBase ≤ (o.lock qty).remainingBase) ∧
      Covered (held + qty) (o.lock qty) ∧ (0 < qty → held + qty ≤ o.remainingBase) := by
  simp only [RestingOrder.availableBase] at fits
  simp only [Covered, lock_remainingBase, lock_pendingBase] at covered ⊢
  omega

/-- The digests whose unresolved total the step raised stay within their size. -/
def Within (s next : Flight) : Prop :=
  ∀ o ∈ next.book.orders, s.unresolved o.digest < next.unresolved o.digest →
    next.unresolved o.digest ≤ o.remainingBase

theorem place_safe {digest : Bytes} {order : Order} {outcome : PlaceOutcome} {intents : List MatchIntent} {book : Book}
    (safe : s.Safe) (unheld : ∀ intent ∈ s.inFlight, intent.names digest = false)
    (ran : s.book.place digest order = .ok (outcome, intents, book)) :
    Safe ⟨book, s.inFlight ++ intents⟩ ∧ Within s ⟨book, s.inFlight ++ intents⟩ := by
  obtain ⟨incoming, kept, placed⟩ := safe.shaped.place ran
  have none : s.unresolved digest = 0 := share_eq_zero unheld
  have each : ∀ o ∈ book.orders, (0 < o.remainingBase ∧ o.pendingBase ≤ o.remainingBase) ∧
      Covered (s.unresolved o.digest + share intents o.digest) o ∧
        (0 < share intents o.digest → s.unresolved o.digest + share intents o.digest ≤ o.remainingBase) := by
    intro o member
    rcases (placed.orders o).mp member with entered | ⟨old, inside, rfl⟩
    · obtain ⟨same, -, -, pending, some, sizes⟩ := placed.entered o entered
      have fits := placed.incomingFits
      rw [same, none, Nat.zero_add]
      refine ⟨⟨some, by omega⟩, Or.inl (by omega), fun _ => by omega⟩
    · exact locked_safe (safe.sizes old inside) (safe.covered old inside) (placed.restingFits old inside)
  refine ⟨⟨placed.shaped, fun o member => (each o member).1, fun o member => ?_, fun intent member => ?_⟩, ?_⟩
  · rw [unresolved_append]
    exact (each o member).2.1
  · rcases List.mem_append.mp member with old | new
    · exact safe.differ intent old
    · obtain ⟨o, inside, -, emitted⟩ := placed.emitted intent new
      have apart := placed.fresh o inside
      rw [← placed.digest] at apart
      exact emitted.differs apart
  · intro o member grew
    rw [unresolved_append] at grew ⊢
    exact (each o member).2.2 (by omega)

theorem rematch_safe (safe : s.Safe) (digest : Bytes) :
    Safe ⟨(s.book.rematch digest).2, s.inFlight ++ (s.book.rematch digest).1⟩ ∧
      Within s ⟨(s.book.rematch digest).2, s.inFlight ++ (s.book.rematch digest).1⟩ := by
  have rematched := safe.shaped.rematch digest
  have each : ∀ o ∈ (s.book.rematch digest).2.orders,
      (0 < o.remainingBase ∧ o.pendingBase ≤ o.remainingBase) ∧
      Covered (s.unresolved o.digest + share (s.book.rematch digest).1 o.digest) o ∧
        (0 < share (s.book.rematch digest).1 o.digest →
          s.unresolved o.digest + share (s.book.rematch digest).1 o.digest ≤ o.remainingBase) := by
    intro o member
    obtain ⟨old, inside, rfl⟩ := (rematched.orders o).mp member
    exact locked_safe (safe.sizes old inside) (safe.covered old inside) (rematched.fits old inside)
  refine ⟨⟨rematched.shaped, fun o member => (each o member).1, fun o member => ?_, fun intent member => ?_⟩, ?_⟩
  · rw [unresolved_append]
    exact (each o member).2.1
  · rcases List.mem_append.mp member with old | new
    · exact safe.differ intent old
    · obtain ⟨incoming, -, o, -, -, -, apart, emitted⟩ := rematched.emitted intent new
      exact emitted.differs apart
  · intro o member grew
    rw [unresolved_append] at grew ⊢
    exact (each o member).2.2 (by omega)

/-- Confirmations never uncover an order. -/
theorem success_safe {which : Nat} {intent : MatchIntent} (safe : s.Safe)
    (found : s.inFlight[which]? = some intent) :
    Safe ⟨s.book.settleSuccess intent, s.inFlight.eraseIdx which⟩ := by
  obtain ⟨shaped, mem⟩ := safe.shaped.settleSuccess (safe.differ intent (List.mem_of_getElem? found))
  have each : ∀ o ∈ (s.book.settleSuccess intent).orders, (0 < o.remainingBase ∧ o.pendingBase ≤ o.remainingBase) ∧
      Covered (Flight.unresolved ⟨s.book.settleSuccess intent, s.inFlight.eraseIdx which⟩ o.digest) o := by
    intro o member
    obtain ⟨old, inside, rfl, kept⟩ := (mem o).mp member
    have sizes := safe.sizes old inside
    have covered := safe.covered old inside
    have total := unresolved_erase (s.book.settleSuccess intent) found old.digest
    unfold onNamed at kept ⊢
    by_cases named : intent.names old.digest = true
    · simp only [named, if_true, true_and] at kept total ⊢
      simp only [Done, consume, Covered] at kept covered ⊢
      omega
    · simp only [named, if_false, Bool.false_eq_true] at total ⊢
      simp only [Covered] at covered ⊢
      omega
  exact ⟨shaped, fun o member => (each o member).1, fun o member => (each o member).2,
    fun other member => safe.differ other (List.mem_of_mem_eraseIdx member)⟩

/-- A failure uncovers an order unless the counter covers all its intents or this was the last one. -/
theorem failed_safe {which : Nat} {intent : MatchIntent} {drop : List Bytes} (safe : s.Safe)
    (careful : s.Careful (.settleFailed which drop)) (found : s.inFlight[which]? = some intent) :
    Safe ⟨s.book.settleFailed intent drop, s.inFlight.eraseIdx which⟩ := by
  obtain ⟨shaped, mem⟩ := safe.shaped.settleFailed drop (safe.differ intent (List.mem_of_getElem? found))
  have each : ∀ o ∈ (s.book.settleFailed intent drop).orders,
      (0 < o.remainingBase ∧ o.pendingBase ≤ o.remainingBase) ∧
      Covered (Flight.unresolved ⟨s.book.settleFailed intent drop, s.inFlight.eraseIdx which⟩ o.digest) o := by
    intro o member
    obtain ⟨old, inside, rfl, kept⟩ := (mem o).mp member
    have sizes := safe.sizes old inside
    have covered := safe.covered old inside
    have total := unresolved_erase (s.book.settleFailed intent drop) found old.digest
    unfold onNamed
    by_cases named : intent.names old.digest = true
    · have allowed := careful intent found old inside named kept
      simp only [named, if_true] at total ⊢
      simp only [release, Covered] at covered ⊢
      omega
    · simp only [named, if_false, Bool.false_eq_true] at total ⊢
      simp only [Covered] at covered ⊢
      omega
  exact ⟨shaped, fun o member => (each o member).1, fun o member => (each o member).2,
    fun other member => safe.differ other (List.mem_of_mem_eraseIdx member)⟩

theorem external_safe (safe : s.Safe) (digest : Bytes) (amount : Nat) :
    Safe { s with book := s.book.applyExternalFill digest amount } := by
  obtain ⟨shaped, mem⟩ := safe.shaped.modify_prune (shrink_keeps amount) digest
  have each : ∀ o ∈ (s.book.applyExternalFill digest amount).orders,
      (0 < o.remainingBase ∧ o.pendingBase ≤ o.remainingBase) ∧ Covered (s.unresolved o.digest) o := by
    intro o member
    obtain ⟨old, inside, rfl, kept⟩ := (mem o).mp member
    have sizes := safe.sizes old inside
    have covered := safe.covered old inside
    unfold onDigest at kept ⊢
    by_cases named : old.digest = digest
    · subst named
      simp only [if_true, true_and] at kept ⊢
      simp only [Done, shrink, Covered] at kept covered ⊢
      omega
    · simp only [named, if_false] at kept ⊢
      exact ⟨sizes, covered⟩
  exact ⟨shaped, fun o member => (each o member).1, fun o member => (each o member).2, safe.differ⟩

theorem remove_safe (safe : s.Safe) (digest : Bytes) : Safe { s with book := s.book.remove digest } := by
  have kept : ∀ o, o ∈ (s.book.remove digest).orders → o ∈ s.book.orders := by
    intro o member
    rw [safe.shaped.remove_orders] at member
    exact List.mem_of_mem_filter member
  exact ⟨safe.shaped.remove digest, fun o member => safe.sizes o (kept o member),
    fun o member => safe.covered o (kept o member), safe.differ⟩

theorem step_safe {op : Op} (safe : s.Safe) (careful : s.Careful op) (moved : s.step op = .ok next) :
    next.Safe ∧ Within s next := by
  have quiet : ∀ {book : Book} {inFlight : List MatchIntent},
      (∀ digest, share inFlight digest ≤ s.unresolved digest) → Within s ⟨book, inFlight⟩ := by
    intro book inFlight less o _ grew
    exact absurd (less o.digest) (by simpa [Flight.unresolved] using grew)
  cases op with
  | place digest order =>
    simp only [step] at moved
    split at moved
    · cases moved
    · rename_i ran
      cases moved
      exact place_safe safe careful ran
  | rematch digest =>
    cases moved
    exact rematch_safe safe digest
  | settleSuccess which =>
    simp only [step] at moved
    split at moved
    · cases moved
      exact ⟨safe, quiet fun _ => Nat.le_refl _⟩
    · rename_i found
      cases moved
      refine ⟨success_safe safe found, quiet fun digest => ?_⟩
      have total := unresolved_erase s.book found digest
      simp only [Flight.unresolved] at total ⊢
      omega
  | settleFailed which drop =>
    simp only [step] at moved
    split at moved
    · cases moved
      exact ⟨safe, quiet fun _ => Nat.le_refl _⟩
    · rename_i found
      cases moved
      refine ⟨failed_safe safe careful found, quiet fun digest => ?_⟩
      have total := unresolved_erase s.book found digest
      simp only [Flight.unresolved] at total ⊢
      omega
  | applyExternalFill digest amount =>
    cases moved
    exact ⟨external_safe safe digest amount, quiet fun _ => Nat.le_refl _⟩
  | remove digest =>
    cases moved
    exact ⟨remove_safe safe digest, quiet fun _ => Nat.le_refl _⟩

def start (market : Market) (policy : SelfTradePolicy) : Flight :=
  ⟨{ Book.new market with selfTradePolicy := policy }, []⟩

theorem start_safe (market : Market) (policy : SelfTradePolicy) : (start market policy).Safe := by
  have shaped := Shaped.new market
  refine ⟨⟨fun side => by cases side <;> exact shaped.tidy _, shaped.once, shaped.index⟩, ?_, ?_, ?_⟩ <;>
    simp [start, Book.new, Book.orders, Levels.orders]

/-- In a run of careful steps no step commits more of an order than remains of it. -/
theorem commitments_within (market : Market) (policy : SelfTradePolicy) {ops : List Op} {s next : Flight} {op : Op}
    (careful : Along step Careful (start market policy) ops) (ran : exec step (start market policy) ops = .ok s)
    (carefulNow : s.Careful op) (moved : s.step op = .ok next) :
    ∀ o ∈ next.book.orders, s.unresolved o.digest < next.unresolved o.digest →
      next.unresolved o.digest ≤ o.remainingBase := by
  have safe : s.Safe := exec_invariant_along step Careful Safe
    (fun _ _ _ before condition ranStep => (step_safe before condition ranStep).1) (start_safe market policy) careful ran
  exact (step_safe safe carefulNow moved).2

/-! An ask of ten matched with bids of four and six. -/

namespace Sample

def market : Market := ⟨1, "B", "Q", 1, 1, 1⟩

def ask (maker : Address) (amount : UInt64) : Order :=
  { makerToken := "B", takerToken := "Q", makerAmount := amount, takerAmount := amount, maxFeeBps := 0, maker
    makerManagerId := maker, taker := 0, sender := 0, expiryMs := 10, salt := 1 }

def bid (maker : Address) (amount : UInt64) : Order :=
  { ask maker amount with makerToken := "Q", takerToken := "B" }

def matching : List Op := [.place [1] (ask 1 10), .place [2] (bid 2 4), .place [3] (bid 3 6)]

/-- A fill of four on chain clips the ask's counter, and the failure of the match of
six then releases quantity that the match of four still holds. -/
def clipped : List Op := matching ++ [.applyExternalFill [1] 4, .settleFailed 1 []]

end Sample

theorem commitments_exceed : ∃ s, exec step (start Sample.market .cancelNewest) Sample.clipped = .ok s ∧
    ∃ next, s.step (.rematch [1]) = .ok next ∧ ∃ o ∈ next.book.orders,
      o.digest = [1] ∧ s.unresolved [1] < next.unresolved [1] ∧ o.remainingBase < next.unresolved [1] :=
  exists_ok
    (fun s => (s.step (.rematch [1])).toOption.any fun next => next.book.orders.any fun o =>
      decide (o.digest = [1] ∧ s.unresolved [1] < next.unresolved [1] ∧ o.remainingBase < next.unresolved [1]))
    (by decide +kernel) (fun s _ passed => exists_ok _ passed fun next _ exceeds => by simpa using exceeds)

def placesFresh (s : Flight) : Op → Bool
  | .place digest _ => s.inFlight.all fun intent => intent.names digest = false
  | _ => false

theorem careful_of_placesFresh {op : Op} (fresh : s.placesFresh op = true) : s.Careful op := by
  cases op with
  | place digest order => simpa [placesFresh, Careful] using fresh
  | _ => cases fresh

theorem commitments_within_sample : ∃ s, exec step (start Sample.market .cancelNewest) (Sample.matching.take 2) = .ok s ∧
    ∃ next, s.step (.place [3] (Sample.bid 3 6)) = .ok next ∧
      (s.unresolved [1] < next.unresolved [1] ∧ ∃ o ∈ next.book.orders, o.digest = [1] ∧
        next.unresolved [1] ≤ o.remainingBase) := by
  refine exists_ok (fun s => s.placesFresh (.place [3] (Sample.bid 3 6)) &&
    (s.step (.place [3] (Sample.bid 3 6))).toOption.any fun next => decide (s.unresolved [1] < next.unresolved [1]) &&
      next.book.orders.any fun o => decide (o.digest = [1])) (by decide +kernel) ?_
  intro s ran passed
  rw [Bool.and_eq_true] at passed
  refine exists_ok _ passed.2 fun next moved grew => ?_
  simp only [Bool.and_eq_true, decide_eq_true_eq, List.any_eq_true] at grew
  obtain ⟨grew, o, member, same⟩ := grew
  have careful : Along step Careful (start Sample.market .cancelNewest) (Sample.matching.take 2) :=
    along_of_test step (fun _ _ _ (_ : True) _ => trivial) (fun _ _ _ fresh => careful_of_placesFresh fresh)
      trivial (by decide +kernel)
  refine ⟨grew, o, member, same, ?_⟩
  rw [← same]
  exact commitments_within Sample.market .cancelNewest careful ran (careful_of_placesFresh passed.1) moved o member
    (by rw [same]; exact grew)

end Flight

end SuiOptions.Orderbook
