import SuiOptions.Orderbook.Calls

/-! Price-time priority.

Orders are accepted in the order of their sequence numbers. A level serves its
orders from the front of its queue, so time priority is the statement that every
queue is sorted; price priority is the order in which levels are met.
-/

set_option autoImplicit false

namespace SuiOptions.Orderbook

open Exchange Execution

/-! ### Queues in the order of acceptance -/

def Levels.Queued (levels : Levels) : Prop := ∀ level ∈ levels, (level.queue.map (·.seq)).Pairwise (· < ·)

section Levels

variable {side : Side} {level : Level} {levels rest : Levels} {o : RestingOrder} {digest : Bytes} {price : Nat}
  {f : RestingOrder → RestingOrder}

theorem Levels.Queued.nil : Levels.Queued [] := by simp [Levels.Queued]

theorem Levels.queued_cons : Levels.Queued (level :: rest) ↔
    (level.queue.map (·.seq)).Pairwise (· < ·) ∧ Levels.Queued rest := by
  simp [Levels.Queued]

/-- An order joins the back of its queue, so it must be the last accepted there. -/
theorem Levels.Queued.push (queued : levels.Queued) (tidy : Levels.Tidy side levels)
    (last : ∀ x ∈ levels.orders, x.priceTicks = o.priceTicks → x.seq < o.seq) : (levels.push o).Queued := by
  induction levels with
  | nil => simp [Levels.push, Levels.Queued]
  | cons level rest ih =>
    obtain ⟨here, later⟩ := Levels.queued_cons.mp queued
    unfold Levels.push
    split
    · exact Levels.queued_cons.mpr ⟨by simp, queued⟩
    · split
      · rename_i same
        refine Levels.queued_cons.mpr ⟨?_, later⟩
        rw [List.map_append, List.pairwise_append]
        refine ⟨here, by simp, fun first member second single => ?_⟩
        obtain ⟨x, inside, rfl⟩ := List.mem_map.mp member
        obtain rfl : second = o.seq := by simpa using single
        refine last x (List.mem_append_left _ inside) ?_
        rw [(tidy.placed level List.mem_cons_self x inside).2, same]
      · exact Levels.queued_cons.mpr
          ⟨here, ih later tidy.tail fun x member => last x (List.mem_append_right _ member)⟩

theorem map_seq_modifyFirst (keeps : ∀ o, (f o).seq = o.seq) (queue : List RestingOrder) :
    (modifyFirst digest f queue).map (·.seq) = queue.map (·.seq) := by
  induction queue with
  | nil => rfl
  | cons first rest ih =>
    unfold modifyFirst
    split
    · rw [List.map_cons, List.map_cons, keeps]
    · rw [List.map_cons, List.map_cons, ih]

theorem Levels.Queued.modifyAt (queued : levels.Queued) (keeps : ∀ o, (f o).seq = o.seq) :
    (levels.modifyAt price digest f).Queued := by
  induction levels with
  | nil => exact queued
  | cons level rest ih =>
    obtain ⟨here, later⟩ := Levels.queued_cons.mp queued
    unfold Levels.modifyAt
    split
    · refine Levels.queued_cons.mpr ⟨?_, later⟩
      rw [map_seq_modifyFirst keeps]
      exact here
    · exact Levels.queued_cons.mpr ⟨here, ih later⟩

theorem Levels.Queued.removeAt (queued : levels.Queued) : (levels.removeAt price digest).Queued := by
  induction levels with
  | nil => exact queued
  | cons level rest ih =>
    obtain ⟨here, later⟩ := Levels.queued_cons.mp queued
    unfold Levels.removeAt
    split
    · split
      · exact later
      · exact Levels.queued_cons.mpr ⟨here.sublist ((List.filter_sublist).map _), later⟩
    · exact Levels.queued_cons.mpr ⟨here, ih later⟩

theorem map_seq_matchQueue {registry : ID} {policy : SelfTradePolicy} {incoming : RestingOrder}
    {queue : List RestingOrder} :
    (matchQueue registry policy price incoming queue).items.map (·.seq) = queue.map (·.seq) := by
  induction queue generalizing incoming with
  | nil => rfl
  | cons resting rest ih =>
    by_cases satisfied : incoming.availableBase = 0
    · rw [matchQueue_satisfied satisfied]
    · by_cases idle : resting.availableBase = 0
      · rw [matchQueue_idle satisfied idle, List.map_cons, List.map_cons, ih]
      · by_cases own : resting.maker = incoming.maker ∧ policy = .cancelNewest
        · rw [matchQueue_own satisfied idle own]
        · rw [matchQueue_take satisfied idle own rfl, List.map_cons, List.map_cons, ih]
          rfl

theorem Levels.Queued.matchLevels {registry : ID} {policy : SelfTradePolicy} {incoming : RestingOrder}
    (queued : levels.Queued) : Levels.Queued (matchLevels registry policy incoming levels).items := by
  induction levels generalizing incoming with
  | nil => exact queued
  | cons level rest ih =>
    obtain ⟨here, later⟩ := Levels.queued_cons.mp queued
    have kept : ∀ {walk}, matchQueue registry policy level.price incoming level.queue = walk →
        (walk.items.map (·.seq)).Pairwise (· < ·) := by
      rintro walk rfl
      rw [map_seq_matchQueue]
      exact here
    by_cases satisfied : incoming.availableBase = 0
    · rw [matchLevels_satisfied satisfied]
      exact queued
    · by_cases skipped : crosses incoming level.price = false ∨ level.queue.all (·.availableBase = 0) = true
      · rw [matchLevels_skip satisfied skipped]
        exact Levels.queued_cons.mpr ⟨here, ih later⟩
      · generalize walk : matchQueue registry policy level.price incoming level.queue = found
        cases stopped : found.selfTrade with
        | true =>
          rw [matchLevels_stop satisfied skipped walk stopped]
          exact Levels.queued_cons.mpr ⟨kept walk, later⟩
        | false =>
          rw [matchLevels_pass satisfied skipped walk stopped]
          exact Levels.queued_cons.mpr ⟨kept walk, ih later⟩

end Levels

namespace Book

variable {b next : Book} {digest : Bytes} {f : RestingOrder → RestingOrder} {o : RestingOrder}

/-- Queues are sorted by acceptance, and the next order is accepted after all of them. -/
structure InOrder (b : Book) : Prop where
  queued : ∀ side, (b.levels side).Queued
  accepted : ∀ o ∈ b.orders, o.seq < b.nextSeq

@[simp] theorem nextSeq_withLevels {side : Side} {levels : Levels} : (b.withLevels side levels).nextSeq = b.nextSeq := by
  cases side <;> rfl

theorem queued_withLevels {side : Side} {levels : Levels} (queued : ∀ which, (b.levels which).Queued)
    (changed : levels.Queued) (which : Side) : ((b.withLevels side levels).levels which).Queued := by
  by_cases same : which = side
  · subst same
    rw [levels_withLevels]
    exact changed
  · rw [levels_withLevels_of_ne same]
    exact queued which

theorem InOrder.modify (inOrder : b.InOrder) (shaped : b.Shaped) (keeps : ∀ o, (f o).seq = o.seq) (digest : Bytes) :
    (b.modify digest f).InOrder := by
  refine ⟨fun which => ?_, fun o member => ?_⟩
  · unfold Book.modify
    split
    · exact inOrder.queued which
    · exact queued_withLevels inOrder.queued ((inOrder.queued _).modifyAt keeps) which
  · have counter : (b.modify digest f).nextSeq = b.nextSeq := by
      unfold Book.modify
      split
      · rfl
      · exact nextSeq_withLevels
    rw [shaped.modify_orders] at member
    obtain ⟨old, inside, rfl⟩ := List.mem_map.mp member
    have early := inOrder.accepted old inside
    rw [counter]
    unfold onDigest
    split
    · rw [keeps]
      exact early
    · exact early

theorem nextSeq_remove (b : Book) (digest : Bytes) : (b.remove digest).nextSeq = b.nextSeq := by
  unfold Book.remove
  split
  · rfl
  · exact nextSeq_withLevels

theorem selfTradePolicy_remove (b : Book) (digest : Bytes) :
    (b.remove digest).selfTradePolicy = b.selfTradePolicy := by
  unfold Book.remove
  split
  · rfl
  · rename_i side _ _
    cases side <;> rfl

theorem InOrder.remove (inOrder : b.InOrder) (shaped : b.Shaped) (digest : Bytes) : (b.remove digest).InOrder := by
  refine ⟨fun which => ?_, fun o member => ?_⟩
  · unfold Book.remove
    split
    · exact inOrder.queued which
    · refine queued_withLevels (fun side => ?_) ((inOrder.queued _).removeAt) which
      cases side with
      | bid => exact inOrder.queued .bid
      | ask => exact inOrder.queued .ask
  · rw [shaped.remove_orders] at member
    rw [nextSeq_remove]
    exact inOrder.accepted o (List.mem_of_mem_filter member)

theorem InOrder.pruneIfDone (inOrder : b.InOrder) (shaped : b.Shaped) (digest : Bytes) :
    (b.pruneIfDone digest).InOrder := by
  unfold Book.pruneIfDone
  split
  · exact inOrder
  · split
    · exact inOrder.remove shaped digest
    · exact inOrder

theorem InOrder.change (inOrder : b.InOrder) (shaped : b.Shaped) (keeps : Keeps f) (sequence : ∀ o, (f o).seq = o.seq)
    (digest : Bytes) : ((b.modify digest f).pruneIfDone digest).InOrder :=
  (inOrder.modify shaped sequence digest).pruneIfDone (shaped.modify keeps digest) digest

theorem InOrder.settleSuccess (inOrder : b.InOrder) (shaped : b.Shaped) (intent : MatchIntent) :
    (b.settleSuccess intent).InOrder := by
  have keeps := consume_keeps intent.fillBaseAmount
  have ask := inOrder.change shaped keeps (fun _ => rfl) intent.askDigest
  exact ask.change (shaped.modify_prune keeps intent.askDigest).1 keeps (fun _ => rfl) intent.bidDigest

theorem InOrder.removeAll (inOrder : b.InOrder) (shaped : b.Shaped) (drop : List Bytes) :
    (drop.foldl Book.remove b).InOrder := by
  induction drop generalizing b with
  | nil => exact inOrder
  | cons digest rest ih => exact ih (inOrder.remove shaped digest) (shaped.remove digest)

theorem InOrder.settleFailed (inOrder : b.InOrder) (shaped : b.Shaped) (intent : MatchIntent) (drop : List Bytes) :
    (b.settleFailed intent drop).InOrder := by
  have keeps := release_keeps intent.fillBaseAmount
  have shapedAsk := shaped.modify keeps intent.askDigest
  have sequence : ∀ o, (release intent.fillBaseAmount o).seq = o.seq := fun _ => rfl
  have ask := inOrder.modify shaped sequence intent.askDigest
  have bid := ask.modify shapedAsk sequence intent.bidDigest
  exact bid.removeAll (shapedAsk.modify keeps intent.bidDigest) drop

theorem InOrder.matchIncoming {incoming final : RestingOrder} {intents : List MatchIntent} {selfTrade : Bool}
    (inOrder : b.InOrder) (shaped : b.Shaped) (fresh : ∀ o ∈ b.orders, o.digest ≠ incoming.digest)
    (ran : b.matchIncoming incoming = (next, final, intents, selfTrade)) :
    next.InOrder ∧ next.nextSeq = b.nextSeq := by
  have matched := shaped.matchIncoming fresh ran
  unfold Book.matchIncoming at ran
  obtain ⟨rfl, rfl, rfl, rfl⟩ : _ ∧ _ ∧ _ ∧ _ := by simpa only [Prod.mk.injEq] using ran
  refine ⟨⟨fun which => ?_, fun o member => ?_⟩, nextSeq_withLevels⟩
  · refine queued_withLevels inOrder.queued (fun level member => ?_) which
    have best : (bestFirst incoming.side.opposite (b.levels incoming.side.opposite)).Queued :=
      fun level member => inOrder.queued _ level (bestFirst_mem.mp member)
    exact best.matchLevels level (bestFirst_mem.mp member)
  · rw [matched.orders] at member
    obtain ⟨old, inside, rfl⟩ := List.mem_map.mp member
    rw [nextSeq_withLevels]
    exact inOrder.accepted old inside

theorem InOrder.rest (inOrder : b.InOrder) (shaped : b.Shaped) (known : o.seq < b.nextSeq)
    (last : ∀ x ∈ b.orders, x.side = o.side → x.priceTicks = o.priceTicks → x.seq < o.seq) : (b.rest o).InOrder := by
  refine ⟨fun which => ?_, fun x member => ?_⟩
  · unfold Book.rest
    refine queued_withLevels (fun side => ?_) ?_ which
    · cases side with
      | bid => exact inOrder.queued .bid
      | ask => exact inOrder.queued .ask
    · refine (inOrder.queued o.side).push (shaped.tidy o.side) fun x member priced => ?_
      obtain ⟨listed, side⟩ := shaped.mem_levels.mp member
      exact last x listed side priced
  · have counter : (b.rest o).nextSeq = b.nextSeq := nextSeq_withLevels
    rw [counter]
    rcases List.mem_cons.mp ((rest_orders b o).mem_iff.mp member) with rfl | old
    · exact known
    · exact inOrder.accepted x old

theorem InOrder.counted (inOrder : b.InOrder) : ({ b with nextSeq := b.nextSeq + 1 } : Book).InOrder := by
  refine ⟨fun which => ?_, fun o member => Nat.lt_succ_of_lt (inOrder.accepted o member)⟩
  cases which with
  | bid => exact inOrder.queued .bid
  | ask => exact inOrder.queued .ask

theorem InOrder.place {order : Order} {outcome : PlaceOutcome} {intents : List MatchIntent} (inOrder : b.InOrder)
    (shaped : b.Shaped) (ran : b.place digest order = .ok (outcome, intents, next)) : next.InOrder := by
  obtain ⟨side, price, size, middle, final, selfTrade, unindexed, -, matching, ends⟩ := place_ok ran
  have fresh : ∀ o ∈ ({ b with nextSeq := b.nextSeq + 1 } : Book).orders,
      o.digest ≠ (⟨digest, order.maker, side, price, size, 0, b.nextSeq⟩ : RestingOrder).digest :=
    shaped.not_indexed.mp unindexed
  have counted := shaped.nextSeq (b.nextSeq + 1)
  have matched := counted.matchIncoming fresh matching
  obtain ⟨after, counter⟩ := inOrder.counted.matchIncoming counted fresh matching
  rcases ends with ⟨rfl, -⟩ | ⟨kept, rfl, which⟩
  · exact after
  · have newest : kept.seq = b.nextSeq := by
      rcases which with ⟨-, rfl⟩ | ⟨-, rfl⟩ <;> rw [matched.final] <;> rfl
    refine after.rest matched.shaped ?_ fun x member _ _ => ?_
    · rw [counter, newest]
      exact Nat.lt_succ_self _
    · rw [matched.orders] at member
      obtain ⟨old, inside, rfl⟩ := List.mem_map.mp member
      rw [newest]
      exact inOrder.accepted old inside

/-- A rematch sends the order to the back of its queue: that keeps the time priority only of
an order behind which nothing rests. -/
def Timely (b : Book) : BookCall → Prop
  | .rematch digest => ∀ o, b.get digest = some o → 0 < o.availableBase → ∀ other ∈ b.orders,
      other.digest ≠ digest → other.side = o.side → other.priceTicks = o.priceTicks → other.seq < o.seq
  | _ => True

theorem InOrder.rematch (inOrder : b.InOrder) (shaped : b.Shaped) (timely : b.Timely (.rematch digest)) :
    (b.rematch digest).2.InOrder := by
  rcases shaped.rematch_cases digest with idle | ⟨found, middle, final, emitted, _, located, hungry, matching, fresh, ran⟩
  · rw [idle]
    exact inOrder
  · rw [ran]
    obtain ⟨listed, same⟩ := shaped.get_iff.mp located
    have removed := inOrder.remove shaped digest
    have matched := (shaped.remove digest).matchIncoming fresh matching
    obtain ⟨after, counter⟩ := removed.matchIncoming (shaped.remove digest) fresh matching
    have kept : ∀ x ∈ middle.orders, ∃ old ∈ b.orders, old.digest ≠ digest ∧ x.seq = old.seq ∧ x.side = old.side ∧
        x.priceTicks = old.priceTicks := by
      intro x member
      rw [matched.orders, shaped.remove_orders] at member
      obtain ⟨old, inside, rfl⟩ := List.mem_map.mp member
      obtain ⟨inside, differs⟩ := List.mem_filter.mp inside
      exact ⟨old, inside, of_decide_eq_true differs, rfl, rfl, rfl⟩
    have final : final.seq = found.seq ∧ final.side = found.side ∧ final.priceTicks = found.priceTicks := by
      rw [matched.final]
      exact ⟨rfl, rfl, rfl⟩
    refine after.rest matched.shaped ?_ fun x member side priced => ?_
    · rw [counter, nextSeq_remove, final.1]
      exact inOrder.accepted found listed
    · obtain ⟨old, inside, differs, sequence, sideEq, priceEq⟩ := kept x member
      rw [sequence, final.1]
      exact timely found located hungry old inside differs (by rw [← sideEq, side, final.2.1])
        (by rw [← priceEq, priced, final.2.2])

theorem InOrder.call (inOrder : b.InOrder) (shaped : b.Shaped) {what : BookCall} (timely : b.Timely what) :
    (b.call what).1.InOrder := by
  cases what with
  | place digest order =>
    simp only [Book.call]
    split
    · exact inOrder
    · rename_i ran
      exact inOrder.place shaped ran
  | settleSuccess intent => exact inOrder.settleSuccess shaped intent
  | settleFailed intent drop => exact inOrder.settleFailed shaped intent drop
  | applyExternalFill digest amount => exact inOrder.change shaped (shrink_keeps amount) (fun _ => rfl) digest
  | remove digest => exact inOrder.remove shaped digest
  | rematch digest => exact inOrder.rematch shaped timely

end Book

/-! ### The order in which an incoming order meets the others -/

/-- The first order has the better price, or the same and was accepted earlier. -/
def Ahead (first second : RestingOrder) : Prop :=
  match first.side with
  | .ask => first.priceTicks < second.priceTicks ∨ first.priceTicks = second.priceTicks ∧ first.seq < second.seq
  | .bid => second.priceTicks < first.priceTicks ∨ first.priceTicks = second.priceTicks ∧ first.seq < second.seq

theorem Levels.Queued.ahead {side : Side} {levels : Levels} (queued : levels.Queued) (tidy : Levels.Tidy side levels) :
    (Book.bestFirst side levels).orders.Pairwise Ahead := by
  refine List.pairwise_flatMap.mpr ⟨fun level member => ?_, ?_⟩
  · have inside := Book.bestFirst_mem.mp member
    refine (List.pairwise_map.mp (queued level inside)).imp_of_mem fun {x y} first second earlier => ?_
    obtain ⟨-, xPrice⟩ := tidy.placed level inside x first
    obtain ⟨-, yPrice⟩ := tidy.placed level inside y second
    unfold Ahead
    split <;> exact Or.inr ⟨xPrice.trans yPrice.symm, earlier⟩
  · cases side with
    | ask =>
      refine tidy.sorted.imp_of_mem fun {low high} lowIn highIn less x xIn y yIn => ?_
      obtain ⟨xSide, xPrice⟩ := tidy.placed low lowIn x xIn
      obtain ⟨-, yPrice⟩ := tidy.placed high highIn y yIn
      unfold Ahead
      rw [xSide]
      exact Or.inl (by omega)
    | bid =>
      refine List.pairwise_reverse.mpr (tidy.sorted.imp_of_mem fun {low high} lowIn highIn less x xIn y yIn => ?_)
      obtain ⟨xSide, xPrice⟩ := tidy.placed high highIn x xIn
      obtain ⟨-, yPrice⟩ := tidy.placed low lowIn y yIn
      unfold Ahead
      rw [xSide]
      exact Or.inl (by omega)

/-- Self-trade prevention keeps the two orders apart. -/
def Excluded (policy : SelfTradePolicy) (taker o : RestingOrder) : Prop :=
  o.maker = taker.maker ∧ policy = .cancelNewest

/-- An intent takes, from orders in a row of which some quantity is taken already, the first that
still has any. -/
def Chosen (registry : ID) (policy : SelfTradePolicy) (taker : RestingOrder) (orders : List RestingOrder)
    (taken : List MatchIntent) (intent : MatchIntent) : Prop :=
  ∃ passed o rest, orders = passed ++ o :: rest ∧ (∀ x ∈ passed, x.availableBase ≤ share taken x.digest) ∧
    share taken o.digest < o.availableBase ∧ ¬ Excluded policy taker o ∧ crosses taker o.priceTicks = true ∧
      ∃ qty, intent = intentOf registry o.priceTicks qty taker o

section Choices

variable {registry : ID} {policy : SelfTradePolicy} {price : Nat} {incoming o : RestingOrder}
  {queue orders : List RestingOrder} {taken before after : List MatchIntent} {intent : MatchIntent}

theorem Chosen.append (chosen : Chosen registry policy incoming orders taken intent) (more : List RestingOrder) :
    Chosen registry policy incoming (orders ++ more) taken intent := by
  obtain ⟨passed, o, rest, rfl, facts⟩ := chosen
  exact ⟨passed, o, rest ++ more, by simp, facts⟩

/-- Orders that have nothing left may come first, and intents on them may have been taken. -/
theorem Chosen.behind (before : List MatchIntent) (more : List RestingOrder)
    (chosen : Chosen registry policy incoming orders taken intent)
    (spent : ∀ x ∈ more, x.availableBase ≤ share (before ++ taken) x.digest)
    (unnamed : ∀ x ∈ orders, share before x.digest = 0) :
    Chosen registry policy incoming (more ++ orders) (before ++ taken) intent := by
  obtain ⟨passed, o, rest, rfl, exhausted, some, facts⟩ := chosen
  have same : ∀ x ∈ passed ++ o :: rest, share (before ++ taken) x.digest = share taken x.digest := by
    intro x member
    rw [share_append, unnamed x member, Nat.zero_add]
  refine ⟨more ++ passed, o, rest, by simp, fun x member => ?_, ?_, facts⟩
  · rcases List.mem_append.mp member with early | late
    · exact spent x early
    · rw [same x (List.mem_append_left _ late)]
      exact exhausted x late
  · rw [same o (by simp)]
    exact some

theorem matchQueue_chosen (once : (queue.map (·.digest)).Nodup) (fresh : ∀ o ∈ queue, o.digest ≠ incoming.digest)
    (priced : ∀ o ∈ queue, o.priceTicks = price) (crossing : crosses incoming price = true)
    (emits : (matchQueue registry policy price incoming queue).intents = before ++ intent :: after) :
    Chosen registry policy incoming queue before intent := by
  induction queue generalizing incoming before with
  | nil => simp [matchQueue] at emits
  | cons resting rest ih =>
    have onceTail := (List.nodup_cons.mp once).2
    have freshTail : ∀ o ∈ rest, o.digest ≠ incoming.digest := fun o member => fresh o (List.mem_cons_of_mem _ member)
    have pricedTail : ∀ o ∈ rest, o.priceTicks = price := fun o member => priced o (List.mem_cons_of_mem _ member)
    by_cases satisfied : incoming.availableBase = 0
    · simp [matchQueue_satisfied satisfied] at emits
    · by_cases idle : resting.availableBase = 0
      · rw [matchQueue_idle satisfied idle] at emits
        exact (ih onceTail freshTail pricedTail crossing emits).behind [] [resting] (by simp [idle]) (by simp)
      · by_cases own : resting.maker = incoming.maker ∧ policy = .cancelNewest
        · simp [matchQueue_own satisfied idle own] at emits
        · rw [matchQueue_take satisfied idle own rfl] at emits
          obtain rfl := priced resting List.mem_cons_self
          cases before with
          | nil =>
            obtain ⟨rfl, -⟩ := List.cons.inj emits
            exact ⟨[], resting, rest, rfl, by simp, Nat.pos_of_ne_zero idle, own, crossing, _, rfl⟩
          | cons first before =>
            obtain ⟨rfl, later⟩ := List.cons.inj emits
            -- more is taken after this, so the incoming order wanted all that was here
            have wants : (incoming.lock (min incoming.availableBase resting.availableBase)).availableBase ≠ 0 := by
              intro nothing
              rw [matchQueue_satisfied nothing] at later
              simp at later
            rw [lock_available] at wants
            have chosen : Chosen registry policy (incoming.lock (min incoming.availableBase resting.availableBase)) rest
              before intent := ih onceTail freshTail pricedTail crossing later
            refine Chosen.behind [_] [resting] chosen (fun x member => ?_) (fun x member => ?_)
            · obtain rfl := List.mem_singleton.mp member
              rw [share_append, share_cons, if_pos (intentOf_names.mpr (Or.inr rfl))]
              change _ ≤ min _ _ + _ + _
              omega
            · refine share_eq_zero fun i single => ?_
              obtain rfl := List.mem_singleton.mp single
              by_contra named
              rcases intentOf_names.mp (by simpa using named) with mine | theirs
              · exact freshTail x member mine.symm
              · exact (List.nodup_cons.mp once).1 (List.mem_map.mpr ⟨x, member, theirs.symm⟩)

/-- The levels are met best price first, so a level that does not cross has none behind it that does. -/
theorem matchLevels_chosen {levels : Levels} (once : (levels.orders.map (·.digest)).Nodup)
    (fresh : ∀ o ∈ levels.orders, o.digest ≠ incoming.digest)
    (priced : ∀ level ∈ levels, ∀ o ∈ level.queue, o.priceTicks = level.price)
    (sorted : levels.Pairwise fun better worse => crosses incoming worse.price = true → crosses incoming better.price = true)
    (emits : (matchLevels registry policy incoming levels).intents = before ++ intent :: after) :
    Chosen registry policy incoming levels.orders before intent := by
  induction levels generalizing incoming before with
  | nil => simp [matchLevels] at emits
  | cons level rest ih =>
    rw [Levels.orders_cons] at fresh ⊢
    have parts := once
    rw [Levels.orders_cons, List.map_append, List.nodup_append] at parts
    obtain ⟨better, sortedTail⟩ := List.pairwise_cons.mp sorted
    have freshTail : ∀ o ∈ Levels.orders rest, o.digest ≠ incoming.digest :=
      fun o member => fresh o (List.mem_append_right _ member)
    have pricedTail : ∀ l ∈ rest, ∀ o ∈ l.queue, o.priceTicks = l.price :=
      fun l member => priced l (List.mem_cons_of_mem _ member)
    have freshHere : ∀ o ∈ level.queue, o.digest ≠ incoming.digest :=
      fun o member => fresh o (List.mem_append_left _ member)
    by_cases satisfied : incoming.availableBase = 0
    · simp [matchLevels_satisfied satisfied] at emits
    · by_cases skipped : crosses incoming level.price = false ∨ level.queue.all (·.availableBase = 0) = true
      · rw [matchLevels_skip satisfied skipped] at emits
        have chosen := ih parts.2.1 freshTail pricedTail sortedTail emits
        refine chosen.behind [] level.queue (fun x member => ?_) (by simp)
        rcases skipped with apart | idle
        · obtain ⟨passed, o, later, split, -, -, -, crossing, -⟩ := chosen
          obtain ⟨other, inside, queued⟩ := Levels.mem_orders.mp (split ▸ List.mem_append_right passed List.mem_cons_self)
          rw [priced other (List.mem_cons_of_mem _ inside) o queued] at crossing
          rw [better other inside crossing] at apart
          cases apart
        · have none : x.availableBase = 0 := by simpa using List.all_eq_true.mp idle x member
          omega
      · have crossing : crosses incoming level.price = true := by
          by_contra missed
          exact skipped (Or.inl (by simpa using missed))
        have pricedHere := priced level List.mem_cons_self
        have walked := matchQueue_walked registry policy parts.1 freshHere pricedHere crossing
        generalize walk : matchQueue registry policy level.price incoming level.queue = here at walked
        cases stopped : here.selfTrade with
        | true =>
          rw [matchLevels_stop satisfied skipped walk stopped] at emits
          rw [← walk] at emits
          exact (matchQueue_chosen parts.1 freshHere pricedHere crossing emits).append _
        | false =>
          rw [matchLevels_pass satisfied skipped walk stopped] at emits
          -- an intent of the later levels comes after everything here has been taken
          have beyond : ∀ early, before = here.intents ++ early →
              (matchLevels registry policy here.incoming rest).intents = early ++ intent :: after →
              Chosen registry policy incoming (level.queue ++ Levels.orders rest) before intent := by
            rintro early rfl later
            have wants : here.incoming.availableBase ≠ 0 := by
              intro nothing
              rw [matchLevels_satisfied nothing] at later
              simp at later
            have spent : ∀ o ∈ here.items, o.availableBase = 0 := by
              subst walk
              exact matchQueue_exhausts stopped wants
            have chosen := ih parts.2.1 (by rw [walked.final]; exact freshTail) pricedTail
              (by rw [walked.final]; exact sortedTail) later
            rw [walked.final] at chosen
            refine Chosen.behind here.intents level.queue chosen (fun x member => ?_) (fun x member => ?_)
            · have none := spent _ (walked.after ▸ List.mem_map_of_mem member)
              rw [lock_available] at none
              rw [share_append]
              omega
            · refine walked.unnamed (freshTail x member).symm fun y inside same => ?_
              exact parts.2.2 y.digest (List.mem_map_of_mem inside) x.digest (List.mem_map_of_mem member) same
          rcases List.append_eq_append_iff.mp emits with ⟨early, first, later⟩ | ⟨early, first, later⟩
          · exact beyond early first later
          · cases early with
            | nil => exact beyond [] (by rw [first, List.append_nil, List.append_nil]) later.symm
            | cons head early =>
              obtain ⟨rfl, -⟩ := List.cons.inj later
              rw [← walk] at first
              exact (matchQueue_chosen parts.1 freshHere pricedHere crossing first).append _

end Choices

namespace Book

variable {b next : Book} {incoming final : RestingOrder} {intents before after : List MatchIntent}
  {intent : MatchIntent} {selfTrade : Bool}

/-- An order of the other side that the taker may still match, after some intents. -/
def Contends (b : Book) (taker : RestingOrder) (taken : List MatchIntent) (o : RestingOrder) : Prop :=
  o.side = taker.side.opposite ∧ share taken o.digest < o.availableBase ∧ ¬ Excluded b.selfTradePolicy taker o

/-- The intent matches the taker with the foremost of the orders it may still match. -/
def TakesFirst (b : Book) (taker : RestingOrder) (taken : List MatchIntent) (intent : MatchIntent) : Prop :=
  ∃ o ∈ b.orders, b.Contends taker taken o ∧ (∃ qty, intent = intentOf b.market.registryId o.priceTicks qty taker o) ∧
    ∀ x ∈ b.orders, b.Contends taker taken x → x = o ∨ Ahead o x

/-- A level with a better price crosses whenever a worse one does. -/
theorem bestFirst_crosses (tidy : Levels.Tidy incoming.side.opposite (b.levels incoming.side.opposite)) :
    (bestFirst incoming.side.opposite (b.levels incoming.side.opposite)).Pairwise
      fun better worse => crosses incoming worse.price = true → crosses incoming better.price = true := by
  have sorted := tidy.sorted
  unfold crosses
  cases side : incoming.side with
  | ask =>
    rw [side] at sorted
    refine List.pairwise_reverse.mpr (sorted.imp fun {low high} less crossing => ?_)
    simp only [decide_eq_true_eq] at crossing ⊢
    omega
  | bid =>
    rw [side] at sorted
    refine sorted.imp fun {low high} less crossing => ?_
    simp only [decide_eq_true_eq] at crossing ⊢
    omega

theorem InOrder.takesFirst (inOrder : b.InOrder) (shaped : b.Shaped)
    (fresh : ∀ o ∈ b.orders, o.digest ≠ incoming.digest)
    (ran : b.matchIncoming incoming = (next, final, intents, selfTrade)) (emits : intents = before ++ intent :: after) :
    b.TakesFirst incoming before intent := by
  have perm := bestFirst_orders incoming.side.opposite (b.levels incoming.side.opposite)
  have tidy := shaped.tidy incoming.side.opposite
  have listed : ∀ o, o ∈ (bestFirst incoming.side.opposite (b.levels incoming.side.opposite)).orders ↔
      o ∈ b.orders ∧ o.side = incoming.side.opposite := fun o => perm.mem_iff.trans shaped.mem_levels
  unfold Book.matchIncoming at ran
  obtain ⟨-, -, rfl, -⟩ : _ ∧ _ ∧ _ ∧ _ := by simpa only [Prod.mk.injEq] using ran
  obtain ⟨passed, o, rest, split, exhausted, some, foreign, -, shape⟩ := matchLevels_chosen
    ((perm.map _).nodup_iff.mpr (shaped.side_once _)) (fun o member => fresh o ((listed o).mp member).1)
    (fun level member o queued => (tidy.placed level (bestFirst_mem.mp member) o queued).2) (bestFirst_crosses tidy) emits
  have here := (listed o).mp (split ▸ List.mem_append_right passed List.mem_cons_self)
  refine ⟨o, here.1, ⟨here.2, some, foreign⟩, shape, fun x member contends => ?_⟩
  have met := (listed x).mpr ⟨member, contends.1⟩
  have order := (inOrder.queued incoming.side.opposite).ahead tidy
  rw [split] at met order
  rcases List.mem_append.mp met with early | late
  · exact absurd contends.2.1 (Nat.not_lt.mpr (exhausted x early))
  · rcases List.mem_cons.mp late with same | behind
    · exact Or.inl same
    · exact Or.inr ((List.pairwise_cons.mp (List.pairwise_append.mp order).2.1).1 x behind)

/-- The order that a call matches against the other side. -/
def taker (b : Book) : BookCall → Option RestingOrder
  | .place digest order =>
    match priceAndSize b.market order with
    | .error _ => none
    | .ok (side, priceTicks, baseAmount) =>
      some { digest, maker := order.maker, side, priceTicks, remainingBase := baseAmount, pendingBase := 0, seq := b.nextSeq }
  | .rematch digest => b.get digest
  | _ => none

theorem InOrder.callTakesFirst (inOrder : b.InOrder) (shaped : b.Shaped) {what : BookCall}
    (emits : (b.call what).2 = before ++ intent :: after) :
    ∃ incoming, b.taker what = some incoming ∧ b.TakesFirst incoming before intent := by
  cases what with
  | place digest order =>
    simp only [Book.call] at emits
    split at emits
    · simp at emits
    · rename_i ran
      obtain ⟨side, price, size, middle, final, selfTrade, unindexed, priced, matching, -⟩ := place_ok ran
      refine ⟨⟨digest, order.maker, side, price, size, 0, b.nextSeq⟩, by simp only [taker, priced], ?_⟩
      exact inOrder.counted.takesFirst (shaped.nextSeq (b.nextSeq + 1)) (shaped.not_indexed.mp unindexed) matching emits
  | rematch digest =>
    simp only [Book.call] at emits
    rcases shaped.rematch_cases digest with idle | ⟨found, middle, final, emitted, _, located, -, matching, fresh, ran⟩
    · simp [idle] at emits
    · rw [ran] at emits
      refine ⟨found, located, ?_⟩
      obtain ⟨listed, same⟩ := shaped.get_iff.mp located
      have others : ∀ o, o ∈ (b.remove digest).orders ↔ o ∈ b.orders ∧ o.digest ≠ digest := by
        intro o
        rw [shaped.remove_orders, List.mem_filter, decide_eq_true_eq]
      obtain ⟨o, inside, contends, shape, first⟩ :=
        (inOrder.remove shaped digest).takesFirst (shaped.remove digest) fresh matching emits
      unfold Contends at contends first
      rw [selfTradePolicy_remove] at contends first
      rw [market_remove] at shape
      refine ⟨o, ((others o).mp inside).1, contends, shape, fun x member rival => first x ?_ rival⟩
      refine (others x).mpr ⟨member, fun repeated => ?_⟩
      -- the order that is rematched is not on the other side
      have itself := rival.1
      rw [shaped.unique member listed (repeated.trans same.symm)] at itself
      exact opposite_ne _ itself.symm
  | _ => simp [Book.call] at emits

/-- In a run of timely calls every queue is in the order of acceptance, and every intent takes the
foremost of the orders it may still match. -/
theorem priority_of_run (market : Market) (policy : SelfTradePolicy) {calls : List BookCall} {b : Book}
    (timely : Along step Timely (start market policy) calls) (ran : exec step (start market policy) calls = .ok b) :
    (∀ side, ∀ level ∈ b.levels side, level.queue.Pairwise fun first second => first.seq < second.seq) ∧
      ∀ what before intent after, (b.call what).2 = before ++ intent :: after →
        ∃ incoming, b.taker what = some incoming ∧ b.TakesFirst incoming before intent := by
  have started : (start market policy).Sound ∧ (start market policy).InOrder := by
    refine ⟨Sound.start market policy, fun side => ?_, ?_⟩
    · cases side <;> exact Levels.Queued.nil
    · simp [start, Book.new, Book.orders, Levels.orders]
  obtain ⟨sound, inOrder⟩ : b.Sound ∧ b.InOrder := by
    refine exec_invariant_along step Timely (fun b => b.Sound ∧ b.InOrder)
      (fun state what next before condition moved => ?_) started timely ran
    cases moved
    exact ⟨before.1.call what, before.2.call before.1.shaped condition⟩
  exact ⟨fun side level member => List.pairwise_map.mp (inOrder.queued side level member),
    fun _ _ _ _ emits => inOrder.callTakesFirst sound.shaped emits⟩

/-- An ask is matched, the settlement fails for the bid's sake, and the ask is matched again. -/
def failing : List BookCall :=
  [.place [3] (Flight.Sample.bid 3 4), .settleFailed ⟨1, [1], [3], 4, 1⟩ [[3]], .rematch [1]]

/-- Beside an ask that was accepted later, the rematched one falls back behind it and the next bid
takes the other. -/
theorem rematch_loses_priority :
    ∃ b, exec step (start Flight.Sample.market .cancelNewest)
        ([.place [1] (Flight.Sample.ask 1 10), .place [2] (Flight.Sample.ask 2 10)] ++ failing) = .ok b ∧
      (∃ level ∈ b.asks, level.queue.map (fun o => (o.digest, o.seq, o.availableBase)) = [([2], 1, 10), ([1], 0, 10)]) ∧
      (b.call (.place [4] (Flight.Sample.bid 4 4))).2 = [⟨1, [2], [4], 4, 1⟩] := by
  refine exists_ok (fun b =>
    (b.asks.any fun level =>
      level.queue.map (fun o => (o.digest, o.seq, o.availableBase)) = [([2], 1, 10), ([1], 0, 10)]) &&
      decide ((b.call (.place [4] (Flight.Sample.bid 4 4))).2 = [⟨1, [2], [4], 4, 1⟩])) (by decide +kernel) ?_
  intro b _ passed
  rw [Bool.and_eq_true, List.any_eq_true] at passed
  obtain ⟨⟨level, member, queue⟩, taken⟩ := passed
  exact ⟨⟨level, member, of_decide_eq_true queue⟩, of_decide_eq_true taken⟩

def timelyTest (b : Book) : BookCall → Bool
  | .rematch digest => (b.get digest).all fun o => b.orders.all fun other =>
      decide (other.digest = digest ∨ other.side ≠ o.side ∨ other.priceTicks ≠ o.priceTicks ∨ other.seq < o.seq)
  | _ => true

theorem timelyTest_sound {what : BookCall} (passed : b.timelyTest what = true) : b.Timely what := by
  cases what with
  | rematch digest =>
    intro o found _ other member differs side priced
    rw [timelyTest, found, Option.all_some, List.all_eq_true] at passed
    rcases of_decide_eq_true (passed other member) with same | elsewhere | dearer | earlier
    · exact absurd same differs
    · exact absurd side elsewhere
    · exact absurd priced dearer
    · exact earlier
  | _ => trivial

/-- Alone at its price, it keeps its place. -/
theorem priority_of_run_alone :
    ∃ b, exec step (start Flight.Sample.market .cancelNewest) (.place [1] (Flight.Sample.ask 1 10) :: failing) = .ok b ∧
      (b.call (.place [4] (Flight.Sample.bid 4 4))).2 = [⟨1, [1], [4], 4, 1⟩] ∧
        ∃ incoming, b.taker (.place [4] (Flight.Sample.bid 4 4)) = some incoming ∧
          b.TakesFirst incoming [] ⟨1, [1], [4], 4, 1⟩ := by
  refine exists_ok (fun b => decide ((b.call (.place [4] (Flight.Sample.bid 4 4))).2 = [⟨1, [1], [4], 4, 1⟩]))
    (by decide +kernel) (fun b ran passed => ?_)
  have taken := of_decide_eq_true passed
  have timely : Along step Timely (start Flight.Sample.market .cancelNewest)
      (.place [1] (Flight.Sample.ask 1 10) :: failing) :=
    along_of_test step (fun _ _ _ (_ : True) _ => trivial) (fun _ _ _ tested => timelyTest_sound tested) trivial
      (by decide +kernel)
  exact ⟨taken, (priority_of_run Flight.Sample.market .cancelNewest timely ran).2 _ [] _ [] taken⟩

end Book

end SuiOptions.Orderbook
