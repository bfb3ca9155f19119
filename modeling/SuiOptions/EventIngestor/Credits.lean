import SuiOptions.EventIngestor.Backfill

/-! Which events a backfill credits, and how it ends.

The page of the server ascends, so the reversed page descends, and what the loop takes
for the oldest event of a page is its newest. The walk ends a page late, and nothing
holds the events of the last page against the start of the rule.
-/

set_option autoImplicit false

namespace SuiOptions.EventIngestor

section Delivery

variable {services : Services} {rule : Rule}

def creditOf (services : Services) (rule : Rule) (claimed : String → Bool) (ev : ChainEvent) : Option PointsRequest :=
  if claimed (ev.key rule) then none else (services.recipient ev rule).map (request rule ev)

theorem deliverPage_spec {events : List ChainEvent} {ledger : Ledger}
    (typed : ∀ ev ∈ events, services.canonicalType ev.typeRepr = services.canonicalType rule.eventType)
    (once : (events.map (·.key rule)).Nodup) :
    (deliverPage services rule ledger events).posted =
        ledger.posted ++ events.filterMap (creditOf services rule ledger.claimed) ∧
      (deliverPage services rule ledger events).reached = ledger.reached ++ events := by
  induction events generalizing ledger with
  | nil => simp [deliverPage]
  | cons ev rest ih =>
    obtain ⟨fresh, once⟩ := List.nodup_cons.mp once
    have own := typed ev List.mem_cons_self
    obtain ⟨posted, reached⟩ := @ih (deliver services rule ledger ev)
      (fun next inside => typed next (List.mem_cons_of_mem _ inside)) once
    have split : deliverPage services rule ledger (ev :: rest) =
        deliverPage services rule (deliver services rule ledger ev) rest := rfl
    -- the key of this event is no other's
    have others : ∀ next ∈ rest, (deliver services rule ledger ev).claimed (next.key rule) = ledger.claimed (next.key rule) := by
      intro next inside
      have apart : ev.key rule ≠ next.key rule := fun same => fresh (List.mem_map.mpr ⟨next, inside, same.symm⟩)
      unfold deliver
      simp only [own, ne_eq, not_true_eq_false, if_false]
      split
      · rfl
      · split
        · rfl
        · simp [Ledger.claimed, apart]
    have later : rest.filterMap (creditOf services rule (deliver services rule ledger ev).claimed) =
        rest.filterMap (creditOf services rule ledger.claimed) := by
      apply List.filterMap_congr
      intro next inside
      unfold creditOf
      rw [others next inside]
    have here : (deliver services rule ledger ev).posted =
        ledger.posted ++ (creditOf services rule ledger.claimed ev).toList ∧
        (deliver services rule ledger ev).reached = ledger.reached ++ [ev] := by
      have same : ∀ key, ({ ledger with reached := ledger.reached ++ [ev] } : Ledger).claimed key = ledger.claimed key :=
        fun _ => rfl
      unfold deliver creditOf
      simp only [own, ne_eq, not_true_eq_false, if_false, same]
      by_cases claimed : ledger.claimed (ev.key rule) = true
      · simp [claimed]
      · cases found : services.recipient ev rule <;> simp [claimed]
    rw [split, posted, reached, later, here.1, here.2]
    constructor
    · cases credit : creditOf services rule ledger.claimed ev <;> simp [credit]
    · simp

end Delivery

/-! ### The server -/

/-- A page in ascending order: the last `limit` of the events `upto` a cursor, and the cursor of the first of them. -/
structure Shows (position : String → Nat) (connection : Connection) (upto : List ChainEvent) (limit : Nat) : Prop where
  nodes : connection.nodes = upto.drop (upto.length - limit)
  previous : connection.hasPreviousPage = decide (limit < upto.length)
  cursor : upto ≠ [] → ∃ cursor, connection.startCursor = some cursor ∧ position cursor = upto.length - limit

/-- The server of a history; a cursor stands for a place in it. -/
structure Serves (services : Services) (eventType : String) (position : String → Nat) (history : List ChainEvent) : Prop where
  tip : ∀ limit, Shows position (services.events eventType none limit) history limit
  earlier : ∀ cursor limit, Shows position (services.events eventType (some cursor) limit)
    (history.take (position cursor)) limit

/-- The events of a rule's type, as the chain orders them. -/
structure Chronicle (services : Services) (rule : Rule) (history : List ChainEvent) : Prop where
  ordered : history.Pairwise fun first second => first.timestampMs ≤ second.timestampMs
  typed : ∀ ev ∈ history, services.canonicalType ev.typeRepr = services.canonicalType rule.eventType
  once : (history.map (·.key rule)).Nodup

def before (startAt : Int) (ev : ChainEvent) : Bool := ev.time < startAt

section Walk

variable {services : Services} {rule : Rule} {position : String → Nat} {history : List ChainEvent} {startAt : Int} {pageCap : Nat}

theorem time_ne_zero (ev : ChainEvent) : ev.time ≠ zeroTime := by
  unfold ChainEvent.time unixMilli zeroTime
  omega

theorem Chronicle.descending (chronicle : Chronicle services rule history) (count : Nat) :
    (history.take count).reverse.Pairwise fun first second => second.time ≤ first.time := by
  rw [List.pairwise_reverse]
  apply (chronicle.ordered.sublist (List.take_sublist _ _)).imp
  intro first second le
  unfold ChainEvent.time unixMilli
  omega

theorem monotone_of_descending {events : List ChainEvent}
    (descending : events.Pairwise fun first second => second.time ≤ first.time) : Pages.Monotone (before startAt) events := by
  apply descending.imp
  intro first second le stops
  unfold before at stops ⊢
  rw [decide_eq_true_iff] at stops ⊢
  omega

theorem reverse_last {α : Type} (items : List α) (limit : Nat) :
    (items.drop (items.length - limit)).reverse = items.reverse.take limit := by
  rw [List.reverse_drop, List.take_eq_take_iff, List.length_reverse]
  omega

/-- The loop reads pages of the reversed history down to the first whose newest event is before the start. -/
theorem walk_spec (positive : 0 < pageCap) (serves : Serves services rule.eventType position history)
    (chronicle : Chronicle services rule history) {rounds count : Nat} {cursor : Option String} {p : Progress}
    (shows : Shows position (services.events rule.eventType cursor pageCap) (history.take count) pageCap)
    (enough : (history.take count).length < rounds) :
    (walk services pageCap rule startAt rounds cursor p).ledger =
        deliverPage services rule p.ledger (Pages.walked pageCap (before startAt) rounds (history.take count).reverse) ∧
      (walk services pageCap rule startAt rounds cursor p).state =
        if (Pages.lastHead pageCap (history.take count).reverse).any (fun ev => ev.time ≤ startAt) then .done else .exhausted := by
  induction rounds generalizing count cursor p with
  | zero => omega
  | succ rounds ih =>
    have descending := chronicle.descending count
    have page : queryEvents services pageCap rule.eventType cursor pageCap =
        ⟨(history.take count).reverse.take pageCap, (services.events rule.eventType cursor pageCap).startCursor,
          decide (pageCap < (history.take count).reverse.length)⟩ := by
      simp only [queryEvents, Nat.min_self, shows.nodes, shows.previous, reverse_last, List.length_reverse]
    cases newest : (history.take count).reverse with
    | nil =>
      simp only [walk, page, newest, List.take_nil]
      split <;> simp [Pages.walked, deliverPage, Pages.lastHead]
    | cons head tail =>
      have nonempty : history.take count ≠ [] := by
        intro empty
        rw [empty] at newest
        cases newest
      obtain ⟨next, started, place⟩ := shows.cursor nonempty
      obtain ⟨size, rfl⟩ : ∃ size, pageCap = size + 1 := ⟨pageCap - 1, by omega⟩
      rw [newest] at descending page
      simp only [walk, page, started, Option.isSome_some, if_true, List.take_succ_cons, time_ne_zero, ne_eq, not_false_eq_true,
        true_and, Bool.not_eq_true, decide_eq_false_iff_not]
      by_cases short : (head :: tail).length ≤ size + 1
      · rw [if_pos (by omega), Pages.lastHead_of_le short]
        simp only [Pages.walked, if_pos (Or.inl short), List.append_nil, List.take_succ_cons, Option.any_some,
          decide_eq_true_eq, true_and, ← Int.le_iff_lt_or_eq]
      · rw [if_neg (by omega)]
        by_cases stops : head.time < startAt
        · have least : (Pages.lastHead (size + 1) (head :: tail)).any (fun ev => ev.time ≤ startAt) = true := by
            obtain ⟨last, found⟩ := Pages.lastHead_isSome (size + 1) (List.cons_ne_nil head tail)
            have below : last.time ≤ head.time := by
              rcases List.mem_cons.mp (List.mem_of_getElem? found) with rfl | inside
              · exact le_rfl
              · exact (List.pairwise_cons.mp descending).1 last inside
            rw [found, Option.any_some, decide_eq_true_iff]
            omega
          have stopping : (head :: tail).length ≤ size + 1 ∨ before startAt head = true := Or.inr (decide_eq_true stops)
          simp only [if_pos stops, Pages.walked, if_pos stopping, List.append_nil, List.take_succ_cons, least, if_true,
            and_self]
        · have goes : ¬ ((head :: tail).length ≤ size + 1 ∨ before startAt head = true) := by
            rintro (few | stopping)
            · exact short few
            · exact stops (of_decide_eq_true stopping)
          -- the next page ends where this one begins
          have older : (history.take (position next)).reverse = (head :: tail).drop (size + 1) := by
            have length := List.length_take_le count history
            rw [← newest, List.drop_reverse, List.take_take, place, min_eq_left ((Nat.sub_le _ _).trans length)]
          have shorter : (history.take (position next)).length < rounds := by
            have counts := congrArg List.length newest
            rw [List.length_reverse] at counts
            rw [← List.length_reverse, older, List.length_drop]
            omega
          obtain ⟨ledger, state⟩ := ih (serves.earlier next (size + 1)) shorter
            (p := ⟨deliverPage services rule p.ledger ((head :: tail).take (size + 1)), some next, p.state⟩)
          rw [older] at ledger state
          rw [Pages.lastHead_drop (Nat.succ_pos size) (Nat.lt_of_not_ge short)] at state
          rw [if_neg stops]
          simp only [List.take_succ_cons] at ledger state ⊢
          rw [ledger, state, Pages.walked, if_neg goes]
          simp only [deliverPage, List.foldl_append, List.take_succ_cons, and_self]

end Walk

/-! ### What is credited -/

/-- The events older than the start on the pages that are read: with so many events at or after the start,
the pages these stand on and one page more. -/
def overrun (pageCap : Nat) (startAt : Int) (history : List ChainEvent) : List ChainEvent :=
  (history.reverse.take (Pages.reach pageCap (before startAt) history.reverse)).drop
    (Pages.ahead (before startAt) history.reverse)

section Credits

variable {services : Services} {rule : Rule} {position : String → Nat} {history : List ChainEvent} {startAt : Int} {pageCap : Nat}

theorem filter_before (events : List ChainEvent) :
    (events.filter fun ev => !before startAt ev) = events.filter fun ev => startAt ≤ ev.time := by
  apply List.filter_congr
  intro ev _
  by_cases early : ev.time < startAt
  · simp [before, early]
  · simp [before, early, not_lt.mp early]

/-- The newest events are those at or after the start, and the walk reads some older ones behind them. -/
theorem reached_split (positive : 0 < pageCap) (monotone : Pages.Monotone (before startAt) history.reverse) :
    history.reverse.take (Pages.reach pageCap (before startAt) history.reverse) =
      (history.filter fun ev => startAt ≤ ev.time).reverse ++ overrun pageCap startAt history := by
  have within : Pages.ahead (before startAt) history.reverse ≤ Pages.reach pageCap (before startAt) history.reverse :=
    (Pages.ahead_lt_reach positive _).le
  have newest := Pages.take_ahead monotone
  rw [filter_before, List.filter_reverse] at newest
  unfold overrun
  rw [← newest]
  have front : history.reverse.take (Pages.ahead (before startAt) history.reverse) =
      (history.reverse.take (Pages.reach pageCap (before startAt) history.reverse)).take
        (Pages.ahead (before startAt) history.reverse) := by
    rw [List.take_take, min_eq_left within]
  rw [front, List.take_append_drop]

theorem perm_append_iff {credited due extra : List PointsRequest} (same : credited = due.reverse ++ extra) :
    credited.Perm due ↔ extra = [] := by
  constructor
  · intro perm
    have length := perm.length_eq
    rw [same, List.length_append, List.length_reverse] at length
    exact List.length_eq_zero_iff.mp (by omega)
  · rintro rfl
    rw [same, List.append_nil]
    exact List.reverse_perm due

theorem overrun_old (monotone : Pages.Monotone (before startAt) history.reverse) {ev : ChainEvent}
    (member : ev ∈ overrun pageCap startAt history) : ev.time < startAt := by
  have behind : ev ∈ history.reverse.drop (Pages.ahead (before startAt) history.reverse) := by
    unfold overrun at member
    rw [List.drop_take] at member
    exact List.mem_of_mem_take member
  exact of_decide_eq_true (Pages.stop_of_mem_drop monotone behind)

theorem reached_old_iff (positive : 0 < pageCap) (monotone : Pages.Monotone (before startAt) history.reverse) :
    (∃ ev ∈ history.reverse.take (Pages.reach pageCap (before startAt) history.reverse), ev.time ≤ startAt) ↔
      ∃ ev ∈ history, ev.time ≤ startAt := by
  constructor
  · rintro ⟨ev, member, old⟩
    exact ⟨ev, List.mem_reverse.mp (List.mem_of_mem_take member), old⟩
  · rintro ⟨ev, member, old⟩
    rcases Nat.lt_or_ge (Pages.reach pageCap (before startAt) history.reverse) history.reverse.length with part | whole
    · -- the last page that is read has an older event
      have length : 0 < (overrun pageCap startAt history).length := by
        unfold overrun
        have more : Pages.ahead (before startAt) history.reverse < Pages.reach pageCap (before startAt) history.reverse :=
          Pages.ahead_lt_reach positive _
        rw [List.length_drop, List.length_take, min_eq_left part.le]
        omega
      obtain ⟨late, inside⟩ := List.exists_mem_of_length_pos length
      refine ⟨late, ?_, (overrun_old monotone inside).le⟩
      rw [reached_split positive monotone]
      exact List.mem_append_right _ inside
    · refine ⟨ev, ?_, old⟩
      rw [List.take_of_length_le whole]
      exact List.mem_reverse.mpr member

/-- The newest event of the oldest page is after the start, and an event of the history is not. -/
def Straddles (pageCap : Nat) (startAt : Int) (history : List ChainEvent) : Prop :=
  (∃ newest, Pages.lastHead pageCap history.reverse = some newest ∧ startAt < newest.time) ∧
    ∃ ev ∈ history, ev.time ≤ startAt

/-- The walk ends in `done` exactly when the newest event of the oldest page is not after the start. -/
theorem done_iff :
    ((Pages.lastHead pageCap history.reverse).any (fun ev => ev.time ≤ startAt) = true ↔ ∃ ev ∈ history, ev.time ≤ startAt) ↔
      ¬ Straddles pageCap startAt history := by
  unfold Straddles
  cases found : Pages.lastHead pageCap history.reverse with
  | none =>
    have empty : history = [] := by
      by_contra nonempty
      obtain ⟨item, there⟩ := Pages.lastHead_isSome pageCap (mt List.reverse_eq_nil_iff.mp nonempty)
      rw [found] at there
      cases there
    simp [empty]
  | some newest =>
    have member : newest ∈ history := List.mem_reverse.mp (List.mem_of_getElem? found)
    simp only [Option.any_some, decide_eq_true_iff, Option.some.injEq, exists_eq_left']
    constructor
    · rintro same ⟨after, old⟩
      exact absurd (same.mpr old) (not_le.mpr after)
    · intro apart
      constructor
      · exact fun old => ⟨newest, member, old⟩
      · intro old
        by_contra after
        exact apart ⟨not_le.mp after, old⟩

/-- A backfill from the tip credits exactly the events at or after the start if and only if it could credit none of
the older events it reads on its last pages, and it tells whether it reached the start if and only if the oldest page
of the history does not straddle it. It ends in one of the two states. -/
theorem backfill_iff (positive : 0 < pageCap) (serves : Serves services rule.eventType position history)
    (chronicle : Chronicle services rule history) (mode : rule.startMode = "timestamp") (start : rule.startAt = some startAt)
    (tip : rule.backfillCursor = none) {rounds : Nat} (enough : history.length < rounds) (deliveries : List Delivery) :
    let credit := creditOf services rule (Ledger.claimed ⟨[], deliveries, []⟩)
    let p := backfillRule services pageCap rule rounds deliveries
    (p.ledger.posted.Perm ((history.filter fun ev => startAt ≤ ev.time).filterMap credit) ↔
      ∀ ev ∈ overrun pageCap startAt history, credit ev = none) ∧
    ((p.state = .done ↔ ∃ ev ∈ p.ledger.reached, ev.time ≤ startAt) ↔ ¬ Straddles pageCap startAt history) ∧
    (p.state = .done ∨ p.state = .exhausted) := by
  have descending := chronicle.descending history.length
  rw [List.take_length] at descending
  have monotone : Pages.Monotone (before startAt) history.reverse := monotone_of_descending descending
  have whole : Shows position (services.events rule.eventType none pageCap) (history.take history.length) pageCap := by
    rw [List.take_length]
    exact serves.tip pageCap
  have fits : (history.take history.length).length < rounds := by
    rw [List.take_length]
    exact enough
  intro credit p
  -- the run is the loop from the tip
  have run : p = walk services pageCap rule startAt rounds none ⟨⟨[], deliveries, []⟩, none, .running⟩ := by
    simp only [p, backfillRule, mode, start, tip]
  obtain ⟨ledger, state⟩ := @walk_spec services rule position history startAt pageCap positive serves chronicle rounds _ none
    ⟨⟨[], deliveries, []⟩, none, .running⟩ whole fits
  rw [← run, List.take_length] at ledger state
  have shorter : history.reverse.length < rounds := by
    rw [List.length_reverse]
    exact enough
  -- the pages that are read are the first ones of the history, newest first
  rw [Pages.walked_eq_take positive shorter monotone] at ledger
  have part : (history.reverse.take (Pages.reach pageCap (before startAt) history.reverse)).Sublist history.reverse :=
    List.take_sublist _ _
  have typed : ∀ ev ∈ history.reverse.take (Pages.reach pageCap (before startAt) history.reverse),
      services.canonicalType ev.typeRepr = services.canonicalType rule.eventType :=
    fun ev member => chronicle.typed ev (List.mem_reverse.mp (part.subset member))
  -- so every event is delivered once at most
  have once : ((history.reverse.take (Pages.reach pageCap (before startAt) history.reverse)).map (·.key rule)).Nodup := by
    apply List.Nodup.sublist (part.map _)
    rw [List.map_reverse, List.nodup_reverse]
    exact chronicle.once
  obtain ⟨posted, reached⟩ := @deliverPage_spec services rule _ ⟨[], deliveries, []⟩ typed once
  rw [← ledger] at posted reached
  rw [List.nil_append] at posted reached
  refine ⟨?_, ?_, ?_⟩
  · rw [reached_split positive monotone, List.filterMap_append, List.filterMap_reverse] at posted
    rw [perm_append_iff posted, List.filterMap_eq_nil_iff]
  · rw [state, reached, reached_old_iff positive monotone, ← done_iff]
    split <;> simp [*]
  · rw [state]
    split
    · exact Or.inl rfl
    · exact Or.inr rfl

end Credits

namespace Sample

/-- A server whose cursors are as long as there are events before them. -/
def serve (history : List ChainEvent) (cursor : Option String) (limit : Nat) : Connection :=
  let upto := history.take (cursor.elim history.length String.length)
  { nodes := upto.drop (upto.length - limit)
    hasPreviousPage := limit < upto.length
    startCursor := if upto = [] then none else some (String.ofList (List.replicate (upto.length - limit) 'x')) }

/-- Senders and types come in their normal form. -/
def services (history : List ChainEvent) : Services where
  events _ := serve history
  recipient ev _ := if ev.sender = "" then none else some ⟨"wallet", ev.sender⟩
  canonicalType type := type

theorem serve_shows (history : List ChainEvent) (cursor : Option String) (limit : Nat) :
    Shows String.length (serve history cursor limit) (history.take (cursor.elim history.length String.length)) limit := by
  refine ⟨rfl, rfl, fun nonempty => ?_⟩
  exact ⟨_, if_neg nonempty, by simp⟩

theorem serves (history : List ChainEvent) (eventType : String) :
    Serves (services history) eventType String.length history where
  tip limit := by
    have shows := serve_shows history none limit
    rw [Option.elim_none, List.take_length] at shows
    exact shows
  earlier cursor limit := serve_shows history (some cursor) limit

def trade (txDigest : String) (timestampMs : Nat) : ChainEvent :=
  ⟨txDigest, 0, "0x2::trade::Filled", "\x7b\x7d", "0xa", timestampMs⟩

def rule : Rule where
  id := 7
  eventType := "0x2::trade::Filled"
  label := "trade"
  points := 10
  recipientMode := "sender"
  recipientField := none
  startMode := "timestamp"
  startAt := some (unixMilli 1000)
  backfillCursor := none

def early : List ChainEvent := [trade "A" 500, trade "B" 1000, trade "C" 2000]

def punctual : List ChainEvent := [trade "B" 1000, trade "C" 2000]

theorem chronicle_early : Chronicle (services early) rule early := by
  refine ⟨?_, ?_, ?_⟩ <;> decide

theorem chronicle_punctual : Chronicle (services punctual) rule punctual := by
  refine ⟨?_, ?_, ?_⟩ <;> decide

/-- On pages of one event two trades at or after the start are credited, and the walk sees that it reached the start. -/
theorem backfill_punctual :
    let credit := creditOf (services punctual) rule (Ledger.claimed ⟨[], [], []⟩)
    let p := backfillRule (services punctual) 1 rule 3 []
    p.ledger.posted.Perm ((punctual.filter fun ev => unixMilli 1000 ≤ ev.time).filterMap credit) ∧
    (p.state = .done ↔ ∃ ev ∈ p.ledger.reached, ev.time ≤ unixMilli 1000) ∧
    (p.state = .done ∨ p.state = .exhausted) := by
  obtain ⟨credits, done, ended⟩ :=
    backfill_iff Nat.one_pos (serves punctual rule.eventType) chronicle_punctual rfl rfl rfl (by decide : punctual.length < 3) []
  refine ⟨credits.mpr (by decide +kernel), done.mpr ?_, ended⟩
  rintro ⟨⟨newest, last, late⟩, -⟩
  have head : Pages.lastHead 1 punctual.reverse = some (trade "B" 1000) := by decide +kernel
  cases head.symm.trans last
  exact absurd late (by decide)

/-- One page of three trades credits the early one too, and does not see that it reached the start. -/
theorem backfill_early :
    let credit := creditOf (services early) rule (Ledger.claimed ⟨[], [], []⟩)
    let p := backfillRule (services early) 50 rule 4 []
    Serves (services early) rule.eventType String.length early ∧ Chronicle (services early) rule early ∧
      (trade "A" 500).key rule ∈ p.ledger.posted.map (·.idempotencyKey) ∧
      ¬ p.ledger.posted.Perm ((early.filter fun ev => unixMilli 1000 ≤ ev.time).filterMap credit) ∧
      ¬ (p.state = .done ↔ ∃ ev ∈ p.ledger.reached, ev.time ≤ unixMilli 1000) := by
  refine ⟨serves early rule.eventType, chronicle_early, ?_⟩
  decide +kernel

end Sample

end SuiOptions.EventIngestor
