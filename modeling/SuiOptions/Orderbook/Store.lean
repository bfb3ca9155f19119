import SuiOptions.Orderbook.Calls
import SuiOptions.Orderbook.Settlable

/-! The stored orders and the process that serves them.

Intake stores an order before its request reaches the book, fills and
cancellations are written by chain sync, and a start-up rebuilds the book from
the rows that are still open. Memory and store are written in separate steps,
so a run may interleave them in any order and may be cut off between any two.
Intake checks that read neither the order's terms nor the rows (signature,
salt, escrow, pause) only refuse more orders and are left out.
-/

set_option autoImplicit false

namespace SuiOptions.Orderbook

open Exchange Execution

inductive IntakeErrorCode where
  | tokenMismatch
  | zeroAmount
  | amountRange
  | offTick
  | belowMinSize
  | expiryTooSoon
  | expiryTooFar
  | duplicate
  | internal
  deriving DecidableEq, Repr

structure IntakeConfig where
  minTtlMs : Nat
  maxTtlMs : Nat

/-- `IntakeConfig::default()` -/
def IntakeConfig.standard : IntakeConfig := ⟨30000, 24 * 60 * 60 * 1000⟩

def IntakeErrorCode.ofBook : BookError → IntakeErrorCode
  | .wrongMarket => .tokenMismatch
  | .offTick => .offTick
  | .belowMinSize => .belowMinSize
  | .duplicate | .overflow => .internal

def validateStateless (market : Market) (order : Order) (cfg : IntakeConfig) (now : Nat) :
    Except IntakeErrorCode (Side × Nat) := do
  require (order.makerAmount.toNat ≠ 0 ∧ order.takerAmount.toNat ≠ 0) .zeroAmount
  require (order.makerAmount.toNat < 2 ^ 63 ∧ order.takerAmount.toNat < 2 ^ 63) .amountRange
  match priceAndSize market order with
  | .error why => .error (.ofBook why)
  | .ok (side, priceTicks, _) => do
    require (now + cfg.minTtlMs ≤ order.expiryMs.toNat) .expiryTooSoon
    require (order.expiryMs.toNat ≤ now + cfg.maxTtlMs) .expiryTooFar
    return (side, priceTicks)

/-! ### Rows -/

inductive OrderStatus where
  | opened
  | filled
  | cancelled
  | pruned
  | expired
  deriving DecidableEq, Repr

structure StoredOrder where
  digest : Bytes
  order : Order
  side : Side
  priceTicks : Nat
  /-- Cumulative and confirmed on chain, in units of the taker token. -/
  filledTaker : Nat
  status : OrderStatus
  deriving DecidableEq

namespace StoredOrder

/-- The size of the order in base units. -/
def base (row : StoredOrder) : Nat := (amounts row.side row.order).1

/-- The stored fill in base units. An ask is filled in quote, and what it has paid out
rounds down, as in `open_commitment`. -/
def filledBase (row : StoredOrder) : Nat :=
  match row.side with
  | .bid => row.filledTaker
  | .ask => row.filledTaker * row.order.makerAmount.toNat / max row.order.takerAmount.toNat 1

def live (now : Nat) (row : StoredOrder) : Bool :=
  row.status = .opened ∧ now < row.order.expiryMs.toNat

/-- `apply_fill`, once for each event. -/
def applyFill (filledTotal : Nat) (row : StoredOrder) : StoredOrder :=
  let newFilled := max row.filledTaker filledTotal
  { row with
    filledTaker := newFilled
    status := if row.order.takerAmount.toNat ≤ newFilled then .filled else row.status }

def setStatus (status : OrderStatus) (row : StoredOrder) : StoredOrder := { row with status }

def expire (now : Nat) (row : StoredOrder) : StoredOrder :=
  if row.status = .opened ∧ row.order.expiryMs.toNat ≤ now then { row with status := .expired } else row

end StoredOrder

def updateRow (digest : Bytes) (f : StoredOrder → StoredOrder) (rows : List StoredOrder) : List StoredOrder :=
  rows.map fun row => if row.digest = digest then f row else row

def openOrders (rows : List StoredOrder) : List StoredOrder := rows.filter (·.status = .opened)

/-- The book at start-up: every open order that has not expired is placed again, and the
intents that `place` returns are dropped. -/
def rebuild (market : Market) (now : Nat) (rows : List StoredOrder) : Book :=
  (openOrders rows).foldl (fun book stored =>
    if stored.order.expiryMs.toNat ≤ now then book
    else (book.call (.place stored.digest stored.order)).1) (Book.new market)

/-! ### The service -/

structure Server where
  /-- The book, and the matches that wait for the settlement worker. -/
  flight : Flight
  /-- By creation. -/
  rows : List StoredOrder
  /-- Requests whose order is stored and has not reached the book. -/
  accepted : List (Bytes × Order)

namespace Server

inductive Event where
  | intake (now : Nat) (digest : Bytes) (order : Order)
  | place (which : Nat)
  | rematch (digest : Bytes)
  | settleSuccess (which : Nat)
  | settleFailed (which : Nat) (drop : List Bytes)
  | applyExternalFill (digest : Bytes) (baseAmount : Nat)
  | remove (digest : Bytes)
  | applyFill (digest : Bytes) (filledTotal : Nat)
  | setOrderStatus (digest : Bytes) (status : OrderStatus)
  | restart (now : Nat)

/-- An operation on the book; a refused order leaves it as it is. -/
def serve (s : Server) (op : Op) : Server :=
  match s.flight.step op with
  | .error _ => s
  | .ok flight => { s with flight }

/-- The queue of matches and the requests under way end with the process. -/
def restart (s : Server) (now : Nat) : Server :=
  { flight := ⟨rebuild s.flight.book.market now s.rows, []⟩
    rows := s.rows.map (StoredOrder.expire now)
    accepted := [] }

def step (cfg : IntakeConfig) (s : Server) : Event → Except IntakeErrorCode Server
  | .intake now digest order => do
    let (side, priceTicks) ← validateStateless s.flight.book.market order cfg now
    require (∀ row ∈ s.rows, row.digest ≠ digest) .duplicate
    return { s with
      rows := s.rows ++ [⟨digest, order, side, priceTicks, 0, .opened⟩]
      accepted := s.accepted ++ [(digest, order)] }
  | .place which =>
    match s.accepted[which]? with
    | none => .ok s
    | some (digest, order) => .ok { s.serve (.place digest order) with accepted := s.accepted.eraseIdx which }
  | .rematch digest => .ok (s.serve (.rematch digest))
  | .settleSuccess which => .ok (s.serve (.settleSuccess which))
  | .settleFailed which drop => .ok (s.serve (.settleFailed which drop))
  | .applyExternalFill digest baseAmount => .ok (s.serve (.applyExternalFill digest baseAmount))
  | .remove digest => .ok (s.serve (.remove digest))
  | .applyFill digest filledTotal => .ok { s with rows := updateRow digest (.applyFill filledTotal) s.rows }
  | .setOrderStatus digest status => .ok { s with rows := updateRow digest (.setStatus status) s.rows }
  | .restart now => .ok (s.restart now)

def start (market : Market) : Server := ⟨⟨Book.new market, []⟩, [], []⟩

end Server

/-! ### Orders and their rows -/

def RestingOrder.Same (first second : RestingOrder) : Prop :=
  first.digest = second.digest ∧ first.side = second.side ∧ first.priceTicks = second.priceTicks

def StoredOrder.Names (row : StoredOrder) (o : RestingOrder) : Prop :=
  row.digest = o.digest ∧ row.side = o.side ∧ row.priceTicks = o.priceTicks

theorem StoredOrder.Names.same {row : StoredOrder} {o old : RestingOrder} (named : row.Names old) (same : o.Same old) :
    row.Names o :=
  ⟨named.1.trans same.1.symm, named.2.1.trans same.2.1.symm, named.2.2.trans same.2.2.symm⟩

namespace Book

variable {b : Book} {o : RestingOrder} {digest : Bytes} {f : RestingOrder → RestingOrder}

theorem same_of_keeps (keeps : Keeps f) (old : RestingOrder) : (f old).Same old :=
  ⟨keeps.digest old, keeps.side old, keeps.priceTicks old⟩

def From (b next : Book) : Prop := ∀ o ∈ next.orders, ∃ old ∈ b.orders, o.Same old

theorem From.refl (b : Book) : From b b := fun o member => ⟨o, member, rfl, rfl, rfl⟩

theorem From.trans {b middle next : Book} (early : From b middle) (late : From middle next) : From b next := by
  intro o member
  obtain ⟨between, inside, same⟩ := late o member
  obtain ⟨old, first, before⟩ := early between inside
  exact ⟨old, first, same.1.trans before.1, same.2.1.trans before.2.1, same.2.2.trans before.2.2⟩

theorem Shaped.from_modify (shaped : b.Shaped) (keeps : Keeps f) (digest : Bytes) : From b (b.modify digest f) := by
  intro o member
  rw [shaped.modify_orders] at member
  obtain ⟨old, inside, rfl⟩ := List.mem_map.mp member
  exact ⟨old, inside, same_of_keeps (keeps.onDigest digest) old⟩

theorem Shaped.from_remove (shaped : b.Shaped) (digest : Bytes) : From b (b.remove digest) := by
  intro o member
  rw [shaped.remove_orders] at member
  exact ⟨o, List.mem_of_mem_filter member, rfl, rfl, rfl⟩

theorem Shaped.from_change (shaped : b.Shaped) (keeps : Keeps f) (digest : Bytes) :
    From b ((b.modify digest f).pruneIfDone digest) := by
  intro o member
  obtain ⟨old, inside, rfl, -⟩ := ((shaped.modify_prune keeps digest).2 o).mp member
  exact ⟨old, inside, same_of_keeps (keeps.onDigest digest) old⟩

theorem Shaped.from_removeAll (shaped : b.Shaped) (drop : List Bytes) : From b (drop.foldl Book.remove b) := by
  induction drop generalizing b with
  | nil => exact From.refl b
  | cons digest rest ih => exact (shaped.from_remove digest).trans (ih (shaped.remove digest))

/-- Only a placement brings an order into the book, at the price of its terms. -/
theorem Shaped.from_call (shaped : b.Shaped) (what : BookCall) : From b (b.call what).1 ∨
    ∃ digest order, what = .place digest order ∧ ∀ o ∈ (b.call what).1.orders, (∃ old ∈ b.orders, o.Same old) ∨
      o.digest = digest ∧ ∃ size, priceAndSize b.market order = .ok (o.side, o.priceTicks, size) := by
  cases what with
  | place digest order =>
    refine Or.inr ⟨digest, order, rfl, fun o member => ?_⟩
    simp only [Book.call] at member
    split at member
    · exact Or.inl ⟨o, member, rfl, rfl, rfl⟩
    · rename_i ran
      obtain ⟨incoming, kept, placed⟩ := shaped.place ran
      rcases (placed.orders o).mp member with entered | ⟨old, inside, rfl⟩
      · obtain ⟨named, side, price, -⟩ := placed.entered o entered
        refine Or.inr ⟨named, incoming.remainingBase, ?_⟩
        rw [side, price]
        exact placed.priced
      · exact Or.inl ⟨old, inside, rfl, rfl, rfl⟩
  | settleSuccess intent =>
    have keeps := consume_keeps intent.fillBaseAmount
    exact Or.inl ((shaped.from_change keeps intent.askDigest).trans
      ((shaped.modify_prune keeps intent.askDigest).1.from_change keeps intent.bidDigest))
  | settleFailed intent drop =>
    have keeps := release_keeps intent.fillBaseAmount
    have ask := shaped.modify keeps intent.askDigest
    exact Or.inl ((shaped.from_modify keeps intent.askDigest).trans ((ask.from_modify keeps intent.bidDigest).trans
      ((ask.modify keeps intent.bidDigest).from_removeAll drop)))
  | applyExternalFill digest amount => exact Or.inl (shaped.from_change (shrink_keeps amount) digest)
  | remove digest => exact Or.inl (shaped.from_remove digest)
  | rematch digest =>
    refine Or.inl fun o member => ?_
    obtain ⟨old, inside, rfl⟩ := ((shaped.rematch digest).orders o).mp member
    exact ⟨old, inside, rfl, rfl, rfl⟩

theorem Shaped.market_call (shaped : b.Shaped) (what : BookCall) : (b.call what).1.market = b.market := by
  cases what with
  | place digest order =>
    simp only [Book.call]
    split
    · rfl
    · rename_i ran
      obtain ⟨_, _, placed⟩ := shaped.place ran
      exact placed.market
  | settleSuccess intent => exact market_settleSuccess b intent
  | settleFailed intent drop => exact market_settleFailed b intent drop
  | applyExternalFill digest amount => exact market_applyExternalFill b digest amount
  | remove digest => exact market_remove b digest
  | rematch digest => exact (shaped.rematch digest).market

def Known (rows : List StoredOrder) (b : Book) : Prop := ∀ o ∈ b.orders, ∃ row ∈ rows, row.Names o

def Priced (market : Market) (row : StoredOrder) : Prop :=
  priceAndSize market row.order = .ok (row.side, row.priceTicks, row.base)

theorem Shaped.known_call {rows : List StoredOrder} (shaped : b.Shaped) (known : b.Known rows)
    (priced : ∀ row ∈ rows, Priced b.market row) (what : BookCall)
    (stored : ∀ digest order, what = .place digest order → ∃ row ∈ rows, row.digest = digest ∧ row.order = order) :
    (b.call what).1.Known rows := by
  intro o member
  have origin : (∃ old ∈ b.orders, o.Same old) ∨ ∃ row ∈ rows, row.Names o := by
    rcases shaped.from_call what with inherited | ⟨digest, order, rfl, entered⟩
    · exact Or.inl (inherited o member)
    · refine (entered o member).imp_right ?_
      rintro ⟨named, size, terms⟩
      obtain ⟨row, inside, same, ordered⟩ := stored digest order rfl
      have agreed := priced row inside
      rw [Priced, ordered, terms, Except.ok.injEq, Prod.mk.injEq, Prod.mk.injEq] at agreed
      exact ⟨row, inside, same.trans named.symm, agreed.1.symm, agreed.2.1.symm⟩
  rcases origin with ⟨old, inside, same⟩ | found
  · obtain ⟨row, listed, named⟩ := known old inside
    exact ⟨row, listed, named.same same⟩
  · exact found

def replay (b : Book) (rows : List StoredOrder) : Book :=
  rows.foldl (fun book stored => (book.call (.place stored.digest stored.order)).1) b

theorem rebuild_eq (market : Market) (now : Nat) (rows : List StoredOrder) :
    rebuild market now rows = (Book.new market).replay (rows.filter (·.live now)) := by
  have live : rows.filter (·.live now) = (openOrders rows).filter fun row => ¬ row.order.expiryMs.toNat ≤ now := by
    rw [openOrders, List.filter_filter]
    refine List.filter_congr fun row _ => ?_
    simp only [StoredOrder.live, Nat.not_le, Bool.decide_and, Bool.and_comm]
  rw [live, rebuild, replay, List.foldl_filter]
  congr 1
  funext book stored
  by_cases past : stored.order.expiryMs.toNat ≤ now <;> simp [past]

theorem replay_induction (holds : Book → Prop) {rows : List StoredOrder}
    (kept : ∀ b, ∀ row ∈ rows, holds b → holds (b.call (.place row.digest row.order)).1) (initial : holds b) :
    holds (b.replay rows) := by
  induction rows generalizing b with
  | nil => exact initial
  | cons row rest ih =>
    exact ih (fun b later member => kept b later (List.mem_cons_of_mem _ member)) (kept b row List.mem_cons_self initial)

theorem rebuild_sound {market : Market} (now : Nat) {rows : List StoredOrder}
    (priced : ∀ row ∈ rows, Priced market row) :
    (rebuild market now rows).Sound ∧ (rebuild market now rows).market = market ∧
      (rebuild market now rows).Known rows := by
  rw [rebuild_eq]
  refine replay_induction (fun b => b.Sound ∧ b.market = market ∧ b.Known rows) (fun b row member before => ?_)
    ⟨Sound.start market .cancelNewest, rfl, ?_⟩
  · obtain ⟨sound, same, known⟩ := before
    refine ⟨sound.call _, (sound.shaped.market_call _).trans same, sound.shaped.known_call known ?_ _ ?_⟩
    · rw [same]
      exact priced
    · intro digest order placed
      cases placed
      exact ⟨row, List.mem_of_mem_filter member, rfl, rfl⟩
  · intro o member
    simp [Book.new, orders, Levels.orders] at member

end Book

/-! ### Runs -/

namespace Server

/-- Rows are priced and have their own digests, and every order in the book has its row. -/
structure Backed (market : Market) (s : Server) : Prop where
  once : (s.rows.map (·.digest)).Nodup
  priced : ∀ row ∈ s.rows, Book.Priced market row
  sound : s.flight.book.Sound
  market : s.flight.book.market = market
  known : s.flight.book.Known s.rows
  waiting : ∀ request ∈ s.accepted, ∃ row ∈ s.rows, row.digest = request.1 ∧ row.order = request.2

variable {market : Market} {cfg : IntakeConfig} {s next : Server}

theorem serve_book (s : Server) (op : Op) : (s.serve op).flight.book = s.flight.book ∨
    ∃ what, (s.serve op).flight.book = (s.flight.book.call what).1 ∧
      ∀ digest order, what = .place digest order → op = .place digest order := by
  unfold serve
  cases op with
  | place digest order =>
    refine Or.inr ⟨.place digest order, ?_, fun _ _ same => by cases same; rfl⟩
    simp only [Flight.step, Book.call]
    cases s.flight.book.place digest order with
    | error why => rfl
    | ok result => rfl
  | rematch digest => exact Or.inr ⟨.rematch digest, rfl, by simp⟩
  | settleSuccess which =>
    simp only [Flight.step]
    cases s.flight.inFlight[which]? with
    | none => exact Or.inl rfl
    | some intent => exact Or.inr ⟨.settleSuccess intent, rfl, by simp⟩
  | settleFailed which drop =>
    simp only [Flight.step]
    cases s.flight.inFlight[which]? with
    | none => exact Or.inl rfl
    | some intent => exact Or.inr ⟨.settleFailed intent drop, rfl, by simp⟩
  | applyExternalFill digest amount => exact Or.inr ⟨.applyExternalFill digest amount, rfl, by simp⟩
  | remove digest => exact Or.inr ⟨.remove digest, rfl, by simp⟩

theorem serve_store (s : Server) (op : Op) : (s.serve op).rows = s.rows ∧ (s.serve op).accepted = s.accepted := by
  unfold serve
  split <;> exact ⟨rfl, rfl⟩

theorem Backed.serve (backed : s.Backed market) {op : Op}
    (stored : ∀ digest order, op = .place digest order → ∃ row ∈ s.rows, row.digest = digest ∧ row.order = order) :
    (s.serve op).Backed market := by
  obtain ⟨rows, accepted⟩ := serve_store s op
  have book : (s.serve op).flight.book.Sound ∧ (s.serve op).flight.book.market = market ∧
      (s.serve op).flight.book.Known s.rows := by
    rcases serve_book s op with idle | ⟨what, called, places⟩
    · rw [idle]
      exact ⟨backed.sound, backed.market, backed.known⟩
    · rw [called]
      refine ⟨backed.sound.call what, (backed.sound.shaped.market_call what).trans backed.market,
        backed.sound.shaped.known_call backed.known ?_ what fun digest order same => stored digest order (places _ _ same)⟩
      rw [backed.market]
      exact backed.priced
  rw [← rows] at book
  exact ⟨rows ▸ backed.once, rows ▸ backed.priced, book.1, book.2.1, book.2.2, rows ▸ accepted ▸ backed.waiting⟩

structure KeepsTerms (g : StoredOrder → StoredOrder) : Prop where
  digest : ∀ row, (g row).digest = row.digest
  order : ∀ row, (g row).order = row.order
  side : ∀ row, (g row).side = row.side
  priceTicks : ∀ row, (g row).priceTicks = row.priceTicks

theorem KeepsTerms.updateRow {g : StoredOrder → StoredOrder} (keeps : KeepsTerms g) (digest : Bytes) :
    KeepsTerms fun row => if row.digest = digest then g row else row := by
  constructor <;> intro row <;> split <;> first | rfl | skip
  · exact keeps.digest row
  · exact keeps.order row
  · exact keeps.side row
  · exact keeps.priceTicks row

theorem applyFill_keeps (total : Nat) : KeepsTerms (StoredOrder.applyFill total) :=
  ⟨fun _ => rfl, fun _ => rfl, fun _ => rfl, fun _ => rfl⟩

theorem setStatus_keeps (status : OrderStatus) : KeepsTerms (StoredOrder.setStatus status) :=
  ⟨fun _ => rfl, fun _ => rfl, fun _ => rfl, fun _ => rfl⟩

theorem expire_keeps (now : Nat) : KeepsTerms (StoredOrder.expire now) := by
  constructor <;> intro row <;> unfold StoredOrder.expire <;> split <;> rfl

theorem Backed.mapRows (backed : s.Backed market) {g : StoredOrder → StoredOrder} (keeps : KeepsTerms g) :
    Backed market { s with rows := s.rows.map g } := by
  have once : ((s.rows.map g).map (·.digest)) = s.rows.map (·.digest) := by
    rw [List.map_map]
    exact List.map_congr_left fun row _ => keeps.digest row
  refine ⟨once ▸ backed.once, fun row member => ?_, backed.sound, backed.market, fun o member => ?_,
    fun request member => ?_⟩
  · obtain ⟨old, inside, rfl⟩ := List.mem_map.mp member
    have priced := backed.priced old inside
    simp only [Book.Priced, StoredOrder.base, keeps.order, keeps.side, keeps.priceTicks] at priced ⊢
    exact priced
  · obtain ⟨row, inside, digest, side, price⟩ := backed.known o member
    exact ⟨g row, List.mem_map_of_mem inside, (keeps.digest row).trans digest, (keeps.side row).trans side,
      (keeps.priceTicks row).trans price⟩
  · obtain ⟨row, inside, digest, order⟩ := backed.waiting request member
    exact ⟨g row, List.mem_map_of_mem inside, (keeps.digest row).trans digest, (keeps.order row).trans order⟩

theorem Backed.restart (backed : s.Backed market) (now : Nat) : (s.restart now).Backed market := by
  obtain ⟨sound, same, known⟩ := Book.rebuild_sound now backed.priced
  rw [← backed.market] at sound same known
  have rebuilt : Backed market { s with flight := ⟨rebuild s.flight.book.market now s.rows, []⟩, accepted := [] } :=
    ⟨backed.once, backed.priced, sound, same.trans backed.market, known, by simp⟩
  exact rebuilt.mapRows (expire_keeps now)

theorem validateStateless_ok {order : Order} {now priceTicks : Nat} {side : Side}
    (valid : validateStateless market order cfg now = .ok (side, priceTicks)) :
    priceAndSize market order = .ok (side, priceTicks, (amounts side order).1) := by
  obtain ⟨_, -, valid⟩ := bind_ok.mp valid
  obtain ⟨_, -, valid⟩ := bind_ok.mp valid
  split at valid
  · cases valid
  · rename_i found price size priced
    obtain ⟨_, -, valid⟩ := bind_ok.mp valid
    obtain ⟨_, -, valid⟩ := bind_ok.mp valid
    cases valid
    rw [priced, (priceAndSize_ok priced).1]

theorem Backed.intake (backed : s.Backed market) {digest : Bytes} {order : Order} {now : Nat}
    (moved : s.step cfg (.intake now digest order) = .ok next) : next.Backed market := by
  obtain ⟨⟨side, priceTicks⟩, valid, moved⟩ := bind_ok.mp moved
  obtain ⟨_, unused, moved⟩ := bind_ok.mp moved
  have fresh := require_ok.mp unused
  cases moved
  rw [backed.market] at valid
  have terms := validateStateless_ok valid
  refine ⟨?_, fun row member => ?_, backed.sound, backed.market, fun o member => ?_, fun request member => ?_⟩
  · rw [List.map_append, List.nodup_append]
    refine ⟨backed.once, List.nodup_singleton _, ?_⟩
    rintro _ old _ new rfl
    obtain ⟨row, inside, same⟩ := List.mem_map.mp old
    exact fresh row inside (same.trans (by simpa using new))
  · rcases List.mem_append.mp member with old | new
    · exact backed.priced row old
    · rw [List.mem_singleton.mp new]
      exact terms
  · obtain ⟨row, inside, named⟩ := backed.known o member
    exact ⟨row, List.mem_append_left _ inside, named⟩
  · rcases List.mem_append.mp member with old | new
    · obtain ⟨row, inside, named⟩ := backed.waiting request old
      exact ⟨row, List.mem_append_left _ inside, named⟩
    · rw [List.mem_singleton.mp new]
      exact ⟨_, List.mem_append_right _ (List.mem_singleton_self _), rfl, rfl⟩

theorem Backed.step (backed : s.Backed market) {event : Event} (moved : s.step cfg event = .ok next) :
    next.Backed market := by
  have quiet : ∀ {op : Op}, (∀ digest order, op ≠ .place digest order) → (s.serve op).Backed market :=
    fun other => backed.serve fun digest order placed => absurd placed (other digest order)
  cases event with
  | intake now digest order => exact backed.intake moved
  | place which =>
    simp only [Server.step] at moved
    split at moved
    · cases moved
      exact backed
    · rename_i digest order found
      cases moved
      have stored := backed.waiting _ (List.mem_of_getElem? found)
      have placed : (s.serve (.place digest order)).Backed market := backed.serve fun _ _ same => by
        cases same
        exact stored
      refine ⟨placed.once, placed.priced, placed.sound, placed.market, placed.known, fun request member => ?_⟩
      rw [(serve_store s _).1]
      exact backed.waiting request (List.mem_of_mem_eraseIdx member)
  | rematch digest => cases moved; exact quiet nofun
  | settleSuccess which => cases moved; exact quiet nofun
  | settleFailed which drop => cases moved; exact quiet nofun
  | applyExternalFill digest amount => cases moved; exact quiet nofun
  | remove digest => cases moved; exact quiet nofun
  | applyFill digest total =>
    cases moved
    exact backed.mapRows ((applyFill_keeps total).updateRow digest)
  | setOrderStatus digest status =>
    cases moved
    exact backed.mapRows ((setStatus_keeps status).updateRow digest)
  | restart now =>
    cases moved
    exact backed.restart now

theorem start_backed (market : Market) : (start market).Backed market :=
  ⟨List.nodup_nil, by simp [start], Book.Sound.start market .cancelNewest, rfl,
    by simp [start, Book.Known, Book.new, Book.orders, Levels.orders], by simp [start]⟩

theorem backed_of_run {events : List Event} (ran : exec (step cfg) (start market) events = .ok s) : s.Backed market :=
  exec_invariant (step cfg) (Backed market) (fun _ _ _ before moved => before.step moved) (start_backed market) ran

end Server

end SuiOptions.Orderbook
