import SuiOptions.Exchange.Order

/-! The off-chain matching engine: `exchange-book`, function by function.

Each side of the book is an ordered map from price to a queue, here the list of
its levels by ascending price. Matched quantity is marked pending until the
settlement of the match is known.
-/

set_option autoImplicit false

namespace SuiOptions.Orderbook

open Exchange

inductive Side where
  | bid
  | ask
  deriving DecidableEq, Repr

structure Market where
  registryId : ID
  base : String
  quote : String
  tickSize : Nat
  minSize : Nat
  lotSize : Nat

def Market.sideOf (market : Market) (order : Order) : Option Side :=
  if order.makerToken = market.base ∧ order.takerToken = market.quote then some .ask
  else if order.makerToken = market.quote ∧ order.takerToken = market.base then some .bid
  else none

inductive BookError where
  | wrongMarket
  | offTick
  | belowMinSize
  | duplicate
  | overflow
  deriving DecidableEq, Repr

inductive SelfTradePolicy where
  | cancelNewest
  | allow
  deriving DecidableEq, Repr

structure RestingOrder where
  digest : Bytes
  maker : Address
  side : Side
  priceTicks : Nat
  /-- Base units still open; settled fills are subtracted. -/
  remainingBase : Nat
  /-- Base units locked in settlements in flight. -/
  pendingBase : Nat
  seq : Nat
  deriving DecidableEq, Repr

def RestingOrder.availableBase (o : RestingOrder) : Nat := o.remainingBase - o.pendingBase

structure MatchIntent where
  market : ID
  askDigest : Bytes
  bidDigest : Bytes
  fillBaseAmount : Nat
  execPriceTicks : Nat
  deriving DecidableEq, Repr

def amounts (side : Side) (order : Order) : Nat × Nat :=
  match side with
  | .ask => (order.makerAmount.toNat, order.takerAmount.toNat)
  | .bid => (order.takerAmount.toNat, order.makerAmount.toNat)

/-- The order's side, its price in ticks and its base size; the price must lie on the grid. -/
def priceAndSize (market : Market) (order : Order) : Except BookError (Side × Nat × Nat) :=
  match market.sideOf order with
  | none => .error .wrongMarket
  | some side =>
    let (baseAmount, quoteAmount) := amounts side order
    if baseAmount = 0 ∨ quoteAmount = 0 then .error .belowMinSize
    else
      let num := quoteAmount * market.lotSize
      let den := baseAmount * market.tickSize
      if den = 0 ∨ num % den ≠ 0 then .error .offTick
      else if 2 ^ 64 ≤ num / den then .error .overflow
      else if num / den = 0 then .error .offTick
      else if baseAmount < market.minSize then .error .belowMinSize
      else .ok (side, num / den, baseAmount)

/-! ### Sides of the book -/

structure Level where
  price : Nat
  queue : List RestingOrder

abbrev Levels := List Level

def Levels.orders (levels : Levels) : List RestingOrder := levels.flatMap Level.queue

/-- `entry(price).or_default().push_back(o)` -/
def Levels.push (o : RestingOrder) : Levels → Levels
  | [] => [⟨o.priceTicks, [o]⟩]
  | level :: rest =>
    if o.priceTicks < level.price then ⟨o.priceTicks, [o]⟩ :: level :: rest
    else if o.priceTicks = level.price then { level with queue := level.queue ++ [o] } :: rest
    else level :: Levels.push o rest

def modifyFirst (digest : Bytes) (f : RestingOrder → RestingOrder) : List RestingOrder → List RestingOrder
  | [] => []
  | o :: rest => if o.digest = digest then f o :: rest else o :: modifyFirst digest f rest

/-- `get_mut(price)` followed by a change of the order found in its queue. -/
def Levels.modifyAt (price : Nat) (digest : Bytes) (f : RestingOrder → RestingOrder) : Levels → Levels
  | [] => []
  | level :: rest =>
    if level.price = price then { level with queue := modifyFirst digest f level.queue } :: rest
    else level :: Levels.modifyAt price digest f rest

/-- `retain` all but the digest in one queue, and drop the level when it is empty. -/
def Levels.removeAt (price : Nat) (digest : Bytes) : Levels → Levels
  | [] => []
  | level :: rest =>
    if level.price = price then
      if level.queue.filter (·.digest ≠ digest) = [] then rest
      else { level with queue := level.queue.filter (·.digest ≠ digest) } :: rest
    else level :: Levels.removeAt price digest rest

structure Book where
  market : Market
  bids : Levels
  asks : Levels
  index : Bytes → Option (Side × Nat)
  nextSeq : Nat
  selfTradePolicy : SelfTradePolicy

namespace Book

def new (market : Market) : Book :=
  { market
    bids := []
    asks := []
    index := fun _ => none
    nextSeq := 0
    selfTradePolicy := .cancelNewest }

def levels (b : Book) : Side → Levels
  | .bid => b.bids
  | .ask => b.asks

def withLevels (b : Book) (side : Side) (levels : Levels) : Book :=
  match side with
  | .bid => { b with bids := levels }
  | .ask => { b with asks := levels }

end Book

def Side.opposite : Side → Side
  | .bid => .ask
  | .ask => .bid

/-! ### The matching loop -/

/-- What a walk over queues or levels leaves: the changed items, the incoming order,
the emitted intents and whether self-trade prevention stopped it. -/
structure Walk (α : Type) where
  items : List α
  incoming : RestingOrder
  intents : List MatchIntent
  selfTrade : Bool

def intentOf (registry : ID) (price qty : Nat) (incoming resting : RestingOrder) : MatchIntent :=
  { market := registry
    askDigest := match incoming.side with
      | .ask => incoming.digest
      | .bid => resting.digest
    bidDigest := match incoming.side with
      | .ask => resting.digest
      | .bid => incoming.digest
    fillBaseAmount := qty
    execPriceTicks := price }

def RestingOrder.lock (o : RestingOrder) (qty : Nat) : RestingOrder :=
  { o with pendingBase := o.pendingBase + qty }

def matchQueue (registry : ID) (policy : SelfTradePolicy) (price : Nat) :
    RestingOrder → List RestingOrder → Walk RestingOrder
  | incoming, [] => ⟨[], incoming, [], false⟩
  | incoming, resting :: rest =>
    if incoming.availableBase = 0 then ⟨resting :: rest, incoming, [], false⟩
    else if resting.availableBase = 0 then
      let walk := matchQueue registry policy price incoming rest
      { walk with items := resting :: walk.items }
    else if resting.maker = incoming.maker ∧ policy = .cancelNewest then ⟨resting :: rest, incoming, [], true⟩
    else
      let qty := min incoming.availableBase resting.availableBase
      let walk := matchQueue registry policy price (incoming.lock qty) rest
      { walk with
        items := resting.lock qty :: walk.items
        intents := intentOf registry price qty incoming resting :: walk.intents }

def crosses (incoming : RestingOrder) (price : Nat) : Bool :=
  match incoming.side with
  | .ask => incoming.priceTicks ≤ price
  | .bid => price ≤ incoming.priceTicks

/-- The levels of the opposite side, best first. A full pass over a level leaves it,
or the incoming order, without available quantity, so the search for the next best
level never goes back. -/
def matchLevels (registry : ID) (policy : SelfTradePolicy) : RestingOrder → Levels → Walk Level
  | incoming, [] => ⟨[], incoming, [], false⟩
  | incoming, level :: rest =>
    if incoming.availableBase = 0 then ⟨level :: rest, incoming, [], false⟩
    else if crosses incoming level.price = false ∨ level.queue.all (·.availableBase = 0) = true then
      let walk := matchLevels registry policy incoming rest
      { walk with items := level :: walk.items }
    else
      let here := matchQueue registry policy level.price incoming level.queue
      if here.selfTrade then ⟨{ level with queue := here.items } :: rest, here.incoming, here.intents, true⟩
      else
        let walk := matchLevels registry policy here.incoming rest
        { walk with
          items := { level with queue := here.items } :: walk.items
          intents := here.intents ++ walk.intents }

namespace Book

/-- The levels of a side in the order an incoming order meets them. -/
def bestFirst (side : Side) (levels : Levels) : Levels :=
  match side with
  | .bid => levels.reverse
  | .ask => levels

/-- Returns the book, the incoming order, the intents and the self-trade flag. -/
def matchIncoming (b : Book) (incoming : RestingOrder) : Book × RestingOrder × List MatchIntent × Bool :=
  let side := incoming.side.opposite
  let walk := matchLevels b.market.registryId b.selfTradePolicy incoming (bestFirst side (b.levels side))
  (b.withLevels side (bestFirst side walk.items), walk.incoming, walk.intents, walk.selfTrade)

def rest (b : Book) (o : RestingOrder) : Book :=
  let b := { b with index := Function.update b.index o.digest (some (o.side, o.priceTicks)) }
  b.withLevels o.side ((b.levels o.side).push o)

def get (b : Book) (digest : Bytes) : Option RestingOrder :=
  match b.index digest with
  | none => none
  | some (side, price) =>
    match (b.levels side).find? (·.price = price) with
    | none => none
    | some level => level.queue.find? (·.digest = digest)

/-- `get_mut` followed by a change of the order it finds. -/
def modify (b : Book) (digest : Bytes) (f : RestingOrder → RestingOrder) : Book :=
  match b.index digest with
  | none => b
  | some (side, price) => b.withLevels side ((b.levels side).modifyAt price digest f)

def remove (b : Book) (digest : Bytes) : Book :=
  match b.index digest with
  | none => b
  | some (side, price) =>
    let b := { b with index := Function.update b.index digest none }
    b.withLevels side ((b.levels side).removeAt price digest)

def pruneIfDone (b : Book) (digest : Bytes) : Book :=
  match b.get digest with
  | none => b
  | some o => if o.remainingBase = 0 ∧ o.pendingBase = 0 then b.remove digest else b

inductive PlaceOutcome where
  | matched
  | rested (remainingBase : Nat)
  | selfTradeCancelled
  deriving DecidableEq, Repr

/-- The end of `place`: the matched order rests with what is left of it. -/
def conclude : Book × RestingOrder × List MatchIntent × Bool → PlaceOutcome × List MatchIntent × Book
  | (b, incoming, intents, true) =>
    -- cancel-newest drops the unmatched remainder
    let incoming := { incoming with remainingBase := incoming.pendingBase }
    (.selfTradeCancelled, intents, if 0 < incoming.pendingBase then b.rest incoming else b)
  | (b, incoming, intents, false) =>
    if incoming.availableBase = 0 then
      (.matched, intents, if 0 < incoming.pendingBase then b.rest incoming else b)
    else (.rested incoming.availableBase, intents, b.rest incoming)

def place (b : Book) (digest : Bytes) (order : Order) :
    Except BookError (PlaceOutcome × List MatchIntent × Book) :=
  if (b.index digest).isSome then .error .duplicate
  else
    match priceAndSize b.market order with
    | .error why => .error why
    | .ok (side, priceTicks, baseAmount) =>
      .ok (conclude (matchIncoming { b with nextSeq := b.nextSeq + 1 }
        { digest, maker := order.maker, side, priceTicks
          remainingBase := baseAmount, pendingBase := 0, seq := b.nextSeq }))

def consume (amount : Nat) (o : RestingOrder) : RestingOrder :=
  let qty := min amount o.pendingBase
  { o with pendingBase := o.pendingBase - qty, remainingBase := o.remainingBase - qty }

def release (amount : Nat) (o : RestingOrder) : RestingOrder :=
  { o with pendingBase := o.pendingBase - min amount o.pendingBase }

/-- A fill seen on chain; pending quantity is clipped to what remains. -/
def shrink (amount : Nat) (o : RestingOrder) : RestingOrder :=
  { o with
    remainingBase := o.remainingBase - amount
    pendingBase := min o.pendingBase (o.remainingBase - amount) }

def settleSuccess (b : Book) (intent : MatchIntent) : Book :=
  [intent.askDigest, intent.bidDigest].foldl
    (fun b digest => (b.modify digest (consume intent.fillBaseAmount)).pruneIfDone digest) b

def settleFailed (b : Book) (intent : MatchIntent) (drop : List Bytes) : Book :=
  let b := [intent.askDigest, intent.bidDigest].foldl
    (fun b digest => b.modify digest (release intent.fillBaseAmount)) b
  drop.foldl remove b

def applyExternalFill (b : Book) (digest : Bytes) (baseAmount : Nat) : Book :=
  (b.modify digest (shrink baseAmount)).pruneIfDone digest

def rematch (b : Book) (digest : Bytes) : List MatchIntent × Book :=
  match b.get digest with
  | none => ([], b)
  | some o =>
    if o.availableBase = 0 then ([], b)
    else
      match (b.remove digest).matchIncoming o with
      | (b, incoming, intents, _) => (intents, b.rest incoming)

end Book

end SuiOptions.Orderbook
