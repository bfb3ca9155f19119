import SuiOptions.Lib.Pages

/-! The event ingestor's backfill: `backfill.go`, with the page query of `client.go`.

A rule that starts at a time is walked backwards through the events of its type, page
after page. Times are nanoseconds, as Go compares them. The GraphQL server and the
recipient of an event are parameters.
-/

set_option autoImplicit false

namespace SuiOptions.EventIngestor

/-- `time.UnixMilli` -/
def unixMilli (ms : Nat) : Int := ms * 1000000

/-- `time.Time{}`, the first of January of the year 1. -/
def zeroTime : Int := -62135596800000000000

structure ChainEvent where
  txDigest : String
  eventSeq : Nat
  typeRepr : String
  /-- `contents.json` as it came. -/
  json : String
  sender : String
  /-- A negative time does not parse. -/
  timestampMs : Nat
  deriving DecidableEq, Repr

def ChainEvent.time (ev : ChainEvent) : Int := unixMilli ev.timestampMs

structure Identity where
  type : String
  identifier : String
  deriving DecidableEq, Repr

structure Rule where
  id : Int
  eventType : String
  label : String
  points : Int
  recipientMode : String
  recipientField : Option String
  startMode : String
  startAt : Option Int
  backfillCursor : Option String

/-- What the server answers to `events(filter, last, before)`. -/
structure Connection where
  nodes : List ChainEvent
  hasPreviousPage : Bool
  startCursor : Option String

structure EventPage where
  data : List ChainEvent
  cursor : Option String
  hasMore : Bool

/-- The code outside the worker. -/
structure Services where
  /-- The events of a type before a cursor, so many of the last. -/
  events : String → Option String → Nat → Connection
  recipient : ChainEvent → Rule → Option Identity
  canonicalType : String → String

/-- The body of `POST /internal/points`. -/
structure PointsRequest where
  identity : Identity
  delta : Int
  source : String
  sourceLabel : String
  eventType : String
  idempotencyKey : String
  occurredAt : Int
  deriving DecidableEq, Repr

/-- A row of `deliveries`. -/
structure Delivery where
  ruleId : Int
  idempotencyKey : String
  recipient : String
  points : Int
  eventTime : Int
  deriving DecidableEq, Repr

inductive BackfillState where
  | running
  | done
  | exhausted
  deriving DecidableEq, Repr

structure Ledger where
  posted : List PointsRequest
  deliveries : List Delivery
  /-- Every event of every page so far. No function reads it. -/
  reached : List ChainEvent

structure Progress where
  ledger : Ledger
  cursor : Option String
  state : BackfillState

def ChainEvent.key (ev : ChainEvent) (rule : Rule) : String := s!"{ev.txDigest}:{ev.eventSeq}:{rule.id}"

def Ledger.claimed (ledger : Ledger) (key : String) : Bool := ledger.deliveries.any (·.idempotencyKey = key)

section Worker

variable (services : Services) (pageCap : Nat) (rule : Rule)

/-- `QueryEvents`, descending: the page of the server is reversed. -/
def queryEvents (eventType : String) (cursor : Option String) (limit : Nat) : EventPage :=
  let connection := services.events eventType cursor (min limit pageCap)
  { data := connection.nodes.reverse
    cursor := connection.startCursor
    hasMore := connection.hasPreviousPage }

def request (ev : ChainEvent) (ident : Identity) : PointsRequest :=
  { identity := ident
    delta := rule.points
    source := s!"rule:{rule.id}"
    sourceLabel := rule.label
    eventType := rule.eventType
    idempotencyKey := ev.key rule
    occurredAt := ev.time }

/-- One event of `deliverPage`. -/
def deliver (ledger : Ledger) (ev : ChainEvent) : Ledger :=
  let ledger := { ledger with reached := ledger.reached ++ [ev] }
  if services.canonicalType ev.typeRepr ≠ services.canonicalType rule.eventType then ledger
  else if ledger.claimed (ev.key rule) then ledger
  else
    match services.recipient ev rule with
    | none => ledger
    | some ident => { ledger with
        posted := ledger.posted ++ [request rule ev ident]
        deliveries := ledger.deliveries ++ [⟨rule.id, ev.key rule, ident.identifier, rule.points, ev.time⟩] }

def deliverPage (ledger : Ledger) (events : List ChainEvent) : Ledger := events.foldl (deliver services rule) ledger

/-- The loop over the pages, where every call of the worker succeeds. -/
def walk (startAt : Int) : Nat → Option String → Progress → Progress
  | 0, _, p => p
  | rounds + 1, before, p =>
    let page := queryEvents services pageCap rule.eventType before pageCap
    let p := { p with ledger := deliverPage services rule p.ledger page.data }
    let p := if page.cursor.isSome then { p with cursor := page.cursor } else p
    let before := if page.cursor.isSome then page.cursor else before
    match page.data with
    | [] => { p with state := .exhausted }
    | first :: _ =>
      let oldest := first.time
      if ¬ page.hasMore then { p with state := if oldest < startAt ∨ oldest = startAt then .done else .exhausted }
      else if oldest ≠ zeroTime ∧ oldest < startAt then { p with state := .done }
      else walk startAt rounds before p

def backfillRule (rounds : Nat) (deliveries : List Delivery) : Progress :=
  match rule.startMode, rule.startAt with
  | "timestamp", some startAt =>
    walk services pageCap rule startAt rounds rule.backfillCursor ⟨⟨[], deliveries, []⟩, rule.backfillCursor, .running⟩
  | _, _ => ⟨⟨[], deliveries, []⟩, rule.backfillCursor, .done⟩

end Worker

end SuiOptions.EventIngestor
