import SuiOptions.Exchange.Aborts
import SuiOptions.Orderbook.Store

/-! The settlement worker and the orders it gives up.

A match that aborts on chain is decoded into a reaction. One reaction drops an
order for good: it leaves the book, its row is marked, and the counterparty is
matched again. The abort names a check and not an order, so the worker guesses
which of the two orders failed it.
-/

set_option autoImplicit false

namespace SuiOptions.Orderbook

open Exchange Execution Move

structure Submission extends StoredOrder where
  prefixedSignature : Bytes
  publicKey : Bytes

def Submission.signed (order : Submission) : SignedOrder :=
  ⟨order.order.makerManagerId, order.order.toBytes, order.prefixedSignature, order.publicKey⟩

/-- One match to settle. The orders are read from the store by the digests of the
intent, which the book emits for two different orders. -/
structure MatchJob where
  intent : MatchIntent
  ask : Submission
  bid : Submission
  /-- A direct maker settles through the exchange adapter. -/
  askVault : Bool
  bidVault : Bool
  askNamed : ask.digest = intent.askDigest
  bidNamed : bid.digest = intent.bidDigest
  differ : intent.askDigest ≠ intent.bidDigest

inductive DeadReason where
  | expired
  | cancelled
  | saltVoided
  | badSignature
  deriving DecidableEq, Repr

inductive SettleOutcome where
  | confirmed (txDigest : String)
  | orderDead (digest : Bytes) (reason : DeadReason)
  | insufficientEscrow
  | vaultEscrowInsufficient (askSide : Bool)
  | vaultQuotingDisabled
  | vaultRiskOff
  | marketPaused
  | congested
  | stale
  | failed (error : String)
  deriving DecidableEq, Repr

/-- The abort does not say which order failed. Expiry is charged to the order that expires
first and everything else to the ask, which is validated first. -/
def decodeAbort (abort : MoveAbort) (job : MatchJob) (raw : String) : SettleOutcome :=
  match abort.module, abort.code with
  | "balance_manager", 2 => .insufficientEscrow
  | "exchange_adapter", 9 => .vaultEscrowInsufficient true
  | "exchange_adapter", 10 => .vaultEscrowInsufficient false
  -- the vault is not open, the adapter is delisted, or the curator opted out
  | "vault", 72 | "vault", 75 | "vault", 113 => .vaultQuotingDisabled
  | "vault", 124 => .vaultRiskOff
  | "settlement", 1 => .marketPaused
  | "registry", 3 => .stale
  | "settlement", 9 | "settlement", 15 | "settlement", 16 => .stale
  | "settlement", 3 =>
    .orderDead (if job.ask.order.expiryMs ≤ job.bid.order.expiryMs then job.ask.digest else job.bid.digest) .expired
  | "settlement", 8 => .orderDead job.ask.digest .cancelled
  | "settlement", 7 => .orderDead job.ask.digest .saltVoided
  | "settlement", 10 => .orderDead job.ask.digest .badSignature
  | _, _ => .failed raw

def DeadReason.status : DeadReason → OrderStatus
  | .expired => .expired
  | .cancelled => .cancelled
  | _ => .pruned

def handleDead (which : Nat) (intent : MatchIntent) (digest : Bytes) (reason : DeadReason) : List Server.Event :=
  [.settleFailed which [digest], .setOrderStatus digest reason.status,
    .rematch (if digest = intent.askDigest then intent.bidDigest else intent.askDigest)]

/-! ### What the chain does -/

/-- The validation of an order passes, as the exchange stands. -/
def Accepted (natives : Natives) (s : Exchange.Market) (order counterparty : Submission) (side : Exchange.Side) : Prop :=
  ∃ bm, s.managers order.signed.manager = some bm ∧
    ∃ passed, s.validated natives bm order.signed side counterparty.order.maker = .ok passed

def Rejected (natives : Natives) (s : Exchange.Market) (job : MatchJob) (digest : Bytes) : Prop :=
  digest = job.ask.digest ∧ ¬ Accepted natives s job.ask job.bid .base ∨
    digest = job.bid.digest ∧ ¬ Accepted natives s job.bid job.ask .quote

/-- The aborts a match can end with. Direct makers settle through the adapter: it opens the
match and discharges the legs, on a market that the calls before have changed, between
checks of its own and of the vault. -/
inductive Aborts (natives : Natives) (s : Exchange.Market) (job : MatchJob) : MoveAbort → Prop
  | settled {why : Error} {abort : MoveAbort} (classic : job.askVault = false ∧ job.bidVault = false)
      (stopped : s.matchOrders natives job.ask.signed.manager job.bid.signed.manager job.ask.signed.bytes
        job.ask.signed.signature job.ask.signed.publicKey job.bid.signed.bytes job.bid.signed.signature
        job.bid.signed.publicKey job.intent.fillBaseAmount = .error (.code why))
      (site : why.site = some abort) : Aborts natives s job abort
  | opening {why : Error} {abort : MoveAbort} (direct : job.askVault = true ∨ job.bidVault = true)
      (stopped : s.beginMatch natives job.ask.signed.manager job.bid.signed.manager job.ask.signed.bytes
        job.ask.signed.signature job.ask.signed.publicKey job.bid.signed.bytes job.bid.signed.signature
        job.bid.signed.publicKey job.intent.fillBaseAmount = .error (.code why))
      (site : why.site = some abort) : Aborts natives s job abort
  | discharging {why : Error} {abort : MoveAbort} {later : Exchange.Market} {what : Exchange.Market.Call}
      (direct : job.askVault = true ∨ job.bidVault = true) (discharges : what.Discharges)
      (stopped : later.call natives what = .error (.code why)) (site : why.site = some abort) :
      Aborts natives s job abort
  | elsewhere {abort : MoveAbort} (outside : abort.module ≠ "settlement") : Aborts natives s job abort

/-! ### What the reaction changes -/

def Server.GivesUp (s next : Server) (digest : Bytes) : Prop :=
  ((∃ o ∈ s.flight.book.orders, o.digest = digest) ∧ ∀ o ∈ next.flight.book.orders, o.digest ≠ digest) ∨
    ∃ row ∈ s.rows, row.digest = digest ∧ row ∉ next.rows

/-- Every order that is reported dead is one the chain rejects, and the service gives up no
other, whatever else it has served and however the steps of the reaction are interleaved. -/
def Attributed (natives : Natives) (s : Exchange.Market) (job : MatchJob) (abort : MoveAbort) (raw : String) : Prop :=
  ∀ digest reason, decodeAbort abort job raw = .orderDead digest reason → Rejected natives s job digest ∧
    ∀ cfg market events server, exec (Server.step cfg) (Server.start market) events = .ok server →
      ∀ which, ∀ event ∈ handleDead which job.intent digest reason, ∀ next, server.step cfg event = .ok next →
        ∀ lost, server.GivesUp next lost → Rejected natives s job lost

namespace Book

variable {b : Book}

def Holds (b : Book) (digest : Bytes) : Prop := ∃ o ∈ b.orders, o.digest = digest

theorem Shaped.holds_modify (shaped : b.Shaped) {f : RestingOrder → RestingOrder} (keeps : Keeps f)
    (digest other : Bytes) : (b.modify digest f).Holds other ↔ b.Holds other := by
  unfold Holds
  rw [shaped.modify_orders]
  simp only [List.mem_map, exists_exists_and_eq_and, (keeps.onDigest digest).digest]

theorem Shaped.holds_settleFailed (shaped : b.Shaped) (intent : MatchIntent) {drop : List Bytes} {digest : Bytes}
    (held : b.Holds digest) (kept : digest ∉ drop) : (b.settleFailed intent drop).Holds digest := by
  have keeps := release_keeps intent.fillBaseAmount
  have ask := shaped.modify keeps intent.askDigest
  have bid := ask.modify keeps intent.bidDigest
  obtain ⟨o, member, same⟩ := (ask.holds_modify keeps intent.bidDigest digest).mpr
    ((shaped.holds_modify keeps intent.askDigest digest).mpr held)
  exact ⟨o, ((bid.removeAll drop).2 o).mpr ⟨member, same ▸ kept⟩, same⟩

theorem Shaped.holds_rematch (shaped : b.Shaped) {target digest : Bytes} (held : b.Holds digest) :
    (b.rematch target).2.Holds digest := by
  obtain ⟨old, member, same⟩ := held
  exact ⟨_, ((shaped.rematch target).orders _).mpr ⟨old, member, rfl⟩, same⟩

end Book

theorem Server.gives_up_dead {market : Market} {cfg : IntakeConfig} {server next : Server} {which : Nat}
    {intent : MatchIntent} {digest lost : Bytes} {reason : DeadReason} {event : Server.Event}
    (backed : server.Backed market) (reaction : event ∈ handleDead which intent digest reason)
    (moved : server.step cfg event = .ok next) (gone : server.GivesUp next lost) : lost = digest := by
  have book : ∀ {op : Op}, next = server.serve op → (server.flight.book.Holds lost →
      (server.serve op).flight.book.Holds lost ∨ lost = digest) → lost = digest := by
    rintro op rfl holds
    rcases gone with ⟨held, absent⟩ | ⟨row, member, -, changed⟩
    · rcases holds held with ⟨o, member, same⟩ | here
      · exact absurd same (absent o member)
      · exact here
    · rw [(serve_store server op).1] at changed
      exact absurd member changed
  simp only [handleDead, List.mem_cons, List.not_mem_nil, or_false] at reaction
  rcases reaction with rfl | rfl | rfl
  · refine book (Except.ok.inj moved).symm fun held => ?_
    by_cases here : lost = digest
    · exact Or.inr here
    · simp only [serve, Flight.step]
      cases server.flight.inFlight[which]? with
      | none => exact Or.inl held
      | some found => exact Or.inl (backed.sound.shaped.holds_settleFailed found held (by simpa using here))
  · cases moved
    rcases gone with ⟨⟨o, member, same⟩, absent⟩ | ⟨row, member, same, changed⟩
    · exact absurd same (absent o member)
    · by_contra other
      refine changed (List.mem_map.mpr ⟨row, member, if_neg ?_⟩)
      rw [same]
      exact other
  · exact book (Except.ok.inj moved).symm fun held => Or.inl (backed.sound.shaped.holds_rematch held)

/-! ### Which order is reported -/

def MatchJob.earlier (job : MatchJob) : Submission :=
  if job.ask.order.expiryMs ≤ job.bid.order.expiryMs then job.ask else job.bid

/-- The codes that are charged to the ask whichever order caused them. -/
def ChargedToAsk (abort : MoveAbort) : Prop :=
  abort.module = "settlement" ∧ (abort.code = 7 ∨ abort.code = 8 ∨ abort.code = 10)

theorem decodeAbort_dead {abort : MoveAbort} {job : MatchJob} {raw : String} {digest : Bytes} {reason : DeadReason}
    (decoded : decodeAbort abort job raw = .orderDead digest reason) :
    abort.module = "settlement" ∧ abort.code = 3 ∧ digest = job.earlier.digest ∨
      ChargedToAsk abort ∧ digest = job.ask.digest := by
  unfold decodeAbort at decoded
  split at decoded <;> cases decoded
  · rename_i here code
    refine Or.inl ⟨here, code, ?_⟩
    unfold MatchJob.earlier
    split <;> rfl
  · rename_i here code
    exact Or.inr ⟨⟨here, Or.inr (Or.inl code)⟩, rfl⟩
  · rename_i here code
    exact Or.inr ⟨⟨here, Or.inl code⟩, rfl⟩
  · rename_i here code
    exact Or.inr ⟨⟨here, Or.inr (Or.inr code)⟩, rfl⟩

theorem decodeAbort_ask {abort : MoveAbort} (charged : ChargedToAsk abort) (job : MatchJob) (raw : String) :
    ∃ reason, decodeAbort abort job raw = .orderDead job.ask.digest reason := by
  obtain ⟨name, code⟩ := abort
  obtain ⟨here, code⟩ := charged
  cases here
  rcases code with rfl | rfl | rfl
  · exact ⟨.saltVoided, rfl⟩
  · exact ⟨.cancelled, rfl⟩
  · exact ⟨.badSignature, rfl⟩

section Attribution

variable {natives : Natives} {s : Exchange.Market} {job : MatchJob} {abort : MoveAbort}

/-- An abort with one of the codes of a single order comes from the validation of the two. -/
theorem Aborts.stopped (aborts : Aborts natives s job abort) (here : abort.module = "settlement")
    (code : abort.code = 3 ∨ abort.code = 7 ∨ abort.code = 8 ∨ abort.code = 10) :
    ∃ why : Error, why.site = some abort ∧
      Nonempty (Exchange.Market.StoppedBy natives s job.ask.signed job.bid.signed (.code why)) := by
  have deadly : ∀ {why : Error}, why.site = some abort → Deadly (.code why) := by
    intro why site
    obtain ⟨name, number⟩ := abort
    cases here
    obtain ⟨expired, voided, cancelled, unsigned⟩ := Error.site_deadly site
    rcases code with three | seven | eight | ten
    · rw [expired.mp three]
      trivial
    · rw [voided.mp seven]
      trivial
    · rw [cancelled.mp eight]
      trivial
    · rw [unsigned.mp ten]
      trivial
  cases aborts with
  | settled classic stopped site => exact ⟨_, site, Exchange.Market.matchOrders_deadly stopped (deadly site)⟩
  | opening direct stopped site => exact ⟨_, site, Exchange.Market.beginMatch_deadly stopped (deadly site)⟩
  | discharging direct discharges stopped site =>
    exact absurd (deadly site) (Exchange.Market.discharge_avoids discharges _ stopped)
  | elsewhere outside => exact absurd here outside

theorem Accepted.live {order counterparty : Submission} {side : Exchange.Side}
    (accepted : Accepted natives s order counterparty side) : s.now < order.order.expiryMs.toNat := by
  obtain ⟨bm, -, ⟨ord, hash⟩, passed⟩ := accepted
  obtain ⟨decoded, live⟩ := validate_live passed
  rwa [Order.eq_of_fromBytes decoded] at live

theorem earlier_expired (stopped : Exchange.Market.StoppedBy natives s job.ask.signed job.bid.signed (.code .expired)) :
    job.earlier.order.expiryMs.toNat ≤ s.now := by
  have order : job.ask.order.expiryMs ≤ job.bid.order.expiryMs ↔
      job.ask.order.expiryMs.toNat ≤ job.bid.order.expiryMs.toNat := UInt64.le_iff_toNat_le
  have either : job.ask.order.expiryMs.toNat ≤ s.now ∨ job.bid.order.expiryMs.toNat ≤ s.now := by
    rcases stopped.stopped with ask | ⟨-, bid⟩
    · obtain ⟨ord, decoded, past⟩ := validate_expired ask
      rw [Order.eq_of_fromBytes decoded] at past
      exact Or.inl past
    · obtain ⟨ord, decoded, past⟩ := validate_expired bid
      rw [Order.eq_of_fromBytes decoded] at past
      exact Or.inr past
  unfold MatchJob.earlier
  split
  · rename_i first
    have before := order.mp first
    omega
  · rename_i second
    have after := mt order.mpr second
    omega

theorem rejected_of_expired (past : job.earlier.order.expiryMs.toNat ≤ s.now) :
    Rejected natives s job job.earlier.digest := by
  unfold MatchJob.earlier at past ⊢
  split at past
  · rename_i first
    rw [if_pos first]
    exact Or.inl ⟨rfl, fun accepted => absurd accepted.live (Nat.not_lt.mpr past)⟩
  · rename_i second
    rw [if_neg second]
    exact Or.inr ⟨rfl, fun accepted => absurd accepted.live (Nat.not_lt.mpr past)⟩

/-- The reported order is rejected on chain, and nothing else is given up, exactly when a
cancellation, a voided salt or a bad signature is the ask's own. -/
theorem attribution_iff (natives : Natives) (s : Exchange.Market) (job : MatchJob) (abort : MoveAbort) (raw : String)
    (aborts : Aborts natives s job abort) : Attributed natives s job abort raw ↔
      ¬ (ChargedToAsk abort ∧ Accepted natives s job.ask job.bid .base) := by
  constructor
  · rintro attributed ⟨charged, accepted⟩
    obtain ⟨reason, decoded⟩ := decodeAbort_ask charged job raw
    rcases (attributed _ _ decoded).1 with ⟨-, refused⟩ | ⟨same, -⟩
    · exact refused accepted
    · exact job.differ (job.askNamed.symm.trans (same.trans job.bidNamed))
  · intro own digest reason decoded
    have rejected : Rejected natives s job digest := by
      rcases decodeAbort_dead decoded with ⟨here, code, rfl⟩ | ⟨charged, rfl⟩
      · obtain ⟨why, site, ⟨stopped⟩⟩ := aborts.stopped here (Or.inl code)
        obtain ⟨name, number⟩ := abort
        cases here
        obtain rfl := (Error.site_deadly site).1.mp code
        exact rejected_of_expired (earlier_expired stopped)
      · exact Or.inl ⟨rfl, fun accepted => own ⟨charged, accepted⟩⟩
    refine ⟨rejected, fun cfg market events server ran which event reaction next moved lost gone => ?_⟩
    rw [Server.gives_up_dead (Server.backed_of_run ran) reaction moved gone]
    exact rejected

end Attribution

namespace Misattributed

open TracedMarket

def ask : Order := { Forged.reserved with taker := 0 }

def bid : Order := { Forged.counter 4 with expiryMs := 2000 }

def submission (order : Order) (side : Side) (key : Address) : Submission where
  digest := digest Forged.natives order 100
  order := order
  side := side
  priceTicks := 1
  filledTaker := 0
  status := .opened
  prefixedSignature := schemeEd25519 :: (addressBytes key ++ List.replicate 32 0)
  publicKey := addressBytes key

/-- The match of an ask of maker 3 and a bid of the victim, each signed by its maker. -/
def jobOf (ask bid : Order) (differ : digest Forged.natives ask 100 ≠ digest Forged.natives bid 100) : MatchJob where
  intent := ⟨100, digest Forged.natives ask 100, digest Forged.natives bid 100, 10, 1⟩
  ask := submission ask .ask 3
  bid := submission bid .bid Forged.victim
  askVault := false
  bidVault := false
  askNamed := rfl
  bidNamed := rfl
  differ := differ

theorem digests_differ : digest Forged.natives ask 100 ≠ digest Forged.natives bid 100 := by decide +kernel

def job : MatchJob := jobOf ask bid digests_differ

/-- Both makers have their managers, and the maker of the bid cancels it. -/
def cancelling : List TracedEvent :=
  Forged.prepare ++ [.transaction Forged.victim, .call (.newManager 4), .call (.cancel bid.toBytes), .transaction 8]

def outcome (s : Exchange.Market) : Result Error Exchange.Market :=
  s.matchOrders Forged.natives job.ask.signed.manager job.bid.signed.manager job.ask.signed.bytes job.ask.signed.signature
    job.ask.signed.publicKey job.bid.signed.bytes job.bid.signed.signature job.bid.signed.publicKey
    job.intent.fillBaseAmount

def stopsWith (s : Exchange.Market) (why : Error) : Bool :=
  match outcome s with
  | .error (.code found) => found = why
  | _ => false

theorem outcome_of_stopsWith {s : Exchange.Market} {why : Error} (stops : stopsWith s why = true) :
    outcome s = .error (.code why) := by
  unfold stopsWith at stops
  split at stops
  · rename_i found stopped
    rw [stopped, of_decide_eq_true stops]
  · cases stops

def acceptsAsk (s : Exchange.Market) : Bool :=
  (s.managers 2).any fun bm => (s.validated Forged.natives bm job.ask.signed .base bid.maker).isOk

theorem accepted_of_acceptsAsk {s : Exchange.Market} (accepts : acceptsAsk s = true) :
    Accepted Forged.natives s job.ask job.bid .base := by
  obtain ⟨bm, held, passes⟩ := Option.any_eq_true .. |>.mp accepts
  refine ⟨bm, held, ?_⟩
  change ∃ passed, s.validated Forged.natives bm job.ask.signed .base bid.maker = .ok passed
  cases ran : s.validated Forged.natives bm job.ask.signed .base bid.maker with
  | ok passed => exact ⟨passed, rfl⟩
  | error why =>
    rw [ran] at passes
    cases passes

/-- The bid is cancelled on chain, and the worker gives up the ask, which the chain accepts. -/
theorem fillable_ask_reported_dead : ∃ t, exec (TracedMarket.step Forged.natives) Forged.opening cancelling = .ok t ∧
    ∃ abort, Aborts Forged.natives t.market job abort ∧ Accepted Forged.natives t.market job.ask job.bid .base ∧
      ¬ Attributed Forged.natives t.market job abort "" := by
  refine exists_ok (fun t => acceptsAsk t.market && stopsWith t.market .cancelled) (by decide +kernel) ?_
  intro t _ passed
  obtain ⟨accepts, stops⟩ := Bool.and_eq_true .. |>.mp passed
  have accepted := accepted_of_acceptsAsk accepts
  refine ⟨⟨"settlement", 8⟩, .settled ⟨rfl, rfl⟩ (outcome_of_stopsWith stops) rfl, accepted, fun attributed => ?_⟩
  rcases (attributed job.ask.digest .cancelled rfl).1 with ⟨-, refused⟩ | ⟨same, -⟩
  · exact refused accepted
  · exact job.differ same

/-- The same match after the ask has expired. -/
theorem attribution_of_expired :
    ∃ t, exec (TracedMarket.step Forged.natives) Forged.opening (cancelling ++ [.tick 1500]) = .ok t ∧
      Attributed Forged.natives t.market job ⟨"settlement", 3⟩ "" := by
  refine exists_ok (fun t => stopsWith t.market .expired) (by decide +kernel) ?_
  intro t _ stops
  refine (attribution_iff Forged.natives t.market job _ "" (.settled ⟨rfl, rfl⟩ (outcome_of_stopsWith stops) rfl)).mpr ?_
  rintro ⟨⟨-, charged⟩, -⟩
  exact absurd charged (by decide)

end Misattributed

end SuiOptions.Orderbook
