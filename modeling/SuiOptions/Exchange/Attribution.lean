import SuiOptions.Exchange.Authority

/-! Who takes an order and whose fee tier a fill is charged at.

The counterparty of a fill comes from three places: the sender of the transaction, the maker
of the opposite order, and the owner of the manager behind either. What a fill is charged
is read off the fill that the call emits or keeps in an obligation.
-/

set_option autoImplicit false

namespace SuiOptions.Exchange

open Execution Move

/-- An order as a call presents it: the manager it names, its bytes and its signature. -/
structure SignedOrder where
  manager : ID
  bytes : Bytes
  signature : Bytes
  publicKey : Bytes

inductive Party where
  | sender
  | order (signed : SignedOrder)

def Party.capOrder (taken : SignedOrder) : Party → SignedOrder
  | .sender => taken
  | .order signed => signed

def Market.Call.fills : Market.Call → List (SignedOrder × Party)
  | .fillLimitOrder bm bytes signature publicKey _ _ _ | .fillLimitOrderReverse bm bytes signature publicKey _ _ _
  | .beginFill bm bytes signature publicKey _ _ | .beginFillReverse bm bytes signature publicKey _ _ =>
    [(⟨bm, bytes, signature, publicKey⟩, .sender)]
  | .matchOrders bmA bmB bytesA sigA pkA bytesB sigB pkB _ | .beginMatch bmA bmB bytesA sigA pkA bytesB sigB pkB _ =>
    [(⟨bmA, bytesA, sigA, pkA⟩, .order ⟨bmB, bytesB, sigB, pkB⟩),
      (⟨bmB, bytesB, sigB, pkB⟩, .order ⟨bmA, bytesA, sigA, pkA⟩)]
  | _ => []

def TracedEvent.fills : TracedEvent → List (SignedOrder × Party)
  | .call what => what.fills
  | _ => []

/-- Every fill so far: the emitted ones and those of open obligations. -/
def Market.recorded (s : Market) : List PendingFill :=
  s.events.map (·.toPendingFill) ++ s.obligations.flatMap (·.fills)

def PendingFill.bought (fill : PendingFill) : Nat := if fill.makerSoldBase then fill.quoteAmount else fill.baseAmount

def PendingFill.sold (fill : PendingFill) : Nat := if fill.makerSoldBase then fill.baseAmount else fill.quoteAmount

def Market.ChargedAt (s : Market) (signed : SignedOrder) (account : Address) (amount bps fee : Nat) : Prop :=
  (∃ ord, fromBytes signed.bytes = .ok ord ∧ bps = min ord.maxFeeBps.toNat (s.registry.feeBpsFor account)) ∧
    fee = amount * bps / bpsDenom

namespace TracedMarket

/-- The party is the address itself: it sent the transaction, or it or its delegate signed the order. -/
def ActsFor (natives : Natives) (v : Address) (t : TracedMarket) : Party → Prop
  | .sender => t.market.sender = v
  | .order signed => ∃ ord signer, fromBytes signed.bytes = .ok ord ∧ ord.maker = v ∧
      verifySignature natives (digest natives ord t.market.registry.id) signed.signature signed.publicKey =
        .ok (true, signer) ∧
      (signer = v ∨ t.Delegated v signed.manager signer)

/-- How a fill of an order by a party is attributed: it is taken by the taker the order names, both fees are
charged at the tiers of the fill's two accounts, and the address is such an account only if it acts itself. -/
structure FillAttributed (natives : Natives) (v : Address) (t : TracedMarket) (taken : SignedOrder × Party)
    (fill : PendingFill) : Prop where
  order : ∃ ord, fromBytes taken.1.bytes = .ok ord ∧ fill.digest = digest natives ord t.market.registry.id ∧
    (ord.taker = v → ActsFor natives v t taken.2)
  makerFee : t.market.ChargedAt taken.1 fill.maker fill.bought fill.makerFeeBps fill.makerFee
  takerFee : t.market.ChargedAt (taken.2.capOrder taken.1) fill.taker fill.sold fill.takerFeeBps fill.takerFee
  maker : fill.maker = v → ActsFor natives v t (.order taken.1)
  taker : fill.taker = v → ActsFor natives v t taken.2

/-- The fills that an accepted step adds are those its call asks for, each attributed. -/
def Attributed (natives : Natives) (v : Address) (t : TracedMarket) (event : TracedEvent) : Prop :=
  ∀ next, t.step natives event = .ok next → ∃ made : List PendingFill,
    (t.market.recorded ++ made).Perm next.market.recorded ∧
      List.Forall₂ (FillAttributed natives v t) event.fills made

end TracedMarket

/-! ### What a call records -/

namespace Market

variable {s next : Market}

def Adds (s : Market) (made : List PendingFill) (next : Market) : Prop := (s.recorded ++ made).Perm next.recorded

theorem adds_emitted {made : List PendingFill} {registry : ID}
    (events : next.events = s.events ++ made.map fun fill => { fill with registry := registry })
    (obligations : next.obligations = s.obligations) : s.Adds made next := by
  have emitted : next.events.map (·.toPendingFill) = s.events.map (·.toPendingFill) ++ made := by
    simp [events, Function.comp_def]
  unfold Adds recorded
  rw [emitted, obligations, List.append_assoc, List.append_assoc]
  exact List.perm_append_comm.append_left _

theorem adds_opened {ob : FillObligation} {made : List PendingFill} (fills : ob.fills = made)
    (events : next.events = s.events) (obligations : next.obligations = s.obligations ++ [ob]) : s.Adds made next := by
  unfold Adds recorded
  simp [fills, events, obligations]

theorem adds_nothing (events : next.events = s.events)
    (fills : next.obligations.map (·.fills) = s.obligations.map (·.fills)) : s.Adds [] next := by
  unfold Adds recorded
  rw [List.flatMap_def, List.flatMap_def, events, fills, List.append_nil]

theorem adds_replaced {index : Nat} {ob paid : FillObligation} (found : s.obligations[index]? = some ob)
    (fills : paid.fills = ob.fills) (events : next.events = s.events)
    (obligations : next.obligations = s.obligations.set index paid) : s.Adds [] next := by
  refine adds_nothing events ?_
  have here : (s.obligations.map (·.fills))[index]? = some ob.fills := by simp [found]
  rw [obligations, List.map_set, fills]
  obtain ⟨inside, same⟩ := List.getElem?_eq_some_iff.mp here
  rw [← same, List.set_getElem_self]

theorem adds_finished {index : Nat} {ob : FillObligation} (found : s.obligations[index]? = some ob)
    (events : next.events = s.events ++ ob.fills.map fun fill => { fill with registry := ob.registryId })
    (obligations : next.obligations = s.obligations.eraseIdx index) : s.Adds [] next := by
  obtain ⟨inside, rfl⟩ := List.getElem?_eq_some_iff.mp found
  have emitted : next.events.map (·.toPendingFill) = s.events.map (·.toPendingFill) ++ s.obligations[index].fills := by
    simp [events, Function.comp_def]
  have moved : (s.obligations.flatMap (·.fills)).Perm
      (s.obligations[index].fills ++ (s.obligations.eraseIdx index).flatMap (·.fills)) :=
    (List.getElem_cons_eraseIdx_perm inside).symm.flatMap_right _
  unfold Adds recorded
  rw [emitted, obligations, List.append_nil, List.append_assoc]
  exact moved.append_left _

theorem provide_fills {side : Side} {funds : Nat} {ob paid : FillObligation} (ran : ob.provide side funds = .ok paid) :
    paid.fills = ob.fills := by
  unfold FillObligation.provide at ran
  obtain ⟨-, ran⟩ := check_bind_ok.mp ran
  obtain ⟨-, ran⟩ := check_bind_ok.mp ran
  obtain ⟨total, -, produced⟩ := bind_ok.mp ran
  cases produced
  rfl

theorem takeDue_fills {side : Side} {due : Nat} {ob paid : FillObligation} (ran : ob.takeDue side = .ok (due, paid)) :
    paid.fills = ob.fills := by
  unfold FillObligation.takeDue at ran
  obtain ⟨-, ran⟩ := check_bind_ok.mp ran
  obtain ⟨-, ran⟩ := check_bind_ok.mp ran
  obtain ⟨-, produced⟩ := check_pure_ok.mp ran
  obtain ⟨-, rfl⟩ := Prod.mk.inj produced
  rfl

theorem provideLeg_adds {side : Side} {index funds : Nat} (ran : s.provideLeg side index funds = .ok next) :
    s.Adds [] next := by
  obtain ⟨ob, found, ran⟩ := bind_ok.mp ran
  obtain ⟨paid, provided, produced⟩ := bind_ok.mp ran
  cases produced
  exact adds_replaced (obligation_ok found) (provide_fills provided) rfl rfl

theorem provideLegFromManager_adds {side : Side} {index : Nat} {id : ID}
    (ran : s.provideLegFromManager side index id = .ok next) : s.Adds [] next := by
  obtain ⟨ob, found, ran⟩ := bind_ok.mp ran
  obtain ⟨bm, -, ran⟩ := bind_ok.mp ran
  obtain ⟨-, ran⟩ := check_bind_ok.mp ran
  obtain ⟨debited, -, ran⟩ := bind_ok.mp ran
  obtain ⟨paid, provided, produced⟩ := bind_ok.mp ran
  cases produced
  exact adds_replaced (obligation_ok found) (provide_fills provided) rfl rfl

theorem collectLegToManager_adds {side : Side} {index : Nat} {id : ID}
    (ran : s.collectLegToManager side index id = .ok next) : s.Adds [] next := by
  obtain ⟨ob, found, ran⟩ := bind_ok.mp ran
  obtain ⟨bm, -, ran⟩ := bind_ok.mp ran
  obtain ⟨-, ran⟩ := check_bind_ok.mp ran
  obtain ⟨⟨due, paid⟩, taken, ran⟩ := bind_ok.mp ran
  obtain ⟨credited, -, produced⟩ := bind_ok.mp ran
  cases produced
  exact adds_replaced (obligation_ok found) (takeDue_fills taken) rfl rfl

theorem collectLeg_adds {side : Side} {index due : Nat} {escrow : EscrowBinding}
    (ran : s.collectLeg side index escrow = .ok (due, next)) : s.Adds [] next := by
  obtain ⟨ob, found, ran⟩ := bind_ok.mp ran
  obtain ⟨-, ran⟩ := check_bind_ok.mp ran
  obtain ⟨⟨amount, paid⟩, taken, produced⟩ := bind_ok.mp ran
  cases produced
  exact adds_replaced (obligation_ok found) (takeDue_fills taken) rfl rfl

theorem finish_adds {index : Nat} (ran : s.finish index = .ok next) : s.Adds [] next := by
  obtain ⟨ob, found, ran⟩ := bind_ok.mp ran
  obtain ⟨-, ran⟩ := check_bind_ok.mp ran
  obtain ⟨-, ran⟩ := check_bind_ok.mp ran
  obtain ⟨-, ran⟩ := check_bind_ok.mp ran
  obtain ⟨-, ran⟩ := check_bind_ok.mp ran
  obtain ⟨first, -, ran⟩ := bind_ok.mp ran
  obtain ⟨second, -, produced⟩ := bind_ok.mp ran
  cases produced
  exact adds_finished (obligation_ok found) rfl rfl

end Market

section Parties

variable {natives : Natives}

/-- What validation says about the parties: the taker restriction, the manager and the signature. -/
structure Vouched (natives : Natives) (s : Market) (signed : SignedOrder) (expectedTaker : Address) (ord : Order) : Prop where
  decoded : fromBytes signed.bytes = .ok ord
  taker : ord.taker = 0 ∨ ord.taker = expectedTaker
  signature : ∃ bm signer, s.managers signed.manager = some bm ∧ bm.owner = ord.maker ∧
    verifySignature natives (digest natives ord s.registry.id) signed.signature signed.publicKey = .ok (true, signer) ∧
    (signer = ord.maker ∨ bm.isApprovedSigner signer = true)

theorem validate_vouched {s : Market} {bm : BalanceManager} {signed : SignedOrder} {side : Side}
    {expectedTaker : Address} {ord : Order} {hash : Bytes} (found : s.managers signed.manager = some bm)
    (ran : validate natives s.registry s.domain s.now signed.manager bm signed.bytes signed.signature signed.publicKey side
      expectedTaker s.sender = .ok (ord, hash)) : Vouched natives s signed expectedTaker ord := by
  unfold validate at ran
  obtain ⟨-, ran⟩ := check_bind_ok.mp ran
  obtain ⟨-, -, ran⟩ := bind_ok.mp ran
  obtain ⟨decodedOrder, decoded, ran⟩ := bind_ok.mp ran
  obtain ⟨-, ran⟩ := check_bind_ok.mp ran
  obtain ⟨-, ran⟩ := check_bind_ok.mp ran
  obtain ⟨taker, ran⟩ := check_bind_ok.mp ran
  obtain ⟨-, ran⟩ := check_bind_ok.mp ran
  obtain ⟨⟨-, owner⟩, ran⟩ := check_bind_ok.mp ran
  obtain ⟨-, ran⟩ := check_bind_ok.mp ran
  obtain ⟨-, ran⟩ := check_bind_ok.mp ran
  obtain ⟨-, ran⟩ := check_bind_ok.mp ran
  obtain ⟨⟨ok, signer⟩, verified, ran⟩ := bind_ok.mp ran
  obtain ⟨⟨valid, known⟩, produced⟩ := check_pure_ok.mp ran
  obtain ⟨rfl, rfl⟩ := Prod.mk.inj produced
  rw [valid] at verified
  exact ⟨decoded, taker, bm, signer, found, owner, verified, known⟩

variable {s next : Market}

structure FilledBy (natives : Natives) (s : Market) (taken : SignedOrder × Party) (fill : PendingFill) : Prop where
  vouched : ∃ ord, Vouched natives s taken.1 fill.taker ord ∧ fill.digest = digest natives ord s.registry.id ∧
    fill.maker = ord.maker
  makerFee : s.ChargedAt taken.1 fill.maker fill.bought fill.makerFeeBps fill.makerFee
  takerFee : s.ChargedAt (taken.2.capOrder taken.1) fill.taker fill.sold fill.takerFeeBps fill.takerFee
  taker : match taken.2 with
    | .sender => fill.taker = s.sender
    | .order other => ∃ ord, Vouched natives s other fill.maker ord ∧ fill.taker = ord.maker

theorem fillTerms_charged {reg : SettlementRegistry} {ord : Order} {hash : Bytes} {takerFillAmount : Nat} {taker : Address}
    {terms : FillTerms} (ran : fillTerms reg ord hash takerFillAmount taker = .ok terms) :
    (terms.makerFeeBps = min ord.maxFeeBps.toNat (reg.feeBpsFor ord.maker) ∧
        terms.makerFee = terms.fillT * terms.makerFeeBps / bpsDenom) ∧
      terms.takerFeeBps = min ord.maxFeeBps.toNat (reg.feeBpsFor taker) ∧
        terms.takerFee = terms.fillM * terms.takerFeeBps / bpsDenom := by
  unfold fillTerms at ran
  obtain ⟨remaining, -, ran⟩ := bind_ok.mp ran
  obtain ⟨-, ran⟩ := check_bind_ok.mp ran
  obtain ⟨fillM, -, ran⟩ := bind_ok.mp ran
  obtain ⟨makerFee, makerCharged, ran⟩ := bind_ok.mp ran
  obtain ⟨takerFee, takerCharged, produced⟩ := bind_ok.mp ran
  cases produced
  exact ⟨⟨rfl, muldivFloor_eq makerCharged⟩, rfl, muldivFloor_eq takerCharged⟩

theorem quoteFill_filled {side : Side} {bm : BalanceManager} {signed : SignedOrder} {takerFillAmount minMakerAmountOut : Nat}
    {ord : Order} {hash : Bytes} {terms : FillTerms} (found : s.managers signed.manager = some bm)
    (ran : s.quoteFill natives side signed.manager bm signed.bytes signed.signature signed.publicKey takerFillAmount
      minMakerAmountOut = .ok (ord, hash, terms)) (total : Nat) :
    FilledBy natives s (signed, .sender) (s.pendingFill side ord hash terms total) := by
  unfold Market.quoteFill at ran
  obtain ⟨⟨validOrder, validHash⟩, validated, ran⟩ := bind_ok.mp ran
  obtain ⟨quoted, priced, ran⟩ := bind_ok.mp ran
  obtain ⟨net, -, ran⟩ := bind_ok.mp ran
  obtain ⟨-, produced⟩ := check_pure_ok.mp ran
  cases produced
  have vouched := validate_vouched found validated
  obtain ⟨⟨makerBps, makerFee⟩, takerBps, takerFee⟩ := fillTerms_charged priced
  refine ⟨⟨ord, vouched, (validate_ok validated).hashed, rfl⟩, ⟨⟨ord, vouched.decoded, makerBps⟩, ?_⟩,
    ⟨⟨ord, vouched.decoded, takerBps⟩, ?_⟩, rfl⟩
  -- the maker buys the taker's token and the taker the maker's
  · cases side <;> exact makerFee
  · cases side <;> exact takerFee

def TakenBySender (natives : Natives) (s : Market) (signed : SignedOrder) (next : Market) : Prop :=
  ∃ fill, s.Adds [fill] next ∧ FilledBy natives s (signed, .sender) fill

theorem fillWith_taken {side : Side} {signed : SignedOrder} {takerCoin takerFillAmount minMakerAmountOut out change : Nat}
    (ran : s.fillWith natives side signed.manager signed.bytes signed.signature signed.publicKey takerCoin takerFillAmount
      minMakerAmountOut = .ok (out, change, next)) : TakenBySender natives s signed next := by
  unfold Market.fillWith at ran
  obtain ⟨bm, found, ran⟩ := bind_ok.mp ran
  obtain ⟨⟨ord, hash, terms⟩, quoted, ran⟩ := bind_ok.mp ran
  obtain ⟨-, ran⟩ := check_bind_ok.mp ran
  obtain ⟨-, ran⟩ := check_bind_ok.mp ran
  obtain ⟨first, -, ran⟩ := bind_ok.mp ran
  obtain ⟨credited, -, ran⟩ := bind_ok.mp ran
  obtain ⟨debited, -, ran⟩ := bind_ok.mp ran
  obtain ⟨-, ran⟩ := check_bind_ok.mp ran
  obtain ⟨second, -, ran⟩ := bind_ok.mp ran
  obtain ⟨⟨total, reg⟩, -, produced⟩ := bind_ok.mp ran
  cases produced
  exact ⟨_, Market.adds_emitted rfl rfl, quoteFill_filled (Market.manager_ok found) quoted total⟩

theorem beginFillImpl_taken {side : Side} {signed : SignedOrder} {takerFillAmount minMakerAmountOut : Nat}
    (ran : s.beginFillImpl natives side signed.manager signed.bytes signed.signature signed.publicKey takerFillAmount
      minMakerAmountOut = .ok next) : TakenBySender natives s signed next := by
  unfold Market.beginFillImpl at ran
  obtain ⟨bm, found, ran⟩ := bind_ok.mp ran
  obtain ⟨⟨ord, hash, terms⟩, quoted, ran⟩ := bind_ok.mp ran
  obtain ⟨⟨total, reg⟩, -, ran⟩ := bind_ok.mp ran
  obtain ⟨makerDue, -, ran⟩ := bind_ok.mp ran
  obtain ⟨takerDue, -, produced⟩ := bind_ok.mp ran
  cases produced
  exact ⟨_, Market.adds_opened rfl rfl rfl, quoteFill_filled (Market.manager_ok found) quoted total⟩

theorem matchTerms_charged {ordA ordB : Order} {fillBaseAmount feeABps feeBBps quoteAmount feeA feeB : Nat}
    (ran : matchTerms ordA ordB fillBaseAmount feeABps feeBBps = .ok (quoteAmount, feeA, feeB)) :
    feeA = quoteAmount * feeABps / bpsDenom ∧ feeB = fillBaseAmount * feeBBps / bpsDenom := by
  unfold matchTerms at ran
  obtain ⟨makers, -, ran⟩ := bind_ok.mp ran
  obtain ⟨takers, -, ran⟩ := bind_ok.mp ran
  obtain ⟨-, ran⟩ := check_bind_ok.mp ran
  obtain ⟨-, ran⟩ := check_bind_ok.mp ran
  obtain ⟨quote, -, ran⟩ := bind_ok.mp ran
  obtain ⟨-, ran⟩ := check_bind_ok.mp ran
  obtain ⟨paidA, -, ran⟩ := bind_ok.mp ran
  obtain ⟨wantA, -, ran⟩ := bind_ok.mp ran
  obtain ⟨-, ran⟩ := check_bind_ok.mp ran
  obtain ⟨paidB, -, ran⟩ := bind_ok.mp ran
  obtain ⟨mostB, -, ran⟩ := bind_ok.mp ran
  obtain ⟨-, ran⟩ := check_bind_ok.mp ran
  obtain ⟨_, chargedA, ran⟩ := bind_ok.mp ran
  obtain ⟨_, chargedB, produced⟩ := bind_ok.mp ran
  cases produced
  exact ⟨muldivFloor_eq chargedA, muldivFloor_eq chargedB⟩

def Opposed (natives : Natives) (s : Market) (a b : SignedOrder) (fills : List PendingFill) : Prop :=
  List.Forall₂ (FilledBy natives s) [(a, .order b), (b, .order a)] fills

theorem recordMatch_opposed {a b : SignedOrder} {bmA bmB : BalanceManager} {fillBaseAmount : Nat} {m : Market.Matched}
    (foundA : s.managers a.manager = some bmA) (foundB : s.managers b.manager = some bmB)
    (ran : s.recordMatch natives a.manager bmA b.manager bmB a.bytes a.signature a.publicKey b.bytes b.signature b.publicKey
      fillBaseAmount = .ok m) : Opposed natives s a b (s.matchFills m fillBaseAmount) := by
  unfold Market.recordMatch at ran
  obtain ⟨peekA, readA, ran⟩ := bind_ok.mp ran
  obtain ⟨peekB, readB, ran⟩ := bind_ok.mp ran
  obtain ⟨⟨ordA, digestA⟩, validA, ran⟩ := bind_ok.mp ran
  obtain ⟨⟨ordB, digestB⟩, validB, ran⟩ := bind_ok.mp ran
  obtain ⟨⟨quoteAmount, feeA, feeB⟩, priced, ran⟩ := bind_ok.mp ran
  obtain ⟨⟨totalA, first⟩, -, ran⟩ := bind_ok.mp ran
  obtain ⟨⟨totalB, second⟩, -, produced⟩ := bind_ok.mp ran
  cases produced
  have vouchedA := validate_vouched foundA validA
  have vouchedB := validate_vouched foundB validB
  obtain ⟨chargedA, chargedB⟩ := matchTerms_charged priced
  -- the peeked makers are those of the validated orders
  cases readA.symm.trans vouchedA.decoded
  cases readB.symm.trans vouchedB.decoded
  refine .cons ⟨⟨peekA, vouchedA, (validate_ok validA).hashed, rfl⟩, ?_, ?_, peekB, vouchedB, rfl⟩
    (.cons ⟨⟨peekB, vouchedB, (validate_ok validB).hashed, rfl⟩, ?_, ?_, peekA, vouchedA, rfl⟩ .nil)
  · exact ⟨⟨peekA, vouchedA.decoded, rfl⟩, chargedA⟩
  · exact ⟨⟨peekB, vouchedB.decoded, rfl⟩, chargedB⟩
  · exact ⟨⟨peekB, vouchedB.decoded, rfl⟩, chargedB⟩
  · exact ⟨⟨peekA, vouchedA.decoded, rfl⟩, chargedA⟩

def Matches (natives : Natives) (s : Market) (a b : SignedOrder) (next : Market) : Prop :=
  ∃ fills, s.Adds fills next ∧ Opposed natives s a b fills

theorem matchOrders_matches {a b : SignedOrder} {fillBaseAmount : Nat}
    (ran : s.matchOrders natives a.manager b.manager a.bytes a.signature a.publicKey b.bytes b.signature b.publicKey
      fillBaseAmount = .ok next) : Matches natives s a b next := by
  unfold Market.matchOrders at ran
  obtain ⟨-, ran⟩ := check_bind_ok.mp ran
  obtain ⟨bmA, foundA, ran⟩ := bind_ok.mp ran
  obtain ⟨bmB, foundB, ran⟩ := bind_ok.mp ran
  obtain ⟨m, recorded, ran⟩ := bind_ok.mp ran
  obtain ⟨paidA, -, ran⟩ := bind_ok.mp ran
  obtain ⟨-, ran⟩ := check_bind_ok.mp ran
  obtain ⟨first, -, ran⟩ := bind_ok.mp ran
  obtain ⟨creditedB, -, ran⟩ := bind_ok.mp ran
  obtain ⟨paidB, -, ran⟩ := bind_ok.mp ran
  obtain ⟨-, ran⟩ := check_bind_ok.mp ran
  obtain ⟨second, -, ran⟩ := bind_ok.mp ran
  obtain ⟨creditedA, -, produced⟩ := bind_ok.mp ran
  cases produced
  exact ⟨_, Market.adds_emitted rfl rfl,
    recordMatch_opposed (Market.manager_ok foundA) (Market.manager_ok foundB) recorded⟩

theorem beginMatch_matches {a b : SignedOrder} {fillBaseAmount : Nat}
    (ran : s.beginMatch natives a.manager b.manager a.bytes a.signature a.publicKey b.bytes b.signature b.publicKey
      fillBaseAmount = .ok next) : Matches natives s a b next := by
  unfold Market.beginMatch at ran
  obtain ⟨bmA, foundA, ran⟩ := bind_ok.mp ran
  obtain ⟨bmB, foundB, ran⟩ := bind_ok.mp ran
  obtain ⟨-, ran⟩ := check_bind_ok.mp ran
  obtain ⟨m, recorded, ran⟩ := bind_ok.mp ran
  obtain ⟨dueA, -, ran⟩ := bind_ok.mp ran
  obtain ⟨dueB, -, produced⟩ := bind_ok.mp ran
  cases produced
  exact ⟨_, Market.adds_opened rfl rfl rfl,
    recordMatch_opposed (Market.manager_ok foundA) (Market.manager_ok foundB) recorded⟩

theorem call_records {what : Market.Call} (ran : s.call natives what = .ok next) :
    ∃ made, s.Adds made next ∧ List.Forall₂ (FilledBy natives s) what.fills made := by
  -- a fill taken by the sender
  have direct : ∀ {signed : SignedOrder}, TakenBySender natives s signed next →
      ∃ made, s.Adds made next ∧
        List.Forall₂ (FilledBy natives s) [(signed, Party.sender)] made := by
    rintro signed ⟨fill, added, filled⟩
    exact ⟨[fill], added, .cons filled .nil⟩
  -- a call that records no fill
  have nothing : s.Adds [] next → ∃ made, s.Adds made next ∧
      List.Forall₂ (FilledBy natives s) [] made :=
    fun added => ⟨[], added, .nil⟩
  cases what with
  | fillLimitOrder bm bytes signature publicKey | fillLimitOrderReverse bm bytes signature publicKey =>
    obtain ⟨⟨out, change, after⟩, filled, rfl⟩ := Market.map_ok ran
    have taken : TakenBySender natives s ⟨bm, bytes, signature, publicKey⟩ after := fillWith_taken filled
    exact direct taken
  | beginFill bm bytes signature publicKey | beginFillReverse bm bytes signature publicKey =>
    have taken : TakenBySender natives s ⟨bm, bytes, signature, publicKey⟩ next := beginFillImpl_taken ran
    exact direct taken
  | matchOrders bmA bmB bytesA sigA pkA bytesB sigB pkB =>
    have matched : Matches natives s ⟨bmA, bytesA, sigA, pkA⟩ ⟨bmB, bytesB, sigB, pkB⟩ next := matchOrders_matches ran
    exact matched
  | beginMatch bmA bmB bytesA sigA pkA bytesB sigB pkB =>
    have matched : Matches natives s ⟨bmA, bytesA, sigA, pkA⟩ ⟨bmB, bytesB, sigB, pkB⟩ next := beginMatch_matches ran
    exact matched
  -- the legs move funds of fills that were recorded when the obligation began
  | provideBase | provideQuote => exact nothing (Market.provideLeg_adds ran)
  | provideBaseFromManager | provideQuoteFromManager => exact nothing (Market.provideLegFromManager_adds ran)
  | collectQuoteToManager | collectBaseToManager => exact nothing (Market.collectLegToManager_adds ran)
  | collectQuoteWithCap | collectBaseWithCap | collectQuoteBearer | collectBaseBearer =>
    obtain ⟨⟨due, after⟩, collected, rfl⟩ := Market.map_ok ran
    exact nothing (Market.collectLeg_adds collected)
  | finish => exact nothing (Market.finish_adds ran)
  -- the rest touches managers, records and gates only
  | cancel =>
    obtain ⟨ord, -, ran⟩ := bind_ok.mp ran
    obtain ⟨-, rfl⟩ := check_pure_ok.mp ran
    exact nothing (Market.adds_nothing rfl rfl)
  | cancelUpTo =>
    obtain ⟨-, rfl⟩ := check_pure_ok.mp ran
    exact nothing (Market.adds_nothing rfl rfl)
  | cancelUpToForManager =>
    obtain ⟨bm, -, ran⟩ := bind_ok.mp ran
    obtain ⟨-, ran⟩ := check_bind_ok.mp ran
    obtain ⟨-, rfl⟩ := check_pure_ok.mp ran
    exact nothing (Market.adds_nothing rfl rfl)
  | gc | admin | gate =>
    obtain ⟨changed, -, produced⟩ := bind_ok.mp ran
    cases produced
    exact nothing (Market.adds_nothing rfl rfl)
  | newManager | newWithOwnerCap =>
    obtain ⟨-, rfl⟩ := check_pure_ok.mp ran
    exact nothing (Market.adds_nothing rfl rfl)
  | manage =>
    obtain ⟨bm, -, ran⟩ := bind_ok.mp ran
    obtain ⟨changed, -, produced⟩ := bind_ok.mp ran
    cases produced
    exact nothing (Market.adds_nothing rfl rfl)

end Parties

namespace TracedMarket

variable {natives : Natives} {t next : TracedMarket} {v : Address}

theorem Own.actsFor {signed : SignedOrder} {expectedTaker : Address} {ord : Order} (own : Own v t)
    (vouched : Vouched natives t.market signed expectedTaker ord) (maker : ord.maker = v) :
    ActsFor natives v t (.order signed) := by
  obtain ⟨bm, signer, found, owner, verified, known⟩ := vouched.signature
  refine ⟨ord, signer, vouched.decoded, maker, verified, ?_⟩
  rcases known with itself | approved
  · exact Or.inl (itself.trans maker)
  · exact Or.inr (own.delegated found (owner.trans maker) approved)

theorem Own.fill {signed : SignedOrder} {taker : Party} {fill : PendingFill} (own : Own v t) (named : v ≠ 0)
    (filled : FilledBy natives t.market (signed, taker) fill) : FillAttributed natives v t (signed, taker) fill := by
  obtain ⟨ord, vouched, hashed, maker⟩ := filled.vouched
  have acts : fill.taker = v → ActsFor natives v t taker := by
    intro charged
    have party := filled.taker
    cases taker with
    | sender => exact party.symm.trans charged
    | order other =>
      obtain ⟨against, counter, taken⟩ := party
      exact own.actsFor counter (taken.symm.trans charged)
  refine ⟨⟨ord, vouched.decoded, hashed, fun restricted => ?_⟩, filled.makerFee, filled.takerFee,
    fun charged => own.actsFor vouched (maker.symm.trans charged), acts⟩
  rcases vouched.taker with free | expected
  · exact absurd (restricted.symm.trans free) named
  · exact acts (expected.symm.trans restricted)

theorem trace_market {what : Market.Call} {after : Market} : (t.trace after what).market = after := by
  cases what with
  | manage id what => cases what <;> rfl
  | _ => rfl

theorem Own.attributed (own : Own v t) (named : v ≠ 0) (event : TracedEvent) : Attributed natives v t event := by
  intro next ran
  have still : next.market.events = t.market.events → next.market.obligations = t.market.obligations →
      ∃ made, t.market.Adds made next.market ∧ List.Forall₂ (FillAttributed natives v t) [] made :=
    fun events obligations => ⟨[], Market.adds_nothing events (by rw [obligations]), .nil⟩
  cases event with
  | tick now =>
    obtain ⟨after, ticked, produced⟩ := bind_ok.mp ran
    cases produced
    obtain ⟨-, ticked⟩ := check_bind_ok.mp ticked
    obtain ⟨-, rfl⟩ := check_pure_ok.mp ticked
    exact still rfl rfl
  | transaction sender =>
    obtain ⟨after, opened, produced⟩ := bind_ok.mp ran
    cases produced
    obtain ⟨-, rfl⟩ := check_pure_ok.mp opened
    exact still rfl rfl
  | moveCap id holder =>
    obtain ⟨-, rfl⟩ := check_pure_ok.mp ran
    exact still rfl rfl
  | call what =>
    obtain ⟨-, ran⟩ := check_bind_ok.mp ran
    obtain ⟨after, called, produced⟩ := bind_ok.mp ran
    cases produced
    obtain ⟨made, added, filled⟩ := call_records called
    rw [trace_market]
    exact ⟨made, added, filled.imp fun taken fill record => own.fill named record⟩

/-- In every run in which managers in the name of an address are created, and signers on them approved, by the
address alone, orders restricted to it are filled by it or its delegates, and its fee tier applies to them. -/
theorem taker_attribution (natives : Natives) (v : Address) (named : v ≠ 0) (id : ID) (token : Side → String)
    (distinct : token .base ≠ token .quote) (feeBps : Nat) (domain : DomainState) (now : Nat) {events : List TracedEvent}
    (hands : Along (step natives) (fun t event => t.InOwnHands v event) (start id token distinct feeBps domain now) events) :
    Along (step natives) (Attributed natives v) (start id token distinct feeBps domain now) events :=
  along_of_invariant (step natives) (Own v) (fun _ _ _ own hands ran => own.step hands ran)
    (fun _ event own _ => own.attributed named event) (own_start id token distinct feeBps domain now) hands

end TracedMarket

namespace Forged

open TracedMarket

/-- A resting order of maker 3 for the victim alone: base against quote, one to one. -/
def reserved : Order :=
  { makerToken := token .base
    takerToken := token .quote
    makerAmount := 1000
    takerAmount := 1000
    maxFeeBps := 50
    maker := 3
    makerManagerId := 2
    taker := victim
    sender := 0
    expiryMs := 1000
    salt := 1 }

def counter (manager : ID) : Order :=
  { makerToken := token .quote
    takerToken := token .base
    makerAmount := 1000
    takerAmount := 1000
    maxFeeBps := 50
    maker := victim
    makerManagerId := manager
    taker := 0
    sender := 0
    expiryMs := 1000
    salt := 2 }

def signed (manager : ID) (order : Order) (key : Address) : SignedOrder :=
  ⟨manager, order.toBytes, schemeEd25519 :: (addressBytes key ++ List.replicate 32 0), addressBytes key⟩

def matchSigned (a b : SignedOrder) (amount : Nat) : Market.Call :=
  .matchOrders a.manager b.manager a.bytes a.signature a.publicKey b.bytes b.signature b.publicKey amount

/-- The victim has a free tier; the maker funds its order. -/
def prepare : List TracedEvent :=
  [.call (.admin (.setFeeTier victim 0)), .transaction 3, .call (.newManager 2),
    .call (.manage 2 (.deposit (token .base) 1000))]

/-- The stranger takes the reserved order with its own key and funds, free of fees. -/
theorem stranger_takes_reserved_order :
    ∃ t, exec (step natives) opening (prepare ++ usurp ++ [.call (.manage 1 (.depositWithCap 1 (token .quote) 1000))]) =
        .ok t ∧
      ¬ Attributed natives victim t
        (.call (matchSigned (signed 2 reserved 3) (signed 1 (counter 1) stranger) 1000)) := by
  refine exists_ok (fun t => decide (t.creator 1 = some stranger) && decide (t.market.registry.id = 100) &&
    (t.step natives (.call (matchSigned (signed 2 reserved 3) (signed 1 (counter 1) stranger) 1000))).isOk)
    (by decide +kernel) ?_
  intro t _ passed attributed
  simp only [Bool.and_eq_true, decide_eq_true_eq] at passed
  obtain ⟨⟨creator, registry⟩, accepted⟩ := passed
  cases called : t.step natives (.call (matchSigned (signed 2 reserved 3) (signed 1 (counter 1) stranger) 1000)) with
  | error why =>
    rw [called] at accepted
    cases accepted
  | ok next =>
    obtain ⟨made, -, filled⟩ := attributed next called
    obtain ⟨fill, rest, taken, -, -⟩ := List.forall₂_cons_left_iff.mp filled
    obtain ⟨own, read, -, restricted⟩ := taken.order
    have known : fromBytes (signed 2 reserved 3).bytes = .ok reserved := by decide +kernel
    cases known.symm.trans read
    obtain ⟨ord, signer, decoded, -, verified, acts⟩ := restricted rfl
    have other : fromBytes (signed 1 (counter 1) stranger).bytes = .ok (counter 1) := by decide +kernel
    cases other.symm.trans decoded
    rw [registry] at verified
    have key : verifySignature natives (digest natives (counter 1) 100) (signed 1 (counter 1) stranger).signature
        (signed 1 (counter 1) stranger).publicKey = .ok (true, stranger) := by decide +kernel
    cases key.symm.trans verified
    -- the key is neither the victim's nor one the victim approved
    rcases acts with itself | ⟨bm, -, -, -, created, -⟩
    · exact absurd itself (by decide)
    · rw [show (signed 1 (counter 1) stranger).manager = 1 from rfl, creator] at created
      exact absurd created (by decide)

/-- The victim itself takes the order, through a manager and a hot key of its own. -/
def take : List TracedEvent :=
  prepare ++ [.transaction victim, .call (.newManager 4), .call (.manage 4 (.deposit (token .quote) 1000)),
    .call (.manage 4 (.addSigner 9)),
    .call (matchSigned (signed 2 reserved 3) (signed 4 (counter 4) 9) 1000)]

theorem taker_attribution_take :
    (∃ t, exec (step natives) opening take = .ok t ∧ t.market.events.length = 2) ∧
      Along (step natives) (Attributed natives victim) opening take := by
  have hands : Along (step natives) (fun t event => t.InOwnHands victim event) opening take :=
    along_of_test (step natives) (fun _ _ _ _ _ => trivial) (fun t event _ => ownHandsTest_sound t event) trivial
      (by decide +kernel)
  have filled : ∃ t, exec (step natives) opening take = .ok t ∧ t.market.events.length = 2 :=
    exists_ok (fun t => decide (t.market.events.length = 2)) (by decide +kernel) fun _ _ two => of_decide_eq_true two
  exact ⟨filled, taker_attribution natives victim (by decide) 100 token (by decide) 50 ⟨[], false, false⟩ 0 hands⟩

end Forged

end SuiOptions.Exchange
