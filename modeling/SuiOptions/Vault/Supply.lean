import SuiOptions.Vault.Shares

/-! Conservation of the share supplies over every run of a vault. -/

set_option autoImplicit false

namespace SuiOptions.Vault

open Execution Move
open Exchange (ID Address DomainState)

namespace TradingVault

variable {Obj : Type} {v next : TradingVault Obj}

/-! ### What the paths that consume an appraisal do -/

theorem syncCapital_reshuffled {cfg : VaultProtocolConfig} {nav now seniorNav juniorNav : Nat}
    (ran : v.syncCapital cfg nav now = .ok (next, seniorNav, juniorNav)) : Reshuffled v next := by
  have frame := syncCapital_frame ran
  exact .of_same frame.capital frame.supply frame.claims (by rw [frame.queue])

theorem SharesHold.reshuffled (before : v.SharesHold) (moved : Reshuffled v next)
    (settlement : next.settlement = none → v.settlement = none) : next.SharesHold :=
  ⟨moved.kept before.kept, fun none => moved.conserved (before.conserved (settlement none))⟩

theorem SharesHold.synced {cfg : VaultProtocolConfig} {nav now seniorNav juniorNav : Nat} (before : v.SharesHold)
    (ran : v.syncCapital cfg nav now = .ok (next, seniorNav, juniorNav)) : next.SharesHold := by
  refine before.reshuffled (syncCapital_reshuffled ran) ?_
  rw [(syncCapital_frame ran).settlement]
  exact fun none => none

theorem fundCommitment_ok {position : VaultPosition} (ran : v.fundCommitment position = .ok next) :
    ∃ claims, { v with claims } = next ∧ ∀ shares, v.WellKept →
      v.capital.isTranched = decide (v.commitmentTranche ≠ .untranched) →
      Fresh v v.commitmentTranche shares position → Minted v v.commitmentTranche shares claims := by
  unfold fundCommitment at ran
  have slot : ∀ capId other, Place.commitment v.curatorCapId v.commitmentTranche = .commitment capId other →
      v.commitmentTranche = other := by
    rintro capId other ⟨⟩
    rfl
  split at ran
  case h_1 =>
    rw [pure_ok] at ran
    exact ⟨_, ran, fun shares kept kind fresh => .append _ kept kind fresh slot⟩
  case h_2 index held found =>
    obtain ⟨there, place⟩ := escrowed_ok found
    split at ran
    case isTrue wiped =>
      rw [pure_ok] at ran
      simp only [wipedClaim, decide_eq_true_eq] at wiped
      exact ⟨_, ran, fun shares kept kind fresh => .replace kept kind there wiped fresh slot⟩
    case isFalse live =>
      simp only [bind_ok, pure_ok] at ran
      obtain ⟨merged, merges, same⟩ := ran
      obtain ⟨_, _, tranche, generation, total⟩ := VaultPosition.merge_ok merges
      refine ⟨_, same, fun shares kept _ fresh => ?_⟩
      have mine := kept.slots held (List.mem_of_getElem? there) _ _ place
      refine .enlarge kept there mine (by simpa [wipedClaim] using live) ⟨tranche, generation⟩ ?_ place.symm
      rw [total, fresh.ofShares]

/-- Fee shares open the slot, replace a wiped position or add to what is there. -/
theorem creditCommitment_ok {tranche : Tranche} {shares basis : Nat} {id : ID}
    (ran : v.creditCommitment tranche shares basis id = .ok next) :
    ∃ claims, { v with claims } = next ∧ (v.WellKept → v.capital.isTranched = decide (tranche ≠ .untranched) →
      Minted v tranche shares claims) := by
  unfold creditCommitment at ran
  have slot : ∀ capId other, Place.commitment v.curatorCapId tranche = .commitment capId other → tranche = other := by
    rintro capId other ⟨⟩
    rfl
  have generation : tranche = .junior → v.generationOf tranche = v.book.activeJuniorGeneration := fun junior => if_pos junior
  split at ran
  case h_1 =>
    rw [pure_ok] at ran
    exact ⟨_, ran, fun kept kind => .append _ kept kind ⟨rfl, rfl, rfl⟩ slot⟩
  case h_2 index held found =>
    obtain ⟨there, place⟩ := escrowed_ok found
    split at ran
    case isTrue wiped =>
      rw [pure_ok] at ran
      refine ⟨_, ran, fun kept kind => .replace kept kind there ⟨wiped.1, ?_⟩ ⟨rfl, rfl, rfl⟩ slot⟩
      have mine := kept.slots held (List.mem_of_getElem? there) _ _ place
      exact generation (mine.symm.trans wiped.1) ▸ wiped.2
    case isFalse live =>
      simp only [bind_ok, pure_ok] at ran
      obtain ⟨credited, credits, same⟩ := ran
      obtain ⟨tranche', generation', total⟩ := VaultPosition.credit_ok credits
      refine ⟨_, same, fun kept _ => ?_⟩
      have mine := kept.slots held (List.mem_of_getElem? there) _ _ place
      refine .enlarge kept there mine ?_ ⟨tranche', generation'⟩ total rfl
      rintro ⟨junior, old⟩
      exact live ⟨junior, (generation (mine.symm.trans junior)).symm ▸ old⟩

theorem Issued.fresh {w : TradingVault Obj} {tranche : Tranche} {t : TypeName}
    {amount value nav seniorNav juniorNav : Nat} {position : VaultPosition}
    (issued : Issued v tranche t amount value nav seniorNav juniorNav w position) :
    Fresh v tranche position.shares position := ⟨issued.ofTranche, issued.ofGeneration, rfl⟩

theorem deposit_sharesHold {cfg : VaultProtocolConfig} {lp : DomainState} {sender : Address} {a : Appraisal Obj}
    {t : TypeName} {amount now : Nat} {att : Option PriceAttestation} {tranche : Tranche} {id : ID}
    (before : v.SharesHold) (ran : v.deposit cfg lp sender a t amount att tranche now id = .ok next) :
    next.SharesHold := by
  obtain ⟨w, position, navAfter, deposited, rfl⟩ := deposit_ok ran
  obtain ⟨_, kind, value, nav, synced, seniorNav, juniorNav, _, _, syncs, issued⟩ := depositInternal_ok deposited
  have middle := before.synced syncs
  rw [← (syncCapital_frame syncs).capital] at kind
  have minted := Minted.append ⟨position, .wallet⟩ middle.kept kind issued.fresh (fun _ _ place => nomatch place)
  refine minted.sharesHold middle issued.booked issued.capital rfl ?_ ?_ issued.settlement
  · rw [issued.claims]
  · rw [issued.queue]

theorem depositIntoCommitment_sharesHold {cfg : VaultProtocolConfig} {lp : DomainState} {sender : Address} {cap : ID}
    {a : Appraisal Obj} {t : TypeName} {amount now : Nat} {att : Option PriceAttestation} {id : ID}
    (before : v.SharesHold) (ran : v.depositIntoCommitment cfg lp sender cap a t amount att now id = .ok next) :
    next.SharesHold := by
  obtain ⟨w, position, navAfter, funded, breached, deposited, funds, rfl⟩ := depositIntoCommitment_ok ran
  obtain ⟨_, kind, value, nav, synced, seniorNav, juniorNav, _, _, syncs, issued⟩ := depositInternal_ok deposited
  have middle := before.synced syncs
  have tranche : v.commitmentTranche = synced.commitmentTranche := by
    rw [commitmentTranche, commitmentTranche, (syncCapital_frame syncs).capital]
  rw [← (syncCapital_frame syncs).capital, tranche] at kind
  rw [tranche] at issued
  obtain ⟨generation, proposal, _, _⟩ := TrancheBook.onDeposit_ok issued.booked
  have kept : w.WellKept := by
    refine ⟨?_, ?_, ?_, ?_⟩
    · rw [issued.claims, issued.capital, generation]
      exact middle.kept.claims
    · rw [issued.queue, issued.capital, generation]
      exact middle.kept.requests
    · rw [issued.claims]
      exact middle.kept.slots
    · rw [issued.capital, proposal]
      exact middle.kept.proposal
  obtain ⟨claims, rfl, mints⟩ := fundCommitment_ok funds
  -- the escrow is funded after the book was raised, under the same generation
  have tranche' : w.commitmentTranche = synced.commitmentTranche := by
    rw [commitmentTranche, commitmentTranche, issued.capital]
  rw [tranche', issued.capital] at mints
  have minted := (mints position.shares kept kind (issued.fresh.transfer generation)).transfer issued.capital issued.claims
    generation
  refine minted.sharesHold middle issued.booked issued.capital rfl rfl ?_ issued.settlement
  rw [issued.queue]

/-! ### Fulfillment -/

theorem payOut_sharesHold {t : TypeName} {amount : Nat} (before : v.SharesHold) (ran : v.payOut t amount = .ok next) :
    next.SharesHold := by
  obtain ⟨purse, rfl, _⟩ := payOut_ok ran
  exact before.reshuffled (.of_same rfl (.refl _) rfl rfl) (fun none => none)

theorem mintFee_sharesHold {f : Fulfillment} {tranche : Tranche} {curatorNet : Nat} {id : ID} (before : v.SharesHold)
    (kind : v.capital.isTranched = decide (tranche ≠ .untranched))
    (ran : v.mintFee f tranche curatorNet id = .ok next) : next.SharesHold := by
  rcases mintFee_ok ran with rfl | ⟨shares, book, _, booked, credits⟩
  · exact before
  · obtain ⟨claims, rfl, mints⟩ := creditCommitment_ok credits
    obtain ⟨generation, proposal, _, _⟩ := TrancheBook.onDeposit_ok booked
    have kept : ({ v with book } : TradingVault Obj).WellKept := by
      refine ⟨?_, ?_, before.kept.slots, ?_⟩
      · simpa only [generation] using before.kept.claims
      · simpa only [generation] using before.kept.requests
      · simpa only [proposal] using before.kept.proposal
    have minted : Minted v tranche shares claims := (mints kept kind).transfer rfl rfl generation
    exact minted.sharesHold before booked rfl rfl rfl rfl rfl

theorem outstanding_drop {w : TradingVault Obj} {seq : Nat} {request : WithdrawRequest}
    (found : v.queue.requests.get? seq = some request)
    (generation : w.book.activeJuniorGeneration = v.book.activeJuniorGeneration) (claims : w.claims = v.claims)
    (left : w.queue.requests = v.queue.requests.remove seq) (code : LaneCode) :
    v.outstanding code = request.stake.weight v.book.activeJuniorGeneration code + w.outstanding code := by
  have removed := Table.sum_remove
    (fun entry : Nat × WithdrawRequest => entry.2.stake.weight v.book.activeJuniorGeneration code) found
  dsimp only at removed
  rw [TradingVault.outstanding, TradingVault.outstanding, outstandingOf, outstandingOf, left, claims, generation]
  omega

theorem burnShares_sharesHold {w : TradingVault Obj} {f : Fulfillment} {seq : Nat} {request : WithdrawRequest}
    (before : v.SharesHold) (found : v.queue.requests.get? seq = some request) (ran : w.burnShares f request = .ok next)
    (book : w.book = v.book) (capital : w.capital = v.capital) (claims : w.claims = v.claims)
    (settlement : w.settlement = v.settlement) (left : w.queue.requests = v.queue.requests.remove seq) :
    next.SharesHold := by
  have sound := before.kept.requests _ (Table.mem_of_get? found)
  rw [← book, ← capital] at sound
  have kept : w.WellKept := by
    refine ⟨?_, fun entry member => ?_, ?_, ?_⟩
    · rw [claims, capital, book]
      exact before.kept.claims
    · rw [left] at member
      rw [capital, book]
      exact before.kept.requests entry (Table.mem_of_mem_remove member)
    · rw [claims]
      exact before.kept.slots
    · rw [book, capital]
      exact before.kept.proposal
  have total : ∀ code, v.outstanding code =
      request.stake.weight w.book.activeJuniorGeneration code + w.outstanding code := by
    intro code
    rw [book]
    exact outstanding_drop found (by rw [book]) claims left code
  rcases burnShares_ok ran with ⟨wiped, rfl⟩ | ⟨live, burned, booked, rfl⟩
  · refine ⟨kept, fun none code => ?_⟩
    simp only [wipedClaim, decide_eq_true_eq] at wiped
    have nothing : request.stake.weight w.book.activeJuniorGeneration code = 0 := Stake.weight_wiped wiped.1 wiped.2
    rw [book, before.conserved (settlement ▸ none) code, total code, nothing, Nat.zero_add]
  · obtain ⟨generation, proposal, _, _⟩ := TrancheBook.onFulfill_ok booked
    refine ⟨⟨?_, ?_, kept.slots, ?_⟩, fun none code => ?_⟩
    · simpa only [generation] using kept.claims
    · simpa only [generation] using kept.requests
    · simpa only [proposal] using kept.proposal
    · have weight := sound.weight_live code (by simpa [wipedClaim, WithdrawRequest.stake] using live)
      have conserved := before.conserved (settlement ▸ none) code
      have lowered := TrancheBook.onFulfill_sharesOf booked code
      rw [total code, weight, ← book, lowered] at conserved
      simp only [TradingVault.outstanding, generation]
      exact Nat.add_right_cancel (conserved.trans (Nat.add_comm _ _))

theorem fulfillNext_sharesHold {cfg : VaultProtocolConfig} {f : Fulfillment} {p : TypeName} {now : Nat} {id : ID}
    {outcome : Option Receipt} (before : v.SharesHold) (ran : v.fulfillNext cfg f p now id = .ok (next, outcome)) :
    next.SharesHold := by
  rcases fulfillNext_ok ran with ⟨rfl, _⟩ | ⟨receipt, _, paid⟩
  · exact before.reshuffled (.of_same rfl (.refl _) rfl rfl) (fun none => none)
  · obtain ⟨curatorNet, burned, minted, cut, _, burns, mints, cuts, pays⟩ := settleRequest_ok paid.settled
    have sound := before.kept.requests _ (Table.mem_of_get? paid.found)
    have middle := burnShares_sharesHold before paid.found burns rfl rfl rfl rfl rfl
    have capital : burned.capital = v.capital := by
      rcases burnShares_ok burns with ⟨_, rfl⟩ | ⟨_, _, _, rfl⟩ <;> rfl
    have fees := mintFee_sharesHold middle (capital ▸ sound.kind) mints
    have sequenced : ({ minted with capitalSeq := minted.capitalSeq + 1 } : TradingVault Obj).SharesHold :=
      fees.reshuffled (.of_same rfl (.refl _) rfl rfl) (fun none => none)
    exact payOut_sharesHold (payOut_sharesHold sequenced cuts) pays

/-! ### The junior reset -/

theorem proposeJuniorReset_sharesHold {cfg : VaultProtocolConfig} {a : Appraisal Obj} {now : Nat} (before : v.SharesHold)
    (ran : v.proposeJuniorReset cfg a now = .ok next) : next.SharesHold := by
  obtain ⟨_, tranched, nav, synced, seniorNav, juniorNav, book, _, syncs, ⟨senior, junior, generation⟩, rfl⟩ :=
    proposeJuniorReset_ok ran
  have middle := before.synced syncs
  refine ⟨⟨?_, ?_, middle.kept.slots, fun _ => ?_⟩, fun none code => ?_⟩
  · simpa only [generation] using middle.kept.claims
  · simpa only [generation] using middle.kept.requests
  · exact (syncCapital_frame syncs).capital ▸ tranched
  · have conserved := middle.conserved none code
    simp only [TradingVault.outstanding, generation]
    cases code
    · exact senior.trans conserved
    · exact junior.trans conserved

/-- A reset leaves the senior side alone and opens the junior side anew. -/
theorem weight_after_reset {capital : CapitalStructure} {active : Nat} {stake : Stake} (sound : stake.Sound capital active)
    (tranched : capital.isTranched = true) :
    stake.weight (active + 1) .senior = stake.weight active .senior ∧ stake.weight (active + 1) .junior = 0 := by
  obtain ⟨tranche, generation, shares⟩ := stake
  have kind := sound.kind
  have past := sound.past
  cases tranche
  · simp [tranched] at kind
  · simp [Stake.weight, laneCodeOf]
  · have old : generation ≤ active := past rfl
    simp [Stake.weight, laneCodeOf]
    omega

theorem outstandingOf_after_reset {capital : CapitalStructure} {active : Nat} {claims : List Held}
    {requests : Table Nat WithdrawRequest} (tranched : capital.isTranched = true)
    (held : ∀ held ∈ claims, held.position.stake.Sound capital active)
    (queued : ∀ entry ∈ requests, entry.2.stake.Sound capital active) :
    outstandingOf (active + 1) .senior claims requests = outstandingOf active .senior claims requests ∧
      outstandingOf (active + 1) .junior claims requests = 0 := by
  constructor
  · unfold outstandingOf
    congr 2
    · exact List.map_congr_left fun claim member => (weight_after_reset (held claim member) tranched).1
    · exact List.map_congr_left fun entry member => (weight_after_reset (queued entry member) tranched).1
  · have nothing : ∀ weights : List Nat, (∀ weight ∈ weights, weight = 0) → weights.sum = 0 :=
      fun _ zero => List.sum_eq_zero zero
    unfold outstandingOf
    rw [nothing, nothing]
    · intro weight member
      obtain ⟨entry, known, rfl⟩ := List.mem_map.mp member
      exact (weight_after_reset (queued entry known) tranched).2
    · intro weight member
      obtain ⟨claim, known, rfl⟩ := List.mem_map.mp member
      exact (weight_after_reset (held claim known) tranched).2

theorem executeJuniorReset_sharesHold {cfg : VaultProtocolConfig} {lp : DomainState} {sender : Address}
    {a : Appraisal Obj} {t : TypeName} {amount now : Nat} {id : ID} (before : v.SharesHold)
    (ran : v.executeJuniorReset cfg lp sender a t amount now id = .ok next) : next.SharesHold := by
  obtain ⟨_, nav, synced, seniorNav, juniorNav, purse, book, position, _, syncs, proposed, _, resets, junior, current, rfl⟩ :=
    executeJuniorReset_ok ran
  have middle := before.synced syncs
  have tranched := middle.kept.proposal proposed
  obtain ⟨generation, proposal, senior, minted⟩ := TrancheBook.executeReset_ok resets
  -- old claims are sound for the new generation too: none is of one to come
  have later : ∀ stake : Stake, stake.Sound synced.capital synced.book.activeJuniorGeneration →
      stake.Sound synced.capital book.activeJuniorGeneration := by
    intro stake sound
    exact ⟨sound.kind, fun held => by have := sound.past held; omega⟩
  -- the position of the new money is the first of it
  have fresh : position.stake.Sound synced.capital book.activeJuniorGeneration := by
    constructor
    · simp [VaultPosition.stake, junior, tranched]
    · intro _
      exact Nat.le_of_eq current
  refine ⟨⟨?_, ?_, ?_, ?_⟩, fun none code => ?_⟩
  · intro held member
    rcases List.mem_append.mp member with old | new
    · exact later _ (middle.kept.claims held old)
    · rw [List.mem_singleton.mp new]
      exact fresh
  · exact fun entry member => later _ (middle.kept.requests entry member)
  · intro held member
    rcases List.mem_append.mp member with old | new
    · exact middle.kept.slots held old
    · rw [List.mem_singleton.mp new]
      intro _ _ place
      -- the new position is in a wallet, not in an escrow slot
      cases place
  · intro some
    simp only [proposal] at some
    cases some
  · obtain ⟨unchanged, cleared⟩ := outstandingOf_after_reset tranched middle.kept.claims middle.kept.requests
    -- the new position is on top of what the reset left outstanding
    have appended : ∀ code, outstandingOf book.activeJuniorGeneration code
        (synced.claims ++ [⟨position, .wallet⟩]) synced.queue.requests =
          outstandingOf (synced.book.activeJuniorGeneration + 1) code synced.claims synced.queue.requests +
            position.stake.weight book.activeJuniorGeneration code := by
      intro code
      simp only [outstandingOf, generation, List.map_append, List.sum_append, List.map_cons, List.map_nil, List.sum_cons,
        List.sum_nil]
      omega
    have weight := fresh.weight_live code (by
      rintro ⟨_, old⟩
      exact Nat.ne_of_lt old current)
    simp only [VaultPosition.stake, junior] at weight
    simp only [TradingVault.outstanding, appended code, VaultPosition.stake, junior, weight]
    cases code
    · have conserved := middle.conserved none .senior
      -- the senior supply does not move
      rw [unchanged]
      simpa [TrancheBook.sharesOf, laneCodeOf, senior, TradingVault.outstanding] using conserved
    · -- the old generation counts for nothing, so the junior supply is the new position
      rw [cleared]
      simpa [TrancheBook.sharesOf, laneCodeOf] using minted

/-! ### Every call -/

/-- Claims and requests that leave do not disturb the others. -/
theorem WellKept.of_fewer (kept : v.WellKept) (capital : next.capital = v.capital) (book : next.book = v.book)
    (claims : ∀ held ∈ next.claims, held ∈ v.claims)
    (requests : ∀ entry ∈ next.queue.requests, entry ∈ v.queue.requests) : next.WellKept := by
  refine ⟨?_, ?_, fun held member => kept.slots held (claims held member), ?_⟩
  · rw [capital, book]
    exact fun held member => kept.claims held (claims held member)
  · rw [capital, book]
    exact fun entry member => kept.requests entry (requests entry member)
  · rw [capital, book]
    exact kept.proposal

theorem redeemSettledPosition_wellKept {cfg : VaultProtocolConfig} {t : TypeName} {index : Nat} (kept : v.WellKept)
    (ran : v.redeemSettledPosition cfg t index = .ok next) : next.WellKept := by
  obtain ⟨_, p, _, pays⟩ := redeemSettledPosition_ok ran
  obtain ⟨pool, _, fees, purse, _, _, _, _, _, _, _, rfl⟩ := paySettlement_ok pays
  exact kept.of_fewer rfl rfl (fun held member => List.mem_of_mem_eraseIdx member) (fun entry member => member)

theorem settleQueuedRequest_wellKept {cfg : VaultProtocolConfig} {t : TypeName} {seq : Nat} (kept : v.WellKept)
    (ran : v.settleQueuedRequest cfg t seq = .ok next) : next.WellKept := by
  obtain ⟨_, request, found, pays⟩ := settleQueuedRequest_ok ran
  obtain ⟨pool, _, fees, purse, _, _, _, _, _, _, _, rfl⟩ := paySettlement_ok pays
  exact kept.of_fewer rfl rfl (fun held member => member) (fun entry member => Table.mem_of_mem_remove member)

end TradingVault

variable {Obj : Type} {v next : TradingVault Obj}

theorem Setting.apply_accounting {setting : Setting} {cfg : VaultProtocolConfig} {config changed : VaultConfig}
    (ran : setting.apply cfg config = .ok changed) : changed.accountingAsset = config.accountingAsset := by
  cases setting with
  | setHaircuts entryBps exitBps =>
    simp only [apply, VaultConfig.setHaircuts] at ran
    split at ran
    · rw [pure_ok] at ran
      subst ran
      rfl
    · cases ran
  | _ =>
    simp only [apply, VaultConfig.addDepositAsset, VaultConfig.removeDepositAsset, VaultConfig.addQuoteAdapter,
      VaultConfig.removeQuoteAdapter, VaultConfig.setDepositsPaused, VaultConfig.setMmReleaseEnabled, bind_ok, check_ok,
      exists_const, pure_ok] at ran
    obtain ⟨_, _, rfl⟩ := ran
    rfl

structure Quiet (v next : TradingVault Obj) : Prop where
  purse : next.purse = v.purse
  custody : next.custody = v.custody
  exposure : next.exposure = v.exposure
  accounting : next.config.accountingAsset = v.config.accountingAsset
  settlement : next.settlement = v.settlement
  closed : v.state = .closed → next.state = .closed
  reshuffled : TradingVault.Reshuffled v next

inductive Call.Effect (env : Env) (v : TradingVault Obj) : Call Obj → TradingVault Obj → Prop where
  | quiet {c : Call Obj} {next : TradingVault Obj} : Quiet v next → Effect env v c next
  | session {kind : SessionKind} {adapter : TypeName} {ops : List (SessionOp Obj)} {next : TradingVault Obj} :
      v.session kind env.adapters adapter env.now ops = .ok next → Effect env v (.session kind adapter ops) next
  | receivePosition {adapter : TypeName} {id : ID} {object : Obj} {custody : Custody Obj} :
      v.custody.store adapter id object = .ok custody → Effect env v (.receivePosition adapter id object) { v with custody }
  | receiveCoin {adapter t : TypeName} {amount : Nat} {purse : Purse} : v.purse.Moved purse → v.purse.Grew purse →
      Effect env v (.receiveCoin adapter t amount) { v with purse }
  | mmRelease {source recipient : ID} {t : TypeName} {amount : Nat} {purse : Purse} : v.isRiskOff = false →
      v.purse.takeBalanceInternal t amount = .ok purse → Effect env v (.mmRelease source recipient t amount) { v with purse }
  | returnExternal {sender : Address} {t : TypeName} {amount : Nat} {ext : ExternalAccount} {purse : Purse} :
      v.external = some ext → sender = ext.account → v.purse.putBalanceInternal t amount = .ok purse →
      Effect env v (.returnExternal sender t amount)
        { v with external := some { ext with exposure := ext.exposure - amount }, purse }
  | redeemSettledPosition {t : TypeName} {index : Nat} {next : TradingVault Obj} :
      v.redeemSettledPosition env.cfg t index = .ok next → Effect env v (.redeemSettledPosition t index) next
  | settleQueuedRequest {t : TypeName} {seq : Nat} {next : TradingVault Obj} :
      v.settleQueuedRequest env.cfg t seq = .ok next → Effect env v (.settleQueuedRequest t seq) next
  | claimSettlementCuratorFees {cap : ID} {t : TypeName} {pool : SettlementPool} {purse : Purse} :
      t = v.config.accountingAsset → v.settlement = some pool → v.purse.takeBalanceInternal t pool.curatorFeesAccrued = .ok purse →
      Effect env v (.claimSettlementCuratorFees cap t)
        { v with settlement := some { pool with curatorFeesAccrued := 0 }, purse }

open TradingVault in
theorem Call.effect {env : Env} {c : Call Obj} (ran : c.run env v = .ok next) : Call.Effect env v c next := by
  cases c with
  | splitPosition index shares id =>
    have moved := splitPosition_reshuffled ran
    obtain ⟨_, _, _, _, _, rfl⟩ := splitPosition_ok ran
    exact .quiet ⟨rfl, rfl, rfl, rfl, rfl, fun closed => closed, moved⟩
  | mergePositions index other =>
    have moved := mergePositions_reshuffled ran
    obtain ⟨_, _, _, _, _, _, _, rfl⟩ := mergePositions_ok ran
    exact .quiet ⟨rfl, rfl, rfl, rfl, rfl, fun closed => closed, moved⟩
  | requestWithdraw sender index payoutAsset =>
    have moved := requestWithdraw_reshuffled ran
    obtain ⟨_, _, _, _, _, _, _, rfl⟩ := requestWithdraw_ok ran
    exact .quiet ⟨rfl, rfl, rfl, rfl, rfl, fun closed => closed, moved⟩
  | amendPayoutAsset sender seq payoutAsset =>
    have moved := amendPayoutAsset_reshuffled ran
    obtain ⟨_, _, rfl⟩ := amendPayoutAsset_ok ran
    exact .quiet ⟨rfl, rfl, rfl, rfl, rfl, fun closed => closed, moved⟩
  | session kind adapter ops => exact .session ran
  | receivePosition adapter id object =>
    obtain ⟨custody, stored, rfl⟩ := receivePosition_ok ran
    exact .receivePosition stored
  | receiveCoin adapter t amount =>
    obtain ⟨purse, rfl, moved, grew⟩ := receiveCoin_ok ran
    exact .receiveCoin moved grew
  | mmRelease source recipient t amount =>
    obtain ⟨sound, purse, taken, rfl⟩ := mmRelease_ok ran
    exact .mmRelease sound taken
  | setExternalAccount account equityOracle budgetBps dailyReleaseBps =>
    obtain ⟨external, rfl, same⟩ := setExternalAccount_ok ran
    exact .quiet ⟨rfl, rfl, same, rfl, rfl, fun closed => closed, .of_same rfl (.refl _) rfl rfl⟩
  | setExternalAccountAttested cap account equityOracle budgetBps dailyReleaseBps signed =>
    obtain ⟨external, rfl, same⟩ := setExternalAccountAttested_ok ran
    exact .quiet ⟨rfl, rfl, same, rfl, rfl, fun closed => closed, .of_same rfl (.refl _) rfl rfl⟩
  | clearExternalAccount =>
    obtain ⟨zero, rfl⟩ := clearExternalAccount_ok ran
    exact .quiet ⟨rfl, rfl, zero.symm, rfl, rfl, fun closed => closed, .of_same rfl (.refl _) rfl rfl⟩
  | returnExternal sender t amount =>
    obtain ⟨ext, purse, known, mine, _, stored, rfl⟩ := returnExternal_ok ran
    exact .returnExternal known mine stored
  | burnWipedPosition index =>
    have moved := burnWipedPosition_reshuffled ran
    obtain ⟨_, _, _, rfl⟩ := burnWipedPosition_ok ran
    exact .quiet ⟨rfl, rfl, rfl, rfl, rfl, fun closed => closed, moved⟩
  | withdrawCommitmentSettled cap =>
    obtain ⟨index, held, found, rfl⟩ := withdrawCommitmentSettled_ok ran
    exact .quiet ⟨rfl, rfl, rfl, rfl, rfl, fun closed => closed, .toWallet found⟩
  | rotateCuratorByCurator cap newCap =>
    have moved := rotateCuratorByCurator_reshuffled ran
    obtain ⟨_, rfl⟩ := rotateCuratorByCurator_ok ran
    exact .quiet ⟨rfl, rfl, rfl, rfl, rfl, fun closed => closed, moved⟩
  | initiateClose cap =>
    obtain ⟨opened, rfl⟩ := initiateClose_ok ran
    exact .quiet ⟨rfl, rfl, rfl, rfl, rfl, fun closed => absurd (opened.symm.trans closed) (by decide),
      .of_same rfl (.refl _) rfl rfl⟩
  | initiateCloseAdmin =>
    obtain ⟨opened, rfl⟩ := initiateCloseInternal_ok ran
    exact .quiet ⟨rfl, rfl, rfl, rfl, rfl, fun closed => absurd (opened.symm.trans closed) (by decide),
      .of_same rfl (.refl _) rfl rfl⟩
  | finalizeClose =>
    obtain ⟨_, rfl⟩ := finalizeClose_ok ran
    exact .quiet ⟨rfl, rfl, rfl, rfl, rfl, fun _ => rfl, .of_same rfl (.refl _) rfl rfl⟩
  | redeemSettledPosition t index => exact .redeemSettledPosition ran
  | settleQueuedRequest t seq => exact .settleQueuedRequest ran
  | claimSettlementCuratorFees cap t =>
    obtain ⟨asset, pool, purse, settled, taken, rfl⟩ := claimSettlementCuratorFees_ok ran
    exact .claimSettlementCuratorFees asset settled taken
  | configure cap setting =>
    obtain ⟨config, changed, rfl⟩ := configure_ok ran
    exact .quiet ⟨rfl, rfl, rfl, Setting.apply_accounting changed, rfl, fun closed => closed,
      .of_same rfl (.refl _) rfl rfl⟩

open TradingVault in
theorem Call.sharesHold {env : Env} {c : Call Obj} (before : v.SharesHold) (ran : c.run env v = .ok next) :
    next.SharesHold := by
  cases Call.effect ran with
  | quiet quiet => exact before.reshuffled quiet.reshuffled (fun none => quiet.settlement.symm.trans none)
  | session ran =>
    obtain ⟨purse, custody, queue, rfl, lanes, _, _⟩ := session_ok ran
    refine before.reshuffled (.of_same rfl (.refl _) rfl ?_) (fun none => none)
    rcases lanes with rfl | rfl <;> rfl
  | receivePosition stored => exact before.reshuffled (.of_same rfl (.refl _) rfl rfl) (fun none => none)
  | receiveCoin moved grew => exact before.reshuffled (.of_same rfl (.refl _) rfl rfl) (fun none => none)
  | mmRelease sound taken => exact before.reshuffled (.of_same rfl (.refl _) rfl rfl) (fun none => none)
  | returnExternal known mine stored => exact before.reshuffled (.of_same rfl (.refl _) rfl rfl) (fun none => none)
  | redeemSettledPosition ran =>
    refine ⟨redeemSettledPosition_wellKept before.kept ran, fun none => ?_⟩
    obtain ⟨_, _, _, pays⟩ := redeemSettledPosition_ok ran
    obtain ⟨_, _, _, _, _, _, _, _, _, _, _, rfl⟩ := paySettlement_ok pays
    cases none
  | settleQueuedRequest ran =>
    refine ⟨settleQueuedRequest_wellKept before.kept ran, fun none => ?_⟩
    obtain ⟨_, _, _, pays⟩ := settleQueuedRequest_ok ran
    obtain ⟨_, _, _, _, _, _, _, _, _, _, _, rfl⟩ := paySettlement_ok pays
    cases none
  | claimSettlementCuratorFees asset settled taken =>
    exact ⟨⟨before.kept.claims, before.kept.requests, before.kept.slots, before.kept.proposal⟩, fun none => nomatch none⟩

open TradingVault in
theorem Use.sharesHold {env : Env} {a : Appraisal Obj} {u : Use} (before : v.SharesHold) (ran : u.run env v a = .ok next) :
    next.SharesHold := by
  cases u with
  | crankAppraisal =>
    obtain ⟨_, _, rfl⟩ := crankAppraisal_ok ran
    exact before
  | crankCapital =>
    obtain ⟨_, _, _, _, syncs⟩ := crankCapital_ok ran
    exact before.synced syncs
  | deposit sender t amount att tranche id => exact deposit_sharesHold before ran
  | depositIntoCommitment sender cap t amount att id => exact depositIntoCommitment_sharesHold before ran
  | releaseExternal cap t amount =>
    obtain ⟨_, _, _, synced, _, _, _, _, purse, _, syncs, _, _, _, rfl⟩ := releaseExternal_ok ran
    exact (before.synced syncs).reshuffled (.of_same rfl (.refl _) rfl rfl) (fun none => none)
  | proposeJuniorReset => exact proposeJuniorReset_sharesHold before ran
  | executeJuniorReset sender t amount id => exact executeJuniorReset_sharesHold before ran
  | releaseCommitment cap shares id =>
    obtain ⟨_, _, synced, _, _, released, breached, _, syncs, splits, rfl⟩ := releaseCommitment_ok ran
    have middle := before.synced syncs
    have moved := splitCommitment_reshuffled splits
    refine middle.reshuffled (moved.trans (.of_same rfl (.refl _) rfl rfl)) (fun none => ?_)
    obtain ⟨_, _, _, rfl | ⟨_, _, _, rfl⟩⟩ := splitCommitment_ok splits
    · exact none
    · exact none
  | snapshotSettlement =>
    obtain ⟨_, _, _, synced, _, _, _, syncs, _, rfl⟩ := snapshotSettlement_ok ran
    have kept := (before.synced syncs).kept
    exact ⟨⟨kept.claims, kept.requests, kept.slots, kept.proposal⟩, fun none => nomatch none⟩

namespace World

variable {w after : World Obj}

theorem valued_ok {index : Nat} {valuation : Appraisal Obj → Result Error (Appraisal Obj)}
    (ran : w.valued index valuation = .ok after) :
    ∃ a grown, w.appraisals[index]? = some a ∧ valuation a = .ok grown ∧
      { w with appraisals := w.appraisals.set index grown } = after := by
  simp only [valued, appraisal, bind_ok, need_ok, pure_ok] at ran
  obtain ⟨a, found, grown, values, same⟩ := ran
  exact ⟨a, grown, found, values, same⟩

inductive Moves (w : World Obj) : Action Obj → TradingVault Obj → Prop where
  | call {c : Call Obj} {next : TradingVault Obj} : c.run w.env w.vault = .ok next → Moves w (.call c) next
  | use {index : Nat} {u : Use} {a : Appraisal Obj} {next : TradingVault Obj} : w.appraisals[index]? = some a →
      u.run w.env w.vault a = .ok next → Moves w (.use index u) next
  | beginFulfillment {index : Nat} {atts : List PriceAttestation} {a : Appraisal Obj} {next : TradingVault Obj}
      {f : Fulfillment} : w.appraisals[index]? = some a →
      w.vault.beginFulfillment w.env.cfg a atts w.env.now = .ok (next, f) → Moves w (.beginFulfillment index atts) next
  | fulfillNext {index : Nat} {p : TypeName} {id : ID} {f : Fulfillment} {next : TradingVault Obj}
      {outcome : Option Receipt} : w.fulfillments[index]? = some f →
      w.vault.fulfillNext w.env.cfg f p w.env.now id = .ok (next, outcome) → Moves w (.fulfillNext index p id) next
  | still {action : Action Obj} : Moves w action w.vault

theorem step_moves {action : Action Obj} (ran : w.step action = .ok after) : Moves w action after.vault := by
  cases action with
  | call c =>
    simp only [step, bind_ok, pure_ok] at ran
    obtain ⟨vault, calls, rfl⟩ := ran
    exact .call calls
  | use index u =>
    simp only [step, appraisal, bind_ok, need_ok, pure_ok] at ran
    obtain ⟨a, found, vault, uses, rfl⟩ := ran
    exact .use found uses
  | beginAppraisal t =>
    simp only [step, bind_ok, pure_ok] at ran
    obtain ⟨_, _, rfl⟩ := ran
    exact .still
  | appraiseBalance index t att =>
    obtain ⟨_, _, _, _, rfl⟩ := valued_ok ran
    exact .still
  | recordPositionValue index witness id value =>
    obtain ⟨_, _, _, _, rfl⟩ := valued_ok ran
    exact .still
  | recordExternalEquity index oracle equity =>
    obtain ⟨_, _, _, _, rfl⟩ := valued_ok ran
    exact .still
  | beginFulfillment index atts =>
    simp only [step, appraisal, bind_ok, need_ok, pure_ok, Prod.exists] at ran
    obtain ⟨a, found, vault, f, begins, rfl⟩ := ran
    exact .beginFulfillment found begins
  | fulfillNext index p id =>
    simp only [step, fulfillment, bind_ok, need_ok, pure_ok, Prod.exists] at ran
    obtain ⟨f, found, vault, outcome, fulfills, rfl⟩ := ran
    exact .fulfillNext found fulfills
  | endFulfillment index =>
    simp only [step, bind_ok, pure_ok] at ran
    obtain ⟨_, _, rfl⟩ := ran
    exact .still
  | administer cfg adapters oracles lp =>
    simp only [step, pure_ok] at ran
    subst ran
    exact .still
  | nextTransaction now =>
    simp only [step, bind_ok, check_ok, exists_const, pure_ok] at ran
    obtain ⟨_, _, rfl⟩ := ran
    exact .still

theorem Moves.sharesHold {action : Action Obj} {next : TradingVault Obj} (moves : Moves w action next)
    (before : w.vault.SharesHold) : next.SharesHold := by
  cases moves with
  | call calls => exact Call.sharesHold before calls
  | use found uses => exact Use.sharesHold before uses
  | beginFulfillment found begins =>
    obtain ⟨_, _, _, _, _, _, syncs, _, _⟩ := TradingVault.beginFulfillment_ok begins
    exact before.synced syncs
  | fulfillNext found fulfills => exact TradingVault.fulfillNext_sharesHold before fulfills
  | still => exact before

theorem createVault_ok {g : Genesis} (created : createVault g = .ok w) :
    w.vault.book = .new g.env.now ∧ w.vault.claims = [] ∧ w.vault.queue = .empty ∧ w.vault.purse = .empty ∧
      w.vault.custody = .empty ∧ w.vault.external = none ∧ w.vault.settlement = none ∧ w.vault.capital = g.capital ∧
      w.vault.state = .opened ∧ w.appraisals = [] ∧ w.fulfillments = [] := by
  simp only [createVault, bind_ok] at created
  obtain ⟨_, _, _, _, created⟩ := created
  split at created
  · rw [pure_ok] at created
    subst created
    exact ⟨rfl, rfl, rfl, rfl, rfl, rfl, rfl, rfl, rfl, rfl, rfl⟩
  · cases created

theorem createVault_sharesHold {g : Genesis} (created : createVault g = .ok w) : w.vault.SharesHold := by
  obtain ⟨book, claims, queue, _, _, _, _, _, _, _, _⟩ := createVault_ok created
  refine ⟨⟨?_, ?_, ?_, ?_⟩, fun _ code => ?_⟩
  · simp [claims]
  · simp [queue, WithdrawQueue.empty]
  · simp [claims]
  · simp [book, TrancheBook.new]
  · simp only [TradingVault.outstanding, outstandingOf, claims, queue, book]
    cases code <;> rfl

theorem Reachable.sharesHold (reachable : w.Reachable) : w.vault.SharesHold := by
  obtain ⟨g, actions, played⟩ := reachable
  obtain ⟨created, creates, ran⟩ := bind_ok.mp played
  exact exec_invariant step (fun w => w.vault.SharesHold) (fun _ _ _ before ran => (step_moves ran).sharesHold before)
    (createVault_sharesHold creates) ran

end World

/-! ### Supplies as sums -/

/-- The shares of the claims that pass a test: positions in wallets and escrows, and queued requests. -/
def TradingVault.sharesWhere (v : TradingVault Obj) (counts : Stake → Bool) : Nat :=
  (((v.claims.map (·.position.stake) ++ v.queue.requests.map (·.2.stake)).filter counts).map (·.shares)).sum

theorem TradingVault.outstanding_eq (code : LaneCode) {counts : Stake → Bool} (kept : v.WellKept)
    (agree : ∀ stake : Stake, stake.Sound v.capital v.book.activeJuniorGeneration →
      stake.weight v.book.activeJuniorGeneration code = if counts stake then stake.shares else 0) :
    v.outstanding code = v.sharesWhere counts := by
  have filtered : ∀ stakes : List Stake, (∀ stake ∈ stakes, stake.Sound v.capital v.book.activeJuniorGeneration) →
      (stakes.map fun stake => stake.weight v.book.activeJuniorGeneration code).sum =
        ((stakes.filter counts).map (·.shares)).sum := by
    intro stakes sound
    induction stakes with
    | nil => rfl
    | cons stake rest ih =>
      have later := ih fun other member => sound other (List.mem_cons_of_mem _ member)
      have here := agree stake (sound stake List.mem_cons_self)
      by_cases counted : counts stake = true
      · simp only [List.map_cons, List.sum_cons, List.filter_cons_of_pos counted, later, here, if_pos counted]
      · simp only [List.map_cons, List.sum_cons, List.filter_cons_of_neg counted, later, here, if_neg counted, Nat.zero_add]
  rw [sharesWhere, ← filtered, List.map_append, List.sum_append, List.map_map, List.map_map]
  · rfl
  · intro stake member
    rcases List.mem_append.mp member with held | queued
    · obtain ⟨claim, known, rfl⟩ := List.mem_map.mp held
      exact kept.claims claim known
    · obtain ⟨entry, known, rfl⟩ := List.mem_map.mp queued
      exact kept.requests entry known

/-- In every reachable unsettled vault, the senior supply is what senior positions and
requests hold, and the junior supply is what those of the current junior generation
hold. A vault without tranches has its only supply on the junior side. -/
theorem World.supplies_are_outstanding (w : World Obj) (reachable : w.Reachable) (unsettled : w.vault.settlement = none) :
    w.vault.book.seniorShares = w.vault.sharesWhere (fun stake => stake.tranche = .senior) ∧
      w.vault.book.juniorShares = w.vault.sharesWhere (fun stake =>
        if w.vault.capital.isTranched then
          stake.tranche = .junior ∧ stake.generation = w.vault.book.activeJuniorGeneration
        else stake.tranche = .untranched) := by
  have holds := reachable.sharesHold
  constructor
  · rw [← TradingVault.outstanding_eq .senior holds.kept]
    · exact holds.conserved unsettled .senior
    · intro stake _
      cases kind : stake.tranche <;> simp [Stake.weight, laneCodeOf, kind]
  · rw [← TradingVault.outstanding_eq .junior holds.kept]
    · exact holds.conserved unsettled .junior
    · intro stake sound
      have kind := sound.kind
      cases named : stake.tranche <;> rw [named] at kind <;>
        simp [Stake.weight, laneCodeOf, named, kind]

/-- Junior and senior deposits, a split and a request keep the supplies. -/
theorem World.supplies_are_outstanding_queued :
    ∃ w : World Unit, World.play (Sample.genesis (.seniorJunior 500 2000 1000 .preferredOnly))
        (Sample.deposit 1000000 .junior 10 ++ Sample.deposit 500000 .senior 11 ++
          [.call (.splitPosition 0 400000000000 12), .call (.requestWithdraw 7 0 "USDC")]) = .ok w ∧
      w.vault.settlement = none ∧ 0 < w.vault.book.juniorShares ∧
      w.vault.book.juniorShares = w.vault.sharesWhere (fun stake =>
        if w.vault.capital.isTranched then
          stake.tranche = .junior ∧ stake.generation = w.vault.book.activeJuniorGeneration
        else stake.tranche = .untranched) := by
  refine exists_ok (fun w => decide (w.vault.settlement = none ∧ 0 < w.vault.book.juniorShares)) (by decide +kernel) ?_
  intro w ran passed
  obtain ⟨unsettled, positive⟩ := of_decide_eq_true passed
  exact ⟨unsettled, positive, (World.supplies_are_outstanding w ⟨_, _, ran⟩ unsettled).2⟩

end SuiOptions.Vault
