import SuiOptions.Vault.Effects

/-! Share supplies and the claims that make them up.

A claim is a position or a queued request. It counts towards the supply of its
side unless a junior reset wiped its generation. -/

set_option autoImplicit false

namespace SuiOptions.Vault

open Execution Move
open Exchange (ID Address DomainState)

structure Stake where
  tranche : Tranche
  generation : Nat
  shares : Nat

def VaultPosition.stake (p : VaultPosition) : Stake := ⟨p.tranche, p.capitalGeneration, p.shares⟩

def WithdrawRequest.stake (request : WithdrawRequest) : Stake :=
  ⟨request.tranche, request.capitalGeneration, request.shares⟩

def Stake.weight (active : Nat) (code : LaneCode) (stake : Stake) : Nat :=
  if laneCodeOf stake.tranche = code ∧ (stake.tranche = .junior → stake.generation = active) then stake.shares else 0

structure Stake.Sound (capital : CapitalStructure) (active : Nat) (stake : Stake) : Prop where
  kind : capital.isTranched = decide (stake.tranche ≠ .untranched)
  past : stake.tranche = .junior → stake.generation ≤ active

namespace Stake

variable {capital : CapitalStructure} {active : Nat} {code : LaneCode} {stake other : Stake}

theorem weight_add (tranche : Tranche) (generation first second : Nat) :
    weight active code ⟨tranche, generation, first + second⟩ =
      weight active code ⟨tranche, generation, first⟩ + weight active code ⟨tranche, generation, second⟩ := by
  unfold weight
  split <;> simp_all

theorem Sound.of_kind (sound : stake.Sound capital active) (tranche : other.tranche = stake.tranche)
    (generation : other.generation = stake.generation) : other.Sound capital active :=
  ⟨tranche ▸ sound.kind, fun junior => generation ▸ sound.past (tranche ▸ junior)⟩

theorem weight_wiped (junior : stake.tranche = .junior) (old : stake.generation < active) :
    stake.weight active code = 0 := by
  unfold weight
  rw [if_neg]
  rintro ⟨_, current⟩
  exact Nat.ne_of_lt old (current junior)

theorem Sound.weight_live (sound : stake.Sound capital active) (code : LaneCode) (live : ¬ (stake.tranche = .junior ∧ stake.generation < active)) :
    stake.weight active code = if laneCodeOf stake.tranche = code then stake.shares else 0 := by
  have current : stake.tranche = .junior → stake.generation = active := by
    intro junior
    have := sound.past junior
    by_contra differ
    exact live ⟨junior, by omega⟩
  simp only [weight, eq_true current, and_true]

end Stake

namespace TrancheBook

def sharesOf (book : TrancheBook) : LaneCode → Nat
  | .senior => book.seniorShares
  | .junior => book.juniorShares

theorem onDeposit_sharesOf {book next : TrancheBook} {tranche : Tranche} {value shares : Nat}
    (ran : book.onDeposit tranche value shares = .ok next) (code : LaneCode) :
    next.sharesOf code = book.sharesOf code + if laneCodeOf tranche = code then shares else 0 := by
  obtain ⟨_, _, senior, junior⟩ := onDeposit_ok ran
  cases code <;> cases tranche <;> simpa [sharesOf, laneCodeOf] using by assumption

theorem onFulfill_sharesOf {book next : TrancheBook} {tranche : Tranche} {shares claim supply : Nat}
    (ran : book.onFulfill tranche shares claim supply = .ok next) (code : LaneCode) :
    book.sharesOf code = next.sharesOf code + if laneCodeOf tranche = code then shares else 0 := by
  obtain ⟨_, _, senior, junior⟩ := onFulfill_ok ran
  cases code <;> cases tranche <;> simpa [sharesOf, laneCodeOf] using by assumption

end TrancheBook

theorem SameSupply.sharesOf {book next : TrancheBook} (same : SameSupply book next) (code : LaneCode) :
    next.sharesOf code = book.sharesOf code := by
  cases code
  · exact same.senior
  · exact same.junior

/-! ### Outstanding shares -/

def outstandingOf (active : Nat) (code : LaneCode) (claims : List Held) (requests : Table Nat WithdrawRequest) : Nat :=
  (claims.map fun held => held.position.stake.weight active code).sum +
    (requests.map fun entry => entry.2.stake.weight active code).sum

namespace TradingVault

variable {Obj : Type}

def outstanding (v : TradingVault Obj) (code : LaneCode) : Nat :=
  outstandingOf v.book.activeJuniorGeneration code v.claims v.queue.requests

/-- Every claim is sound, an escrow slot holds a position of its tranche, and only a
vault with tranches has a reset proposed. -/
structure WellKept (v : TradingVault Obj) : Prop where
  claims : ∀ held ∈ v.claims, held.position.stake.Sound v.capital v.book.activeJuniorGeneration
  requests : ∀ entry ∈ v.queue.requests, entry.2.stake.Sound v.capital v.book.activeJuniorGeneration
  slots : ∀ held ∈ v.claims, ∀ capId tranche, held.place = .commitment capId tranche → held.position.tranche = tranche
  proposal : v.book.resetProposal.isSome → v.capital.isTranched = true

def Conserved (v : TradingVault Obj) : Prop := ∀ code, v.book.sharesOf code = v.outstanding code

/-- Claims changed hands or shape: no supply and no side's total moved. -/
structure Reshuffled (v next : TradingVault Obj) : Prop where
  capital : next.capital = v.capital
  supply : SameSupply v.book next.book
  outstanding : ∀ code, next.outstanding code = v.outstanding code
  kept : v.WellKept → next.WellKept

variable {v next last : TradingVault Obj}

theorem Reshuffled.conserved (moved : Reshuffled v next) (before : v.Conserved) : next.Conserved := by
  intro code
  rw [moved.supply.sharesOf, before code, moved.outstanding code]

theorem Reshuffled.trans (early : Reshuffled v next) (late : Reshuffled next last) : Reshuffled v last :=
  ⟨late.capital.trans early.capital, early.supply.trans late.supply,
    fun code => (late.outstanding code).trans (early.outstanding code), fun kept => late.kept (early.kept kept)⟩

theorem Reshuffled.of_same (capital : next.capital = v.capital) (supply : SameSupply v.book next.book)
    (claims : next.claims = v.claims) (requests : next.queue.requests = v.queue.requests) : Reshuffled v next := by
  refine ⟨capital, supply, fun code => ?_, fun kept => ⟨?_, ?_, ?_, fun proposed => ?_⟩⟩
  · rw [TradingVault.outstanding, TradingVault.outstanding, claims, requests, supply.generation]
  · rw [claims, capital, supply.generation]
    exact kept.claims
  · rw [requests, capital, supply.generation]
    exact kept.requests
  · rw [claims]
    exact kept.slots
  · rw [capital]
    exact kept.proposal (supply.proposal proposed)

/-! ### Claims in new shapes -/

theorem Reshuffled.of_claims {claims : List Held}
    (weights : ∀ code, (claims.map fun held => held.position.stake.weight v.book.activeJuniorGeneration code).sum =
      (v.claims.map fun held => held.position.stake.weight v.book.activeJuniorGeneration code).sum)
    (kinds : ∀ held ∈ claims, ∃ old ∈ v.claims, held.position.tranche = old.position.tranche ∧
      held.position.capitalGeneration = old.position.capitalGeneration ∧
      (held.place = .wallet ∨ held.place = old.place)) :
    Reshuffled v { v with claims } := by
  refine ⟨rfl, .refl _, fun code => ?_, fun kept => ⟨?_, kept.requests, ?_, kept.proposal⟩⟩
  · simp only [TradingVault.outstanding, outstandingOf, weights code]
  · intro held member
    obtain ⟨old, known, tranche, generation, _⟩ := kinds held member
    exact (kept.claims old known).of_kind tranche generation
  · intro held member capId tranche place
    obtain ⟨old, known, same, _, wallet | kept'⟩ := kinds held member
    · cases wallet.symm.trans place
    · exact same.trans (kept.slots old known capId tranche (kept'.symm.trans place))

theorem Reshuffled.split {index : Nat} {held left right : Held} (found : v.claims[index]? = some held)
    (tranche : left.position.tranche = held.position.tranche)
    (generation : left.position.capitalGeneration = held.position.capitalGeneration)
    (tranche' : right.position.tranche = held.position.tranche)
    (generation' : right.position.capitalGeneration = held.position.capitalGeneration)
    (shares : left.position.shares + right.position.shares = held.position.shares)
    (place : left.place = .wallet ∨ left.place = held.place) (place' : right.place = .wallet) :
    Reshuffled v { v with claims := v.claims.set index left ++ [right] } := by
  apply Reshuffled.of_claims
  · intro code
    have moved := Sums.sum_map_set (fun held : Held => held.position.stake.weight v.book.activeJuniorGeneration code) left
      found
    have parts : held.position.stake.weight v.book.activeJuniorGeneration code =
        left.position.stake.weight v.book.activeJuniorGeneration code +
          right.position.stake.weight v.book.activeJuniorGeneration code := by
      simp only [VaultPosition.stake, tranche, generation, tranche', generation', ← shares]
      exact Stake.weight_add _ _ _ _
    rw [List.map_append, List.sum_append, List.map_singleton, List.sum_singleton]
    omega
  · intro other member
    rcases List.mem_append.mp member with first | second
    · rcases List.mem_or_eq_of_mem_set first with old | rfl
      · exact ⟨other, old, rfl, rfl, Or.inr rfl⟩
      · exact ⟨held, List.mem_of_getElem? found, tranche, generation, place⟩
    · rw [List.mem_singleton.mp second]
      exact ⟨held, List.mem_of_getElem? found, tranche', generation', Or.inl place'⟩

theorem splitPosition_reshuffled {index shares : Nat} {id : ID} (ran : v.splitPosition index shares id = .ok next) :
    Reshuffled v next := by
  obtain ⟨p, parent, child, found, splits, rfl⟩ := splitPosition_ok ran
  obtain ⟨tranche, generation, tranche', generation', shares⟩ := VaultPosition.split_ok splits
  exact Reshuffled.split found tranche generation tranche' generation' shares (Or.inl rfl) rfl

theorem mergePositions_reshuffled {index other : Nat} (ran : v.mergePositions index other = .ok next) :
    Reshuffled v next := by
  obtain ⟨differ, p, q, merged, first, second, merges, rfl⟩ := mergePositions_ok ran
  obtain ⟨tranche, generation, tranche', generation', shares⟩ := VaultPosition.merge_ok merges
  have still : (v.claims.set index ⟨merged, .wallet⟩)[other]? = some ⟨q, .wallet⟩ := by
    rw [List.getElem?_set_ne differ, second]
  apply Reshuffled.of_claims
  · intro code
    have moved := Sums.sum_map_set (fun held : Held => held.position.stake.weight v.book.activeJuniorGeneration code)
      ⟨merged, .wallet⟩ first
    have erased := Sums.sum_map_eraseIdx
      (fun held : Held => held.position.stake.weight v.book.activeJuniorGeneration code) still
    have parts : merged.stake.weight v.book.activeJuniorGeneration code =
        p.stake.weight v.book.activeJuniorGeneration code + q.stake.weight v.book.activeJuniorGeneration code := by
      simp only [VaultPosition.stake, tranche, generation, tranche', generation', shares]
      exact Stake.weight_add _ _ _ _
    dsimp only at moved erased
    omega
  · intro held member
    rcases List.mem_or_eq_of_mem_set (List.mem_of_mem_eraseIdx member) with old | rfl
    · exact ⟨held, old, rfl, rfl, Or.inr rfl⟩
    · exact ⟨_, List.mem_of_getElem? first, tranche', generation', Or.inl rfl⟩

theorem Reshuffled.toWallet {index : Nat} {held : Held} (found : v.claims[index]? = some held) :
    Reshuffled v { v with claims := v.claims.set index { held with place := .wallet } } := by
  apply Reshuffled.of_claims
  · intro code
    have moved := Sums.sum_map_set (fun held : Held => held.position.stake.weight v.book.activeJuniorGeneration code)
      { held with place := .wallet } found
    exact Nat.add_right_cancel moved
  · intro other member
    rcases List.mem_or_eq_of_mem_set member with old | rfl
    · exact ⟨other, old, rfl, rfl, Or.inr rfl⟩
    · exact ⟨held, List.mem_of_getElem? found, rfl, rfl, Or.inl rfl⟩

theorem splitCommitment_reshuffled {shares : Nat} {id : ID} (ran : v.splitCommitment shares id = .ok next) :
    Reshuffled v next := by
  obtain ⟨index, held, found, rfl | ⟨parent, child, splits, rfl⟩⟩ := splitCommitment_ok ran
  · exact .toWallet found
  · obtain ⟨tranche, generation, tranche', generation', shares⟩ := VaultPosition.split_ok splits
    exact Reshuffled.split found tranche generation tranche' generation' shares (Or.inr rfl) rfl

theorem rotateCuratorByCurator_reshuffled {cap newCap : ID} (ran : v.rotateCuratorByCurator cap newCap = .ok next) :
    Reshuffled v next := by
  obtain ⟨breached, rfl⟩ := rotateCuratorByCurator_ok ran
  have position : ∀ held : Held, (held.handedBack v.curatorCapId).position = held.position := by
    intro held
    unfold Held.handedBack
    split
    · rfl
    · split <;> rfl
  have place : ∀ held : Held,
      (held.handedBack v.curatorCapId).place = .wallet ∨ (held.handedBack v.curatorCapId).place = held.place := by
    intro held
    unfold Held.handedBack
    split
    · exact Or.inr rfl
    · split
      · exact Or.inl rfl
      · exact Or.inr rfl
  refine Reshuffled.trans (Reshuffled.of_claims ?_ ?_)
    (.of_same rfl (.refl _) rfl rfl)
  · intro code
    rw [List.map_map]
    simp only [Function.comp_def, position]
  · intro held member
    obtain ⟨old, known, rfl⟩ := List.mem_map.mp member
    exact ⟨old, known, by rw [position], by rw [position], place old⟩

theorem requestWithdraw_reshuffled {sender : Address} {index now : Nat} {payoutAsset : TypeName}
    (ran : v.requestWithdraw sender index payoutAsset now = .ok next) : Reshuffled v next := by
  obtain ⟨_, p, found, request, tranche, generation, shares, rfl⟩ := requestWithdraw_ok ran
  have same : (v.queue.numbered request).stake = p.stake := by
    simp only [WithdrawQueue.numbered, WithdrawRequest.stake, VaultPosition.stake, tranche, generation, shares]
  refine ⟨rfl, .refl _, fun code => ?_, fun kept => ⟨?_, ?_, ?_, kept.proposal⟩⟩
  · have erased := Sums.sum_map_eraseIdx
      (fun held : Held => held.position.stake.weight v.book.activeJuniorGeneration code) found
    simp only [TradingVault.outstanding, outstandingOf, WithdrawQueue.push, Table.add, List.map_append, List.sum_append,
      List.map_cons, List.map_nil, List.sum_cons, List.sum_nil, same]
    dsimp only at erased
    omega
  · exact fun held member => kept.claims held (List.mem_of_mem_eraseIdx member)
  · intro entry member
    rcases List.mem_append.mp member with old | new
    · exact kept.requests entry old
    · rw [List.mem_singleton.mp new, same]
      exact kept.claims _ (List.mem_of_getElem? found)
  · exact fun held member => kept.slots held (List.mem_of_mem_eraseIdx member)

theorem amendPayoutAsset_reshuffled {sender : Address} {seq : Nat} {payoutAsset : TypeName}
    (ran : v.amendPayoutAsset sender seq payoutAsset = .ok next) : Reshuffled v next := by
  obtain ⟨request, found, rfl⟩ := amendPayoutAsset_ok ran
  have stakes : (v.queue.requests.set seq { request with payoutAsset }).map (·.2.stake) =
      v.queue.requests.map (·.2.stake) := by
    rw [Table.set, List.map_map]
    apply List.map_congr_left
    rintro ⟨key, old⟩ member
    by_cases here : key = seq
    · subst here
      have located := Table.get?_of_mem v.queue.distinct member
      cases located.symm.trans found
      simp [WithdrawRequest.stake]
    · simp [here]
  refine ⟨rfl, .refl _, fun code => ?_, fun kept => ⟨kept.claims, ?_, kept.slots, kept.proposal⟩⟩
  · have sums := congrArg (fun stakes => (stakes.map (Stake.weight v.book.activeJuniorGeneration code)).sum) stakes
    simp only [List.map_map, Function.comp_def] at sums
    simp only [TradingVault.outstanding, outstandingOf, WithdrawQueue.repoint, sums]
  · intro entry member
    have known : entry.2.stake ∈ v.queue.requests.map (·.2.stake) := by
      rw [← stakes]
      exact List.mem_map.mpr ⟨entry, member, rfl⟩
    obtain ⟨old, present, same⟩ := List.mem_map.mp known
    rw [← same]
    exact kept.requests old present

/-- A wiped claim goes without a trace. -/
theorem burnWipedPosition_reshuffled {index : Nat} (ran : v.burnWipedPosition index = .ok next) : Reshuffled v next := by
  obtain ⟨p, found, wiped, rfl⟩ := burnWipedPosition_ok ran
  simp only [wipedClaim, decide_eq_true_eq] at wiped
  apply Reshuffled.of_claims
  · intro code
    have erased := Sums.sum_map_eraseIdx
      (fun held : Held => held.position.stake.weight v.book.activeJuniorGeneration code) found
    have none : p.stake.weight v.book.activeJuniorGeneration code = 0 := Stake.weight_wiped wiped.1 wiped.2
    dsimp only at erased
    omega
  · intro held member
    exact ⟨held, List.mem_of_mem_eraseIdx member, rfl, rfl, Or.inr rfl⟩

/-! ### New shares -/

def mintOf (tranche : Tranche) (shares : Nat) (code : LaneCode) : Nat := if laneCodeOf tranche = code then shares else 0

/-- Claims after a mint: the minted shares are on their side, and every claim is sound. -/
structure Minted (v : TradingVault Obj) (tranche : Tranche) (shares : Nat) (claims : List Held) : Prop where
  weights : ∀ code, (claims.map fun held => held.position.stake.weight v.book.activeJuniorGeneration code).sum =
    (v.claims.map fun held => held.position.stake.weight v.book.activeJuniorGeneration code).sum +
      mintOf tranche shares code
  sound : ∀ held ∈ claims, held.position.stake.Sound v.capital v.book.activeJuniorGeneration
  slots : ∀ held ∈ claims, ∀ capId tranche, held.place = .commitment capId tranche → held.position.tranche = tranche

/-- A position that a mint makes: of its tranche, and of the current generation if junior. -/
structure Fresh (v : TradingVault Obj) (tranche : Tranche) (shares : Nat) (position : VaultPosition) : Prop where
  ofTranche : position.tranche = tranche
  ofGeneration : position.capitalGeneration = v.generationOf tranche
  ofShares : position.shares = shares

theorem Fresh.transfer {w : TradingVault Obj} {tranche : Tranche} {shares : Nat} {position : VaultPosition}
    (fresh : Fresh v tranche shares position)
    (generation : w.book.activeJuniorGeneration = v.book.activeJuniorGeneration) : Fresh w tranche shares position := by
  refine ⟨fresh.ofTranche, ?_, fresh.ofShares⟩
  rw [fresh.ofGeneration, generationOf, generationOf, generation]

theorem Fresh.sound {tranche : Tranche} {shares : Nat} {position : VaultPosition} (fresh : Fresh v tranche shares position)
    (kind : v.capital.isTranched = decide (tranche ≠ .untranched)) :
    position.stake.Sound v.capital v.book.activeJuniorGeneration := by
  constructor
  · simpa only [VaultPosition.stake, fresh.ofTranche] using kind
  · simp only [VaultPosition.stake, fresh.ofTranche, fresh.ofGeneration, generationOf]
    rintro rfl
    exact Nat.le_refl _

theorem Fresh.weight {tranche : Tranche} {shares : Nat} {position : VaultPosition}
    (fresh : Fresh v tranche shares position) (code : LaneCode) :
    position.stake.weight v.book.activeJuniorGeneration code = mintOf tranche shares code := by
  have current : tranche = .junior → v.generationOf tranche = v.book.activeJuniorGeneration := fun junior => if_pos junior
  simp only [VaultPosition.stake, Stake.weight, mintOf, fresh.ofTranche, fresh.ofGeneration, fresh.ofShares, eq_true current,
    and_true]

theorem Minted.append {tranche : Tranche} {shares : Nat} (held : Held) (kept : v.WellKept)
    (kind : v.capital.isTranched = decide (tranche ≠ .untranched)) (fresh : Fresh v tranche shares held.position)
    (slot : ∀ capId other, held.place = .commitment capId other → tranche = other) :
    Minted v tranche shares (v.claims ++ [held]) := by
  refine ⟨fun code => ?_, fun other member => ?_, fun other member => ?_⟩
  · rw [List.map_append, List.sum_append, List.map_singleton, List.sum_singleton, fresh.weight code]
  · rcases List.mem_append.mp member with old | new
    · exact kept.claims other old
    · rw [List.mem_singleton.mp new]
      exact fresh.sound kind
  · rcases List.mem_append.mp member with old | new
    · exact kept.slots other old
    · rw [List.mem_singleton.mp new, fresh.ofTranche]
      exact slot

theorem Minted.replace {tranche : Tranche} {shares index : Nat} {held old : Held} (kept : v.WellKept)
    (kind : v.capital.isTranched = decide (tranche ≠ .untranched)) (found : v.claims[index]? = some old)
    (wiped : old.position.tranche = .junior ∧ old.position.capitalGeneration < v.book.activeJuniorGeneration)
    (fresh : Fresh v tranche shares held.position)
    (slot : ∀ capId other, held.place = .commitment capId other → tranche = other) :
    Minted v tranche shares (v.claims.set index held) := by
  refine ⟨fun code => ?_, fun other member => ?_, fun other member => ?_⟩
  · have moved := Sums.sum_map_set (fun held : Held => held.position.stake.weight v.book.activeJuniorGeneration code) held
      found
    have none : old.position.stake.weight v.book.activeJuniorGeneration code = 0 := Stake.weight_wiped wiped.1 wiped.2
    rw [← fresh.weight code]
    omega
  · rcases List.mem_or_eq_of_mem_set member with known | rfl
    · exact kept.claims other known
    · exact fresh.sound kind
  · rcases List.mem_or_eq_of_mem_set member with known | rfl
    · exact kept.slots other known
    · rw [fresh.ofTranche]
      exact slot

theorem Minted.enlarge {tranche : Tranche} {shares index : Nat} {held old : Held} (kept : v.WellKept)
    (found : v.claims[index]? = some old) (same : old.position.tranche = tranche)
    (live : ¬ (old.position.tranche = .junior ∧ old.position.capitalGeneration < v.book.activeJuniorGeneration))
    (kind : held.position.tranche = old.position.tranche ∧
      held.position.capitalGeneration = old.position.capitalGeneration)
    (total : held.position.shares = old.position.shares + shares) (place : held.place = old.place) :
    Minted v tranche shares (v.claims.set index held) := by
  have sound := kept.claims old (List.mem_of_getElem? found)
  have sound' : held.position.stake.Sound v.capital v.book.activeJuniorGeneration := sound.of_kind kind.1 kind.2
  refine ⟨fun code => ?_, fun other member => ?_, fun other member => ?_⟩
  · have moved := Sums.sum_map_set (fun held : Held => held.position.stake.weight v.book.activeJuniorGeneration code) held
      found
    have before := sound.weight_live code live
    have after := sound'.weight_live code (by
      simpa only [VaultPosition.stake, kind.1, kind.2] using live)
    have grown : (if laneCodeOf held.position.stake.tranche = code then held.position.stake.shares else 0) =
        (if laneCodeOf old.position.stake.tranche = code then old.position.stake.shares else 0) +
          mintOf tranche shares code := by
      simp only [VaultPosition.stake, mintOf, kind.1, same, total]
      split <;> simp
    omega
  · rcases List.mem_or_eq_of_mem_set member with known | rfl
    · exact kept.claims other known
    · exact sound'
  · rcases List.mem_or_eq_of_mem_set member with known | rfl
    · exact kept.slots other known
    · rw [place, kind.1]
      exact kept.slots old (List.mem_of_getElem? found)

theorem Minted.transfer {w : TradingVault Obj} {tranche : Tranche} {shares : Nat} {claims : List Held}
    (minted : Minted w tranche shares claims) (capital : w.capital = v.capital) (held : w.claims = v.claims)
    (generation : w.book.activeJuniorGeneration = v.book.activeJuniorGeneration) : Minted v tranche shares claims := by
  obtain ⟨weights, sound, slots⟩ := minted
  rw [generation, held] at weights
  rw [generation, capital] at sound
  exact ⟨weights, sound, slots⟩

/-- The claims are well kept, and add up to the supplies until the vault is settled. -/
structure SharesHold (v : TradingVault Obj) : Prop where
  kept : v.WellKept
  conserved : v.settlement = none → v.Conserved

theorem Minted.sharesHold {tranche : Tranche} {shares value : Nat} {claims : List Held} {book : TrancheBook}
    (minted : Minted v tranche shares claims) (before : v.SharesHold)
    (booked : v.book.onDeposit tranche value shares = .ok book)
    (capital : next.capital = v.capital) (books : next.book = book) (held : next.claims = claims)
    (requests : next.queue.requests = v.queue.requests) (settlement : next.settlement = v.settlement) :
    next.SharesHold := by
  obtain ⟨generation, proposal, _, _⟩ := TrancheBook.onDeposit_ok booked
  refine ⟨⟨?_, ?_, ?_, ?_⟩, fun none code => ?_⟩
  · rw [held, capital, books, generation]
    exact minted.sound
  · rw [requests, capital, books, generation]
    exact before.kept.requests
  · rw [held]
    exact minted.slots
  · rw [capital, books, proposal]
    exact before.kept.proposal
  · have total := before.conserved (settlement.symm.trans none) code
    rw [TradingVault.outstanding, outstandingOf] at total
    rw [TradingVault.outstanding, outstandingOf, held, requests, books, generation, minted.weights code,
      TrancheBook.onDeposit_sharesOf booked code, total, mintOf]
    omega

end TradingVault

end SuiOptions.Vault
