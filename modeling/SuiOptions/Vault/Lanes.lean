import SuiOptions.Vault.Reset

/-! The withdrawal lanes over whole runs.

A lane keeps its entries between head and tail, in the order of their numbers; a
removed entry leaves a hole that the head later skips. Table and lanes change
together, so the head of a lane is always its oldest pending request.
-/

set_option autoImplicit false

namespace SuiOptions.Vault

open Execution Move
open Exchange (ID Address DomainState)

/-! ### One lane -/

namespace Lane

variable {lane : Lane} {fuel head seq : Nat}

structure Sorted (lane : Lane) : Prop where
  distinct : lane.entries.Distinct
  bounds : lane.head ≤ lane.tail
  ahead : ∀ index seq, lane.entries.get? index = some seq → lane.head ≤ index
  ordered : ∀ first second early late, lane.entries.get? first = some early → lane.entries.get? second = some late →
    first < second → early < late

theorem skip_spec (lane : Lane) (fuel head : Nat) :
    lane.skip fuel head ≤ head + fuel ∧
      (∀ index, head ≤ index → index < lane.skip fuel head → lane.entries.get? index = none) ∧
      (lane.skip fuel head < head + fuel → (lane.entries.get? (lane.skip fuel head)).isSome) := by
  induction fuel generalizing head with
  | zero =>
    refine ⟨Nat.le_refl _, fun index start stop => ?_, fun less => ?_⟩
    · exact absurd stop (Nat.not_lt.mpr start)
    · exact absurd less (Nat.lt_irrefl _)
  | succ fuel ih =>
    unfold skip
    split
    case isTrue present => exact ⟨Nat.le_add_right _ _, fun index start stop => absurd start (by omega), fun _ => present⟩
    case isFalse absent =>
      obtain ⟨later, holes, stops⟩ := ih (head + 1)
      refine ⟨by omega, fun index start stop => ?_, fun less => stops (by omega)⟩
      rcases Nat.eq_or_lt_of_le start with rfl | beyond
      · simpa [Table.contains] using absent
      · exact holes index beyond stop

theorem Sorted.advanced_head (sorted : lane.Sorted) {index : Nat} (entry : lane.entries.get? index = some seq) :
    lane.advanced.head ≤ index := by
  obtain ⟨_, holes, _⟩ := skip_spec lane (lane.tail - lane.head) lane.head
  by_contra beyond
  have hole := holes index (sorted.ahead index seq entry) (Nat.not_le.mp beyond)
  rw [entry] at hole
  cases hole

theorem Sorted.advanced_bounds (sorted : lane.Sorted) : lane.advanced.head ≤ lane.tail := by
  have bounds := sorted.bounds
  have stop := (skip_spec lane (lane.tail - lane.head) lane.head).1
  show lane.skip (lane.tail - lane.head) lane.head ≤ lane.tail
  omega

theorem Sorted.advanced (sorted : lane.Sorted) : lane.advanced.Sorted :=
  ⟨sorted.distinct, sorted.advanced_bounds, fun _ _ entry => sorted.advanced_head entry, sorted.ordered⟩

theorem Sorted.headSeq_least (sorted : lane.Sorted) (found : lane.headSeq = some seq) {index other : Nat}
    (entry : lane.entries.get? index = some other) : seq ≤ other := by
  rcases Nat.eq_or_lt_of_le (sorted.advanced_head entry) with rfl | later
  · exact Nat.le_of_eq (Option.some.inj (found.symm.trans entry))
  · exact Nat.le_of_lt (sorted.ordered _ _ _ _ found entry later)

theorem Sorted.headSeq_none (sorted : lane.Sorted) (bounded : ∀ entry ∈ lane.entries, entry.1 < lane.tail)
    (none : lane.headSeq = none) (index : Nat) : lane.entries.get? index = .none := by
  obtain ⟨_, _, stops⟩ := skip_spec lane (lane.tail - lane.head) lane.head
  by_contra present
  obtain ⟨seq, entry⟩ := Option.ne_none_iff_exists'.mp present
  have before : lane.skip (lane.tail - lane.head) lane.head ≤ index := sorted.advanced_head entry
  have inside := bounded _ (Table.mem_of_get? entry)
  have some := stops (by omega)
  rw [show lane.entries.get? (lane.skip (lane.tail - lane.head) lane.head) = .none from none] at some
  cases some

end Lane

/-! ### The queue -/

namespace WithdrawQueue

variable {q next : WithdrawQueue}

structure Lined (q : WithdrawQueue) : Prop where
  sorted : ∀ code, (q.lanes code).Sorted
  live : ∀ code index seq, (q.lanes code).entries.get? index = some seq → ∃ request,
    q.requests.get? seq = some request ∧ laneCodeOf request.tranche = code ∧ request.laneIdx = index

theorem Lined.empty : empty.Lined := by
  constructor
  · intro code
    refine ⟨List.nodup_nil, Nat.le_refl _, ?_, ?_⟩
    · intro index seq entry
      cases entry
    · intro first second early late entry
      cases entry
  · intro code index seq entry
    cases entry

theorem Lined.advanced (lined : q.Lined) : q.advanced.Lined :=
  ⟨fun code => (lined.sorted code).advanced, lined.live⟩

theorem Lined.below (lined : q.Lined) {code : LaneCode} {index seq : Nat}
    (entry : (q.lanes code).entries.get? index = some seq) : seq < q.nextGlobalSeq := by
  obtain ⟨request, found, _⟩ := lined.live code index seq entry
  exact q.below _ (Table.mem_of_get? found)

theorem pushLane_entry {code : LaneCode} {index seq : Nat} {code' : LaneCode}
    (entry : (q.pushLane code code').entries.get? index = some seq) :
    (q.lanes code').entries.get? index = some seq ∧ (code' = code → index < (q.lanes code).tail) ∨
      code' = code ∧ index = (q.lanes code).tail ∧ seq = q.nextGlobalSeq := by
  by_cases here : code' = code
  · subst here
    simp only [pushLane, Function.update_self] at entry
    by_cases last : index = (q.lanes code').tail
    · subst last
      rw [Table.get?_add_self (q.tail_fresh code'), Option.some.injEq] at entry
      exact Or.inr ⟨rfl, rfl, entry.symm⟩
    · rw [Table.get?_add_of_ne last] at entry
      exact Or.inl ⟨entry, fun _ => q.bounded code' _ (Table.mem_of_get? entry)⟩
  · rw [pushLane, Function.update_of_ne here] at entry
    exact Or.inl ⟨entry, fun same => absurd same here⟩

theorem pushLane_head (q : WithdrawQueue) (code other : LaneCode) :
    (q.pushLane code other).head = (q.lanes other).head := by
  by_cases here : other = code
  · subst here
    simp only [pushLane, Function.update_self]
  · rw [pushLane, Function.update_of_ne here]

theorem pushLane_sorted (lined : q.Lined) (code other : LaneCode) : (q.pushLane code other).Sorted := by
  have before := lined.sorted other
  constructor
  case distinct =>
    by_cases here : other = code
    · subst here
      simp only [pushLane, Function.update_self]
      exact before.distinct.add fun entry member => Nat.ne_of_lt (q.bounded other entry member)
    · rw [pushLane, Function.update_of_ne here]
      exact before.distinct
  case bounds =>
    by_cases here : other = code
    · subst here
      simp only [pushLane, Function.update_self]
      exact Nat.le_succ_of_le before.bounds
    · rw [pushLane, Function.update_of_ne here]
      exact before.bounds
  case ahead =>
    intro index seq entry
    rw [pushLane_head]
    rcases pushLane_entry entry with ⟨old, _⟩ | ⟨rfl, rfl, _⟩
    · exact before.ahead index seq old
    · exact before.bounds
  case ordered =>
    intro first second early late one two apart
    rcases pushLane_entry one with ⟨old, _⟩ | ⟨rfl, rfl, _⟩
    · rcases pushLane_entry two with ⟨old', _⟩ | ⟨rfl, rfl, rfl⟩
      · exact before.ordered first second early late old old' apart
      · exact lined.below old
    · -- nothing stands behind the end of a lane
      rcases pushLane_entry two with ⟨_, inside⟩ | ⟨_, rfl, _⟩
      · have := inside rfl
        omega
      · omega

theorem next_fresh (q : WithdrawQueue) : q.requests.get? q.nextGlobalSeq = none := by
  by_contra present
  obtain ⟨request, found⟩ := Option.ne_none_iff_exists'.mp present
  exact Nat.lt_irrefl _ (q.below _ (Table.mem_of_get? found))

theorem Lined.push (lined : q.Lined) (request : WithdrawRequest) : (q.push request).Lined := by
  constructor
  · exact pushLane_sorted lined _
  · intro code index seq entry
    rcases pushLane_entry entry with ⟨old, _⟩ | ⟨rfl, rfl, rfl⟩
    · obtain ⟨known, found, lane, place⟩ := lined.live code index seq old
      refine ⟨known, ?_, lane, place⟩
      exact (Table.get?_add_of_ne (Nat.ne_of_lt (lined.below old))).trans found
    · exact ⟨q.numbered request, Table.get?_add_self q.next_fresh, rfl, rfl⟩

theorem Lined.repoint (lined : q.Lined) {seq : Nat} {request : WithdrawRequest}
    (found : q.requests.get? seq = some request) (payoutAsset : TypeName) :
    (q.repoint seq request found payoutAsset).Lined := by
  refine ⟨lined.sorted, fun code index number entry => ?_⟩
  obtain ⟨known, located, lane, place⟩ := lined.live code index number entry
  by_cases here : number = seq
  · subst here
    obtain rfl : known = request := Option.some.inj (located.symm.trans found)
    exact ⟨_, Table.get?_set_self found _, lane, place⟩
  · exact ⟨known, (Table.get?_set_of_ne here).trans located, lane, place⟩

theorem dropLane_entry (lined : q.Lined) {seq : Nat} {request : WithdrawRequest}
    (found : q.requests.get? seq = some request) {code : LaneCode} {index number : Nat}
    (entry : (q.dropLane (laneCodeOf request.tranche) request.laneIdx code).entries.get? index = some number) :
    (q.lanes code).entries.get? index = some number ∧ number ≠ seq := by
  have own := q.entered _ (Table.mem_of_get? found)
  have kept : (q.lanes code).entries.get? index = some number ∧
      ¬ (code = laneCodeOf request.tranche ∧ index = request.laneIdx) := by
    by_cases here : code = laneCodeOf request.tranche
    · subst here
      simp only [dropLane, Function.update_self] at entry
      obtain ⟨other, old⟩ := Table.get?_of_remove (lined.sorted _).distinct entry
      exact ⟨old, fun both => other both.2⟩
    · rw [dropLane, Function.update_of_ne here] at entry
      exact ⟨entry, fun both => here both.1⟩
  refine ⟨kept.1, ?_⟩
  rintro rfl
  obtain ⟨known, located, lane, place⟩ := lined.live code index number kept.1
  obtain rfl : known = request := Option.some.inj (located.symm.trans found)
  exact kept.2 ⟨lane.symm, place.symm⟩

theorem dropLane_frame (q : WithdrawQueue) (code : LaneCode) (laneIdx : Nat) (other : LaneCode) :
    (q.dropLane code laneIdx other).head = (q.lanes other).head ∧ (q.dropLane code laneIdx other).tail = (q.lanes other).tail ∧
      ((q.lanes other).entries.Distinct → (q.dropLane code laneIdx other).entries.Distinct) := by
  by_cases here : other = code
  · subst here
    simp only [dropLane, Function.update_self]
    exact ⟨trivial, trivial, fun distinct => distinct.remove⟩
  · rw [dropLane, Function.update_of_ne here]
    exact ⟨rfl, rfl, id⟩

theorem Lined.drop (lined : q.Lined) {seq : Nat} {request : WithdrawRequest}
    (found : q.requests.get? seq = some request) : (q.drop seq request found).Lined := by
  constructor
  · intro code
    obtain ⟨head, tail, distinct⟩ := q.dropLane_frame (laneCodeOf request.tranche) request.laneIdx code
    have before := lined.sorted code
    refine ⟨distinct before.distinct, ?_, ?_, ?_⟩
    · exact (head ▸ tail ▸ before.bounds :)
    · intro index number entry
      exact (head ▸ before.ahead index number (dropLane_entry lined found entry).1 :)
    · intro first second early late one two
      exact before.ordered first second early late (dropLane_entry lined found one).1 (dropLane_entry lined found two).1
  · intro code index number entry
    obtain ⟨old, other⟩ := dropLane_entry lined found entry
    obtain ⟨known, located, lane, place⟩ := lined.live code index number old
    exact ⟨known, (Table.get?_remove_of_ne other).trans located, lane, place⟩

/-- All that a step does to the queue; only a request for a withdrawal gives out a number. -/
inductive Moved (q : WithdrawQueue) : Bool → WithdrawQueue → Prop where
  | still : Moved q false q
  | pushed (request : WithdrawRequest) : Moved q true (q.push request)
  | repointed {seq : Nat} {request : WithdrawRequest} (found : q.requests.get? seq = some request)
      (payoutAsset : TypeName) : Moved q false (q.repoint seq request found payoutAsset)
  | advanced : Moved q false q.advanced
  | dropped {seq : Nat} {request : WithdrawRequest} (found : q.requests.get? seq = some request) :
      Moved q false (q.drop seq request found)
  | paid {seq : Nat} {request : WithdrawRequest} (found : q.requests.get? seq = some request) :
      Moved q false (q.advanced.drop seq request found)

variable {requests : Bool}

theorem Moved.lined (moved : Moved q requests next) (lined : q.Lined) : next.Lined := by
  cases moved with
  | still => exact lined
  | pushed request => exact lined.push request
  | repointed found payoutAsset => exact lined.repoint found payoutAsset
  | advanced => exact lined.advanced
  | dropped found => exact lined.drop found
  | paid found => exact lined.advanced.drop found

theorem Moved.nextGlobalSeq (moved : Moved q requests next) :
    next.nextGlobalSeq = q.nextGlobalSeq + if requests then 1 else 0 := by
  cases moved <;> rfl

theorem Moved.unskipped (moved : Moved q requests next) (lined : q.Lined) {entry : Nat × WithdrawRequest}
    (member : entry ∈ q.requests) : (next.lanes (laneCodeOf entry.2.tranche)).head ≤ entry.2.laneIdx := by
  have own := q.entered entry member
  have ahead := (lined.sorted _).ahead _ _ own
  have beyond := (lined.sorted _).advanced_head own
  cases moved with
  | still => exact ahead
  | pushed request => exact q.pushLane_head _ _ ▸ ahead
  | repointed found payoutAsset => exact ahead
  | advanced => exact beyond
  | dropped found => exact (q.dropLane_frame _ _ _).1 ▸ ahead
  | paid found => exact (q.advanced.dropLane_frame _ _ _).1 ▸ beyond

end WithdrawQueue

/-! ### One step -/

def Call.requests {Obj : Type} : Call Obj → Bool
  | .requestWithdraw .. => true
  | _ => false

def Action.requests {Obj : Type} : Action Obj → Bool
  | .call c => c.requests
  | _ => false

variable {Obj : Type} {v next : TradingVault Obj}

open TradingVault in
theorem Call.queue {env : Env} {c : Call Obj} (ran : c.run env v = .ok next) : v.queue.Moved c.requests next.queue := by
  cases c with
  | splitPosition index shares id =>
    obtain ⟨_, _, _, _, _, rfl⟩ := splitPosition_ok ran
    exact .still
  | mergePositions index other =>
    obtain ⟨_, _, _, _, _, _, _, rfl⟩ := mergePositions_ok ran
    exact .still
  | requestWithdraw sender index payoutAsset =>
    obtain ⟨_, _, _, request, _, _, _, rfl⟩ := requestWithdraw_ok ran
    exact .pushed request
  | amendPayoutAsset sender seq payoutAsset =>
    obtain ⟨_, found, rfl⟩ := amendPayoutAsset_ok ran
    exact .repointed found payoutAsset
  | session kind adapter ops =>
    obtain ⟨_, _, queue, rfl, same | skipped, _, _⟩ := session_ok ran
    · exact same ▸ .still
    · exact skipped ▸ .advanced
  | receivePosition adapter id object =>
    obtain ⟨_, _, rfl⟩ := receivePosition_ok ran
    exact .still
  | receiveCoin adapter t amount =>
    obtain ⟨_, rfl, _, _⟩ := receiveCoin_ok ran
    exact .still
  | mmRelease source recipient t amount =>
    obtain ⟨_, _, _, rfl⟩ := mmRelease_ok ran
    exact .still
  | setExternalAccount account equityOracle budgetBps dailyReleaseBps =>
    obtain ⟨_, rfl, _⟩ := setExternalAccount_ok ran
    exact .still
  | setExternalAccountAttested cap account equityOracle budgetBps dailyReleaseBps signed =>
    obtain ⟨_, rfl, _⟩ := setExternalAccountAttested_ok ran
    exact .still
  | clearExternalAccount =>
    obtain ⟨_, rfl⟩ := clearExternalAccount_ok ran
    exact .still
  | returnExternal sender t amount =>
    obtain ⟨_, _, _, _, _, _, rfl⟩ := returnExternal_ok ran
    exact .still
  | burnWipedPosition index =>
    obtain ⟨_, _, _, rfl⟩ := burnWipedPosition_ok ran
    exact .still
  | withdrawCommitmentSettled cap =>
    obtain ⟨_, _, _, rfl⟩ := withdrawCommitmentSettled_ok ran
    exact .still
  | rotateCuratorByCurator cap newCap =>
    obtain ⟨_, rfl⟩ := rotateCuratorByCurator_ok ran
    exact .still
  | initiateClose cap =>
    obtain ⟨_, rfl⟩ := initiateClose_ok ran
    exact .still
  | initiateCloseAdmin =>
    obtain ⟨_, rfl⟩ := initiateCloseInternal_ok ran
    exact .still
  | finalizeClose =>
    obtain ⟨_, rfl⟩ := finalizeClose_ok ran
    exact .still
  | redeemSettledPosition t index =>
    obtain ⟨_, _, _, pays⟩ := redeemSettledPosition_ok ran
    obtain ⟨_, _, _, _, _, _, _, _, _, _, _, rfl⟩ := paySettlement_ok pays
    exact .still
  | settleQueuedRequest t seq =>
    obtain ⟨_, _, found, pays⟩ := settleQueuedRequest_ok ran
    obtain ⟨_, _, _, _, _, _, _, _, _, _, _, rfl⟩ := paySettlement_ok pays
    exact .dropped found
  | claimSettlementCuratorFees cap t =>
    obtain ⟨_, _, _, _, _, rfl⟩ := claimSettlementCuratorFees_ok ran
    exact .still
  | configure cap setting =>
    obtain ⟨_, _, rfl⟩ := configure_ok ran
    exact .still

theorem TradingVault.Paid.queue {cfg : VaultProtocolConfig} {f : Fulfillment} {p : TypeName} {id : ID} {receipt : Receipt}
    (paid : Paid v cfg f p id receipt next) :
    next.queue = v.queue.advanced.drop receipt.seq receipt.request paid.found := by
  obtain ⟨_, burned, minted, cut, _, burns, mints, cuts, pays⟩ := settleRequest_ok paid.settled
  obtain ⟨_, rfl, _⟩ := payOut_ok pays
  obtain ⟨_, rfl, _⟩ := payOut_ok cuts
  have credited : minted.queue = burned.queue := by
    rcases mintFee_ok mints with rfl | ⟨_, _, _, _, credits⟩
    · rfl
    · obtain ⟨_, rfl, _⟩ := creditCommitment_ok credits
      rfl
  refine credited.trans ?_
  rcases burnShares_ok burns with ⟨_, rfl⟩ | ⟨_, _, _, rfl⟩ <;> rfl

/-! ### Choosing a head -/

def WithdrawQueue.pending (q : WithdrawQueue) (code : LaneCode) : Set Nat :=
  { seq | ∃ request, q.requests.get? seq = some request ∧ laneCodeOf request.tranche = code }

theorem WithdrawQueue.Lined.head_iff {q : WithdrawQueue} (lined : q.Lined) (code : LaneCode) (seq : Nat) :
    q.laneHeadSeq code = some seq ↔ IsLeast (q.pending code) seq := by
  have least : ∀ seq, q.laneHeadSeq code = some seq → IsLeast (q.pending code) seq := by
    intro seq found
    constructor
    · obtain ⟨request, known, lane, _⟩ := lined.live code _ seq found
      exact ⟨request, known, lane⟩
    · rintro other ⟨request, known, rfl⟩
      exact (lined.sorted _).headSeq_least found (q.entered _ (Table.mem_of_get? known))
  refine ⟨least seq, fun lowest => ?_⟩
  cases head : q.laneHeadSeq code with
  | some first => rw [(least first head).unique lowest]
  | none =>
    obtain ⟨request, known, rfl⟩ := lowest.1
    have none := (lined.sorted _).headSeq_none (q.bounded _) head request.laneIdx
    rw [q.entered _ (Table.mem_of_get? known)] at none
    cases none

theorem WithdrawQueue.Lined.paired {q : WithdrawQueue} (lined : q.Lined) :
    Set.BijOn (fun entry : Nat × WithdrawRequest => (laneCodeOf entry.2.tranche, entry.2.laneIdx, entry.1))
      { entry | q.requests.get? entry.1 = some entry.2 }
      { slot | (q.lanes slot.1).head ≤ slot.2.1 ∧ slot.2.1 < (q.lanes slot.1).tail ∧
        (q.lanes slot.1).entries.get? slot.2.1 = some slot.2.2 } := by
  refine ⟨?_, ?_, ?_⟩
  · rintro ⟨seq, request⟩ found
    have entry := q.entered _ (Table.mem_of_get? found)
    exact ⟨(lined.sorted _).ahead _ _ entry, q.bounded _ _ (Table.mem_of_get? entry), entry⟩
  · rintro ⟨seq, request⟩ found ⟨other, waiting⟩ located same
    obtain rfl : seq = other := congrArg (fun slot => slot.2.2) same
    obtain rfl : request = waiting := Option.some.inj (Eq.trans (Eq.symm found) located)
    rfl
  · rintro ⟨code, index, seq⟩ ⟨_, _, entry⟩
    obtain ⟨request, found, lane, place⟩ := lined.live code index seq entry
    exact ⟨(seq, request), found, by rw [← lane, ← place]⟩

theorem WithdrawQueue.Moved.pending {q next : WithdrawQueue} {requests : Bool} {code : LaneCode} {seq : Nat}
    (moved : q.Moved requests next) (waits : seq ∈ next.pending code) : seq ∈ q.pending code ∨ q.nextGlobalSeq ≤ seq := by
  obtain ⟨request, found, lane⟩ := waits
  cases moved with
  | still => exact Or.inl ⟨request, found, lane⟩
  | advanced => exact Or.inl ⟨request, found, lane⟩
  | pushed fresh =>
    by_cases here : seq = q.nextGlobalSeq
    · exact Or.inr (Nat.le_of_eq here.symm)
    · exact Or.inl ⟨request, (Table.get?_add_of_ne here).symm.trans found, lane⟩
  | @repointed number old known payoutAsset =>
    left
    by_cases here : seq = number
    · subst here
      obtain rfl := Option.some.inj ((Table.get?_set_self known _).symm.trans found)
      exact ⟨old, known, lane⟩
    · exact ⟨request, (Table.get?_set_of_ne here).symm.trans found, lane⟩
  | dropped known => exact Or.inl ⟨request, (Table.get?_of_remove q.distinct found).2, lane⟩
  | paid known => exact Or.inl ⟨request, (Table.get?_of_remove q.distinct found).2, lane⟩

namespace TradingVault

/-- The lane heads that a batch can pay in `p`. -/
def payableHeads (v : TradingVault Obj) (f : Fulfillment) (p : TypeName) (now : Nat) : Set Nat :=
  { seq | ∃ code request, IsLeast (v.queue.pending code) seq ∧ v.queue.requests.get? seq = some request ∧
    v.headPayable f (decide (code = .junior)) p now request = .ok true }

/-- The free balance does not cover the payout of a request and the protocol's cut. -/
def Unfunded (v : TradingVault Obj) (cfg : VaultProtocolConfig) (f : Fulfillment) (p : TypeName) (seq : Nat) : Prop :=
  ∃ request priced payoutUnits cutUnits, v.queue.requests.get? seq = some request ∧
    v.priceRequest cfg f request = .ok priced ∧ v.convert f p request priced = .ok (payoutUnits, cutUnits) ∧
    v.freeBalance p < payoutUnits + cutUnits

/-- A call pays the oldest payable head. It pays nothing if there is none, or if that one cannot be paid. -/
def Serves (v : TradingVault Obj) (cfg : VaultProtocolConfig) (f : Fulfillment) (p : TypeName) (now : Nat) :
    Option Receipt → Prop
  | some receipt => IsLeast (v.payableHeads f p now) receipt.seq
  | none => v.payableHeads f p now = ∅ ∨ ∃ seq, IsLeast (v.payableHeads f p now) seq ∧ v.Unfunded cfg f p seq

theorem earlier_isLeast {first second : Option Nat} {seq : Nat} (found : earlier first second = some seq) :
    IsLeast { other | first = some other ∨ second = some other } seq := by
  cases first with
  | none =>
    cases found
    refine ⟨Or.inr rfl, ?_⟩
    rintro other (same | same) <;> cases same
    exact Nat.le_refl _
  | some one =>
    cases second with
    | none =>
      cases found
      refine ⟨Or.inl rfl, ?_⟩
      rintro other (same | same) <;> cases same
      exact Nat.le_refl _
    | some two =>
      simp only [earlier, Option.some.injEq] at found
      constructor
      · show some one = some seq ∨ some two = some seq
        split at found <;> simp [found]
      · rintro other (same | same)
        · cases same
          split at found <;> omega
        · cases same
          split at found <;> omega

theorem payableHead_iff {f : Fulfillment} {juniorLane : Bool} {p : TypeName} {now : Nat} {head result : Option Nat}
    (ran : v.payableHead f juniorLane p now head = .ok result) (seq : Nat) :
    result = some seq ↔ head = some seq ∧ ∃ request, v.queue.requests.get? seq = some request ∧
      v.headPayable f juniorLane p now request = .ok true := by
  cases head with
  | none =>
    cases ran
    simp
  | some number =>
    simp only [payableHead, bind_ok, need_ok, pure_ok] at ran
    obtain ⟨request, found, payable, decides, rfl⟩ := ran
    cases payable with
    | true =>
      constructor
      · intro same
        cases same
        exact ⟨rfl, request, found, decides⟩
      · exact fun either => either.1
    | false =>
      constructor
      · intro none
        cases none
      · rintro ⟨same, other, found', pays⟩
        cases same
        cases found.symm.trans found'
        cases decides.symm.trans pays

theorem payableHeads_eq (lined : v.queue.Lined) {f : Fulfillment} {p : TypeName} {now : Nat} {senior junior : Option Nat}
    (first : v.payableHead f false p now (v.queue.laneHeadSeq .senior) = .ok senior)
    (second : v.payableHead f true p now (v.queue.laneHeadSeq .junior) = .ok junior) :
    v.payableHeads f p now = { seq | senior = some seq ∨ junior = some seq } := by
  ext seq
  show _ ↔ senior = some seq ∨ junior = some seq
  rw [payableHead_iff first, payableHead_iff second, lined.head_iff, lined.head_iff]
  constructor
  · rintro ⟨code, request, least, found, pays⟩
    cases code with
    | senior => exact Or.inl ⟨least, request, found, pays⟩
    | junior => exact Or.inr ⟨least, request, found, pays⟩
  · rintro (⟨least, request, found, pays⟩ | ⟨least, request, found, pays⟩)
    · exact ⟨.senior, request, least, found, pays⟩
    · exact ⟨.junior, request, least, found, pays⟩

theorem chooseHead_ok (lined : v.queue.Lined) {f : Fulfillment} {p : TypeName} {now : Nat} {chosen : Option Nat}
    (ran : v.chooseHead f p now = .ok chosen) :
    (chosen = none → v.payableHeads f p now = ∅) ∧
      ∀ seq, chosen = some seq → IsLeast (v.payableHeads f p now) seq := by
  simp only [chooseHead, bind_ok, pure_ok] at ran
  obtain ⟨senior, first, junior, second, rfl⟩ := ran
  rw [payableHeads_eq lined first second]
  refine ⟨fun none => ?_, fun seq found => earlier_isLeast found⟩
  cases senior with
  | none =>
    obtain rfl : junior = .none := none
    simp
  | some seq =>
    cases junior <;> cases none

theorem fulfillNext_serves (lined : v.queue.Lined) {cfg : VaultProtocolConfig} {f : Fulfillment} {p : TypeName} {now : Nat}
    {id : ID} {outcome : Option Receipt} (ran : v.fulfillNext cfg f p now id = .ok (next, outcome)) :
    v.Serves cfg f p now outcome := by
  simp only [fulfillNext, bind_ok] at ran
  obtain ⟨chosen, chooses, ran⟩ := ran
  obtain ⟨none, some⟩ := chooseHead_ok lined chooses
  split at ran
  case h_1 =>
    simp only [pure_ok, Prod.mk.injEq] at ran
    rw [← ran.2]
    exact Or.inl (none rfl)
  case h_2 seq =>
    simp only [fulfillRequest, bind_ok, Prod.exists, Subtype.exists] at ran
    obtain ⟨request, found, _, priced, prices, payoutUnits, cutUnits, converts, ran⟩ := ran
    split at ran
    case isTrue short =>
      simp only [pure_ok, Prod.mk.injEq] at ran
      rw [← ran.2]
      exact Or.inr ⟨seq, some seq rfl, request, priced, payoutUnits, cutUnits, found, prices, converts, short⟩
    case isFalse =>
      simp only [bind_ok, pure_ok, Prod.mk.injEq] at ran
      obtain ⟨_, _, _, rfl⟩ := ran
      exact some seq rfl

theorem payableHead_blocked (lined : v.queue.Lined) (kept : v.WellKept) (tranched : v.capital.isTranched = true)
    {f : Fulfillment} (blocked : f.juniorBlocked = true) (p : TypeName) (now : Nat) :
    v.payableHead f true p now (v.queue.laneHeadSeq .junior) = .ok none := by
  cases head : v.queue.laneHeadSeq .junior with
  | none => rfl
  | some seq =>
    obtain ⟨request, found, lane⟩ := ((lined.head_iff .junior seq).mp head).1
    have kind := (kept.requests _ (Table.mem_of_get? found)).kind
    have junior : request.tranche = .junior := by
      rw [tranched] at kind
      cases tranche : request.tranche with
      | junior => rfl
      | senior => rw [tranche] at lane; cases lane
      | untranched => rw [WithdrawRequest.stake, tranche] at kind; cases kind
    simp [payableHead, headPayable, found, need, blocked, junior, bind, Except.bind, pure, Except.pure]

theorem fulfillNext_senior (lined : v.queue.Lined) (kept : v.WellKept) (tranched : v.capital.isTranched = true)
    {f : Fulfillment} (blocked : f.juniorBlocked = true) (cfg : VaultProtocolConfig) {p : TypeName} {now seq : Nat} (id : ID)
    {request : WithdrawRequest} (oldest : IsLeast (v.queue.pending .senior) seq)
    (found : v.queue.requests.get? seq = some request) (pays : v.headPayable f false p now request = .ok true) :
    v.fulfillNext cfg f p now id = v.advanceLanes.fulfillRequest cfg f p seq id := by
  have senior : v.payableHead f false p now (v.queue.laneHeadSeq .senior) = .ok (some seq) := by
    rw [(lined.head_iff .senior seq).mpr oldest]
    simp [payableHead, found, need, pays, bind, Except.bind, pure, Except.pure]
  have chosen : v.chooseHead f p now = .ok (some seq) := by
    rw [chooseHead, senior, payableHead_blocked lined kept tranched blocked]
    rfl
  rw [fulfillNext, chosen]
  rfl

end TradingVault

/-! ### Runs -/

namespace World

variable {w after : World Obj} {action : Action Obj}

open TradingVault

theorem step_queue (ran : w.step action = .ok after) : w.vault.queue.Moved action.requests after.vault.queue := by
  cases action with
  | call c =>
    simp only [step, bind_ok, pure_ok] at ran
    obtain ⟨vault, calls, rfl⟩ := ran
    exact Call.queue calls
  | use index u =>
    simp only [step, bind_ok, pure_ok] at ran
    obtain ⟨a, _, vault, uses, rfl⟩ := ran
    exact (Use.frame uses).2.1 ▸ .still
  | beginFulfillment index atts =>
    simp only [step, bind_ok, pure_ok, Prod.exists] at ran
    obtain ⟨a, _, vault, f, begins, rfl⟩ := ran
    obtain ⟨_, _, _, _, _, _, syncs, _, _⟩ := beginFulfillment_ok begins
    exact (syncCapital_frame syncs).queue ▸ .still
  | fulfillNext index p id =>
    simp only [step, bind_ok, pure_ok, Prod.exists] at ran
    obtain ⟨f, _, vault, outcome, fulfills, rfl⟩ := ran
    rcases fulfillNext_ok fulfills with ⟨rfl, _⟩ | ⟨receipt, _, paid⟩
    · exact .advanced
    · exact paid.queue ▸ .paid paid.found
  | _ =>
    have moves := step_moves ran
    generalize after.vault = next at moves
    cases moves
    exact .still

theorem step_lined (lined : w.vault.queue.Lined) (ran : w.step action = .ok after) : after.vault.queue.Lined :=
  (step_queue ran).lined lined

/-- Open batches of a vault without tranches never block the junior lane. -/
def BlockedTranched (w : World Obj) : Prop :=
  ∀ f ∈ w.fulfillments, f.juniorBlocked = true → w.vault.capital.isTranched = true

theorem step_blockedTranched (before : w.BlockedTranched) (ran : w.step action = .ok after) : after.BlockedTranched := by
  have capital := (step_moves ran).capital
  intro f member blocked
  rw [capital]
  -- only the beginning of a batch makes a potato; the others were there
  have old : f ∈ w.fulfillments → w.vault.capital.isTranched = true := fun known => before f known blocked
  cases action with
  | call c =>
    simp only [step, bind_ok, pure_ok] at ran
    obtain ⟨vault, _, rfl⟩ := ran
    exact old member
  | use index u =>
    simp only [step, bind_ok, pure_ok] at ran
    obtain ⟨_, _, _, _, rfl⟩ := ran
    exact old member
  | beginAppraisal t =>
    simp only [step, bind_ok, pure_ok] at ran
    obtain ⟨_, _, rfl⟩ := ran
    exact old member
  | appraiseBalance index t att =>
    obtain ⟨_, _, _, _, rfl⟩ := valued_ok ran
    exact old member
  | recordPositionValue index witness id value =>
    obtain ⟨_, _, _, _, rfl⟩ := valued_ok ran
    exact old member
  | recordExternalEquity index oracle equity =>
    obtain ⟨_, _, _, _, rfl⟩ := valued_ok ran
    exact old member
  | beginFulfillment index atts =>
    simp only [step, bind_ok, pure_ok, Prod.exists] at ran
    obtain ⟨_, _, vault, opened, begins, rfl⟩ := ran
    rcases List.mem_append.mp member with known | fresh
    · exact old known
    · -- a lane is blocked in a tranched vault only
      obtain ⟨_, _, _, _, _, _, syncs, _, made⟩ := beginFulfillment_ok begins
      rw [List.mem_singleton.mp fresh, made] at blocked
      rw [← (syncCapital_frame syncs).capital]
      exact (Bool.and_eq_true_iff.mp blocked).1
  | fulfillNext index p id =>
    simp only [step, bind_ok, pure_ok, Prod.exists] at ran
    obtain ⟨_, _, _, _, _, rfl⟩ := ran
    exact old member
  | endFulfillment index =>
    simp only [step, bind_ok, pure_ok] at ran
    obtain ⟨_, _, rfl⟩ := ran
    exact old (List.mem_of_mem_eraseIdx member)
  | administer cfg adapters oracles lp =>
    cases ran
    exact old member
  | nextTransaction now =>
    simp only [step, bind_ok, check_ok, exists_const, pure_ok] at ran
    obtain ⟨_, _, rfl⟩ := ran
    exact old member

def receiptOf (w : World Obj) : Action Obj → Option Receipt
  | .fulfillNext index p fresh =>
    (w.fulfillments[index]?).bind fun f => ((w.vault.fulfillNext w.env.cfg f p w.env.now fresh).toOption).bind (·.2)
  | _ => none

def receipts (w : World Obj) : List (Action Obj) → List Receipt
  | [] => []
  | action :: rest =>
    match w.step action with
    | .ok next => (w.receiptOf action).toList ++ next.receipts rest
    | .error _ => []

theorem step_receipt {receipt : Receipt} (ran : w.step action = .ok after) (paid : w.receiptOf action = some receipt) :
    ∃ index f p id, action = .fulfillNext index p id ∧ w.fulfillments[index]? = some f ∧
      w.vault.fulfillNext w.env.cfg f p w.env.now id = .ok (after.vault, some receipt) := by
  cases action with
  | fulfillNext index p id =>
    simp only [step, fulfillment, bind_ok, need_ok, pure_ok, Prod.exists] at ran
    obtain ⟨f, opened, vault, outcome, fulfills, rfl⟩ := ran
    simp only [receiptOf, opened, fulfills, Except.toOption, Option.bind_some] at paid
    exact ⟨index, f, p, id, rfl, opened, paid ▸ fulfills⟩
  | _ => cases paid

structure Beyond (w : World Obj) (code : LaneCode) (bound : Nat) : Prop where
  coming : bound ≤ w.vault.queue.nextGlobalSeq
  pending : ∀ seq ∈ w.vault.queue.pending code, bound ≤ seq

theorem Beyond.step {code : LaneCode} {bound : Nat} (beyond : w.Beyond code bound) (ran : w.step action = .ok after) :
    after.Beyond code bound := by
  have moved := step_queue ran
  have coming := beyond.coming
  refine ⟨by rw [moved.nextGlobalSeq]; omega, fun seq waits => ?_⟩
  rcases moved.pending waits with old | fresh
  · exact beyond.pending seq old
  · omega

theorem Beyond.receipts {code : LaneCode} {bound : Nat} {actions : List (Action Obj)} (beyond : w.Beyond code bound) :
    ∀ receipt ∈ w.receipts actions, laneCodeOf receipt.request.tranche = code → bound ≤ receipt.seq := by
  induction actions generalizing w with
  | nil =>
    intro receipt none
    cases none
  | cons action rest ih =>
    intro receipt member lane
    unfold World.receipts at member
    split at member
    case h_2 => cases member
    case h_1 next ran =>
      rcases List.mem_append.mp member with now | later
      · obtain ⟨index, f, p, fresh, rfl, _, fulfills⟩ := step_receipt ran (Option.mem_toList.mp now)
        rcases fulfillNext_ok fulfills with ⟨_, none⟩ | ⟨other, same, paid⟩
        · cases none
        · cases same
          exact beyond.pending _ ⟨_, paid.found, lane⟩
      · exact ih (beyond.step ran) receipt later lane

theorem step_beyond {receipt : Receipt} (lined : w.vault.queue.Lined) (ran : w.step action = .ok after)
    (paid : w.receiptOf action = some receipt) : after.Beyond (laneCodeOf receipt.request.tranche) (receipt.seq + 1) := by
  obtain ⟨index, f, p, fresh, rfl, _, fulfills⟩ := step_receipt ran paid
  obtain ⟨⟨code, request, oldest, found, _⟩, _⟩ : IsLeast _ receipt.seq := fulfillNext_serves lined fulfills
  rcases fulfillNext_ok fulfills with ⟨_, none⟩ | ⟨other, same, pays⟩
  · cases none
  cases same
  obtain rfl : request = receipt.request := Option.some.inj (found.symm.trans pays.found)
  have queue := pays.queue
  have own : code = laneCodeOf receipt.request.tranche := by
    obtain ⟨known, located, lane⟩ := oldest.1
    cases located.symm.trans found
    exact lane.symm
  constructor
  · rw [queue]
    exact w.vault.queue.below _ (Table.mem_of_get? pays.found)
  · rintro seq ⟨waiting, located, lane⟩
    rw [queue] at located
    obtain ⟨differ, before⟩ := Table.get?_of_remove w.vault.queue.distinct located
    have least : receipt.seq ≤ seq := oldest.2 ⟨waiting, before, lane.trans own.symm⟩
    omega

theorem receipts_ordered {actions : List (Action Obj)} (lined : w.vault.queue.Lined) :
    (w.receipts actions).Pairwise fun early late =>
      laneCodeOf early.request.tranche = laneCodeOf late.request.tranche → early.seq < late.seq := by
  induction actions generalizing w with
  | nil => exact .nil
  | cons action rest ih =>
    unfold World.receipts
    split
    case h_2 => exact .nil
    case h_1 next ran =>
      have later := ih (w := next) (step_lined lined ran)
      cases paid : w.receiptOf action with
      | none => exact later
      | some receipt =>
        refine List.Pairwise.cons (fun late member same => ?_) later
        exact (step_beyond lined ran paid).receipts late member same.symm

theorem exec_numbered {final : World Obj} {actions : List (Action Obj)} (ran : exec step w actions = .ok final) :
    final.vault.queue.nextGlobalSeq = w.vault.queue.nextGlobalSeq + actions.countP Action.requests := by
  induction actions generalizing w with
  | nil =>
    cases ran
    rfl
  | cons action rest ih =>
    obtain ⟨next, moved, tail⟩ := (exec_cons_ok step).mp ran
    rw [ih tail, (step_queue moved).nextGlobalSeq, List.countP_cons]
    omega

def payments (g : Genesis) (actions : List (Action Obj)) : List Receipt :=
  match (createVault g : Result Error (World Obj)) with
  | .ok created => created.receipts actions
  | .error _ => []

/-- The laws of the lanes for a run from creation to `w`. -/
structure LanesFifo (g : Genesis) (actions : List (Action Obj)) (w : World Obj) : Prop where
  /-- Pending requests are the lane entries between head and tail. -/
  paired : Set.BijOn (fun entry : Nat × WithdrawRequest => (laneCodeOf entry.2.tranche, entry.2.laneIdx, entry.1))
    { entry | w.vault.queue.requests.get? entry.1 = some entry.2 }
    { slot | (w.vault.queue.lanes slot.1).head ≤ slot.2.1 ∧ slot.2.1 < (w.vault.queue.lanes slot.1).tail ∧
      (w.vault.queue.lanes slot.1).entries.get? slot.2.1 = some slot.2.2 }
  /-- Requests are numbered in the order they are made. -/
  numbered : w.vault.queue.nextGlobalSeq = actions.countP Action.requests ∧
    ∀ sender index payoutAsset after, w.step (.call (.requestWithdraw sender index payoutAsset)) = .ok after →
      ∃ request, after.vault.queue = w.vault.queue.push request
  /-- Within a lane, requests are paid in that order. -/
  ordered : (payments g actions).Pairwise fun early late =>
    laneCodeOf early.request.tranche = laneCodeOf late.request.tranche → early.seq < late.seq
  /-- No step moves the head of a lane beyond a pending request. -/
  unskipped : ∀ action after, w.step action = .ok after → ∀ seq request, w.vault.queue.requests.get? seq = some request →
    (after.vault.queue.lanes (laneCodeOf request.tranche)).head ≤ request.laneIdx
  /-- A batch pays the lowest number among the payable heads. -/
  lowest : ∀ (index : Nat) f p fresh next outcome, w.fulfillments[index]? = some f →
    w.vault.fulfillNext w.env.cfg f p w.env.now fresh = .ok (next, outcome) →
    w.vault.Serves w.env.cfg f p w.env.now outcome
  /-- While a batch blocks the junior lane, it pays the senior head whenever that is payable. -/
  senior : ∀ f ∈ w.fulfillments, f.juniorBlocked = true → ∀ p fresh seq request,
    IsLeast (w.vault.queue.pending .senior) seq → w.vault.queue.requests.get? seq = some request →
    w.vault.headPayable f false p w.env.now request = .ok true →
    w.vault.fulfillNext w.env.cfg f p w.env.now fresh = w.vault.advanceLanes.fulfillRequest w.env.cfg f p seq fresh

/-- In every run, table and lanes correspond and each lane is served first come, first served. -/
theorem lanes_are_fifo {g : Genesis} {actions : List (Action Obj)} (played : play g actions = .ok w) :
    LanesFifo g actions w := by
  obtain ⟨created, creates, ran⟩ := bind_ok.mp played
  have holds := Reachable.sharesHold ⟨g, actions, played⟩
  obtain ⟨_, _, queue, _, _, _, _, _, _, _, batches⟩ := createVault_ok creates
  have fresh : created.vault.queue.Lined := queue ▸ .empty
  have lined := exec_invariant step (fun state => state.vault.queue.Lined) (fun _ _ _ => step_lined) fresh ran
  have blocked := exec_invariant step BlockedTranched (fun _ _ _ => step_blockedTranched)
    (by simp [BlockedTranched, batches]) ran
  constructor
  case paired => exact lined.paired
  case numbered =>
    refine ⟨?_, fun sender index payoutAsset after moved => ?_⟩
    · rw [exec_numbered ran, queue]
      exact Nat.zero_add _
    · have pushed := step_queue moved
      generalize after.vault.queue = next at pushed
      cases pushed with
      | pushed request => exact ⟨request, rfl⟩
  case ordered =>
    rw [payments, creates]
    exact receipts_ordered fresh
  case unskipped =>
    exact fun action after moved seq request found => (step_queue moved).unskipped lined (Table.mem_of_get? found)
  case lowest => exact fun index f p fresh next outcome _ fulfills => fulfillNext_serves lined fulfills
  case senior =>
    exact fun f member stops p fresh seq request oldest found pays =>
      fulfillNext_senior lined holds.kept (blocked f member stops) stops w.env.cfg fresh oldest found pays

end World

/-- After a loss the junior lane is blocked, and a younger senior request is paid. -/
theorem World.lanes_are_fifo_blocked :
    ∃ w : World Unit, World.play (Sample.genesis (.seniorJunior 500 2000 1000 .preferredOnly))
        (Sample.deposit 1000000 .junior 10 ++ Sample.deposit 500000 .senior 11 ++
          [.call (.requestWithdraw 7 0 "USDC"), .call (.requestWithdraw 7 0 "USDC"),
            .call (.session (.curator 2) "Adapter" [.take "USDC" 970000]), .beginAppraisal "USDC",
            .beginFulfillment 0 []]) = .ok w ∧
      w.vault.queue.nextGlobalSeq = 2 ∧ ∃ f next receipt, w.fulfillments[0]? = some f ∧ f.juniorBlocked = true ∧
        w.vault.fulfillNext w.env.cfg f "USDC" w.env.now 12 = .ok (next, some receipt) ∧
        IsLeast (w.vault.payableHeads f "USDC" w.env.now) receipt.seq := by
  refine exists_ok (fun w => w.fulfillments[0]?.any fun f => f.juniorBlocked &&
    (w.vault.fulfillNext w.env.cfg f "USDC" w.env.now 12).toOption.any fun paid => paid.2.isSome) (by decide +kernel) ?_
  intro w played passed
  have laws := World.lanes_are_fifo played
  obtain ⟨f, opened, passed⟩ := (Option.any_eq_true _ _).mp passed
  obtain ⟨blocked, pays⟩ := Bool.and_eq_true_iff.mp passed
  cases ran : w.vault.fulfillNext w.env.cfg f "USDC" w.env.now 12 with
  | error why =>
    rw [ran] at pays
    cases pays
  | ok result =>
    rw [ran] at pays
    obtain ⟨receipt, paid⟩ := Option.isSome_iff_exists.mp pays
    obtain ⟨next, outcome⟩ := result
    obtain rfl : outcome = some receipt := paid
    exact ⟨laws.numbered.1, f, next, receipt, opened, blocked, ran, laws.lowest 0 f _ _ _ _ opened ran⟩

end SuiOptions.Vault
