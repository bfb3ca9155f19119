import SuiOptions.Vault.Waterfall
import SuiOptions.Vault.World

/-! What one tranche does to the value of the other.

A deposit and a withdrawal of one tranche should leave the other one alone. The
senior's participation in the residual reads the whole value, so where there is
one, both tranches share what either of them brings or takes.
-/

set_option autoImplicit false

namespace SuiOptions.Vault

open Execution Move

/-- The bounds that `senior_junior_structure` puts on the upside. -/
def SeniorUpside.Valid : SeniorUpside → Prop
  | .preferredOnly => True
  | .cappedParticipating residualBps capBps => residualBps ≤ bpsDenom ∧ bpsDenom ≤ capBps
  | .uncappedParticipating residualBps => residualBps ≤ bpsDenom

theorem SeniorUpside.Valid.bounded {upside : SeniorUpside} (valid : upside.Valid) : upside.Bounded := by
  cases upside with
  | preferredOnly => trivial
  | cappedParticipating residualBps capBps => exact valid.1
  | uncappedParticipating residualBps => exact valid

/-- The senior has no part in the residual. -/
def SeniorUpside.Preferred : SeniorUpside → Prop
  | .preferredOnly => True
  | .cappedParticipating residualBps _ => residualBps = 0
  | .uncappedParticipating residualBps => residualBps = 0

theorem assertStructure_valid {cfg : VaultProtocolConfig} {hurdle target maintenance : Nat} {upside : SeniorUpside}
    (ran : World.assertStructure cfg (.seniorJunior hurdle target maintenance upside) = .ok ()) : upside.Valid := by
  obtain ⟨-, ran⟩ := check_bind_ok.mp ran
  obtain ⟨-, ran⟩ := check_bind_ok.mp ran
  obtain ⟨-, ran⟩ := check_bind_ok.mp ran
  cases upside with
  | preferredOnly => trivial
  | cappedParticipating residualBps capBps =>
    obtain ⟨part, ran⟩ := check_bind_ok.mp ran
    exact ⟨part, check_ok.mp ran⟩
  | uncappedParticipating residualBps =>
    have part : residualBps ≤ bpsDenom := check_ok.mp ran
    exact part

namespace TrancheBook

variable {upside : SeniorUpside} {nav claim basis : Nat}

/-! ### Deposits -/

def navs (cs : CapitalStructure) (book : TrancheBook) (nav : Nat) : Result Error (Nat × Nat) :=
  waterfall cs nav book.seniorClaim book.seniorPrincipalBasis

/-- A deposit raises its own tranche by its value and leaves the other one. -/
def DepositNeutral (cs : CapitalStructure) (book : TrancheBook) (nav : Nat) (tranche : Tranche) (value : Nat)
    (next : TrancheBook) : Prop :=
  ∃ senior junior, navs cs book nav = .ok (senior, junior) ∧
    navs cs next (nav + value) = .ok (if tranche = .senior then (senior + value, junior) else (senior, junior + value))

def headroom (capBps basis preferred : Nat) : Nat := basis * capBps / bpsDenom - preferred

/-- When a senior deposit keeps the senior's part of the residual: always, unless the cap binds and the deposit
lifts it. -/
def SeniorKeeps (upside : SeniorUpside) (nav claim basis value : Nat) : Prop :=
  match upside with
  | .cappedParticipating residualBps capBps =>
    (nav - min nav claim) * residualBps / bpsDenom ≤ headroom capBps basis (min nav claim) ∨
      headroom capBps (basis + value) (min nav claim + value) = headroom capBps basis (min nav claim)
  | _ => True

/-- When a junior deposit keeps it: the claim is covered, and either no participation is due on the deposit or the
cap is reached. -/
def JuniorKeeps (upside : SeniorUpside) (nav claim basis value : Nat) : Prop :=
  value = 0 ∨ claim ≤ nav ∧
    match upside with
    | .preferredOnly => True
    | .cappedParticipating residualBps capBps =>
      (nav - claim + value) * residualBps / bpsDenom = (nav - claim) * residualBps / bpsDenom ∨
        headroom capBps basis claim ≤ (nav - claim) * residualBps / bpsDenom
    | .uncappedParticipating residualBps =>
      (nav - claim + value) * residualBps / bpsDenom = (nav - claim) * residualBps / bpsDenom

def DepositKeeps (upside : SeniorUpside) (book : TrancheBook) (nav : Nat) (tranche : Tranche) (value : Nat) : Prop :=
  if tranche = .senior then SeniorKeeps upside nav book.seniorClaim book.seniorPrincipalBasis value
  else JuniorKeeps upside nav book.seniorClaim book.seniorPrincipalBasis value

/-- A senior deposit adds at least its own value to the cap. -/
theorem headroom_grows {capBps : Nat} (valid : bpsDenom ≤ capBps) (basis preferred value : Nat) :
    headroom capBps basis preferred ≤ headroom capBps (basis + value) (preferred + value) := by
  have more : basis * capBps / bpsDenom + value ≤ (basis + value) * capBps / bpsDenom :=
    calc basis * capBps / bpsDenom + value = (basis * capBps + bpsDenom * value) / bpsDenom :=
          (Nat.add_mul_div_left _ _ (by decide)).symm
      _ ≤ (basis + value) * capBps / bpsDenom := by
          refine Nat.div_le_div_right ?_
          rw [Nat.add_mul, Nat.mul_comm bpsDenom value]
          exact Nat.add_le_add_left (Nat.mul_le_mul_left value valid) _
  unfold headroom
  omega

theorem seniorNav_senior (valid : upside.Valid) (value : Nat) :
    seniorNav upside (nav + value) (claim + value) (basis + value) = seniorNav upside nav claim basis + value ↔
      SeniorKeeps upside nav claim basis value := by
  have preferred : min (nav + value) (claim + value) = min nav claim + value := Nat.add_min_add_right ..
  have residual : nav + value - (min nav claim + value) = nav - min nav claim := Nat.add_sub_add_right ..
  unfold seniorNav
  rw [preferred, residual]
  cases upside with
  | preferredOnly => simp [participation, SeniorKeeps]
  | uncappedParticipating residualBps =>
    simp only [participation, SeniorKeeps, iff_true]
    omega
  | cappedParticipating residualBps capBps =>
    have grows := headroom_grows valid.2 basis (min nav claim) value
    simp only [participation, SeniorKeeps]
    unfold headroom at *
    omega

theorem seniorNav_junior (value : Nat) :
    seniorNav upside (nav + value) claim basis = seniorNav upside nav claim basis ↔
      JuniorKeeps upside nav claim basis value := by
  by_cases none : value = 0
  · subst none
    simp [JuniorKeeps]
  · by_cases covered : claim ≤ nav
    · have more : nav + value - claim = nav - claim + value := by omega
      rw [seniorNav_covered covered, seniorNav_covered (covered.trans (Nat.le_add_right nav value)), more, Nat.add_right_inj]
      cases upside with
      | preferredOnly => simp [participation, JuniorKeeps, covered]
      | uncappedParticipating residualBps => simp [participation, JuniorKeeps, none, covered]
      | cappedParticipating residualBps capBps =>
        have rises : (nav - claim) * residualBps / bpsDenom ≤ (nav - claim + value) * residualBps / bpsDenom :=
          Nat.div_le_div_right (Nat.mul_le_mul_right _ (Nat.le_add_right _ _))
        simp only [participation, JuniorKeeps, none, covered, true_and, false_or]
        unfold headroom
        omega
    · have before : seniorNav upside nav claim basis = nav := seniorNav_short (by omega)
      have after : min (nav + value) claim ≤ seniorNav upside (nav + value) claim basis := Nat.le_add_right _ _
      constructor
      · intro same
        omega
      · rintro (zero | ⟨within, -⟩)
        · exact absurd zero none
        · exact absurd within covered

variable {book next : TrancheBook} {tranche : Tranche} {value shares : Nat}

theorem onDeposit_claim (ran : book.onDeposit tranche value shares = .ok next) :
    next.seniorClaim = book.seniorClaim + (if tranche = .senior then value else 0) ∧
      next.seniorPrincipalBasis = book.seniorPrincipalBasis + (if tranche = .senior then value else 0) := by
  cases tranche
  case senior =>
    simp only [onDeposit, addU128, bind_ok, fit_ok, pure_ok] at ran
    obtain ⟨_, ⟨_, rfl⟩, _, ⟨_, rfl⟩, _, ⟨_, rfl⟩, rfl⟩ := ran
    exact ⟨rfl, rfl⟩
  all_goals
    simp only [onDeposit, addU128, bind_ok, fit_ok, pure_ok] at ran
    obtain ⟨_, ⟨_, rfl⟩, rfl⟩ := ran
    exact ⟨rfl, rfl⟩

/-- A deposit is neutral exactly when it leaves the senior's part of the residual as it was. -/
theorem depositNeutral_iff {hurdle target maintenance : Nat} (valid : upside.Valid) (small : nav + value < u128Bound)
    (ran : book.onDeposit tranche value shares = .ok next) :
    DepositNeutral (.seniorJunior hurdle target maintenance upside) book nav tranche value next ↔
      DepositKeeps upside book nav tranche value := by
  have here : nav < u128Bound := by omega
  have within := seniorNav_le valid.bounded nav book.seniorClaim book.seniorPrincipalBasis
  obtain ⟨claims, bases⟩ := onDeposit_claim ran
  unfold DepositNeutral DepositKeeps navs
  rw [waterfall_eq valid.bounded here, waterfall_eq valid.bounded small]
  by_cases deep : tranche = .senior
  · simp only [deep, if_true] at claims bases ⊢
    rw [← seniorNav_senior valid value, claims, bases]
    constructor
    · rintro ⟨senior, junior, before, split⟩
      cases before
      exact congrArg Prod.fst (Except.ok.inj split)
    · intro same
      refine ⟨_, _, rfl, ?_⟩
      rw [same, Nat.add_sub_add_right]
  · simp only [deep, if_false, Nat.add_zero] at claims bases ⊢
    rw [← seniorNav_junior value, claims, bases]
    constructor
    · rintro ⟨senior, junior, before, split⟩
      cases before
      exact congrArg Prod.fst (Except.ok.inj split)
    · intro same
      refine ⟨_, _, rfl, ?_⟩
      rw [same, Nat.sub_add_comm within]

end TrancheBook

/-! ### Batches -/

structure Marked where
  book : TrancheBook
  nav : Nat
  deriving DecidableEq, Repr

structure Withdrawal where
  tranche : Tranche
  shares : Nat
  basis : Nat
  deriving DecidableEq, Repr

def Withdrawal.drawn (w : Withdrawal) (code : LaneCode) : Nat := if laneCodeOf w.tranche = code then w.shares else 0

def drawnBy (requests : List Withdrawal) (code : LaneCode) : Nat := (requests.map (·.drawn code)).sum

/-- The terms of a batch: what `begin_fulfillment` locks of the synced book. -/
structure Locked (cs : CapitalStructure) (m : Marked) (f : Fulfillment) : Prop where
  navs : m.book.navs cs m.nav = .ok (f.seniorNav, f.juniorNav)
  seniorSupply : f.seniorSupply = m.book.seniorShares
  juniorSupply : f.juniorSupply = m.book.juniorShares
  lockedClaim : f.lockedClaim = m.book.seniorClaim

/-- `mintFee` on the book alone. -/
def Fulfillment.mintAt (f : Fulfillment) (tranche : Tranche) (curatorNet : Nat) (book : TrancheBook) :
    Result Error TrancheBook :=
  if curatorNet = 0 then pure book
  else do
    let minted ← sharesForValue curatorNet (f.navOf tranche) (f.supplyOf tranche) shareOffset
    if minted = 0 then pure book else book.onFeeMint tranche minted curatorNet

/-- `fulfill_next` on the book and the value alone: a live request, paid in the accounting asset. -/
def Fulfillment.fulfillAt (curatorFeeBps protocolFeeBps : Nat) (f : Fulfillment) (m : Marked) (w : Withdrawal) :
    Result Error Marked := do
  let value ← claimValue w.shares (f.navOf w.tranche) (f.supplyOf w.tranche) shareOffset
  let fees ← crystallize value w.basis curatorFeeBps protocolFeeBps
  let payout ← sub value fees.grossFee
  let burned ← m.book.onFulfill w.tranche w.shares f.lockedClaim f.seniorSupply
  let book ← f.mintAt w.tranche fees.curatorNet burned
  let nav ← sub m.nav (payout + fees.protocolCut)
  pure { book, nav }

namespace Fulfillment

variable {f : Fulfillment} {m next : Marked} {w : Withdrawal} {curatorFeeBps protocolFeeBps : Nat}

def claimCut (f : Fulfillment) (w : Withdrawal) : Nat :=
  if w.tranche = .senior then f.lockedClaim * w.shares / f.seniorSupply else 0

theorem onFulfill_claim {book burned : TrancheBook}
    (ran : book.onFulfill w.tranche w.shares f.lockedClaim f.seniorSupply = .ok burned) :
    burned.seniorClaim = book.seniorClaim - f.claimCut w := by
  unfold claimCut
  cases deep : w.tranche
  case senior =>
    rw [deep] at ran
    obtain ⟨left, -, ran⟩ := bind_ok.mp ran
    split at ran
    · rename_i none
      cases ran
      simp [none]
    · obtain ⟨reduction, cut, ran⟩ := bind_ok.mp ran
      obtain ⟨principalCut, -, produced⟩ := bind_ok.mp ran
      cases produced
      obtain ⟨-, rfl⟩ := fit_ok.mp cut
      simp
  all_goals
    rw [deep] at ran
    obtain ⟨left, -, produced⟩ := bind_ok.mp ran
    cases produced
    simp

theorem mintAt_claim {tranche : Tranche} {curatorNet : Nat} {burned book : TrancheBook}
    (ran : f.mintAt tranche curatorNet burned = .ok book) :
    ∃ kept, kept ≤ curatorNet ∧ book.seniorClaim = burned.seniorClaim + (if tranche = .senior then kept else 0) := by
  unfold mintAt at ran
  split at ran
  · cases ran
    exact ⟨0, Nat.zero_le _, by simp⟩
  · obtain ⟨minted, -, ran⟩ := bind_ok.mp ran
    split at ran
    · cases ran
      exact ⟨0, Nat.zero_le _, by simp⟩
    · exact ⟨curatorNet, Nat.le_refl _, (TrancheBook.onDeposit_claim ran).1⟩

/-- One fulfilment: the value that leaves, less the fee that stays, and the claim it extinguishes. -/
theorem fulfillAt_ok (ran : f.fulfillAt curatorFeeBps protocolFeeBps m w = .ok next) :
    ∃ value net kept, value * (f.supplyOf w.tranche + shareOffset) ≤ w.shares * (f.navOf w.tranche + 1) ∧
      net ≤ value ∧ kept ≤ net ∧ value ≤ m.nav + net ∧ next.nav = m.nav + net - value ∧
      next.book.seniorClaim = m.book.seniorClaim - f.claimCut w + (if w.tranche = .senior then kept else 0) := by
  unfold fulfillAt at ran
  obtain ⟨value, valued, ran⟩ := bind_ok.mp ran
  obtain ⟨fees, charged, ran⟩ := bind_ok.mp ran
  obtain ⟨payout, paid, ran⟩ := bind_ok.mp ran
  obtain ⟨burned, burns, ran⟩ := bind_ok.mp ran
  obtain ⟨book, mints, ran⟩ := bind_ok.mp ran
  obtain ⟨nav, left, produced⟩ := bind_ok.mp ran
  cases produced
  obtain ⟨gross, rfl⟩ := sub_ok.mp paid
  obtain ⟨enough, rfl⟩ := sub_ok.mp left
  have whole := (crystallize_ok charged).2
  obtain ⟨kept, within, credited⟩ := mintAt_claim mints
  refine ⟨value, fees.curatorNet, kept, (claimValue_ok valued).1, by omega, within, by omega, ?_, ?_⟩
  · simp only
    omega
  · simp only
    rw [credited, onFulfill_claim burns]

/-! ### Without participation -/

/-- The value of burnt senior shares exceeds the claim they extinguish by a unit at most. -/
theorem value_le_cut {value shares supply nav claim : Nat} (valued : value * (supply + shareOffset) ≤ shares * (nav + 1))
    (below : nav ≤ claim) (held : shares ≤ supply) : value ≤ claim * shares / supply + 1 := by
  by_contra more
  rcases Nat.eq_zero_or_pos supply with rfl | some
  · have none : shares = 0 := by omega
    have offset : shareOffset = 1000000 := rfl
    subst none
    rw [offset, Nat.zero_mul] at valued
    omega
  · have cut := Nat.lt_mul_div_succ (claim * shares) some
    have large : (claim * shares / supply + 2) * (supply + shareOffset) ≤ value * (supply + shareOffset) :=
      Nat.mul_le_mul_right _ (by omega)
    have small : shares * (nav + 1) ≤ shares * claim + supply := by
      rw [Nat.mul_add, Nat.mul_one]
      exact Nat.add_le_add (Nat.mul_le_mul_left shares below) held
    have offset : 0 ≤ (claim * shares / supply + 2) * shareOffset := Nat.zero_le _
    nlinarith

/-- Junior shares are worth less than one unit more than the junior tranche. -/
theorem value_le_nav {value shares supply nav : Nat} (valued : value * (supply + shareOffset) ≤ shares * (nav + 1))
    (held : shares ≤ supply) : value ≤ nav := by
  by_contra more
  have large : (nav + 1) * (supply + shareOffset) ≤ value * (supply + shareOffset) := Nat.mul_le_mul_right _ (by omega)
  have small : shares * (nav + 1) ≤ supply * (nav + 1) := Nat.mul_le_mul_right _ held
  have offset : 0 < (nav + 1) * shareOffset := Nat.mul_pos (Nat.succ_pos _) (by decide)
  nlinarith

theorem drawnBy_snoc (requests : List Withdrawal) (w : Withdrawal) (code : LaneCode) :
    drawnBy (requests ++ [w]) code = drawnBy requests code + w.drawn code := by
  simp [drawnBy]

/-- What a batch has left after some requests: a claim for the senior shares still to come, and a residual for
the junior ones, less a unit a request. -/
structure Batch (f : Fulfillment) (requests : List Withdrawal) (m : Marked) : Prop where
  claim : f.lockedClaim * f.seniorSupply ≤
    m.book.seniorClaim * f.seniorSupply + f.lockedClaim * drawnBy requests .senior
  junior : f.juniorNav = 0 ∨ ∃ paid,
    paid * (f.juniorSupply + shareOffset) ≤ drawnBy requests .junior * (f.juniorNav + 1) ∧
      f.juniorNav + m.book.seniorClaim ≤ m.nav + requests.length + paid

/-- The senior shares still to come are worth no more than the claim. -/
theorem Batch.cut_le {requests : List Withdrawal} (batch : Batch f requests m) (deep : w.tranche = .senior)
    (within : drawnBy (requests ++ [w]) .senior ≤ f.seniorSupply) : f.claimCut w ≤ m.book.seniorClaim := by
  have drawn : w.drawn .senior = w.shares := by simp [Withdrawal.drawn, deep, laneCodeOf]
  rw [drawnBy_snoc, drawn] at within
  rw [claimCut, if_pos deep]
  rcases Nat.eq_zero_or_pos f.seniorSupply with none | some
  · simp [none]
  · refine (Nat.div_le_iff_le_mul_add_pred some).mpr ?_
    have claim := batch.claim
    have left := Nat.mul_le_mul_left f.lockedClaim within
    rw [Nat.mul_add] at left
    rw [Nat.mul_comm f.seniorSupply]
    omega

theorem Batch.senior_value {requests : List Withdrawal} {value : Nat} (preferred : f.seniorNav ≤ f.lockedClaim)
    (deep : w.tranche = .senior) (within : drawnBy (requests ++ [w]) .senior ≤ f.seniorSupply)
    (valued : value * (f.supplyOf w.tranche + shareOffset) ≤ w.shares * (f.navOf w.tranche + 1)) :
    value ≤ f.claimCut w + 1 := by
  have drawn : w.drawn .senior = w.shares := by simp [Withdrawal.drawn, deep, laneCodeOf]
  rw [drawnBy_snoc, drawn] at within
  simp only [supplyOf, navOf, deep, if_true] at valued
  rw [claimCut, if_pos deep]
  exact value_le_cut valued preferred (by omega)

theorem Batch.step {requests : List Withdrawal} (batch : Batch f requests m) (preferred : f.seniorNav ≤ f.lockedClaim)
    (seniors : drawnBy (requests ++ [w]) .senior ≤ f.seniorSupply)
    (ran : f.fulfillAt curatorFeeBps protocolFeeBps m w = .ok next) : Batch f (requests ++ [w]) next := by
  obtain ⟨value, net, kept, valued, netted, credited, enough, navs, claims⟩ := fulfillAt_ok ran
  by_cases deep : w.tranche = .senior
  · have cut := batch.cut_le deep seniors
    have value_le := Batch.senior_value preferred deep seniors valued
    have seniorDrawn : w.drawn .senior = w.shares := by simp [Withdrawal.drawn, deep, laneCodeOf]
    have juniorDrawn : w.drawn .junior = 0 := by simp [Withdrawal.drawn, deep, laneCodeOf]
    rw [if_pos deep] at claims
    constructor
    · have floor : f.claimCut w * f.seniorSupply ≤ f.lockedClaim * w.shares := by
        rw [claimCut, if_pos deep]
        exact Nat.div_mul_le_self _ _
      have claim := batch.claim
      obtain ⟨rest, split⟩ := Nat.exists_eq_add_of_le' cut
      rw [split, Nat.add_sub_cancel] at claims
      rw [split, Nat.add_mul] at claim
      rw [claims, drawnBy_snoc, seniorDrawn, Nat.add_mul, Nat.mul_add]
      omega
    · rcases batch.junior with none | ⟨paid, bound, slack⟩
      · exact Or.inl none
      · refine Or.inr ⟨paid, ?_, ?_⟩
        · rw [drawnBy_snoc, juniorDrawn]
          exact bound
        · rw [List.length_append, List.length_singleton]
          omega
  · have seniorDrawn : w.drawn .senior = 0 := by simp [Withdrawal.drawn, deep, laneCodeOf]
    have juniorDrawn : w.drawn .junior = w.shares := by simp [Withdrawal.drawn, deep, laneCodeOf]
    simp only [supplyOf, navOf, deep, if_false] at valued
    rw [if_neg deep, claimCut, if_neg deep] at claims
    simp only [Nat.sub_zero, Nat.add_zero] at claims
    constructor
    · rw [claims, drawnBy_snoc, seniorDrawn]
      exact batch.claim
    · rcases batch.junior with none | ⟨paid, bound, slack⟩
      · exact Or.inl none
      · refine Or.inr ⟨paid + value, ?_, ?_⟩
        · rw [drawnBy_snoc, juniorDrawn, Nat.add_mul, Nat.add_mul]
          exact Nat.add_le_add bound valued
        · rw [List.length_append, List.length_singleton, claims]
          omega

/-- A request of a batch without participation costs the other tranche a unit for each request so far. -/
theorem Batch.spares {requests : List Withdrawal} (batch : Batch f requests m) (preferred : f.seniorNav ≤ f.lockedClaim)
    (seniors : drawnBy (requests ++ [w]) .senior ≤ f.seniorSupply)
    (juniors : drawnBy (requests ++ [w]) .junior ≤ f.juniorSupply)
    (ran : f.fulfillAt curatorFeeBps protocolFeeBps m w = .ok next) :
    (w.tranche = .senior → m.nav - min m.nav m.book.seniorClaim ≤
      next.nav - min next.nav next.book.seniorClaim + (requests.length + 1)) ∧
    (w.tranche ≠ .senior → min m.nav m.book.seniorClaim ≤
      min next.nav next.book.seniorClaim + (requests.length + 1)) := by
  obtain ⟨value, net, kept, valued, netted, credited, enough, navs, claims⟩ := fulfillAt_ok ran
  constructor
  · intro deep
    have cut := batch.cut_le deep seniors
    have value_le := Batch.senior_value preferred deep seniors valued
    rw [if_pos deep] at claims
    omega
  · intro shallow
    have juniorDrawn : w.drawn .junior = w.shares := by simp [Withdrawal.drawn, shallow, laneCodeOf]
    rw [drawnBy_snoc, juniorDrawn] at juniors
    simp only [supplyOf, navOf, shallow, if_false] at valued
    rw [if_neg shallow, claimCut, if_neg shallow] at claims
    rcases batch.junior with none | ⟨paid, bound, slack⟩
    · have nothing : value = 0 := by
        rw [none] at valued
        have most := value_le_nav valued (by omega)
        omega
      omega
    · have total : (paid + value) * (f.juniorSupply + shareOffset) ≤
          (drawnBy requests .junior + w.shares) * (f.juniorNav + 1) := by
        rw [Nat.add_mul, Nat.add_mul]
        exact Nat.add_le_add bound valued
      have most := value_le_nav total juniors
      omega

theorem Batch.run {done requests : List Withdrawal} {final : Marked} (batch : Batch f done m)
    (preferred : f.seniorNav ≤ f.lockedClaim) (seniors : drawnBy (done ++ requests) .senior ≤ f.seniorSupply)
    (ran : exec (f.fulfillAt curatorFeeBps protocolFeeBps) m requests = .ok final) :
    Batch f (done ++ requests) final ∧ final.nav ≤ m.nav := by
  induction requests generalizing done m with
  | nil =>
    cases ran
    rw [List.append_nil]
    exact ⟨batch, Nat.le_refl _⟩
  | cons w rest ih =>
    rw [exec_cons_ok] at ran
    obtain ⟨next, paid, ran⟩ := ran
    have shift : done ++ w :: rest = done ++ [w] ++ rest := by simp
    rw [shift] at seniors ⊢
    have early : drawnBy (done ++ [w]) .senior ≤ f.seniorSupply := by
      simp only [drawnBy, List.map_append, List.sum_append] at seniors ⊢
      omega
    obtain ⟨held, less⟩ := ih (batch.step preferred early paid) seniors ran
    obtain ⟨value, net, -, -, netted, -, -, navs, -⟩ := fulfillAt_ok paid
    exact ⟨held, by omega⟩

end Fulfillment

theorem TrancheBook.seniorNav_preferred {upside : SeniorUpside} (preferred : upside.Preferred) (nav claim basis : Nat) :
    seniorNav upside nav claim basis = min nav claim := by
  cases upside with
  | preferredOnly => rfl
  | cappedParticipating residualBps capBps =>
    have none : residualBps = 0 := preferred
    simp [seniorNav, participation, none]
  | uncappedParticipating residualBps =>
    have none : residualBps = 0 := preferred
    simp [seniorNav, participation, none]

theorem Locked.batch {hurdle target maintenance : Nat} {upside : SeniorUpside} {m : Marked} {f : Fulfillment}
    (preferred : upside.Preferred) (valid : upside.Valid) (small : m.nav < u128Bound)
    (locked : Locked (.seniorJunior hurdle target maintenance upside) m f) :
    f.seniorNav ≤ f.lockedClaim ∧ Fulfillment.Batch f [] m := by
  have split := locked.navs
  rw [TrancheBook.navs, TrancheBook.waterfall_eq valid.bounded small, TrancheBook.seniorNav_preferred preferred] at split
  obtain ⟨senior, junior⟩ := Prod.mk.inj (Except.ok.inj split)
  refine ⟨?_, ?_, ?_⟩
  · rw [← senior, locked.lockedClaim]
    exact Nat.min_le_right _ _
  · rw [locked.lockedClaim]
    exact Nat.le_add_right _ _
  · by_cases covered : m.book.seniorClaim ≤ m.nav
    · refine Or.inr ⟨0, by simp, ?_⟩
      simp only [List.length_nil]
      omega
    · exact Or.inl (by omega)

/-- A fulfilment lowers the other tranche by no more than a unit for each request of its batch so far. -/
def FulfillNeutral (cs : CapitalStructure) : Prop :=
  ∀ curatorFeeBps protocolFeeBps m f requests w before after, Locked cs m f → m.nav < u128Bound →
    drawnBy (requests ++ [w]) .senior ≤ f.seniorSupply → drawnBy (requests ++ [w]) .junior ≤ f.juniorSupply →
    exec (f.fulfillAt curatorFeeBps protocolFeeBps) m requests = .ok before →
    f.fulfillAt curatorFeeBps protocolFeeBps before w = .ok after →
    ∃ senior junior seniorAfter juniorAfter, before.book.navs cs before.nav = .ok (senior, junior) ∧
      after.book.navs cs after.nav = .ok (seniorAfter, juniorAfter) ∧
      (w.tranche = .senior → junior ≤ juniorAfter + (requests.length + 1)) ∧
      (w.tranche ≠ .senior → senior ≤ seniorAfter + (requests.length + 1))

/-- Where the claim is covered, neither a deposit nor a fulfilment of one tranche touches the other. -/
def TrancheNeutral (cs : CapitalStructure) : Prop :=
  (∀ book nav tranche value shares next, book.seniorClaim ≤ nav → nav + value < u128Bound →
    TrancheBook.onDeposit book tranche value shares = .ok next → book.DepositNeutral cs nav tranche value next) ∧
  FulfillNeutral cs

section Structure

variable {hurdle target maintenance : Nat} {upside : SeniorUpside}

theorem fulfillNeutral_of_preferred (valid : upside.Valid) (preferred : upside.Preferred) :
    FulfillNeutral (.seniorJunior hurdle target maintenance upside) := by
  intro curatorFeeBps protocolFeeBps m f requests w before after locked small seniors juniors ran paid
  obtain ⟨below, fresh⟩ := locked.batch preferred valid small
  have early : drawnBy ([] ++ requests) .senior ≤ f.seniorSupply := by
    rw [Fulfillment.drawnBy_snoc] at seniors
    rw [List.nil_append]
    omega
  obtain ⟨batch, less⟩ := fresh.run below early ran
  rw [List.nil_append] at batch
  obtain ⟨value, net, -, -, netted, -, -, navs, -⟩ := Fulfillment.fulfillAt_ok paid
  obtain ⟨junior, senior⟩ := batch.spares below seniors juniors paid
  refine ⟨_, _, _, _, TrancheBook.waterfall_eq valid.bounded (by omega),
    TrancheBook.waterfall_eq valid.bounded (by omega), ?_, ?_⟩
  · rw [TrancheBook.seniorNav_preferred preferred, TrancheBook.seniorNav_preferred preferred]
    exact junior
  · rw [TrancheBook.seniorNav_preferred preferred, TrancheBook.seniorNav_preferred preferred]
    exact senior

theorem depositKeeps_of_preferred (preferred : upside.Preferred) {book : TrancheBook} {nav value : Nat}
    (covered : book.seniorClaim ≤ nav) (tranche : Tranche) : book.DepositKeeps upside nav tranche value := by
  unfold TrancheBook.DepositKeeps
  split
  · cases upside with
    | preferredOnly => trivial
    | uncappedParticipating residualBps => trivial
    | cappedParticipating residualBps capBps =>
      have none : residualBps = 0 := preferred
      exact Or.inl (by simp [none])
  · refine Or.inr ⟨covered, ?_⟩
    cases upside with
    | preferredOnly => trivial
    | uncappedParticipating residualBps =>
      have none : residualBps = 0 := preferred
      simp [none]
    | cappedParticipating residualBps capBps =>
      have none : residualBps = 0 := preferred
      exact Or.inl (by simp [none])

/-- A junior deposit of the size of the denominator is charged the participation in full. -/
theorem preferred_of_keeps (valid : upside.Valid)
    (keeps : ∀ basis, TrancheBook.JuniorKeeps upside 0 0 basis bpsDenom) : upside.Preferred := by
  have unit : 0 < bpsDenom := by decide
  cases upside with
  | preferredOnly => trivial
  | uncappedParticipating residualBps =>
    obtain zero | ⟨-, same⟩ := keeps 0
    · exact absurd zero (by decide)
    · simpa [SeniorUpside.Preferred, Nat.mul_div_cancel_left _ unit] using same
  | cappedParticipating residualBps capBps =>
    obtain zero | ⟨-, same | capped⟩ := keeps residualBps
    · exact absurd zero (by decide)
    · simpa [SeniorUpside.Preferred, Nat.mul_div_cancel_left _ unit] using same
    · have room : residualBps ≤ residualBps * capBps / bpsDenom :=
        (Nat.le_div_iff_mul_le unit).mpr (Nat.mul_le_mul_left residualBps valid.2)
      have none : residualBps = 0 := by
        simp only [TrancheBook.headroom, Nat.sub_zero, Nat.zero_mul, Nat.zero_div] at capped
        omega
      exact none

/-- Cross-tranche neutrality. A deposit is neutral exactly when it leaves the senior's part of the residual as it
was; a structure is neutral throughout exactly when the senior has no such part. -/
theorem tranche_neutral_iff {cfg : VaultProtocolConfig}
    (created : World.assertStructure cfg (.seniorJunior hurdle target maintenance upside) = .ok ()) :
    (∀ book nav tranche value shares next, nav + value < u128Bound →
      TrancheBook.onDeposit book tranche value shares = .ok next →
      (book.DepositNeutral (.seniorJunior hurdle target maintenance upside) nav tranche value next ↔
        book.DepositKeeps upside nav tranche value)) ∧
    (TrancheNeutral (.seniorJunior hurdle target maintenance upside) ↔ upside.Preferred) := by
  have valid := assertStructure_valid created
  refine ⟨fun book nav tranche value shares next small ran => TrancheBook.depositNeutral_iff valid small ran, ?_, ?_⟩
  · rintro ⟨deposits, -⟩
    refine preferred_of_keeps valid fun basis => ?_
    have ran : ({ TrancheBook.new 0 with seniorPrincipalBasis := basis }).onDeposit .junior bpsDenom 0 =
        .ok { TrancheBook.new 0 with seniorPrincipalBasis := basis } := rfl
    exact (TrancheBook.depositNeutral_iff valid (by decide) ran).mp (deposits _ 0 _ _ _ _ (Nat.le_refl 0) (by decide) ran)
  · intro preferred
    refine ⟨?_, fulfillNeutral_of_preferred valid preferred⟩
    intro book nav tranche value shares next covered small ran
    exact (TrancheBook.depositNeutral_iff valid small ran).mpr (depositKeeps_of_preferred preferred covered tranche)

end Structure

namespace Shared

def book : TrancheBook :=
  { TrancheBook.new 0 with
    seniorShares := 1000000000, juniorShares := 1000000000, seniorClaim := 1000, seniorPrincipalBasis := 1000 }

def half : CapitalStructure := .seniorJunior 1000 2000 1500 (.uncappedParticipating 5000)

def tenth : CapitalStructure := .seniorJunior 1000 2000 1500 (.cappedParticipating 5000 11000)

def terms : Fulfillment := ⟨1500, 1000000000, 500, 1000000000, 1000, false, []⟩

/-- A junior deposit of 1000 raises the senior by 500, a senior one lowers the junior by 100 once the cap binds,
and the exit of the juniors at the locked ratio takes 250 off the senior. -/
theorem deposits_shared :
    (book.navs half 2000 = .ok (1500, 500) ∧ ∃ next, book.onDeposit .junior 1000 1 = .ok next ∧
      next.navs half 3000 = .ok (2000, 1000)) ∧
    (book.navs tenth 2000 = .ok (1100, 900) ∧ ∃ next, book.onDeposit .senior 1000 1 = .ok next ∧
      next.navs tenth 3000 = .ok (2200, 800)) ∧
    (Locked half ⟨book, 2000⟩ terms ∧ ∃ after, terms.fulfillAt 0 0 ⟨book, 2000⟩ ⟨.junior, 1000000000, 500⟩ = .ok after ∧
      after.book.navs half after.nav = .ok (1250, 250)) ∧
    ¬ TrancheNeutral half ∧ ¬ TrancheNeutral tenth := by
  have junior : ∃ next, book.onDeposit .junior 1000 1 = .ok next ∧ next.navs half 3000 = .ok (2000, 1000) :=
    exists_ok (fun next => decide (next.navs half 3000 = .ok (2000, 1000))) (by decide +kernel)
      fun _ _ navs => of_decide_eq_true navs
  have senior : ∃ next, book.onDeposit .senior 1000 1 = .ok next ∧ next.navs tenth 3000 = .ok (2200, 800) :=
    exists_ok (fun next => decide (next.navs tenth 3000 = .ok (2200, 800))) (by decide +kernel)
      fun _ _ navs => of_decide_eq_true navs
  have halves : book.navs half 2000 = .ok (1500, 500) := by decide +kernel
  have tenths : book.navs tenth 2000 = .ok (1100, 900) := by decide +kernel
  refine ⟨⟨halves, junior⟩, ⟨tenths, senior⟩, ⟨⟨halves, rfl, rfl, rfl⟩, ?_⟩, ?_, ?_⟩
  · exact exists_ok (fun after => decide (after.book.navs half after.nav = .ok (1250, 250))) (by decide +kernel)
      fun _ _ navs => of_decide_eq_true navs
  · rintro ⟨deposits, -⟩
    obtain ⟨next, ran, navs⟩ := junior
    obtain ⟨_, _, before, after⟩ := deposits book 2000 .junior 1000 1 next (by decide) (by decide) ran
    cases halves.symm.trans before
    exact absurd (Except.ok.inj (navs.symm.trans after)) (by decide)
  · rintro ⟨deposits, -⟩
    obtain ⟨next, ran, navs⟩ := senior
    obtain ⟨_, _, before, after⟩ := deposits book 2000 .senior 1000 1 next (by decide) (by decide) ran
    cases tenths.symm.trans before
    exact absurd (Except.ok.inj (navs.symm.trans after)) (by decide)

/-- A senior deposit into the uncapped structure is neutral, a junior one and the structure are not. -/
theorem tranche_neutral_half : World.assertStructure Sample.cfg half = .ok () ∧
    (∃ next, book.onDeposit .senior 1000 1 = .ok next ∧ book.DepositNeutral half 2000 .senior 1000 next) ∧
    (∃ next, book.onDeposit .junior 1000 1 = .ok next ∧ ¬ book.DepositNeutral half 2000 .junior 1000 next) ∧
    ¬ TrancheNeutral half := by
  have created : World.assertStructure Sample.cfg half = .ok () := rfl
  obtain ⟨deposits, structures⟩ := tranche_neutral_iff created
  refine ⟨created, ?_, ?_, fun neutral => absurd (structures.mp neutral) (show 5000 ≠ 0 by decide)⟩
  · refine exists_ok (fun _ => true) (by decide +kernel) fun next ran _ => ?_
    exact (deposits book 2000 .senior 1000 1 next (by decide) ran).mpr trivial
  · refine exists_ok (fun _ => true) (by decide +kernel) fun next ran _ neutral => ?_
    rcases (deposits book 2000 .junior 1000 1 next (by decide) ran).mp neutral with zero | ⟨-, same⟩
    · exact absurd zero (by decide)
    · exact absurd same (by decide)

end Shared

/-! ### The vault -/

namespace TradingVault

variable {Obj : Type} {v next : TradingVault Obj} {cfg : VaultProtocolConfig} {f : Fulfillment}

theorem beginFulfillment_locked {a : Appraisal Obj} {atts : List PriceAttestation} {now : Nat}
    (tranched : v.capital.isTranched = true) (ran : v.beginFulfillment cfg a atts now = .ok (next, f)) :
    ∃ nav, v.consumeAppraisal a = .ok nav ∧ Locked next.capital ⟨next.book, nav⟩ f := by
  obtain ⟨-, nav, seniorNav, juniorNav, prices, consumed, synced, -, rfl⟩ := beginFulfillment_ok ran
  obtain ⟨book, -, synced⟩ := bind_ok.mp synced
  obtain ⟨⟨senior, junior⟩, split, synced⟩ := bind_ok.mp synced
  obtain ⟨breached, -, produced⟩ := bind_ok.mp synced
  cases produced
  refine ⟨nav, consumed, ?_, rfl, rfl, rfl⟩
  obtain ⟨claim, basis, -⟩ := book.updateRiskState_claim v.capital nav juniorNav now
  simp only [TrancheBook.navs, tranched, if_true, claim, basis]
  exact split

theorem mintFee_mintAt {tranche : Tranche} {curatorNet : Nat} {id : Exchange.ID}
    (ran : v.mintFee f tranche curatorNet id = .ok next) : f.mintAt tranche curatorNet v.book = .ok next.book := by
  unfold mintFee at ran
  unfold Fulfillment.mintAt
  split at ran
  · rename_i none
    cases ran
    rw [if_pos none]
    rfl
  · rename_i some
    obtain ⟨minted, priced, ran⟩ := bind_ok.mp ran
    rw [if_neg some]
    refine bind_ok.mpr ⟨minted, priced, ?_⟩
    split at ran
    · rename_i none
      cases ran
      rw [if_pos none]
      rfl
    · rename_i some
      obtain ⟨book, booked, credits⟩ := bind_ok.mp ran
      obtain ⟨claims, rfl, -⟩ := creditCommitment_ok credits
      rw [if_neg some]
      exact booked

theorem Paid.fulfillAt {p : TypeName} {id : Exchange.ID} {receipt : Receipt} {nav : Nat} (paid : Paid v cfg f p id receipt next)
    (live : v.wipedClaim receipt.request.tranche receipt.request.capitalGeneration = false)
    (enough : receipt.priced.payout + receipt.priced.protocolCut ≤ nav) :
    f.fulfillAt v.config.curatorFeeBps cfg.protocolFeeBps ⟨v.book, nav⟩
        ⟨receipt.request.tranche, receipt.request.shares, receipt.request.basis⟩ =
      .ok ⟨next.book, nav - (receipt.priced.payout + receipt.priced.protocolCut)⟩ := by
  obtain ⟨found, priced, -, settled⟩ := paid
  obtain ⟨curatorNet, burned, minted, cut, net, burns, mints, cuts, pays⟩ := settleRequest_ok settled
  rw [priceRequest, live] at priced
  obtain ⟨value, valued, priced⟩ := bind_ok.mp priced
  obtain ⟨fees, charged, priced⟩ := bind_ok.mp priced
  obtain ⟨payout, left, produced⟩ := bind_ok.mp priced
  have same : receipt.priced = ⟨value, payout, fees.grossFee, fees.protocolCut⟩ := (pure_ok.mp produced).symm
  obtain ⟨-, rfl⟩ := sub_ok.mp net
  have whole := (crystallize_ok charged).2
  have curator : receipt.priced.grossFee - receipt.priced.protocolCut = fees.curatorNet := by
    rw [same]
    simp only
    omega
  rw [curator] at mints
  obtain ⟨purse, rfl, -⟩ := payOut_twice cuts pays
  rcases burnShares_ok burns with ⟨wiped, -⟩ | ⟨-, book, booked, rfl⟩
  · cases wiped.symm.trans live
  · have minting := mintFee_mintAt mints
    rw [same] at enough ⊢
    refine bind_ok.mpr ⟨value, valued, bind_ok.mpr ⟨fees, charged, bind_ok.mpr ⟨payout, left, ?_⟩⟩⟩
    exact bind_ok.mpr ⟨book, booked, bind_ok.mpr ⟨minted.book, minting, bind_ok.mpr ⟨_, sub_ok.mpr ⟨enough, rfl⟩, rfl⟩⟩⟩

end TradingVault

end SuiOptions.Vault
