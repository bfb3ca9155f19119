import SuiOptions.Exchange.Paths

/-! The match of two orders on both paths. -/

set_option autoImplicit false

namespace SuiOptions.Exchange

open Execution Move

namespace Market

variable {natives : Natives} {s : Market}

theorem recordMatch_frame {idA idB : ID} {bmA bmB : BalanceManager} {orderABytes sigA pkA orderBBytes sigB pkB : Bytes}
    {fillBaseAmount : Nat} {m : Matched}
    (ran : s.recordMatch natives idA bmA idB bmB orderABytes sigA pkA orderBBytes sigB pkB fillBaseAmount = .ok m) :
    m.registry.token = s.registry.token ∧ m.registry.feeVault = s.registry.feeVault ∧ fillBaseAmount < u64Bound ∧
      m.quoteAmount < u64Bound := by
  unfold recordMatch at ran
  obtain ⟨peekA, -, ran⟩ := bind_ok.mp ran
  obtain ⟨peekB, -, ran⟩ := bind_ok.mp ran
  obtain ⟨⟨ordA, digestA⟩, -, ran⟩ := bind_ok.mp ran
  obtain ⟨⟨ordB, digestB⟩, -, ran⟩ := bind_ok.mp ran
  obtain ⟨⟨quoteAmount, feeA, feeB⟩, -, ran⟩ := bind_ok.mp ran
  obtain ⟨⟨totalA, regA⟩, recordedA, ran⟩ := bind_ok.mp ran
  obtain ⟨⟨totalB, regB⟩, recordedB, produced⟩ := bind_ok.mp ran
  cases produced
  obtain ⟨sumA, withinA, afterA⟩ := SettlementRegistry.recordFill_ok recordedA
  obtain ⟨sumB, withinB, afterB⟩ := SettlementRegistry.recordFill_ok recordedB
  have signedA : ordA.takerAmount.toNat < u64Bound := ordA.takerAmount.toNat_lt
  have signedB : ordB.takerAmount.toNat < u64Bound := ordB.takerAmount.toNat_lt
  refine ⟨?_, ?_, ?_, ?_⟩
  · simp only [afterB, afterA]
  · simp only [afterB, afterA]
  · omega
  · simp only
    omega

end Market

namespace Session

variable (natives : Natives) (idA idB : ID) (orderABytes sigA pkA orderBBytes sigB pkB : Bytes) (fillBaseAmount : Nat)
  (st : Session)

/-- The classic match. -/
def matchClassic : Result Error Session := do
  let market ← st.market.matchOrders natives idA idB orderABytes sigA pkA orderBBytes sigB pkB fillBaseAmount
  pure { st with market }

/-- The same match through an obligation. -/
def matchByLegs (legs : List Leg) : Result Error Session := do
  let market ← st.market.beginMatch natives idA idB orderABytes sigA pkA orderBBytes sigB pkB fillBaseAmount
  settle st.market.obligations.length legs { st with market }

/-- The fees of a match by the vault they go to: `B` pays in base, `A` in quote. -/
def matchFee (m : Market.Matched) : Side → Nat
  | .base => m.feeB
  | .quote => m.feeA

structure MatchReady (bmA bmB : BalanceManager) (m : Market.Matched) (heldA heldB : Nat) : Prop where
  apart : idA ≠ idB
  managerA : st.market.managers idA = some bmA
  managerB : st.market.managers idB = some bmB
  recorded : st.market.recordMatch natives idA bmA idB bmB orderABytes sigA pkA orderBBytes sigB pkB fillBaseAmount = .ok m
  feeA : m.feeA ≤ m.quoteAmount
  feeB : m.feeB ≤ fillBaseAmount
  holdsA : bmA.balances (st.market.registry.token .base) = some heldA
  holdsB : bmB.balances (st.market.registry.token .quote) = some heldB
  enoughA : fillBaseAmount ≤ heldA
  enoughB : m.quoteAmount ≤ heldB
  roomA : (bmA.balances (st.market.registry.token .quote)).getD 0 + (m.quoteAmount - m.feeA) < u64Bound
  roomB : (bmB.balances (st.market.registry.token .base)).getD 0 + (fillBaseAmount - m.feeB) < u64Bound
  vaults : ∀ side, st.market.registry.feeVault side + matchFee m side < u64Bound

def matched (bmA bmB : BalanceManager) (m : Market.Matched) (heldA heldB : Nat) : Session :=
  { st with market := { st.market with
      registry := m.registry.withFees (matchFee m)
      managers := Function.update
        (Function.update st.market.managers idA (some { bmA with
          balances := Function.update
            (Function.update bmA.balances (st.market.registry.token .base) (some (heldA - fillBaseAmount)))
            (st.market.registry.token .quote)
            (some ((bmA.balances (st.market.registry.token .quote)).getD 0 + (m.quoteAmount - m.feeA))) }))
        idB (some { bmB with
          balances := Function.update
            (Function.update bmB.balances (st.market.registry.token .base)
              (some ((bmB.balances (st.market.registry.token .base)).getD 0 + (fillBaseAmount - m.feeB))))
            (st.market.registry.token .quote) (some (heldB - m.quoteAmount)) })
      events := st.market.events ++ (st.market.matchFills m fillBaseAmount).map fun fill =>
        { fill with registry := m.registry.id }
      tally := note
        (note st.market.tally m.digestA ⟨m.quoteAmount, fillBaseAmount, (m.quoteAmount - m.feeA) + m.feeA⟩) m.digestB
        ⟨fillBaseAmount, m.quoteAmount, (fillBaseAmount - m.feeB) + m.feeB⟩ } }

variable {natives idA idB orderABytes sigA pkA orderBBytes sigB pkB fillBaseAmount st} {next : Session}

theorem matchClassic_ok :
    matchClassic natives idA idB orderABytes sigA pkA orderBBytes sigB pkB fillBaseAmount st = .ok next ↔
      ∃ bmA bmB m heldA heldB,
        MatchReady natives idA idB orderABytes sigA pkA orderBBytes sigB pkB fillBaseAmount st bmA bmB m heldA heldB ∧
        next = matched idA idB fillBaseAmount st bmA bmB m heldA heldB := by
  have distinct := st.market.registry.distinct
  -- the two fees go into different vaults, so their order does not matter
  have vaults : ∀ {m : Market.Matched} {second : SettlementRegistry},
      (∃ first, m.registry.depositFee .base m.feeB = .ok first ∧ first.depositFee .quote m.feeA = .ok second) ↔
      (∀ which, m.registry.feeVault which + matchFee m which < u64Bound) ∧ second = m.registry.withFees (matchFee m) := by
    intro m second
    have both : (∃ first, m.registry.depositFee Side.quote.other (matchFee m Side.quote.other) = .ok first ∧
        first.depositFee .quote (matchFee m .quote) = .ok second) ↔ _ := SettlementRegistry.depositFees_iff
    exact both
  constructor
  · intro ran
    obtain ⟨market, moved, produced⟩ := bind_ok.mp ran
    cases produced
    unfold Market.matchOrders at moved
    obtain ⟨apart, moved⟩ := check_bind_ok.mp moved
    obtain ⟨bmA, presentA, moved⟩ := bind_ok.mp moved
    obtain ⟨bmB, presentB, moved⟩ := bind_ok.mp moved
    obtain ⟨m, recorded, moved⟩ := bind_ok.mp moved
    -- the base leg: debit of the maker of the ask, its fee, credit of the other
    obtain ⟨debitedA, debitA, moved⟩ := bind_ok.mp moved
    obtain ⟨feeB, moved⟩ := check_bind_ok.mp moved
    obtain ⟨first, feeBase, moved⟩ := bind_ok.mp moved
    obtain ⟨creditedB, creditB, moved⟩ := bind_ok.mp moved
    -- the quote leg, the other way round
    obtain ⟨debitedB, debitB, moved⟩ := bind_ok.mp moved
    obtain ⟨feeA, moved⟩ := check_bind_ok.mp moved
    obtain ⟨second, feeQuote, moved⟩ := bind_ok.mp moved
    obtain ⟨creditedA, creditA, produced⟩ := bind_ok.mp moved
    cases produced
    -- recording and fees leave the tokens of the registry as they are
    obtain ⟨token, vault, -, -⟩ := Market.recordMatch_frame recorded
    have tokenFirst : first.token = st.market.registry.token := (SettlementRegistry.depositFee_ok feeBase).token.trans token
    have tokenSecond : second.token = st.market.registry.token :=
      (SettlementRegistry.depositFee_ok feeQuote).token.trans tokenFirst
    obtain ⟨small, rfl⟩ := vaults.mp ⟨first, feeBase, feeQuote⟩
    rw [token] at debitA
    rw [tokenFirst] at creditB debitB
    rw [tokenSecond] at creditA
    obtain ⟨heldA, holdsA, enoughA, rfl⟩ := BalanceManager.debit_iff.mp debitA
    obtain ⟨roomB, rfl⟩ := BalanceManager.credit_iff.mp creditB
    obtain ⟨heldB, holdsB, enoughB, rfl⟩ := BalanceManager.debit_iff.mp debitB
    obtain ⟨roomA, rfl⟩ := BalanceManager.credit_iff.mp creditA
    -- the base leg has not touched the quote balances
    simp only [Function.update_of_ne (Ne.symm distinct)] at holdsB roomA
    rw [vault] at small
    refine ⟨bmA, bmB, m, heldA, heldB, ⟨apart, Market.manager_ok presentA, Market.manager_ok presentB, recorded, feeA,
      feeB, holdsA, holdsB, enoughA, enoughB, roomA, roomB, small⟩, ?_⟩
    simp only [matched, Function.update_of_ne (Ne.symm distinct)]
    rfl
  · rintro ⟨bmA, bmB, m, heldA, heldB, ready, rfl⟩
    obtain ⟨token, vault, -, -⟩ := Market.recordMatch_frame ready.recorded
    have small := ready.vaults
    rw [← vault] at small
    obtain ⟨first, feeBase, feeQuote⟩ := vaults.mpr ⟨small, rfl⟩
    have tokenFirst : first.token = st.market.registry.token := (SettlementRegistry.depositFee_ok feeBase).token.trans token
    refine bind_ok.mpr ⟨_, check_bind_ok.mpr ⟨ready.apart, ?_⟩, rfl⟩
    refine bind_ok.mpr ⟨bmA, need_ok.mpr ready.managerA, bind_ok.mpr ⟨bmB, need_ok.mpr ready.managerB, ?_⟩⟩
    refine bind_ok.mpr ⟨m, ready.recorded, ?_⟩
    rw [token]
    refine bind_ok.mpr ⟨_, BalanceManager.debit_iff.mpr ⟨heldA, ready.holdsA, ready.enoughA, rfl⟩, ?_⟩
    refine check_bind_ok.mpr ⟨ready.feeB, bind_ok.mpr ⟨first, feeBase, ?_⟩⟩
    rw [tokenFirst]
    refine bind_ok.mpr ⟨_, BalanceManager.credit_iff.mpr ⟨ready.roomB, rfl⟩, ?_⟩
    refine bind_ok.mpr ⟨_, BalanceManager.debit_iff.mpr ⟨heldB, ?_, ready.enoughB, rfl⟩, ?_⟩
    · simp only [Function.update_of_ne (Ne.symm distinct)]
      exact ready.holdsB
    refine check_bind_ok.mpr ⟨ready.feeA, bind_ok.mpr ⟨_, feeQuote, ?_⟩⟩
    have tokenSecond : (m.registry.withFees (matchFee m)).token = st.market.registry.token := token
    rw [tokenSecond]
    refine bind_ok.mpr ⟨_, BalanceManager.credit_iff.mpr ⟨?_, rfl⟩, ?_⟩
    · simp only [Function.update_of_ne (Ne.symm distinct)]
      exact ready.roomA
    · simp only [Function.update_of_ne (Ne.symm distinct)]
      rfl

section Opened

variable (st : Session) (idA idB : ID) (m : Market.Matched) (fillBaseAmount : Nat)

def openMatch : FillObligation :=
  st.market.matchObligation idA idB m fillBaseAmount (m.quoteAmount - m.feeA) (fillBaseAmount - m.feeB)

def openedMatch : Session :=
  { st with market := { st.market with
      registry := m.registry
      obligations := st.market.obligations ++ [st.openMatch idA idB m fillBaseAmount]
      tally := note (note st.market.tally m.digestA ⟨m.quoteAmount, 0, 0⟩) m.digestB ⟨fillBaseAmount, 0, 0⟩ } }

variable {st idA idB m fillBaseAmount} {bmA bmB : BalanceManager}

theorem openMatch_fresh (apart : idA ≠ idB) (feeA : m.feeA ≤ m.quoteAmount) (feeB : m.feeB ≤ fillBaseAmount)
    (smallBase : fillBaseAmount < u64Bound) (smallQuote : m.quoteAmount < u64Bound) :
    (st.openMatch idA idB m fillBaseAmount).Fresh := by
  constructor
  case unprovided => intro side; cases side <;> rfl
  case uncollected => intro side; cases side <;> rfl
  case empty => intro side; rfl
  case apart => exact fun same => apart (EscrowBinding.manager.inj same)
  case owes =>
    intro side
    cases side with
    | base => exact (Nat.sub_add_cancel feeB).symm
    | quote => exact (Nat.sub_add_cancel feeA).symm
  case small =>
    intro side
    cases side with
    | base => exact smallBase
    | quote => exact smallQuote

theorem openMatch_fee : (st.openMatch idA idB m fillBaseAmount).fee = matchFee m := by
  funext side
  cases side <;> rfl

theorem openedMatch_obligation : (st.openedMatch idA idB m fillBaseAmount).market.obligations[st.market.obligations.length]? =
    some (st.openMatch idA idB m fillBaseAmount) := List.getElem?_concat_length

theorem beginMatch_ok {market : Market} :
    st.market.beginMatch natives idA idB orderABytes sigA pkA orderBBytes sigB pkB fillBaseAmount = .ok market ↔
      ∃ bmA bmB m, idA ≠ idB ∧ st.market.managers idA = some bmA ∧ st.market.managers idB = some bmB ∧
        st.market.recordMatch natives idA bmA idB bmB orderABytes sigA pkA orderBBytes sigB pkB fillBaseAmount = .ok m ∧
        m.feeA ≤ m.quoteAmount ∧ m.feeB ≤ fillBaseAmount ∧
        market = (st.openedMatch idA idB m fillBaseAmount).market := by
  constructor
  · intro ran
    unfold Market.beginMatch at ran
    obtain ⟨bmA, presentA, ran⟩ := bind_ok.mp ran
    obtain ⟨bmB, presentB, ran⟩ := bind_ok.mp ran
    obtain ⟨apart, ran⟩ := check_bind_ok.mp ran
    obtain ⟨m, recorded, ran⟩ := bind_ok.mp ran
    obtain ⟨dueA, netA, ran⟩ := bind_ok.mp ran
    obtain ⟨dueB, netB, produced⟩ := bind_ok.mp ran
    cases produced
    obtain ⟨feeA, rfl⟩ := sub_ok.mp netA
    obtain ⟨feeB, rfl⟩ := sub_ok.mp netB
    exact ⟨bmA, bmB, m, apart, Market.manager_ok presentA, Market.manager_ok presentB, recorded, feeA, feeB, rfl⟩
  · rintro ⟨bmA, bmB, m, apart, presentA, presentB, recorded, feeA, feeB, rfl⟩
    refine bind_ok.mpr ⟨bmA, need_ok.mpr presentA, bind_ok.mpr ⟨bmB, need_ok.mpr presentB, ?_⟩⟩
    refine check_bind_ok.mpr ⟨apart, bind_ok.mpr ⟨m, recorded, ?_⟩⟩
    exact bind_ok.mpr ⟨_, sub_ok.mpr ⟨feeA, rfl⟩, bind_ok.mpr ⟨_, sub_ok.mpr ⟨feeB, rfl⟩, rfl⟩⟩

theorem openedMatch_funds {id : ID} {bm : BalanceManager} (present : st.market.managers id = some bm)
    (token : m.registry.token = st.market.registry.token) (side : Side) :
    (st.openedMatch idA idB m fillBaseAmount).funds (.manager id) side = bm.balances (st.market.registry.token side) := by
  simp [funds, openedMatch, present, token]

/-- The four legs of a match can be paid when both managers hold what they sell and have room for what they buy. -/
theorem funded_match (presentA : st.market.managers idA = some bmA) (presentB : st.market.managers idB = some bmB)
    (token : m.registry.token = st.market.registry.token) :
    (∀ leg, (st.openedMatch idA idB m fillBaseAmount).Funded (st.openMatch idA idB m fillBaseAmount) leg) ↔
      (bmA.balances (st.market.registry.token .quote)).getD 0 + (m.quoteAmount - m.feeA) < u64Bound ∧
      (bmB.balances (st.market.registry.token .base)).getD 0 + (fillBaseAmount - m.feeB) < u64Bound ∧
      (∃ heldA, bmA.balances (st.market.registry.token .base) = some heldA ∧ fillBaseAmount ≤ heldA) ∧
      ∃ heldB, bmB.balances (st.market.registry.token .quote) = some heldB ∧ m.quoteAmount ≤ heldB := by
  have knownA : (st.openedMatch idA idB m fillBaseAmount).Known (.manager idA) := ⟨bmA, presentA⟩
  have knownB : (st.openedMatch idA idB m fillBaseAmount).Known (.manager idB) := ⟨bmB, presentB⟩
  have cellA : ∀ side, (st.openedMatch idA idB m fillBaseAmount).funds (.manager idA) side =
      bmA.balances (st.market.registry.token side) := openedMatch_funds presentA token
  have cellB : ∀ side, (st.openedMatch idA idB m fillBaseAmount).funds (.manager idB) side =
      bmB.balances (st.market.registry.token side) := openedMatch_funds presentB token
  constructor
  · intro funded
    have soldA := funded (.provide .base)
    have soldB := funded (.provide .quote)
    have boughtA := funded (.collect .base)
    have boughtB := funded (.collect .quote)
    simp only [Funded, openMatch, Market.matchObligation, Side.other, cellA, cellB] at soldA soldB boughtA boughtB
    exact ⟨boughtA.2 (by simp), boughtB.2 (by simp), soldA.2, soldB.2⟩
  · rintro ⟨roomA, roomB, fullA, fullB⟩ leg
    rcases leg with (side | side) <;> cases side <;>
      simp only [Funded, openMatch, Market.matchObligation, Side.other, cellA, cellB]
    · exact ⟨knownA, fullA⟩
    · exact ⟨knownB, fullB⟩
    · exact ⟨knownA, fun _ => roomA⟩
    · exact ⟨knownB, fun _ => roomB⟩

theorem tallyAfter_match :
    (st.openedMatch idA idB m fillBaseAmount).tallyAfter (st.openMatch idA idB m fillBaseAmount) (fun _ => true) =
      note (note st.market.tally m.digestA ⟨m.quoteAmount, fillBaseAmount, (m.quoteAmount - m.feeA) + m.feeA⟩) m.digestB
        ⟨fillBaseAmount, m.quoteAmount, (fillBaseAmount - m.feeB) + m.feeB⟩ := by
  have orderA : (st.openMatch idA idB m fillBaseAmount).orderOf .base = some m.digestA := rfl
  have orderB : (st.openMatch idA idB m fillBaseAmount).orderOf .quote = some m.digestB := rfl
  funext hash
  simp only [tallyAfter, noted, orderA, orderB, Option.some.injEq, openedMatch, note_apply]
  by_cases ours : m.digestA = hash <;> by_cases theirs : m.digestB = hash <;>
    simp [ours, theirs, Tally.add, openMatch, Market.matchObligation, FillObligation.gross, Side.other]
  omega

theorem managersWith_match (apart : idA ≠ idB) (presentA : st.market.managers idA = some bmA)
    (presentB : st.market.managers idB = some bmB) (token : m.registry.token = st.market.registry.token)
    {heldA heldB : Nat} (holdsA : bmA.balances (st.market.registry.token .base) = some heldA)
    (holdsB : bmB.balances (st.market.registry.token .quote) = some heldB) :
    (st.openedMatch idA idB m fillBaseAmount).managersWith
        ((st.openedMatch idA idB m fillBaseAmount).cellsAfter (st.openMatch idA idB m fillBaseAmount) fun _ => true) =
      (matched idA idB fillBaseAmount st bmA bmB m heldA heldB).market.managers := by
  have cellA : ∀ side, (st.openedMatch idA idB m fillBaseAmount).funds (.manager idA) side =
      bmA.balances (st.market.registry.token side) := openedMatch_funds presentA token
  have cellB : ∀ side, (st.openedMatch idA idB m fillBaseAmount).funds (.manager idB) side =
      bmB.balances (st.market.registry.token side) := openedMatch_funds presentB token
  have thereA : (st.openedMatch idA idB m fillBaseAmount).market.managers idA = some bmA := presentA
  have thereB : (st.openedMatch idA idB m fillBaseAmount).market.managers idB = some bmB := presentB
  have distinct := (st.openedMatch idA idB m fillBaseAmount).market.registry.distinct
  funext id
  by_cases isB : id = idB
  · subst isB
    rw [managersWith_some _ thereB, balancesWith_eq distinct _ _ .quote]
    simp only [cellsAfter, openMatch, Market.matchObligation, Side.other, EscrowBinding.manager.injEq, Ne.symm apart,
      if_true, if_false, matched, Function.update_self]
    rw [cellB, cellB, holdsB]
    simp only [openedMatch, token, Option.map_some]
  · by_cases isA : id = idA
    · subst isA
      rw [managersWith_some _ thereA, balancesWith_eq distinct _ _ .quote]
      simp only [cellsAfter, openMatch, Market.matchObligation, Side.other, EscrowBinding.manager.injEq, apart,
        if_true, if_false, matched, Function.update_self, Function.update_of_ne isB]
      rw [cellA, cellA, holdsA]
      simp only [openedMatch, token, Option.map_some]
    · have same : (st.openedMatch idA idB m fillBaseAmount).cellsAfter (st.openMatch idA idB m fillBaseAmount)
          (fun _ => true) (.manager id) = (st.openedMatch idA idB m fillBaseAmount).funds (.manager id) := by
        funext side
        cases side <;> simp [cellsAfter, openMatch, Market.matchObligation, Side.other, isA, isB]
      rw [managersWith_same same]
      simp only [matched, Function.update_of_ne isA, Function.update_of_ne isB]
      rfl

theorem purse_match (side : Side) : ((st.openedMatch idA idB m fillBaseAmount).cellsAfter
    (st.openMatch idA idB m fillBaseAmount) (fun _ => true) .bearer side).getD 0 = st.purse side := by
  cases side <;> rfl

theorem settled_match (apart : idA ≠ idB) (presentA : st.market.managers idA = some bmA)
    (presentB : st.market.managers idB = some bmB) (token : m.registry.token = st.market.registry.token)
    {heldA heldB : Nat} (holdsA : bmA.balances (st.market.registry.token .base) = some heldA)
    (holdsB : bmB.balances (st.market.registry.token .quote) = some heldB) :
    (st.openedMatch idA idB m fillBaseAmount).settled st.market.obligations.length
        (st.openMatch idA idB m fillBaseAmount) =
      matched idA idB fillBaseAmount st bmA bmB m heldA heldB := by
  have erased : (st.openedMatch idA idB m fillBaseAmount).market.obligations.eraseIdx st.market.obligations.length =
      st.market.obligations := by
    simp [openedMatch, List.eraseIdx_append_of_length_le]
  unfold settled
  rw [tallyAfter_match, managersWith_match apart presentA presentB token holdsA holdsB, erased, openMatch_fee]
  simp only [purse_match]
  rfl

end Opened

/-- The match through an obligation, whatever the order of its legs. -/
theorem matchByLegs_ok {legs : List Leg} (complete : Complete legs) :
    matchByLegs natives idA idB orderABytes sigA pkA orderBBytes sigB pkB fillBaseAmount st legs = .ok next ↔
      ∃ bmA bmB m heldA heldB,
        MatchReady natives idA idB orderABytes sigA pkA orderBBytes sigB pkB fillBaseAmount st bmA bmB m heldA heldB ∧
        next = matched idA idB fillBaseAmount st bmA bmB m heldA heldB := by
  have settles : ∀ {bmA bmB : BalanceManager} {m : Market.Matched}, idA ≠ idB →
      st.market.recordMatch natives idA bmA idB bmB orderABytes sigA pkA orderBBytes sigB pkB fillBaseAmount = .ok m →
      m.feeA ≤ m.quoteAmount → m.feeB ≤ fillBaseAmount →
      (settle st.market.obligations.length legs (st.openedMatch idA idB m fillBaseAmount) = .ok next ↔
        (∀ leg, (st.openedMatch idA idB m fillBaseAmount).Funded (st.openMatch idA idB m fillBaseAmount) leg) ∧
        (∀ side, m.registry.feeVault side + (st.openMatch idA idB m fillBaseAmount).fee side < u64Bound) ∧
        next = (st.openedMatch idA idB m fillBaseAmount).settled st.market.obligations.length
          (st.openMatch idA idB m fillBaseAmount)) := by
    intro bmA bmB m apart recorded feeA feeB
    obtain ⟨-, -, smallBase, smallQuote⟩ := Market.recordMatch_frame recorded
    exact settle_ok openedMatch_obligation (openMatch_fresh apart feeA feeB smallBase smallQuote) rfl complete
  constructor
  · intro ran
    obtain ⟨market, began, settled⟩ := bind_ok.mp ran
    obtain ⟨bmA, bmB, m, apart, presentA, presentB, recorded, feeA, feeB, rfl⟩ := beginMatch_ok.mp began
    obtain ⟨token, vault, -, -⟩ := Market.recordMatch_frame recorded
    obtain ⟨funded, vaults, rfl⟩ := (settles apart recorded feeA feeB).mp settled
    rw [openMatch_fee, vault] at vaults
    obtain ⟨roomA, roomB, ⟨heldA, holdsA, enoughA⟩, heldB, holdsB, enoughB⟩ :=
      (funded_match presentA presentB token).mp funded
    exact ⟨bmA, bmB, m, heldA, heldB, ⟨apart, presentA, presentB, recorded, feeA, feeB, holdsA, holdsB, enoughA, enoughB,
      roomA, roomB, vaults⟩, settled_match apart presentA presentB token holdsA holdsB⟩
  · rintro ⟨bmA, bmB, m, heldA, heldB, ready, rfl⟩
    obtain ⟨token, vault, -, -⟩ := Market.recordMatch_frame ready.recorded
    have vaults := ready.vaults
    rw [← vault] at vaults
    have began := beginMatch_ok.mpr ⟨bmA, bmB, m, ready.apart, ready.managerA, ready.managerB, ready.recorded, ready.feeA,
      ready.feeB, rfl⟩
    refine bind_ok.mpr ⟨_, began, (settles ready.apart ready.recorded ready.feeA ready.feeB).mpr ⟨?_, ?_, ?_⟩⟩
    · exact (funded_match ready.managerA ready.managerB token).mpr ⟨ready.roomA, ready.roomB,
        ⟨heldA, ready.holdsA, ready.enoughA⟩, heldB, ready.holdsB, ready.enoughB⟩
    · rw [openMatch_fee]
      exact vaults
    · exact (settled_match ready.apart ready.managerA ready.managerB token ready.holdsA ready.holdsB).symm

end Session

end SuiOptions.Exchange
