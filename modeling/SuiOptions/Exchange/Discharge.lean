import SuiOptions.Exchange.FillBound

/-! Discharging an obligation, leg by leg, in any order.

Every leg moves one cell of funds: a token of the manager it is bound to, or a coin
of the transaction. The four cells are different, so the legs commute and what they
lead to depends only on which of them are done.
-/

set_option autoImplicit false

namespace SuiOptions.Exchange

open Execution Move

namespace BalanceManager

variable {bm next : BalanceManager} {token : String} {amount : Nat}

theorem debit_iff : bm.debit token amount = .ok next ↔ ∃ held, bm.balances token = some held ∧ amount ≤ held ∧
    next = { bm with balances := Function.update bm.balances token (some (held - amount)) } := by
  simp only [debit, bind_ok, need_ok, check_ok, pure_ok, exists_const]
  constructor
  · rintro ⟨held, present, enough, rfl⟩
    exact ⟨held, present, enough, rfl⟩
  · rintro ⟨held, present, enough, rfl⟩
    exact ⟨held, present, enough, rfl⟩

theorem credit_iff : bm.credit token amount = .ok next ↔ (bm.balances token).getD 0 + amount < u64Bound ∧
    next = { bm with balances := Function.update bm.balances token (some ((bm.balances token).getD 0 + amount)) } := by
  simp only [credit, addU64, bind_ok, fit_ok, pure_ok]
  constructor
  · rintro ⟨total, ⟨small, rfl⟩, rfl⟩
    exact ⟨small, rfl⟩
  · rintro ⟨small, rfl⟩
    exact ⟨_, ⟨small, rfl⟩, rfl⟩

end BalanceManager

/-- One of the four calls that discharge an obligation: a side pays in what it owes
or is paid what it is due. -/
inductive Leg where
  | provide (side : Side)
  | collect (side : Side)
  deriving DecidableEq, Repr

structure Session where
  market : Market
  purse : Side → Nat

namespace Session

variable (st : Session)

/-! ### Cells -/

def debitFrom (escrow : EscrowBinding) (side : Side) (amount : Nat) : Result Error Session :=
  match escrow with
  | .manager id => do
    let bm ← st.market.manager id
    let bm ← bm.debit (st.market.registry.token side) amount
    pure { st with market := { st.market with managers := Function.update st.market.managers id (some bm) } }
  | .bearer => do
    check (amount ≤ st.purse side) .notEnough
    pure { st with purse := Function.update st.purse side (st.purse side - amount) }

def creditTo (escrow : EscrowBinding) (side : Side) (amount : Nat) : Result Error Session :=
  match escrow with
  | .manager id => do
    let bm ← st.market.manager id
    let bm ← bm.credit (st.market.registry.token side) amount
    pure { st with market := { st.market with managers := Function.update st.market.managers id (some bm) } }
  | .bearer => pure { st with purse := Function.update st.purse side (st.purse side + amount) }

def funds (escrow : EscrowBinding) (side : Side) : Option Nat :=
  match escrow with
  | .manager id => (st.market.managers id).bind fun bm => bm.balances (st.market.registry.token side)
  | .bearer => some (st.purse side)

def Known : EscrowBinding → Prop
  | .manager id => ∃ bm, st.market.managers id = some bm
  | .bearer => True

def balancesWith (token : Side → String) (cells : Side → Option Nat) (balances : String → Option Nat) (t : String) :
    Option Nat :=
  if t = token .base then cells .base else if t = token .quote then cells .quote else balances t

def managersWith (cells : EscrowBinding → Side → Option Nat) (id : ID) : Option BalanceManager :=
  (st.market.managers id).map fun bm =>
    { bm with balances := balancesWith st.market.registry.token (cells (.manager id)) bm.balances }

def withFunds (cells : EscrowBinding → Side → Option Nat) : Session where
  market := { st.market with managers := st.managersWith cells }
  purse side := (cells .bearer side).getD 0

def setCell (cells : EscrowBinding → Side → Option Nat) (escrow : EscrowBinding) (side : Side) (amount : Nat) :
    EscrowBinding → Side → Option Nat :=
  Function.update cells escrow (Function.update (cells escrow) side (some amount))

theorem balancesWith_token {token : Side → String} (distinct : token .base ≠ token .quote) (cells : Side → Option Nat)
    (balances : String → Option Nat) (side : Side) : balancesWith token cells balances (token side) = cells side := by
  cases side with
  | base => simp [balancesWith]
  | quote => simp [balancesWith, Ne.symm distinct]

theorem balancesWith_update {token : Side → String} (distinct : token .base ≠ token .quote) (cells : Side → Option Nat)
    (balances : String → Option Nat) (side : Side) (amount : Option Nat) :
    Function.update (balancesWith token cells balances) (token side) amount =
      balancesWith token (Function.update cells side amount) balances := by
  funext t
  by_cases here : t = token side
  · subst here
    rw [Function.update_self, balancesWith_token distinct, Function.update_self]
  · rw [Function.update_of_ne here]
    cases side with
    | base => simp [balancesWith, here]
    | quote => simp [balancesWith, here]

theorem balancesWith_self (token : Side → String) (balances : String → Option Nat) :
    balancesWith token (fun side => balances (token side)) balances = balances := by
  funext t
  unfold balancesWith
  split
  · rename_i same
    rw [same]
  · split
    · rename_i same
      rw [same]
    · rfl

variable {st}

theorem managersWith_funds : st.managersWith st.funds = st.market.managers := by
  funext id
  cases found : st.market.managers id with
  | none => simp [managersWith, found]
  | some bm =>
    have cells : st.funds (.manager id) = fun side => bm.balances (st.market.registry.token side) := by
      funext side
      simp [funds, found]
    rw [managersWith, found, cells, Option.map_some, balancesWith_self]

theorem withFunds_funds : st.withFunds st.funds = st := by
  unfold withFunds
  rw [managersWith_funds]
  rfl

variable {cells : EscrowBinding → Side → Option Nat} {escrow : EscrowBinding} {side : Side} {amount : Nat} {next : Session}

theorem managersWith_some (cells : EscrowBinding → Side → Option Nat) {id : ID} {bm : BalanceManager} (found : st.market.managers id = some bm) :
    st.managersWith cells id =
      some { bm with balances := balancesWith st.market.registry.token (cells (.manager id)) bm.balances } := by
  rw [managersWith, found, Option.map_some]

theorem managersWith_setCell {id : ID} {bm : BalanceManager} (found : st.market.managers id = some bm) :
    st.managersWith (setCell cells (.manager id) side amount) =
      Function.update (st.managersWith cells) id (some { bm with
        balances := Function.update (balancesWith st.market.registry.token (cells (.manager id)) bm.balances)
          (st.market.registry.token side) (some amount) }) := by
  funext other
  by_cases same : other = id
  · subst same
    rw [managersWith_some _ found, Function.update_self, balancesWith_update st.market.registry.distinct, setCell,
      Function.update_self]
  · have apart : EscrowBinding.manager other ≠ .manager id := fun equal => same (EscrowBinding.manager.inj equal)
    rw [Function.update_of_ne same, managersWith, managersWith, setCell, Function.update_of_ne apart]

theorem managersWith_setCell_bearer : st.managersWith (setCell cells .bearer side amount) = st.managersWith cells := by
  funext id
  rw [managersWith, managersWith, setCell, Function.update_of_ne (by simp)]

theorem purse_setCell_bearer :
    (fun which => (setCell cells .bearer side amount .bearer which).getD 0) =
      Function.update (fun which => (cells .bearer which).getD 0) side amount := by
  funext which
  by_cases same : which = side
  · subst same
    simp [setCell]
  · simp [setCell, same]

theorem funds_withFunds_manager {id : ID} {bm : BalanceManager} (found : st.market.managers id = some bm) :
    (st.withFunds cells).funds (.manager id) side = cells (.manager id) side := by
  have here := managersWith_some cells found
  simp only [funds, withFunds, here, Option.bind_some]
  exact balancesWith_token st.market.registry.distinct _ _ _

theorem funds_withFunds_bearer : (st.withFunds cells).funds .bearer side = some ((cells .bearer side).getD 0) := rfl

theorem withFunds_setCell_manager {id : ID} {bm : BalanceManager} (found : st.market.managers id = some bm) :
    st.withFunds (setCell cells (.manager id) side amount) =
      { st.withFunds cells with market := { st.market with
        managers := Function.update (st.managersWith cells) id (some { bm with
          balances := Function.update (balancesWith st.market.registry.token (cells (.manager id)) bm.balances)
            (st.market.registry.token side) (some amount) }) } } := by
  unfold withFunds
  rw [managersWith_setCell found, setCell, Function.update_of_ne (by simp)]

theorem withFunds_setCell_bearer :
    st.withFunds (setCell cells .bearer side amount) =
      { st.withFunds cells with purse := Function.update (st.withFunds cells).purse side amount } := by
  unfold withFunds
  rw [managersWith_setCell_bearer, purse_setCell_bearer]

/-- A manager that does not exist has no cell. -/
theorem manager_unknown {id : ID} (missing : st.market.managers id = none) (bm : BalanceManager) :
    (st.withFunds cells).market.manager id ≠ .ok bm := by
  intro present
  have gone : st.managersWith cells id = none := by rw [managersWith, missing, Option.map_none]
  exact absurd (Market.manager_ok present) (by simp [withFunds, gone])

theorem debitFrom_ok : (st.withFunds cells).debitFrom escrow side amount = .ok next ↔
    st.Known escrow ∧ ∃ held, (st.withFunds cells).funds escrow side = some held ∧ amount ≤ held ∧
      next = st.withFunds (setCell cells escrow side (held - amount)) := by
  cases escrow with
  | bearer =>
    simp only [debitFrom, check_pure_ok, withFunds_setCell_bearer, funds_withFunds_bearer, Option.some.injEq]
    constructor
    · rintro ⟨enough, rfl⟩
      exact ⟨trivial, _, rfl, enough, rfl⟩
    · rintro ⟨-, _, rfl, enough, rfl⟩
      exact ⟨enough, rfl⟩
  | manager id =>
    cases found : st.market.managers id with
    | none =>
      constructor
      · intro ran
        obtain ⟨bm, present, -⟩ := bind_ok.mp ran
        exact absurd present (manager_unknown found bm)
      · rintro ⟨⟨bm, present⟩, -⟩
        cases found.symm.trans present
    | some bm =>
      have here := managersWith_some cells found
      have cell : ∀ side, balancesWith st.market.registry.token (cells (.manager id)) bm.balances
          (st.market.registry.token side) = cells (.manager id) side :=
        balancesWith_token st.market.registry.distinct _ _
      rw [funds_withFunds_manager found]
      constructor
      · intro ran
        obtain ⟨current, present, ran⟩ := bind_ok.mp ran
        cases here.symm.trans (Market.manager_ok present)
        obtain ⟨after, debited, produced⟩ := bind_ok.mp ran
        cases produced
        obtain ⟨held, present, enough, rfl⟩ := BalanceManager.debit_iff.mp debited
        refine ⟨⟨bm, found⟩, held, (cell side).symm.trans present, enough, ?_⟩
        rw [withFunds_setCell_manager found]
        rfl
      · rintro ⟨-, held, present, enough, rfl⟩
        rw [withFunds_setCell_manager found]
        refine bind_ok.mpr ⟨_, need_ok.mpr here, bind_ok.mpr ⟨_, BalanceManager.debit_iff.mpr ?_, rfl⟩⟩
        exact ⟨held, (cell side).trans present, enough, rfl⟩

theorem creditTo_ok : (st.withFunds cells).creditTo escrow side amount = .ok next ↔
    st.Known escrow ∧ (escrow ≠ .bearer → (cells escrow side).getD 0 + amount < u64Bound) ∧
      next = st.withFunds (setCell cells escrow side ((cells escrow side).getD 0 + amount)) := by
  cases escrow with
  | bearer =>
    rw [creditTo, withFunds_setCell_bearer, pure_ok]
    constructor
    · rintro rfl
      exact ⟨trivial, fun apart => absurd rfl apart, rfl⟩
    · rintro ⟨-, -, rfl⟩
      rfl
  | manager id =>
    cases found : st.market.managers id with
    | none =>
      constructor
      · intro ran
        obtain ⟨bm, present, -⟩ := bind_ok.mp ran
        exact absurd present (manager_unknown found bm)
      · rintro ⟨⟨bm, present⟩, -⟩
        cases found.symm.trans present
    | some bm =>
      have here := managersWith_some cells found
      have cell : ∀ side, balancesWith st.market.registry.token (cells (.manager id)) bm.balances
          (st.market.registry.token side) = cells (.manager id) side :=
        balancesWith_token st.market.registry.distinct _ _
      constructor
      · intro ran
        obtain ⟨current, present, ran⟩ := bind_ok.mp ran
        cases here.symm.trans (Market.manager_ok present)
        obtain ⟨after, credited, produced⟩ := bind_ok.mp ran
        cases produced
        obtain ⟨small, rfl⟩ := BalanceManager.credit_iff.mp credited
        simp only [withFunds, cell] at small
        refine ⟨⟨bm, found⟩, fun _ => small, ?_⟩
        rw [withFunds_setCell_manager found]
        simp only [withFunds, cell]
      · rintro ⟨-, small, rfl⟩
        rw [withFunds_setCell_manager found]
        refine bind_ok.mpr ⟨_, need_ok.mpr here, bind_ok.mpr ⟨_, BalanceManager.credit_iff.mpr ⟨?_, rfl⟩, ?_⟩⟩
        · simp only [withFunds, cell]
          exact small (by simp)
        · simp only [withFunds, cell]
          rfl

/-! ### One leg -/

def discharge (index : Nat) (st : Session) : Leg → Result Error Session
  | .provide side => do
    let ob ← st.market.obligation index
    match (ob.leg side).escrow with
    | .manager id => do
      let market ← st.market.provideLegFromManager side index id
      pure { st with market }
    | .bearer => do
      check ((ob.leg side).owes ≤ st.purse side) .notEnough
      let market ← st.market.provideLeg side index (ob.leg side).owes
      pure { market, purse := Function.update st.purse side (st.purse side - (ob.leg side).owes) }
  | .collect side => do
    let ob ← st.market.obligation index
    match (ob.leg side).escrow with
    | .manager id => do
      let market ← st.market.collectLegToManager side index id
      pure { st with market }
    | .bearer => do
      let (due, market) ← st.market.collectLeg side index .bearer
      pure { market, purse := Function.update st.purse side.other (st.purse side.other + due) }

theorem discharge_provide {index : Nat} : discharge index st (.provide side) = .ok next ↔
    ∃ ob paid moved, st.market.obligations[index]? = some ob ∧
      st.debitFrom (ob.leg side).escrow side (ob.leg side).owes = .ok moved ∧
      ob.provide side (ob.leg side).owes = .ok paid ∧
      next = { moved with market := moved.market.paidIn index side ob paid } := by
  constructor
  · intro ran
    obtain ⟨ob, found, ran⟩ := bind_ok.mp ran
    have here := Market.obligation_ok found
    cases bound : (ob.leg side).escrow with
    -- from the manager that owes, whose balance is debited
    | manager id =>
      rw [bound] at ran
      obtain ⟨market, provided, produced⟩ := bind_ok.mp ran
      cases produced
      obtain ⟨same, again, provided⟩ := bind_ok.mp provided
      cases here.symm.trans (Market.obligation_ok again)
      obtain ⟨bm, present, provided⟩ := bind_ok.mp provided
      obtain ⟨-, provided⟩ := check_bind_ok.mp provided
      obtain ⟨after, debited, provided⟩ := bind_ok.mp provided
      obtain ⟨paid, entered, produced⟩ := bind_ok.mp provided
      cases produced
      have moved : st.debitFrom (ob.leg side).escrow side (ob.leg side).owes =
          .ok { st with market := { st.market with managers := Function.update st.market.managers id (some after) } } := by
        rw [bound]
        exact bind_ok.mpr ⟨bm, present, bind_ok.mpr ⟨after, debited, rfl⟩⟩
      exact ⟨ob, paid, _, here, moved, entered, rfl⟩
    -- from a coin of the transaction
    | bearer =>
      rw [bound] at ran
      obtain ⟨enough, ran⟩ := check_bind_ok.mp ran
      obtain ⟨market, provided, produced⟩ := bind_ok.mp ran
      cases produced
      obtain ⟨same, again, provided⟩ := bind_ok.mp provided
      cases here.symm.trans (Market.obligation_ok again)
      obtain ⟨paid, entered, produced⟩ := bind_ok.mp provided
      cases produced
      have moved : st.debitFrom (ob.leg side).escrow side (ob.leg side).owes =
          .ok { st with purse := Function.update st.purse side (st.purse side - (ob.leg side).owes) } := by
        rw [bound]
        exact check_pure_ok.mpr ⟨enough, rfl⟩
      exact ⟨ob, paid, _, here, moved, entered, rfl⟩
  · rintro ⟨ob, paid, moved, here, debited, entered, rfl⟩
    refine bind_ok.mpr ⟨ob, need_ok.mpr here, ?_⟩
    cases bound : (ob.leg side).escrow with
    | manager id =>
      rw [bound] at debited
      obtain ⟨bm, present, debited⟩ := bind_ok.mp debited
      obtain ⟨after, taken, produced⟩ := bind_ok.mp debited
      cases produced
      refine bind_ok.mpr ⟨_, bind_ok.mpr ⟨ob, need_ok.mpr here, bind_ok.mpr ⟨bm, present, check_bind_ok.mpr ⟨bound, ?_⟩⟩⟩, rfl⟩
      exact bind_ok.mpr ⟨after, taken, bind_ok.mpr ⟨paid, entered, rfl⟩⟩
    | bearer =>
      rw [bound] at debited
      obtain ⟨enough, rfl⟩ := check_pure_ok.mp debited
      refine check_bind_ok.mpr ⟨enough, bind_ok.mpr ⟨_, bind_ok.mpr ⟨ob, need_ok.mpr here, ?_⟩, rfl⟩⟩
      exact bind_ok.mpr ⟨paid, entered, rfl⟩

theorem discharge_collect {index : Nat} : discharge index st (.collect side) = .ok next ↔
    ∃ ob due paid moved, st.market.obligations[index]? = some ob ∧ ob.takeDue side = .ok (due, paid) ∧
      st.creditTo (ob.leg side).escrow side.other due = .ok moved ∧
      next = { moved with market := moved.market.paidOut index side ob paid } := by
  constructor
  · intro ran
    obtain ⟨ob, found, ran⟩ := bind_ok.mp ran
    have here := Market.obligation_ok found
    cases bound : (ob.leg side).escrow with
    | manager id =>
      rw [bound] at ran
      obtain ⟨market, collected, produced⟩ := bind_ok.mp ran
      cases produced
      obtain ⟨same, again, collected⟩ := bind_ok.mp collected
      cases here.symm.trans (Market.obligation_ok again)
      obtain ⟨bm, present, collected⟩ := bind_ok.mp collected
      obtain ⟨-, collected⟩ := check_bind_ok.mp collected
      obtain ⟨⟨due, paid⟩, taken, collected⟩ := bind_ok.mp collected
      obtain ⟨after, credited, produced⟩ := bind_ok.mp collected
      cases produced
      have moved : st.creditTo (ob.leg side).escrow side.other due =
          .ok { st with market := { st.market with managers := Function.update st.market.managers id (some after) } } := by
        rw [bound]
        exact bind_ok.mpr ⟨bm, present, bind_ok.mpr ⟨after, credited, rfl⟩⟩
      exact ⟨ob, due, paid, _, here, taken, moved, rfl⟩
    | bearer =>
      rw [bound] at ran
      obtain ⟨⟨due, market⟩, collected, produced⟩ := bind_ok.mp ran
      cases produced
      obtain ⟨same, again, collected⟩ := bind_ok.mp collected
      cases here.symm.trans (Market.obligation_ok again)
      obtain ⟨-, collected⟩ := check_bind_ok.mp collected
      obtain ⟨⟨amount, paid⟩, taken, produced⟩ := bind_ok.mp collected
      cases produced
      have moved : st.creditTo (ob.leg side).escrow side.other due =
          .ok { st with purse := Function.update st.purse side.other (st.purse side.other + due) } := by
        rw [bound]
        rfl
      exact ⟨ob, due, paid, _, here, taken, moved, rfl⟩
  · rintro ⟨ob, due, paid, moved, here, taken, credited, rfl⟩
    refine bind_ok.mpr ⟨ob, need_ok.mpr here, ?_⟩
    cases bound : (ob.leg side).escrow with
    | manager id =>
      rw [bound] at credited
      obtain ⟨bm, present, credited⟩ := bind_ok.mp credited
      obtain ⟨after, added, produced⟩ := bind_ok.mp credited
      cases produced
      refine bind_ok.mpr ⟨_, bind_ok.mpr ⟨ob, need_ok.mpr here, bind_ok.mpr ⟨bm, present, check_bind_ok.mpr ⟨bound, ?_⟩⟩⟩, rfl⟩
      exact bind_ok.mpr ⟨(due, paid), taken, bind_ok.mpr ⟨after, added, rfl⟩⟩
    | bearer =>
      rw [bound] at credited
      cases credited
      refine bind_ok.mpr ⟨(due, _), bind_ok.mpr ⟨ob, need_ok.mpr here, check_bind_ok.mpr ⟨bound, ?_⟩⟩, rfl⟩
      exact bind_ok.mpr ⟨(due, paid), taken, rfl⟩

end Session

/-! ### Any set of legs -/

abbrev LegsDone := Leg → Bool

def LegsDone.mark (done : LegsDone) (leg : Leg) : LegsDone := Function.update done leg true

/-- A side has been paid only out of what the other one paid in. -/
def LegsDone.Possible (done : LegsDone) : Prop := ∀ side, done (.collect side) = true → done (.provide side.other) = true

def LegsDone.enabled (done : LegsDone) : Leg → Bool
  | .provide side => !done (.provide side)
  | .collect side => done (.provide side.other) && !done (.collect side)

theorem LegsDone.Possible.mark {done : LegsDone} {leg : Leg} (possible : done.Possible) (enabled : done.enabled leg = true) :
    (done.mark leg).Possible := by
  intro side collected
  unfold LegsDone.mark at *
  by_cases provided : Leg.provide side.other = leg
  · rw [provided, Function.update_self]
  · rw [Function.update_of_ne provided]
    by_cases here : Leg.collect side = leg
    · subst here
      simp only [LegsDone.enabled, Bool.and_eq_true] at enabled
      exact enabled.1
    · rw [Function.update_of_ne here] at collected
      exact possible side collected

namespace FillObligation

/-- An obligation just opened: nothing has moved, the escrows differ, and each side owes what the other is due
and the fee. -/
structure Fresh (ob : FillObligation) : Prop where
  unprovided : ∀ side, (ob.leg side).provided = false
  uncollected : ∀ side, (ob.leg side).collected = false
  empty : ∀ side, ob.pool side = 0
  apart : (ob.leg .base).escrow ≠ (ob.leg .quote).escrow
  owes : ∀ side, (ob.leg side).owes = (ob.leg side.other).due + ob.fee side
  small : ∀ side, (ob.leg side).owes < u64Bound

def doneWith (ob : FillObligation) (done : LegsDone) : FillObligation :=
  { ob with
    leg := fun side => { ob.leg side with provided := done (.provide side), collected := done (.collect side) }
    pool := fun side => (if done (.provide side) = true then (ob.leg side).owes else 0) -
      (if done (.collect side.other) = true then (ob.leg side.other).due else 0) }

variable {ob paid : FillObligation} {done : LegsDone} {side : Side}

theorem Fresh.escrow_ne (fresh : ob.Fresh) (side : Side) : (ob.leg side).escrow ≠ (ob.leg side.other).escrow := by
  cases side with
  | base => exact fresh.apart
  | quote => exact Ne.symm fresh.apart

theorem Fresh.doneWith_none (fresh : ob.Fresh) : ob.doneWith (fun _ => false) = ob := by
  have legs : (fun side => { ob.leg side with provided := false, collected := false }) = ob.leg := by
    funext side
    have unprovided := fresh.unprovided side
    have uncollected := fresh.uncollected side
    cases leg : ob.leg side
    rw [leg] at unprovided uncollected
    cases unprovided
    cases uncollected
    rfl
  have pools : (fun _ => 0) = ob.pool := by
    funext side
    rw [fresh.empty side]
  simp only [doneWith, legs, Bool.false_eq_true, if_false, Nat.sub_zero, pools]

theorem pool_unprovided (possible : done.Possible) (unpaid : done (.provide side) = false) :
    done (.collect side.other) = false := by
  by_contra taken
  have paidIn := possible side.other (by simpa using taken)
  rw [Side.other_other, unpaid] at paidIn
  cases paidIn

theorem doneWith_mark_provide (possible : done.Possible) (unpaid : done (.provide side) = false) :
    ob.doneWith (done.mark (.provide side)) = { ob.doneWith done with
      pool := Function.update (ob.doneWith done).pool side (ob.leg side).owes
      leg := Function.update (ob.doneWith done).leg side { (ob.doneWith done).leg side with provided := true } } := by
  have full := pool_unprovided possible unpaid
  simp only [doneWith, LegsDone.mark, mk.injEq, true_and, and_true]
  constructor
  · funext which
    by_cases here : which = side
    · subst here
      simp
    · simp [here]
  · funext which
    by_cases here : which = side
    · subst here
      simp [full]
    · simp [here]

theorem provide_doneWith (fresh : ob.Fresh) (possible : done.Possible) :
    (ob.doneWith done).provide side (ob.leg side).owes = .ok paid ↔
      done (.provide side) = false ∧ paid = ob.doneWith (done.mark (.provide side)) := by
  simp only [provide, bind_ok, check_ok, pure_ok, exists_const, addU64, fit_ok]
  constructor
  · rintro ⟨unpaid, -, total, ⟨-, rfl⟩, rfl⟩
    have empty : (ob.doneWith done).pool side = 0 := by
      simp [doneWith, show done (.provide side) = false from unpaid]
    refine ⟨unpaid, ?_⟩
    rw [doneWith_mark_provide possible unpaid, empty, Nat.zero_add]
  · rintro ⟨unpaid, rfl⟩
    have empty : (ob.doneWith done).pool side = 0 := by simp [doneWith, unpaid]
    refine ⟨unpaid, rfl, (ob.leg side).owes, ⟨?_, ?_⟩, ?_⟩
    · rw [empty, Nat.zero_add]
      exact fresh.small side
    · rw [empty, Nat.zero_add]
    · rw [doneWith_mark_provide possible unpaid]

theorem doneWith_mark_collect (provided : done (.provide side.other) = true) (uncollected : done (.collect side) = false) :
    ob.doneWith (done.mark (.collect side)) = { ob.doneWith done with
      pool := Function.update (ob.doneWith done).pool side.other
        ((ob.doneWith done).pool side.other - (ob.leg side).due)
      leg := Function.update (ob.doneWith done).leg side { (ob.doneWith done).leg side with collected := true } } := by
  simp only [doneWith, LegsDone.mark, mk.injEq, true_and, and_true]
  constructor
  · funext which
    by_cases here : which = side
    · subst here
      simp
    · simp [here]
  · funext which
    rcases side.eq_or_other which with rfl | rfl
    · simp [which.other_ne, Ne.symm which.other_ne]
    · simp [provided, uncollected]

/-- A leg of a partly discharged obligation is paid out once, after the other was paid in. -/
theorem takeDue_doneWith (fresh : ob.Fresh) {due : Nat} : (ob.doneWith done).takeDue side = .ok (due, paid) ↔
    done (.provide side.other) = true ∧ done (.collect side) = false ∧ due = (ob.leg side).due ∧
      paid = ob.doneWith (done.mark (.collect side)) := by
  simp only [takeDue, bind_ok, check_ok, pure_ok, exists_const, Prod.mk.injEq]
  constructor
  · rintro ⟨provided, uncollected, -, rfl, rfl⟩
    exact ⟨provided, uncollected, rfl, (doneWith_mark_collect provided uncollected).symm⟩
  · rintro ⟨provided, uncollected, rfl, rfl⟩
    refine ⟨provided, uncollected, ?_, rfl, (doneWith_mark_collect provided uncollected).symm⟩
    have owes := fresh.owes side.other
    rw [Side.other_other] at owes
    simp only [doneWith, provided, if_true, Side.other_other, uncollected, Bool.false_eq_true, if_false]
    omega

end FillObligation

namespace Session

variable (st : Session) (index : Nat) (ob : FillObligation)

/-- Every cell after some legs: a leg takes what it owes out of one and puts what it is due into another. -/
def cellsAfter (done : LegsDone) (escrow : EscrowBinding) (side : Side) : Option Nat :=
  if escrow = (ob.leg side).escrow then
    if done (.provide side) = true then (st.funds escrow side).map (· - (ob.leg side).owes) else st.funds escrow side
  else if escrow = (ob.leg side.other).escrow then
    if done (.collect side.other) = true then some ((st.funds escrow side).getD 0 + (ob.leg side.other).due)
    else st.funds escrow side
  else st.funds escrow side

def noted (hash : Bytes) (amount : Nat) (leg : Leg) (side : Side) (done : LegsDone) : Nat :=
  if done leg = true ∧ ob.orderOf side = some hash then amount else 0

def tallyAfter (done : LegsDone) (hash : Bytes) : Tally :=
  (st.market.tally hash).add ⟨0,
    noted ob hash (ob.leg .base).owes (.provide .base) .base done +
      noted ob hash (ob.leg .quote).owes (.provide .quote) .quote done,
    noted ob hash (ob.gross .base) (.collect .base) .base done +
      noted ob hash (ob.gross .quote) (.collect .quote) .quote done⟩

/-- The session with the obligation and the histories as after some legs, before any funds move. -/
def staged (done : LegsDone) : Session :=
  { st with market := { st.market with
      obligations := st.market.obligations.set index (ob.doneWith done)
      tally := st.tallyAfter ob done } }

def after (done : LegsDone) : Session := (st.staged index ob done).withFunds (st.cellsAfter ob done)

def Funded : Leg → Prop
  | .provide side => st.Known (ob.leg side).escrow ∧
      ∃ held, st.funds (ob.leg side).escrow side = some held ∧ (ob.leg side).owes ≤ held
  | .collect side => st.Known (ob.leg side).escrow ∧
      ((ob.leg side).escrow ≠ .bearer → (st.funds (ob.leg side).escrow side.other).getD 0 + (ob.leg side).due < u64Bound)

variable {st index ob}
variable {done : LegsDone} {side : Side} {next : Session}

theorem tallyAfter_provide (unpaid : done (.provide side) = false) :
    st.tallyAfter ob (done.mark (.provide side)) =
      noteFor (st.tallyAfter ob done) (ob.orderOf side) ⟨0, (ob.leg side).owes, 0⟩ := by
  funext hash
  rw [noteFor_apply]
  by_cases ours : ob.orderOf side = some hash
  · rw [if_pos ours]
    cases side <;> apply Tally.ext <;> simp [tallyAfter, Tally.add, noted, LegsDone.mark, unpaid, ours] <;> omega
  · rw [if_neg ours]
    cases side <;> simp [tallyAfter, Tally.add, noted, LegsDone.mark, ours]

theorem tallyAfter_collect (uncollected : done (.collect side) = false) :
    st.tallyAfter ob (done.mark (.collect side)) =
      noteFor (st.tallyAfter ob done) (ob.orderOf side) ⟨0, 0, ob.gross side⟩ := by
  funext hash
  rw [noteFor_apply]
  by_cases ours : ob.orderOf side = some hash
  · rw [if_pos ours]
    cases side <;> apply Tally.ext <;> simp [tallyAfter, Tally.add, noted, LegsDone.mark, uncollected, ours] <;> omega
  · rw [if_neg ours]
    cases side <;> simp [tallyAfter, Tally.add, noted, LegsDone.mark, ours]

theorem cellsAfter_unprovided (unpaid : done (.provide side) = false) :
    st.cellsAfter ob done (ob.leg side).escrow side = st.funds (ob.leg side).escrow side := by
  simp [cellsAfter, unpaid]

theorem cellsAfter_uncollected (fresh : ob.Fresh) (uncollected : done (.collect side) = false) :
    st.cellsAfter ob done (ob.leg side).escrow side.other = st.funds (ob.leg side).escrow side.other := by
  simp [cellsAfter, fresh.escrow_ne, uncollected]

theorem cellsAfter_provide (fresh : ob.Fresh) {held : Nat} (holds : st.funds (ob.leg side).escrow side = some held) :
    setCell (st.cellsAfter ob done) (ob.leg side).escrow side (held - (ob.leg side).owes) =
      st.cellsAfter ob (done.mark (.provide side)) := by
  have apart := fresh.escrow_ne side
  funext escrow which
  by_cases here : escrow = (ob.leg side).escrow
  · subst here
    rcases side.eq_or_other which with rfl | rfl
    · simp [setCell, cellsAfter, LegsDone.mark, holds]
    · simp [setCell, cellsAfter, LegsDone.mark, apart, side.other_ne]
  · rcases side.eq_or_other which with rfl | rfl
    · simp [setCell, cellsAfter, LegsDone.mark, here]
    · simp [setCell, cellsAfter, LegsDone.mark, here, side.other_ne]

theorem cellsAfter_collect (fresh : ob.Fresh) :
    setCell (st.cellsAfter ob done) (ob.leg side).escrow side.other
        ((st.funds (ob.leg side).escrow side.other).getD 0 + (ob.leg side).due) =
      st.cellsAfter ob (done.mark (.collect side)) := by
  have apart := fresh.escrow_ne side
  funext escrow which
  by_cases here : escrow = (ob.leg side).escrow
  · subst here
    rcases side.eq_or_other which with rfl | rfl
    · simp [setCell, cellsAfter, LegsDone.mark, Ne.symm which.other_ne]
    · simp [setCell, cellsAfter, LegsDone.mark, apart]
  · rcases side.eq_or_other which with rfl | rfl
    · simp [setCell, cellsAfter, LegsDone.mark, here, which.other_ne]
    · simp [setCell, cellsAfter, LegsDone.mark, here]

theorem after_none (found : st.market.obligations[index]? = some ob) (fresh : ob.Fresh) :
    st.after index ob (fun _ => false) = st := by
  have cells : st.cellsAfter ob (fun _ => false) = st.funds := by
    funext escrow side
    simp [cellsAfter]
  have tallies : st.tallyAfter ob (fun _ => false) = st.market.tally := by
    funext hash
    simp [tallyAfter, noted, Tally.add]
  have here : st.market.obligations.set index ob = st.market.obligations := by
    obtain ⟨bound, same⟩ := List.getElem?_eq_some_iff.mp found
    rw [← same, List.set_getElem_self]
  have opened : st.staged index ob (fun _ => false) = st := by
    rw [staged, tallies, fresh.doneWith_none, here]
  rw [after, cells, opened]
  exact withFunds_funds

theorem after_obligation (found : st.market.obligations[index]? = some ob) :
    (st.after index ob done).market.obligations[index]? = some (ob.doneWith done) := by
  obtain ⟨bound, -⟩ := List.getElem?_eq_some_iff.mp found
  exact List.getElem?_set_self bound

/-- A cell of a manager that exists, or of the transaction, holds what was put there. -/
theorem funds_after {escrow : EscrowBinding} (known : st.Known escrow)
    (same : st.cellsAfter ob done escrow side = st.funds escrow side) :
    (st.after index ob done).funds escrow side = st.funds escrow side := by
  cases escrow with
  | bearer =>
    have cell : st.funds .bearer side = some (st.purse side) := rfl
    rw [after, funds_withFunds_bearer, same, cell, Option.getD_some]
  | manager id =>
    obtain ⟨bm, present⟩ := known
    have staged : (st.staged index ob done).market.managers id = some bm := present
    rw [after, funds_withFunds_manager staged, same]

theorem staged_paidIn {cells : EscrowBinding → Side → Option Nat} (unpaid : done (.provide side) = false) :
    { (st.staged index ob done).withFunds cells with
      market := ((st.staged index ob done).withFunds cells).market.paidIn index side (ob.doneWith done)
        (ob.doneWith (done.mark (.provide side))) } =
      (st.staged index ob (done.mark (.provide side))).withFunds cells := by
  have tallies : noteFor (st.tallyAfter ob done) ((ob.doneWith done).orderOf side) ⟨0, (ob.leg side).owes, 0⟩ =
      st.tallyAfter ob (done.mark (.provide side)) := (tallyAfter_provide unpaid).symm
  simp only [withFunds, staged, Market.paidIn, List.set_set]
  rw [← tallies]
  rfl

theorem staged_paidOut {cells : EscrowBinding → Side → Option Nat} (uncollected : done (.collect side) = false) :
    { (st.staged index ob done).withFunds cells with
      market := ((st.staged index ob done).withFunds cells).market.paidOut index side (ob.doneWith done)
        (ob.doneWith (done.mark (.collect side))) } =
      (st.staged index ob (done.mark (.collect side))).withFunds cells := by
  have tallies : noteFor (st.tallyAfter ob done) ((ob.doneWith done).orderOf side) ⟨0, 0, ob.gross side⟩ =
      st.tallyAfter ob (done.mark (.collect side)) := (tallyAfter_collect uncollected).symm
  simp only [withFunds, staged, Market.paidOut, List.set_set]
  rw [← tallies]
  rfl

/-- Paying a leg in, whatever was done before it. -/
theorem discharge_after_provide (found : st.market.obligations[index]? = some ob) (fresh : ob.Fresh)
    (possible : done.Possible) : discharge index (st.after index ob done) (.provide side) = .ok next ↔
      done (.provide side) = false ∧ st.Funded ob (.provide side) ∧
        next = st.after index ob (done.mark (.provide side)) := by
  have here : (st.after index ob done).market.obligations[index]? = some (ob.doneWith done) := after_obligation found
  rw [discharge_provide]
  constructor
  · rintro ⟨other, paid, moved, same, debited, entered, rfl⟩
    cases here.symm.trans same
    obtain ⟨unpaid, rfl⟩ := (FillObligation.provide_doneWith fresh possible).mp entered
    obtain ⟨known, held, holds, enough, rfl⟩ := debitFrom_ok.mp debited
    have cell : (st.after index ob done).funds (ob.leg side).escrow side = st.funds (ob.leg side).escrow side :=
      funds_after known (cellsAfter_unprovided unpaid)
    have full : st.funds (ob.leg side).escrow side = some held := cell.symm.trans holds
    refine ⟨unpaid, ⟨known, held, full, enough⟩, ?_⟩
    rw [after, ← cellsAfter_provide fresh full]
    exact staged_paidIn unpaid
  · rintro ⟨unpaid, ⟨known, held, full, enough⟩, rfl⟩
    have cell : (st.after index ob done).funds (ob.leg side).escrow side = st.funds (ob.leg side).escrow side :=
      funds_after known (cellsAfter_unprovided unpaid)
    refine ⟨ob.doneWith done, _, _, here, debitFrom_ok.mpr ⟨known, held, cell.trans full, enough, rfl⟩,
      (FillObligation.provide_doneWith fresh possible).mpr ⟨unpaid, rfl⟩, ?_⟩
    rw [after, ← cellsAfter_provide fresh full]
    exact (staged_paidIn unpaid).symm

/-- Paying a leg out, whatever was done before it. -/
theorem discharge_after_collect (found : st.market.obligations[index]? = some ob) (fresh : ob.Fresh) :
    discharge index (st.after index ob done) (.collect side) = .ok next ↔
      (done (.provide side.other) = true ∧ done (.collect side) = false) ∧ st.Funded ob (.collect side) ∧
        next = st.after index ob (done.mark (.collect side)) := by
  have here : (st.after index ob done).market.obligations[index]? = some (ob.doneWith done) := after_obligation found
  rw [discharge_collect]
  constructor
  · rintro ⟨other, due, paid, moved, same, taken, credited, rfl⟩
    cases here.symm.trans same
    obtain ⟨provided, uncollected, rfl, rfl⟩ := (FillObligation.takeDue_doneWith fresh).mp taken
    obtain ⟨known, small, rfl⟩ := creditTo_ok.mp credited
    have cell : st.cellsAfter ob done (ob.leg side).escrow side.other = st.funds (ob.leg side).escrow side.other :=
      cellsAfter_uncollected fresh uncollected
    have owner : ((ob.doneWith done).leg side).escrow = (ob.leg side).escrow := rfl
    rw [owner, cell] at small
    rw [owner, cell, cellsAfter_collect fresh]
    exact ⟨⟨provided, uncollected⟩, ⟨known, small⟩, staged_paidOut uncollected⟩
  · rintro ⟨⟨provided, uncollected⟩, ⟨known, small⟩, rfl⟩
    have cell : st.cellsAfter ob done (ob.leg side).escrow side.other = st.funds (ob.leg side).escrow side.other :=
      cellsAfter_uncollected fresh uncollected
    refine ⟨ob.doneWith done, _, _, _, here, (FillObligation.takeDue_doneWith fresh).mpr ⟨provided, uncollected, rfl, rfl⟩,
      creditTo_ok.mpr ⟨known, ?_, rfl⟩, ?_⟩
    · intro managed
      show (st.cellsAfter ob done (ob.leg side).escrow side.other).getD 0 + (ob.leg side).due < u64Bound
      rw [cell]
      exact small managed
    · have owner : ((ob.doneWith done).leg side).escrow = (ob.leg side).escrow := rfl
      rw [owner, cell, cellsAfter_collect fresh]
      exact (staged_paidOut uncollected).symm

/-- What one leg does, whatever was done before it. -/
theorem discharge_after (found : st.market.obligations[index]? = some ob) (fresh : ob.Fresh) (possible : done.Possible)
    (leg : Leg) : discharge index (st.after index ob done) leg = .ok next ↔
      done.enabled leg = true ∧ st.Funded ob leg ∧ next = st.after index ob (done.mark leg) := by
  cases leg with
  | provide side =>
    rw [discharge_after_provide found fresh possible]
    simp [LegsDone.enabled]
  | collect side =>
    rw [discharge_after_collect found fresh]
    simp [LegsDone.enabled]

def inOrder : LegsDone → List Leg → Bool
  | _, [] => true
  | done, leg :: rest => done.enabled leg && inOrder (done.mark leg) rest

def markAll : LegsDone → List Leg → LegsDone := List.foldl LegsDone.mark

/-- What a list of legs does, whatever was done before it. -/
theorem exec_discharge (found : st.market.obligations[index]? = some ob) (fresh : ob.Fresh) {legs : List Leg}
    (possible : done.Possible) : exec (discharge index) (st.after index ob done) legs = .ok next ↔
      inOrder done legs = true ∧ (∀ leg ∈ legs, st.Funded ob leg) ∧ next = st.after index ob (markAll done legs) := by
  induction legs generalizing done with
  | nil => simp [inOrder, markAll, eq_comm]
  | cons leg rest ih =>
    rw [exec_cons_ok]
    constructor
    · rintro ⟨middle, moved, tail⟩
      obtain ⟨enabled, funded, rfl⟩ := (discharge_after found fresh possible leg).mp moved
      obtain ⟨ordered, others, rfl⟩ := (ih (possible.mark enabled)).mp tail
      refine ⟨?_, List.forall_mem_cons.mpr ⟨funded, others⟩, rfl⟩
      rw [inOrder, enabled, ordered]
      rfl
    · rintro ⟨ordered, funded, rfl⟩
      rw [inOrder, Bool.and_eq_true] at ordered
      obtain ⟨first, others⟩ := List.forall_mem_cons.mp funded
      exact ⟨_, (discharge_after found fresh possible leg).mpr ⟨ordered.1, first, rfl⟩,
        (ih (possible.mark ordered.1)).mpr ⟨ordered.2, others, rfl⟩⟩

end Session

end SuiOptions.Exchange
