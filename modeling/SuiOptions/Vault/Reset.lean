import SuiOptions.Vault.Frames
import SuiOptions.Vault.Appraised

/-! The junior reset over whole runs.

Of the book, a reset depends on the start of the impairment, the pending proposal
and the junior generation. Only a capital sync, a proposal and an execution change
them; what a sync finds is read off the state before the step.
-/

set_option autoImplicit false

namespace SuiOptions.Vault

open Execution Move
open Exchange (ID Address DomainState)

/-- What a capital sync compares: the appraised value and the accrued senior claim. -/
structure Sync where
  time : Nat
  nav : Nat
  claim : Nat
  seniorShares : Nat
  deriving DecidableEq, Repr

/-- The value does not cover a claim that somebody holds. -/
def Sync.impaired (sync : Sync) : Prop := 0 < sync.seniorShares ∧ sync.nav < sync.claim

instance (sync : Sync) : Decidable sync.impaired := inferInstanceAs (Decidable (_ ∧ _))

structure Watch where
  impairedSinceMs : Option Nat
  resetProposal : Option JuniorResetProposal
  generation : Nat

def TrancheBook.watch (book : TrancheBook) : Watch :=
  ⟨book.impairedSinceMs, book.resetProposal, book.activeJuniorGeneration⟩

/-- What a sync of a vault with tranches leaves: an impairment keeps its start, a recovery clears both. -/
def Watch.synced (watch : Watch) (sync : Sync) : Watch :=
  if sync.impaired then { watch with impairedSinceMs := some (watch.impairedSinceMs.getD sync.time) }
  else { watch with impairedSinceMs := none, resetProposal := none }

namespace TrancheBook

variable {book next : TrancheBook} {cs : CapitalStructure} {now : Nat}

theorem accrue_watch (ran : book.accrue cs now = .ok next) : next.watch = book.watch := by
  unfold accrue at ran
  split at ran
  · cases ran
    rfl
  · split at ran
    · cases ran
      rfl
    · split at ran
      · cases ran
        rfl
      · simp only [bind_ok, pure_ok] at ran
        obtain ⟨_, _, _, _, rfl⟩ := ran
        rfl

theorem updateRiskState_watch (tranched : cs.isTranched = true) (book : TrancheBook) (nav juniorNav now : Nat) :
    (book.updateRiskState cs nav juniorNav now).watch =
      book.watch.synced ⟨now, nav, book.seniorClaim, book.seniorShares⟩ := by
  cases cs with
  | untranched => cases tranched
  | seniorJunior hurdle target maintenance upside =>
    let found : Sync := ⟨now, nav, book.seniorClaim, book.seniorShares⟩
    by_cases short : 0 < book.seniorShares ∧ nav < book.seniorClaim
    · have impaired : found.impaired := short
      simp only [updateRiskState, if_pos short]
      exact (if_pos impaired).symm
    · have recovered : ¬ found.impaired := short
      simp only [updateRiskState, if_neg short]
      exact (if_neg recovered).symm

theorem onDeposit_watch {tranche : Tranche} {value shares : Nat} (ran : book.onDeposit tranche value shares = .ok next) :
    next.watch = book.watch := by
  cases tranche
  case senior =>
    simp only [onDeposit, bind_ok, pure_ok] at ran
    obtain ⟨_, _, _, _, _, _, rfl⟩ := ran
    rfl
  all_goals
    simp only [onDeposit, bind_ok, pure_ok] at ran
    obtain ⟨_, _, rfl⟩ := ran
    rfl

theorem onFulfill_watch {tranche : Tranche} {shares claim supply : Nat}
    (ran : book.onFulfill tranche shares claim supply = .ok next) : next.watch = book.watch := by
  cases tranche
  case senior =>
    simp only [onFulfill, bind_ok] at ran
    obtain ⟨_, _, ran⟩ := ran
    split at ran
    · cases ran
      rfl
    · simp only [bind_ok, pure_ok] at ran
      obtain ⟨_, _, _, _, rfl⟩ := ran
      rfl
  all_goals
    simp only [onFulfill, bind_ok, pure_ok] at ran
    obtain ⟨_, _, rfl⟩ := ran
    rfl

/-- A proposal needs a recorded impairment and none pending, and waits seven days from both starts. -/
theorem proposeReset_watch {nav claim required : Nat} (ran : book.proposeReset now nav claim required = .ok next) :
    book.resetProposal = none ∧ ∃ start proposal, book.impairedSinceMs = some start ∧
      next.watch = { book.watch with resetProposal := some proposal } ∧ proposal.proposedAtMs = now ∧
      proposal.executableAtMs = max (start + resetSeasoningMs) (now + resetSeasoningMs) := by
  simp only [proposeReset, addU64, bind_ok, check_ok, exists_const, need_ok, fit_ok, pure_ok] at ran
  obtain ⟨none, start, started, _, ⟨_, rfl⟩, _, ⟨_, rfl⟩, rfl⟩ := ran
  exact ⟨none, start, _, started, rfl, rfl, rfl⟩

theorem executeReset_watch {minted : Nat} (ran : book.executeReset minted = .ok next) :
    next.watch = ⟨none, none, book.activeJuniorGeneration + 1⟩ := by
  simp only [executeReset, addU64, bind_ok, fit_ok, pure_ok] at ran
  obtain ⟨_, ⟨_, rfl⟩, rfl⟩ := ran
  rfl

end TrancheBook

variable {Obj : Type} {v next : TradingVault Obj}

/-! ### One sync -/

namespace TradingVault

def sync (v : TradingVault Obj) (nav now : Nat) : Option Sync :=
  (v.book.accrue v.capital now).toOption.map fun accrued => ⟨now, nav, accrued.seniorClaim, accrued.seniorShares⟩

structure SyncedTo (v : TradingVault Obj) (sync : Sync) (next : Watch) : Prop where
  tranched : v.capital.isTranched = true → next = v.book.watch.synced sync
  plain : v.capital.isTranched = false → next = v.book.watch

theorem syncCapital_watch {cfg : VaultProtocolConfig} {nav now seniorNav juniorNav : Nat}
    (ran : v.syncCapital cfg nav now = .ok (next, seniorNav, juniorNav)) :
    ∃ found, v.sync nav now = some found ∧ SyncedTo v found next.book.watch := by
  simp only [syncCapital, bind_ok, pure_ok, Prod.exists, Prod.mk.injEq] at ran
  obtain ⟨accrued, accrues, senior, junior, _, breached, _, rfl, _⟩ := ran
  refine ⟨⟨now, nav, accrued.seniorClaim, accrued.seniorShares⟩, by simp [sync, accrues, Except.toOption], ?_, ?_⟩
  · intro tranched
    rw [← TrancheBook.accrue_watch accrues]
    exact TrancheBook.updateRiskState_watch tranched accrued nav junior now
  · intro plain
    rw [← TrancheBook.accrue_watch accrues]
    cases capital : v.capital with
    | untranched => rfl
    | seniorJunior hurdle target maintenance upside => rw [capital] at plain; cases plain

theorem proposeJuniorReset_watch {cfg : VaultProtocolConfig} {a : Appraisal Obj} {now : Nat}
    (ran : v.proposeJuniorReset cfg a now = .ok next) :
    v.capital.isTranched = true ∧ ∃ nav synced seniorNav juniorNav, v.consumeAppraisal a = .ok nav ∧
      v.syncCapital cfg nav now = .ok (synced, seniorNav, juniorNav) ∧ synced.book.resetProposal = none ∧
      ∃ start proposal, synced.book.impairedSinceMs = some start ∧
        next.book.watch = { synced.book.watch with resetProposal := some proposal } ∧ proposal.proposedAtMs = now ∧
        proposal.executableAtMs = max (start + resetSeasoningMs) (now + resetSeasoningMs) := by
  simp only [proposeJuniorReset, bind_ok, check_ok, exists_const, Prod.exists, pure_ok] at ran
  obtain ⟨_, tranched, nav, consumed, synced, seniorNav, juniorNav, syncs, _, _, _, _, _, book, proposes, rfl⟩ := ran
  exact ⟨tranched, nav, synced, seniorNav, juniorNav, consumed, syncs, TrancheBook.proposeReset_watch proposes⟩

theorem executeJuniorReset_watch {cfg : VaultProtocolConfig} {lp : DomainState} {sender : Address} {a : Appraisal Obj}
    {t : TypeName} {amount now : Nat} {id : ID} (ran : v.executeJuniorReset cfg lp sender a t amount now id = .ok next) :
    ∃ nav synced seniorNav juniorNav proposal, v.consumeAppraisal a = .ok nav ∧
      v.syncCapital cfg nav now = .ok (synced, seniorNav, juniorNav) ∧ synced.book.resetProposal = some proposal ∧
      proposal.executableAtMs ≤ now ∧ next.book.watch = ⟨none, none, synced.book.activeJuniorGeneration + 1⟩ := by
  simp only [executeJuniorReset, bind_ok, check_ok, exists_const, need_ok, Prod.exists, pure_ok] at ran
  obtain ⟨_, _, _, _, _, nav, consumed, synced, seniorNav, juniorNav, syncs, proposal, proposed, ready, _, _, _, _, _, _, _,
    _, _, _, _, _, book, resets, _, _, rfl⟩ := ran
  exact ⟨nav, synced, seniorNav, juniorNav, proposal, consumed, syncs, proposed, ready,
    TrancheBook.executeReset_watch resets⟩

theorem fulfillNext_watch {cfg : VaultProtocolConfig} {f : Fulfillment} {p : TypeName} {now : Nat} {id : ID}
    {outcome : Option Receipt} (ran : v.fulfillNext cfg f p now id = .ok (next, outcome)) :
    next.book.watch = v.book.watch := by
  rcases fulfillNext_ok ran with ⟨rfl, _⟩ | ⟨receipt, _, paid⟩
  · rfl
  · obtain ⟨found, _, _, settled⟩ := paid
    obtain ⟨_, burned, minted, cut, _, burns, mints, cuts, pays⟩ := settleRequest_ok settled
    obtain ⟨_, rfl, _⟩ := payOut_ok pays
    obtain ⟨_, rfl, _⟩ := payOut_ok cuts
    have credited : minted.book.watch = burned.book.watch := by
      rcases mintFee_ok mints with rfl | ⟨_, _, _, booked, credits⟩
      · rfl
      · obtain ⟨_, rfl, _⟩ := creditCommitment_ok credits
        exact TrancheBook.onDeposit_watch booked
    refine credited.trans ?_
    rcases burnShares_ok burns with ⟨_, rfl⟩ | ⟨_, _, booked, rfl⟩
    · rfl
    · exact TrancheBook.onFulfill_watch booked

end TradingVault

/-! ### One step -/

def World.syncOf (w : World Obj) : Action Obj → Option Sync
  | .use _ .crankAppraisal => none
  | .use index _ => (w.appraisals[index]?).bind fun a => w.vault.sync a.totalValue w.env.now
  | .beginFulfillment index _ => (w.appraisals[index]?).bind fun a => w.vault.sync a.totalValue w.env.now
  | _ => none

def Action.executes : Action Obj → Bool
  | .use _ (.executeJuniorReset ..) => true
  | _ => false

def Action.proposes : Action Obj → Bool
  | .use _ .proposeJuniorReset => true
  | _ => false

theorem Action.executes_of_proposes {action : Action Obj} (proposes : action.proposes = true) :
    action.executes = false := by
  cases action with
  | use index u =>
    cases u with
    | proposeJuniorReset => rfl
    | _ => cases proposes
  | _ => rfl

open TradingVault in
inductive World.Watched (w : World Obj) (action : Action Obj) (next : Watch) : Prop where
  | still (none : w.syncOf action = none) (other : action.executes = false) (same : next = w.vault.book.watch)
  | synced (found : Sync) (syncs : w.syncOf action = some found) (other : action.executes = false)
      (moved : SyncedTo w.vault found next)
  | proposed (found : Sync) (syncs : w.syncOf action = some found) (proposes : action.proposes = true)
      (tranched : w.vault.capital.isTranched = true) (start : Nat) (proposal : JuniorResetProposal)
      (free : (w.vault.book.watch.synced found).resetProposal = none)
      (started : (w.vault.book.watch.synced found).impairedSinceMs = some start)
      (moved : next = { w.vault.book.watch.synced found with resetProposal := some proposal })
      (noticed : proposal.proposedAtMs = w.env.now)
      (seasoned : proposal.executableAtMs = max (start + resetSeasoningMs) (w.env.now + resetSeasoningMs))
  | executed (found : Sync) (syncs : w.syncOf action = some found) (executes : action.executes = true)
      (between : Watch) (moved : SyncedTo w.vault found between) (proposal : JuniorResetProposal)
      (pending : between.resetProposal = some proposal) (ready : proposal.executableAtMs ≤ w.env.now)
      (wiped : next = ⟨none, none, between.generation + 1⟩)

open TradingVault in
theorem depositInternal_watch {cfg : VaultProtocolConfig} {lp : DomainState} {sender : Address} {a : Appraisal Obj}
    {t : TypeName} {amount now navAfter : Nat} {att : Option PriceAttestation} {tranche : Tranche} {id : ID}
    {position : VaultPosition}
    (ran : v.depositInternal cfg lp sender a t amount att tranche now id = .ok (next, position, navAfter)) :
    ∃ nav synced seniorNav juniorNav, v.consumeAppraisal a = .ok nav ∧
      v.syncCapital cfg nav now = .ok (synced, seniorNav, juniorNav) ∧ next.book.watch = synced.book.watch := by
  obtain ⟨_, _, _, nav, synced, seniorNav, juniorNav, _, consumed, syncs, issued⟩ := depositInternal_ok ran
  exact ⟨nav, synced, seniorNav, juniorNav, consumed, syncs, TrancheBook.onDeposit_watch issued.booked⟩

open TradingVault in
theorem Use.synced {env : Env} {a : Appraisal Obj} {u : Use} (ran : u.run env v a = .ok next)
    (sees : u ≠ .crankAppraisal) (free : u ≠ .proposeJuniorReset)
    (keeps : ∀ sender t amount id, u ≠ .executeJuniorReset sender t amount id) :
    ∃ nav synced seniorNav juniorNav, v.consumeAppraisal a = .ok nav ∧
      v.syncCapital env.cfg nav env.now = .ok (synced, seniorNav, juniorNav) ∧ next.book.watch = synced.book.watch := by
  cases u with
  | crankAppraisal => exact absurd rfl sees
  | proposeJuniorReset => exact absurd rfl free
  | executeJuniorReset sender t amount id => exact absurd rfl (keeps sender t amount id)
  | crankCapital =>
    obtain ⟨nav, seniorNav, juniorNav, consumed, syncs⟩ := crankCapital_ok ran
    exact ⟨nav, next, seniorNav, juniorNav, consumed, syncs, rfl⟩
  | deposit sender t amount att tranche id =>
    obtain ⟨w, _, _, deposited, rfl⟩ := deposit_ok ran
    obtain ⟨nav, synced, seniorNav, juniorNav, consumed, syncs, same⟩ := depositInternal_watch deposited
    exact ⟨nav, synced, seniorNav, juniorNav, consumed, syncs, same⟩
  | depositIntoCommitment sender cap t amount att id =>
    obtain ⟨_, _, _, _, _, deposited, funds, rfl⟩ := depositIntoCommitment_ok ran
    obtain ⟨_, rfl, _⟩ := fundCommitment_ok funds
    obtain ⟨nav, synced, seniorNav, juniorNav, consumed, syncs, same⟩ := depositInternal_watch deposited
    exact ⟨nav, synced, seniorNav, juniorNav, consumed, syncs, same⟩
  | releaseExternal cap t amount =>
    obtain ⟨_, _, nav, synced, seniorNav, juniorNav, _, _, _, consumed, syncs, _, _, _, rfl⟩ := releaseExternal_ok ran
    exact ⟨nav, synced, seniorNav, juniorNav, consumed, syncs, rfl⟩
  | releaseCommitment cap shares id =>
    obtain ⟨_, nav, synced, seniorNav, juniorNav, released, _, consumed, syncs, splits, rfl⟩ := releaseCommitment_ok ran
    refine ⟨nav, synced, seniorNav, juniorNav, consumed, syncs, ?_⟩
    obtain ⟨_, _, _, rfl | ⟨_, _, _, rfl⟩⟩ := splitCommitment_ok splits <;> rfl
  | snapshotSettlement =>
    obtain ⟨_, _, nav, synced, seniorNav, juniorNav, consumed, syncs, _, rfl⟩ := snapshotSettlement_ok ran
    exact ⟨nav, synced, seniorNav, juniorNav, consumed, syncs, rfl⟩

namespace World

variable {w after : World Obj} {action : Action Obj}

open TradingVault

theorem sync_found {index : Nat} {a : Appraisal Obj} {nav seniorNav juniorNav : Nat} {synced : TradingVault Obj}
    (opened : w.appraisals[index]? = some a) (consumed : w.vault.consumeAppraisal a = .ok nav)
    (syncs : w.vault.syncCapital w.env.cfg nav w.env.now = .ok (synced, seniorNav, juniorNav)) :
    ∃ found, ((w.appraisals[index]?).bind fun a => w.vault.sync a.totalValue w.env.now) = some found ∧
      SyncedTo w.vault found synced.book.watch := by
  obtain ⟨found, sees, moved⟩ := syncCapital_watch syncs
  refine ⟨found, ?_, moved⟩
  rw [opened, Option.bind_some, (consumeAppraisal_ok consumed).2.2.2.2]
  exact sees

theorem Use.watched {index : Nat} {u : Use} {a : Appraisal Obj} {next : TradingVault Obj}
    (opened : w.appraisals[index]? = some a) (uses : u.run w.env w.vault a = .ok next) :
    Watched w (.use index u) next.book.watch := by
  -- three calls do something of their own; the others only sync
  by_cases looks : u = .crankAppraisal
  · subst looks
    obtain ⟨_, _, rfl⟩ := crankAppraisal_ok uses
    exact .still rfl rfl rfl
  by_cases proposes : u = .proposeJuniorReset
  · subst proposes
    obtain ⟨tranched, nav, synced, _, _, consumed, syncs, free, start, proposal, started, moved, noticed, seasoned⟩ :=
      proposeJuniorReset_watch uses
    obtain ⟨found, finds, between⟩ := sync_found opened consumed syncs
    have same := between.tranched tranched
    refine .proposed found finds rfl tranched start proposal ?_ ?_ ?_ noticed seasoned
    · rw [← same]
      exact free
    · rw [← same]
      exact started
    · rw [← same]
      exact moved
  by_cases executes : ∃ sender t amount id, u = .executeJuniorReset sender t amount id
  · obtain ⟨sender, t, amount, id, rfl⟩ := executes
    obtain ⟨nav, synced, _, _, proposal, consumed, syncs, pending, ready, wiped⟩ := executeJuniorReset_watch uses
    obtain ⟨found, finds, between⟩ := sync_found opened consumed syncs
    exact .executed found finds rfl synced.book.watch between proposal pending ready wiped
  · have keeps : ∀ sender t amount id, u ≠ .executeJuniorReset sender t amount id :=
      fun sender t amount id same => executes ⟨sender, t, amount, id, same⟩
    obtain ⟨nav, synced, _, _, consumed, syncs, same⟩ := Use.synced uses looks proposes keeps
    obtain ⟨found, finds, between⟩ := sync_found opened consumed syncs
    rw [same]
    cases u with
    | crankAppraisal => exact absurd rfl looks
    | executeJuniorReset sender t amount id => exact absurd rfl (keeps sender t amount id)
    | _ => exact .synced found finds rfl between

theorem step_watched (ran : w.step action = .ok after) : Watched w action after.vault.book.watch := by
  cases action with
  | call c =>
    simp only [step, bind_ok, pure_ok] at ran
    obtain ⟨vault, calls, rfl⟩ := ran
    exact .still rfl rfl (congrArg TrancheBook.watch (Call.frame calls).1)
  | use index u =>
    simp only [step, appraisal, bind_ok, need_ok, pure_ok] at ran
    obtain ⟨a, opened, vault, uses, rfl⟩ := ran
    exact Use.watched opened uses
  | beginAppraisal t =>
    simp only [step, bind_ok, pure_ok] at ran
    obtain ⟨_, _, rfl⟩ := ran
    exact .still rfl rfl rfl
  | appraiseBalance index t att =>
    obtain ⟨_, _, _, _, rfl⟩ := valued_ok ran
    exact .still rfl rfl rfl
  | recordPositionValue index witness id value =>
    obtain ⟨_, _, _, _, rfl⟩ := valued_ok ran
    exact .still rfl rfl rfl
  | recordExternalEquity index oracle equity =>
    obtain ⟨_, _, _, _, rfl⟩ := valued_ok ran
    exact .still rfl rfl rfl
  | beginFulfillment index atts =>
    simp only [step, appraisal, bind_ok, need_ok, pure_ok, Prod.exists] at ran
    obtain ⟨a, opened, vault, f, begins, rfl⟩ := ran
    obtain ⟨_, nav, seniorNav, juniorNav, _, consumed, syncs, _, _⟩ := beginFulfillment_ok begins
    obtain ⟨found, finds, moved⟩ := sync_found opened consumed syncs
    exact .synced found finds rfl moved
  | fulfillNext index p id =>
    simp only [step, fulfillment, bind_ok, need_ok, pure_ok, Prod.exists] at ran
    obtain ⟨f, opened, vault, outcome, fulfills, rfl⟩ := ran
    exact .still rfl rfl (fulfillNext_watch fulfills)
  | endFulfillment index =>
    simp only [step, bind_ok, pure_ok] at ran
    obtain ⟨_, _, rfl⟩ := ran
    exact .still rfl rfl rfl
  | administer cfg adapters oracles lp =>
    cases ran
    exact .still rfl rfl rfl
  | nextTransaction now =>
    simp only [step, bind_ok, check_ok, exists_const, pure_ok] at ran
    obtain ⟨_, _, rfl⟩ := ran
    exact .still rfl rfl rfl

end World

/-! ### What the watch says -/

namespace Watch

variable {watch : Watch} {found : Sync}

/-- A pending proposal has a recorded start of the impairment, and waits for seven days from both. -/
def Timed (watch : Watch) : Prop :=
  ∀ proposal, watch.resetProposal = some proposal → ∃ start, watch.impairedSinceMs = some start ∧
    start + resetSeasoningMs ≤ proposal.executableAtMs ∧ proposal.proposedAtMs + resetSeasoningMs ≤ proposal.executableAtMs

theorem synced_recovered (recovered : ¬ found.impaired) :
    watch.synced found = { watch with impairedSinceMs := none, resetProposal := none } := if_neg recovered

theorem synced_impaired (impaired : found.impaired) :
    watch.synced found = { watch with impairedSinceMs := some (watch.impairedSinceMs.getD found.time) } := if_pos impaired

@[simp] theorem synced_generation : (watch.synced found).generation = watch.generation := by
  unfold synced
  split <;> rfl

theorem synced_pending {proposal : JuniorResetProposal} (pending : (watch.synced found).resetProposal = some proposal) :
    found.impaired ∧ watch.resetProposal = some proposal := by
  by_cases impaired : found.impaired
  · rw [synced_impaired impaired] at pending
    exact ⟨impaired, pending⟩
  · rw [synced_recovered impaired] at pending
    cases pending

theorem synced_since {start : Nat} (since : (watch.synced found).impairedSinceMs = some start) :
    found.impaired ∧ (watch.impairedSinceMs = some start ∨ watch.impairedSinceMs = none ∧ found.time = start) := by
  by_cases impaired : found.impaired
  · rw [synced_impaired impaired, Option.some.injEq] at since
    refine ⟨impaired, ?_⟩
    cases before : watch.impairedSinceMs with
    | none =>
      rw [before] at since
      exact Or.inr ⟨rfl, since⟩
    | some early =>
      rw [before] at since
      exact Or.inl (congrArg some since)
  · rw [synced_recovered impaired] at since
    cases since

theorem Timed.synced (timed : watch.Timed) : (watch.synced found).Timed := by
  intro proposal pending
  obtain ⟨impaired, before⟩ := synced_pending pending
  obtain ⟨start, since, seasoned⟩ := timed proposal before
  refine ⟨start, ?_, seasoned⟩
  rw [synced_impaired impaired, since]
  rfl

end Watch

theorem TradingVault.SyncedTo.timed {found : Sync} {watch : Watch} (moved : SyncedTo v found watch)
    (timed : v.book.watch.Timed) : watch.Timed := by
  cases kind : v.capital.isTranched with
  | true =>
    rw [moved.tranched kind]
    exact timed.synced
  | false =>
    rw [moved.plain kind]
    exact timed

theorem TradingVault.SyncedTo.generation {found : Sync} {watch : Watch} (moved : SyncedTo v found watch) :
    watch.generation = v.book.activeJuniorGeneration := by
  cases kind : v.capital.isTranched with
  | true =>
    rw [moved.tranched kind]
    exact Watch.synced_generation
  | false =>
    rw [moved.plain kind]
    rfl

namespace World

variable {w after : World Obj} {action : Action Obj}

open TradingVault

/-! ### Runs -/

theorem step_timed (timed : w.vault.book.watch.Timed) (ran : w.step action = .ok after) :
    after.vault.book.watch.Timed := by
  cases step_watched ran with
  | still _ _ same => exact same ▸ timed
  | synced found _ _ moved => exact moved.timed timed
  | proposed found _ _ _ start proposal _ started moved noticed seasoned =>
    rw [moved]
    intro pending same
    obtain rfl : proposal = pending := Option.some.inj same
    exact ⟨start, started, by omega, by omega⟩
  | executed found _ _ between _ proposal _ _ wiped =>
    rw [wiped]
    intro pending none
    cases none

theorem step_generation (ran : w.step action = .ok after) :
    after.vault.book.activeJuniorGeneration =
      w.vault.book.activeJuniorGeneration + if action.executes then 1 else 0 := by
  cases step_watched ran with
  | still _ other same =>
    rw [other]
    exact congrArg Watch.generation same
  | synced found _ other moved =>
    rw [other]
    exact moved.generation
  | proposed found _ proposes _ start proposal _ _ moved _ _ =>
    rw [action.executes_of_proposes proposes]
    exact (congrArg Watch.generation moved).trans Watch.synced_generation
  | executed found _ executes between moved proposal _ _ wiped =>
    rw [executes]
    refine (congrArg Watch.generation wiped).trans ?_
    rw [moved.generation]
    rfl

theorem step_pending {proposal : JuniorResetProposal} (ran : w.step action = .ok after)
    (pending : after.vault.book.resetProposal = some proposal) :
    w.vault.book.resetProposal = some proposal ∨ action.proposes = true ∧ proposal.proposedAtMs = w.env.now := by
  have seen : after.vault.book.watch.resetProposal = some proposal := pending
  cases step_watched ran with
  | still _ _ same =>
    rw [same] at seen
    exact Or.inl seen
  | synced found _ _ moved =>
    cases kind : w.vault.capital.isTranched with
    | true =>
      rw [moved.tranched kind] at seen
      exact Or.inl (Watch.synced_pending seen).2
    | false =>
      rw [moved.plain kind] at seen
      exact Or.inl seen
  | proposed found _ proposes _ start made _ _ moved noticed _ =>
    rw [moved] at seen
    obtain rfl : made = proposal := Option.some.inj seen
    exact Or.inr ⟨proposes, noticed⟩
  | executed found _ _ between _ made _ _ wiped =>
    rw [wiped] at seen
    cases seen

theorem syncOf_time {found : Sync} (finds : w.syncOf action = some found) : found.time = w.env.now := by
  have timed : ∀ nav, w.vault.sync nav w.env.now = some found → found.time = w.env.now := by
    intro nav syncs
    obtain ⟨_, _, rfl⟩ := Option.map_eq_some_iff.mp syncs
    rfl
  cases action with
  | use index u =>
    cases u with
    | crankAppraisal => cases finds
    | _ =>
      obtain ⟨a, _, syncs⟩ := Option.bind_eq_some_iff.mp finds
      exact timed _ syncs
  | beginFulfillment index atts =>
    obtain ⟨a, _, syncs⟩ := Option.bind_eq_some_iff.mp finds
    exact timed _ syncs
  | _ => cases finds

theorem step_impaired {start : Nat} (tranched : w.vault.capital.isTranched = true) (ran : w.step action = .ok after)
    (since : after.vault.book.impairedSinceMs = some start) :
    ∀ found, w.syncOf action = some found → found.impaired := by
  have seen : after.vault.book.watch.impairedSinceMs = some start := since
  intro found finds
  cases step_watched ran with
  | still none _ _ => rw [none] at finds; cases finds
  | synced other finds' _ moved =>
    cases finds.symm.trans finds'
    rw [moved.tranched tranched] at seen
    exact (Watch.synced_since seen).1
  | proposed other finds' _ _ _ _ _ started _ _ _ =>
    cases finds.symm.trans finds'
    exact (Watch.synced_since started).1
  | executed _ _ _ _ _ _ _ _ wiped =>
    rw [wiped] at seen
    cases seen

theorem step_since {start : Nat} (tranched : w.vault.capital.isTranched = true) (ran : w.step action = .ok after)
    (since : after.vault.book.impairedSinceMs = some start) :
    w.vault.book.impairedSinceMs = some start ∨
      w.vault.book.impairedSinceMs = none ∧ w.env.now = start ∧ (w.syncOf action).isSome := by
  have seen : after.vault.book.watch.impairedSinceMs = some start := since
  have fresh : ∀ found, w.syncOf action = some found →
      (w.vault.book.watch.synced found).impairedSinceMs = some start →
      w.vault.book.impairedSinceMs = some start ∨
        w.vault.book.impairedSinceMs = none ∧ w.env.now = start ∧ (w.syncOf action).isSome := by
    intro found finds started
    rcases (Watch.synced_since started).2 with old | ⟨none, time⟩
    · exact Or.inl old
    · exact Or.inr ⟨none, (syncOf_time finds).symm.trans time, by rw [finds]; rfl⟩
  cases step_watched ran with
  | still _ _ same =>
    rw [same] at seen
    exact Or.inl seen
  | synced found finds _ moved =>
    rw [moved.tranched tranched] at seen
    exact fresh found finds seen
  | proposed found finds _ _ _ _ _ _ moved _ _ =>
    rw [moved] at seen
    exact fresh found finds seen
  | executed _ _ _ _ _ _ _ _ wiped =>
    rw [wiped] at seen
    cases seen

/-- What an executed reset found: a proposal that was due, before a sync that found an impairment. -/
theorem step_executed (tranched : w.vault.book.resetProposal.isSome → w.vault.capital.isTranched = true)
    (ran : w.step action = .ok after) (executes : action.executes = true) :
    ∃ proposal, w.vault.book.resetProposal = some proposal ∧ proposal.executableAtMs ≤ w.env.now ∧
      ∀ found, w.syncOf action = some found → found.impaired := by
  cases step_watched ran with
  | still _ other _ => rw [other] at executes; cases executes
  | synced _ _ other _ => rw [other] at executes; cases executes
  | proposed _ _ proposes _ _ _ _ _ _ _ _ =>
    rw [action.executes_of_proposes proposes] at executes
    cases executes
  | executed found finds _ between moved proposal pending ready _ =>
    cases kind : w.vault.capital.isTranched with
    | true =>
      rw [moved.tranched kind] at pending
      obtain ⟨impaired, before⟩ := Watch.synced_pending pending
      refine ⟨proposal, before, ready, fun other finds' => ?_⟩
      cases finds.symm.trans finds'
      exact impaired
    | false =>
      rw [moved.plain kind] at pending
      have some : w.vault.book.resetProposal.isSome := by
        rw [show w.vault.book.resetProposal = some proposal from pending]
        rfl
      exact absurd (tranched some) (by rw [kind]; exact Bool.false_ne_true)

theorem step_recovered {found : Sync} (tranched : w.vault.book.resetProposal.isSome → w.vault.capital.isTranched = true)
    (ran : w.step action = .ok after) (finds : w.syncOf action = some found) (recovered : ¬ found.impaired) :
    after.vault.book.resetProposal = none := by
  show after.vault.book.watch.resetProposal = none
  cases step_watched ran with
  | still none _ _ => rw [none] at finds; cases finds
  | synced other finds' _ moved =>
    cases finds.symm.trans finds'
    cases kind : w.vault.capital.isTranched with
    | true => rw [moved.tranched kind, Watch.synced_recovered recovered]
    | false =>
      rw [moved.plain kind]
      by_contra pending
      have some : w.vault.book.resetProposal.isSome := Option.isSome_iff_ne_none.mpr pending
      rw [tranched some] at kind
      cases kind
  | proposed other finds' _ _ start _ _ started _ _ _ =>
    cases finds.symm.trans finds'
    exact absurd (Watch.synced_since started).1 recovered
  | executed _ _ _ _ _ _ _ _ wiped => rw [wiped]

def SyncsImpaired (w : World Obj) (actions : List (Action Obj)) : Prop :=
  Along step (fun state action => ∀ found, state.syncOf action = some found → found.impaired) w actions

/-- The run reached a step of a kind at some time, and every sync from that step on found an impairment. -/
def ImpairedFrom (g : Genesis) (actions : List (Action Obj)) (kind : World Obj → Action Obj → Prop) (time : Nat) (last : Action Obj) :
    Prop :=
  ∃ before first rest middle, actions = before ++ first :: rest ∧ play g before = .ok middle ∧ middle.env.now = time ∧
    kind middle first ∧ middle.SyncsImpaired (first :: rest ++ [last])

/-- The reset laws of a run from creation to `w`. -/
structure ResetSafe (g : Genesis) (actions : List (Action Obj)) (w : World Obj) : Prop where
  /-- A pending proposal has a recorded impairment. -/
  started : w.vault.book.resetProposal.isSome → w.vault.book.impairedSinceMs.isSome
  /-- A sync that finds no impairment removes the proposal. -/
  recovered : ∀ action after found, w.step action = .ok after → w.syncOf action = some found → ¬ found.impaired →
    after.vault.book.resetProposal = none
  /-- The generation moves by one at an executed reset and at nothing else. -/
  generation : ∀ action after, w.step action = .ok after → after.vault.book.activeJuniorGeneration =
    w.vault.book.activeJuniorGeneration + if action.executes then 1 else 0
  /-- An executed reset was proposed seven days before, and the impairment began seven days before. -/
  seasoned : ∀ action after, w.step action = .ok after → action.executes = true → ∃ proposed began,
    proposed + resetSeasoningMs ≤ w.env.now ∧ began + resetSeasoningMs ≤ w.env.now ∧
    ImpairedFrom g actions (fun _ first => first.proposes = true) proposed action ∧
    ImpairedFrom g actions (fun middle first => middle.vault.book.impairedSinceMs = none ∧ (middle.syncOf first).isSome)
      began action

def ResetReady (w : World Obj) : Prop := w.vault.capital.isTranched = true ∧ w.vault.book.watch.Timed

theorem step_resetReady (before : w.ResetReady) (ran : w.step action = .ok after) : after.ResetReady :=
  ⟨(step_moves ran).capital ▸ before.1, step_timed before.2 ran⟩

/-- Where a mark implies a recorded impairment, all syncs since the mark was made found one. -/
theorem impairedFrom_of (mark : World Obj → Prop) {g : Genesis} {actions : List (Action Obj)} {created : World Obj}
    {kind : World Obj → Action Obj → Prop} {time : Nat} {last : Action Obj} (creates : createVault g = .ok created)
    (ready : created.ResetReady) (fresh : ¬ mark created) (ran : exec step created actions = .ok w) (marked : mark w)
    (recorded : ∀ state : World Obj, state.ResetReady → mark state → state.vault.book.impairedSinceMs.isSome)
    (origin : ∀ (state : World Obj) action next, state.ResetReady → state.step action = .ok next → mark next →
      mark state ∨ kind state action ∧ state.env.now = time)
    (ends : ∀ found, w.syncOf last = some found → found.impaired) : ImpairedFrom g actions kind time last := by
  have steps : ∀ (state : World Obj) action next, state.step action = .ok next → mark next ∧ next.ResetReady →
      ∀ found, state.syncOf action = some found → found.impaired := by
    intro state action next moved later
    obtain ⟨start, since⟩ := Option.isSome_iff_exists.mp (recorded next later.2 later.1)
    exact step_impaired ((step_moves moved).capital ▸ later.2.1) moved since
  have begins : ∀ (state : World Obj) action next, state.ResetReady → state.step action = .ok next →
      mark next ∧ next.ResetReady → (mark state ∧ state.ResetReady) ∨ kind state action ∧ state.env.now = time :=
    fun state action next ready moved later =>
      (origin state action next ready moved later.1).imp (fun marked => ⟨marked, ready⟩) id
  have held := exec_invariant step ResetReady (fun _ _ _ => step_resetReady) ready ran
  obtain ⟨before, first, rest, middle, next, rfl, early, ⟨caused, now⟩, moved, tail, since⟩ :=
    exec_origin step (fun _ _ _ => step_resetReady) begins ready (fun made => fresh made.1) ran ⟨marked, held⟩
  have later := along_start step since tail ⟨marked, held⟩
  refine ⟨before, first, rest, middle, rfl, bind_ok.mpr ⟨created, creates, early⟩, now, caused, ?_⟩
  refine ⟨steps middle first next moved later, fun other moved' => ?_⟩
  cases moved.symm.trans moved'
  refine along_snoc step (along_of_reached step steps since tail ⟨marked, held⟩) fun final reached => ?_
  cases tail.symm.trans reached
  exact ends

/-- In every run, an executed junior reset waited for seven days from the start of the
impairment and from its proposal, and every sync in between found the vault impaired. -/
theorem junior_reset_safe {g : Genesis} {actions : List (Action Obj)} (played : play g actions = .ok w) :
    ResetSafe g actions w := by
  obtain ⟨created, creates, ran⟩ := bind_ok.mp played
  have holds := Reachable.sharesHold ⟨g, actions, played⟩
  obtain ⟨book, _⟩ := createVault_ok creates
  have timed : created.vault.book.watch.Timed := by
    rw [book]
    intro proposal pending
    cases pending
  -- a pending proposal knows since when the vault is impaired, in every state
  have kept := exec_invariant step (fun state => state.vault.book.watch.Timed)
    (fun _ _ _ before moved => step_timed before moved) timed ran
  have capital := exec_invariant step (fun state => state.vault.capital = created.vault.capital)
    (fun _ _ _ before moved => (step_moves moved).capital.trans before) rfl ran
  constructor
  case started =>
    intro pending
    obtain ⟨proposal, some⟩ := Option.isSome_iff_exists.mp pending
    obtain ⟨start, since, _⟩ := kept proposal some
    exact Option.isSome_iff_exists.mpr ⟨start, since⟩
  case recovered =>
    exact fun action after found moved finds recovered => step_recovered holds.kept.proposal moved finds recovered
  case generation => exact fun action after moved => step_generation moved
  case seasoned =>
    intro action after moved executes
    obtain ⟨proposal, pending, due, impaired⟩ := step_executed holds.kept.proposal moved executes
    obtain ⟨start, since, started, noticed⟩ := kept proposal pending
    have ready : created.ResetReady := ⟨capital ▸ holds.kept.proposal (by rw [pending]; rfl), timed⟩
    refine ⟨proposal.proposedAtMs, start, by omega, by omega, ?_, ?_⟩
    · have fresh : created.vault.book.resetProposal ≠ some proposal := by
        rw [book]
        simp [TrancheBook.new]
      -- impaired at every sync since the proposal
      refine impairedFrom_of (fun state => state.vault.book.resetProposal = some proposal) creates ready fresh ran pending
        ?_ ?_ impaired
      · intro state ready marked
        obtain ⟨start, since, _⟩ := ready.2 proposal marked
        exact Option.isSome_iff_exists.mpr ⟨start, since⟩
      · intro state action next _ moved marked
        exact (step_pending moved marked).imp id fun made => ⟨made.1, made.2.symm⟩
    · have fresh : created.vault.book.impairedSinceMs ≠ some start := by
        rw [book]
        simp [TrancheBook.new]
      -- and since the impairment began
      refine impairedFrom_of (fun state => state.vault.book.impairedSinceMs = some start) creates ready fresh ran since
        ?_ ?_ impaired
      · exact fun state _ marked => Option.isSome_iff_exists.mpr ⟨start, marked⟩
      · intro state action next ready moved marked
        exact (step_since ready.1 moved marked).imp id fun made => ⟨⟨made.1, made.2.2⟩, made.2.1⟩

end World

/-- A loss wipes the junior tranche out, and seven days after the proposal a reset runs. -/
theorem World.junior_reset_safe_after_loss :
    ∃ w : World Unit, World.play (Sample.genesis (.seniorJunior 500 2000 1000 .preferredOnly))
        (Sample.deposit 1000000 .junior 10 ++ Sample.deposit 500000 .senior 11 ++
          [.call (.session (.curator 2) "Adapter" [.take "USDC" 1200000]), .beginAppraisal "USDC", .use 0 .proposeJuniorReset,
            .nextTransaction (1000 + resetSeasoningMs), .beginAppraisal "USDC"]) = .ok w ∧
      ∃ after, w.step (.use 0 (.executeJuniorReset 7 "USDC" 1000000 12)) = .ok after ∧
        after.vault.book.activeJuniorGeneration = w.vault.book.activeJuniorGeneration + 1 ∧
        ∃ proposed began, proposed + resetSeasoningMs ≤ w.env.now ∧ began + resetSeasoningMs ≤ w.env.now := by
  refine exists_ok (fun w => (w.step (.use 0 (.executeJuniorReset 7 "USDC" 1000000 12))).toOption.isSome)
    (by decide +kernel) fun w played executes => ?_
  have safe := World.junior_reset_safe played
  cases ran : w.step (.use 0 (.executeJuniorReset 7 "USDC" 1000000 12)) with
  | error why =>
    rw [ran] at executes
    cases executes
  | ok after =>
    obtain ⟨proposed, began, notice, seasoned, _, _⟩ := safe.seasoned _ after ran rfl
    exact ⟨after, rfl, safe.generation _ after ran, proposed, began, notice, seasoned⟩

end SuiOptions.Vault
