import SuiOptions.Lib.Windows
import SuiOptions.Vault.Frames

/-! The daily limit of releases to the external account.

The account counts what it released since its window began, and the first release a
day later begins a new window from zero. The new window forgets what the old one
released less than a day ago, which the limit of a sliding day still counts.
-/

set_option autoImplicit false

namespace SuiOptions.Vault

open Execution Move Windows
open Exchange (ID Address DomainState)

variable {Obj : Type}

structure Journal (Obj : Type) where
  world : World Obj
  releases : List Entry

def World.releaseOf (w : World Obj) : Action Obj → List Entry
  | .use _ u => (u.released.map fun amount => ⟨w.env.now, amount⟩).toList
  | _ => []

namespace Journal

def step (j : Journal Obj) (action : Action Obj) : Result Error (Journal Obj) := do
  let world ← j.world.step action
  pure ⟨world, j.releases ++ j.world.releaseOf action⟩

def windowAt (released start now : Nat) : Nat × Nat :=
  if start + releaseWindowMs ≤ now then (now, 0) else (start, released)

/-- A step that keeps the registration, and whose release is made at the value `nav`. -/
def Level (nav : Nat) (j : Journal Obj) : Action Obj → Prop
  | .call c => c.registers = false
  | .use index u => u.released.isSome →
    ∀ a, j.world.appraisals[index]? = some a → j.world.vault.consumeAppraisal a = .ok nav
  | _ => True

/-- Whatever was released less than a day before a release belongs to the window it counts in: the stored one,
or the new one that begins with it. -/
def Unforgotten (j : Journal Obj) (action : Action Obj) : Prop :=
  ∀ ext, j.world.vault.external = some ext → ∀ e ∈ j.world.releaseOf action, ∀ earlier ∈ j.releases,
    e.time < earlier.time + releaseWindowMs → (windowAt ext.releasedInWindow ext.windowStartMs e.time).1 ≤ earlier.time

/-- The window counts the releases since its start, all of them within a day of it. -/
structure Counts (daily : Nat) (j : Journal Obj) : Prop where
  terms : ∃ released start, j.world.vault.releaseTerms = some (daily, released, start) ∧
    amountOf j.releases (fun e => start ≤ e.time) = released ∧
    (∀ e ∈ j.releases, e.time < start + releaseWindowMs) ∧ start ≤ j.world.env.now
  past : ∀ e ∈ j.releases, e.time ≤ j.world.env.now

end Journal

namespace TradingVault

variable {v next : TradingVault Obj}

theorem releaseExternal_counts {cfg : VaultProtocolConfig} {cap : ID} {a : Appraisal Obj} {t : TypeName}
    {amount now nav daily released start : Nat} (terms : v.releaseTerms = some (daily, released, start))
    (appraised : v.consumeAppraisal a = .ok nav) (ran : v.releaseExternal cfg cap a t amount now = .ok next) :
    next.releaseTerms = some (daily, (Journal.windowAt released start now).2 + amount,
        (Journal.windowAt released start now).1) ∧
      (Journal.windowAt released start now).2 + amount ≤ nav * daily / bpsDenom := by
  simp only [releaseExternal, addU64, mulU128, bind_ok, check_ok, exists_const, need_ok, Prod.exists, take_ok,
    fit_ok] at ran
  obtain ⟨_, _, _, _, _, ext, known, nav', consumed, synced, _, _, syncs, _, rolled, rolls, _, ⟨_, rfl⟩, _, _,
    ⟨_, rfl⟩, limited, _, ⟨_, rfl⟩, _, ⟨_, rfl⟩, purse, taken, rfl⟩ := ran
  cases appraised.symm.trans consumed
  simp only [releaseTerms, known, Option.map_some, Option.some.injEq, Prod.mk.injEq] at terms
  obtain ⟨rfl, rfl, rfl⟩ := terms
  simp only [ExternalAccount.rolled, bind_ok, pure_ok, addU64, fit_ok] at rolls
  obtain ⟨_, ⟨_, rfl⟩, rfl⟩ := rolls
  unfold Journal.windowAt
  split
  · next old =>
    rw [if_pos old] at limited
    exact ⟨by simp [releaseTerms], limited⟩
  · next young =>
    rw [if_neg young] at limited
    exact ⟨by simp [releaseTerms], limited⟩

end TradingVault

namespace World

variable {w after : World Obj} {action : Action Obj} {nav : Nat}

theorem step_later (ran : w.step action = .ok after) : w.env.now ≤ after.env.now := by
  cases action with
  | nextTransaction now =>
    simp only [step, bind_ok, check_ok, exists_const, pure_ok] at ran
    obtain ⟨_, later, rfl⟩ := ran
    exact later
  | appraiseBalance index t att =>
    obtain ⟨_, _, _, _, rfl⟩ := valued_ok ran
    exact le_rfl
  | recordPositionValue index witness id value =>
    obtain ⟨_, _, _, _, rfl⟩ := valued_ok ran
    exact le_rfl
  | recordExternalEquity index oracle equity =>
    obtain ⟨_, _, _, _, rfl⟩ := valued_ok ran
    exact le_rfl
  | administer cfg adapters oracles lp =>
    simp only [step, pure_ok] at ran
    subst ran
    exact le_rfl
  | _ =>
    simp only [step, bind_ok, pure_ok, Prod.exists] at ran
    grind

theorem Moves.releaseTerms {releases : List Entry} {next : TradingVault Obj} (moves : Moves w action next)
    (level : Journal.Level nav ⟨w, releases⟩ action) (still : w.releaseOf action = []) :
    next.releaseTerms = w.vault.releaseTerms := by
  cases moves with
  | call calls => exact (Call.frame calls).2.2 level
  | @use index u a next opened uses =>
    have none : u.released = none := by
      cases amount : u.released with
      | none => rfl
      | some amount => simp [releaseOf, amount] at still
    rw [TradingVault.releaseTerms, (Use.frame uses).2.2 none, TradingVault.releaseTerms]
  | beginFulfillment opened begins =>
    obtain ⟨_, _, _, _, _, _, syncs, _, _⟩ := TradingVault.beginFulfillment_ok begins
    rw [TradingVault.releaseTerms, (TradingVault.syncCapital_frame syncs).external, TradingVault.releaseTerms]
  | fulfillNext opened fulfills =>
    rcases TradingVault.fulfillNext_ok fulfills with ⟨same, _⟩ | ⟨receipt, _, paid⟩
    · rw [← same]
      rfl
    · rw [TradingVault.releaseTerms, paid.from.external, TradingVault.releaseTerms]
  | still => rfl

end World

theorem World.releaseOf_cons {w after : World Obj} {action : Action Obj} {e : Entry} {rest : List Entry}
    (releasing : w.releaseOf action = e :: rest) (ran : w.step action = .ok after) :
    ∃ index cap t amount a, action = .use index (.releaseExternal cap t amount) ∧ e = ⟨w.env.now, amount⟩ ∧ rest = [] ∧
      w.appraisals[index]? = some a ∧
      w.vault.releaseExternal w.env.cfg cap a t amount w.env.now = .ok after.vault ∧ after.env.now = w.env.now := by
  cases action with
  | use index u =>
    cases u with
    | releaseExternal cap t amount =>
      simp only [step, appraisal, bind_ok, need_ok, pure_ok] at ran
      obtain ⟨a, opened, vault, uses, rfl⟩ := ran
      cases releasing
      exact ⟨index, cap, t, amount, a, rfl, rfl, rfl, opened, uses, rfl⟩
    | _ => cases releasing
  | _ => cases releasing

namespace Journal

variable {j next : Journal Obj} {action : Action Obj} {nav daily : Nat}

section Window

variable {releases : List Entry} {released start now : Nat}

theorem windowAt_open (released start now : Nat) : now < (windowAt released start now).1 + releaseWindowMs := by
  have positive : 0 < releaseWindowMs := by decide
  unfold windowAt
  split <;> simp only <;> omega

theorem windowAt_le (early : start ≤ now) : (windowAt released start now).1 ≤ now := by
  unfold windowAt
  split <;> simp only <;> omega

theorem windowAt_within (within : ∀ e ∈ releases, e.time < start + releaseWindowMs) :
    ∀ e ∈ releases, e.time < (windowAt released start now).1 + releaseWindowMs := by
  intro e member
  have before := within e member
  unfold windowAt
  split <;> simp only <;> omega

theorem windowAt_counts (counted : amountOf releases (fun e => start ≤ e.time) = released)
    (within : ∀ e ∈ releases, e.time < start + releaseWindowMs) :
    amountOf releases (fun e => (windowAt released start now).1 ≤ e.time) = (windowAt released start now).2 := by
  unfold windowAt
  split
  · next old =>
    apply amountOf_eq_zero
    intro e member
    have before := within e member
    simp only [decide_eq_false_iff_not]
    omega
  · exact counted

theorem recent_eq (counted : amountOf releases (fun e => start ≤ e.time) = released)
    (within : ∀ e ∈ releases, e.time < start + releaseWindowMs)
    (unforgotten : ∀ e ∈ releases, now < e.time + releaseWindowMs → (windowAt released start now).1 ≤ e.time) :
    recent releases now releaseWindowMs = (windowAt released start now).2 := by
  have young := windowAt_open released start now
  rw [recent, ← windowAt_counts counted within]
  apply amountOf_congr
  intro e member
  have inside := unforgotten e member
  simp only [decide_eq_decide]
  omega

end Window

theorem step_counts (counts : j.Counts daily) (level : Level nav j action) (ran : j.step action = .ok next) :
    next.Counts daily := by
  obtain ⟨world, moved, ran⟩ := bind_ok.mp ran
  cases pure_ok.mp ran
  obtain ⟨released, start, terms, counted, within, begun⟩ := counts.terms
  have later := World.step_later moved
  cases releasing : j.world.releaseOf action with
  | nil =>
    have same := (World.step_moves moved).releaseTerms level releasing
    rw [List.append_nil]
    exact ⟨⟨released, start, same.trans terms, counted, within, begun.trans later⟩,
      fun e member => (counts.past e member).trans later⟩
  | cons e rest =>
    obtain ⟨index, cap, t, amount, a, rfl, rfl, rfl, opened, releases, now⟩ := World.releaseOf_cons releasing moved
    obtain ⟨after, limited⟩ := TradingVault.releaseExternal_counts terms (level rfl a opened) releases
    refine ⟨⟨_, _, after, ?_, ?_, ?_⟩, ?_⟩
    · rw [amountOf_snoc, windowAt_counts counted within, if_pos (decide_eq_true (windowAt_le begun))]
    · intro e member
      rcases List.mem_append.mp member with early | new
      · exact windowAt_within within e early
      · rw [List.mem_singleton.mp new]
        exact windowAt_open _ _ _
    · rw [now]
      exact windowAt_le begun
    · intro e member
      rw [now]
      rcases List.mem_append.mp member with early | new
      · exact counts.past e early
      · rw [List.mem_singleton.mp new]

theorem step_bounded (counts : j.Counts daily) (level : Level nav j action) (unforgotten : Unforgotten j action)
    (bounded : Bounded releaseWindowMs (nav * daily / bpsDenom) j.releases) (ran : j.step action = .ok next) :
    Bounded releaseWindowMs (nav * daily / bpsDenom) next.releases := by
  obtain ⟨world, moved, ran⟩ := bind_ok.mp ran
  cases pure_ok.mp ran
  obtain ⟨released, start, terms, counted, within, -⟩ := counts.terms
  cases releasing : j.world.releaseOf action with
  | nil =>
    rw [List.append_nil]
    exact bounded
  | cons e rest =>
    obtain ⟨index, cap, t, amount, a, rfl, rfl, rfl, opened, releases, -⟩ := World.releaseOf_cons releasing moved
    obtain ⟨-, limited⟩ := TradingVault.releaseExternal_counts terms (level rfl a opened) releases
    obtain ⟨ext, known, shape⟩ := Option.map_eq_some_iff.mp terms
    cases shape
    have kept := unforgotten ext known ⟨j.world.env.now, amount⟩ (by rw [releasing]; exact List.mem_singleton_self _)
    refine (bounded_snoc (by decide) counts.past).mpr ⟨bounded, ?_⟩
    rw [recent_eq counted within kept]
    exact limited

/-- In a run at one value in which no release comes less than a day after one of an earlier window, no day
releases more than the daily share of the value. -/
theorem daily_release_bounded {start : World Obj} {account : Address} {equityOracle : TypeName} {budget : Nat}
    {actions : List (Action Obj)}
    (registered : start.vault.external = some (.registered account equityOracle budget daily))
    (met : Along step (fun j action => Level nav j action ∧ Unforgotten j action) ⟨start, []⟩ actions)
    (ran : exec step ⟨start, []⟩ actions = .ok next) :
    Bounded releaseWindowMs (nav * daily / bpsDenom) next.releases := by
  have initial : Counts daily (⟨start, []⟩ : Journal Obj) := by
    refine ⟨⟨0, 0, ?_, rfl, by simp, Nat.zero_le _⟩, by simp⟩
    rw [TradingVault.releaseTerms, registered]
    rfl
  have kept := exec_invariant_along step _
    (fun j => j.Counts daily ∧ Bounded releaseWindowMs (nav * daily / bpsDenom) j.releases)
    (fun _ _ _ before condition moved =>
      ⟨step_counts before.1 condition.1 moved, step_bounded before.1 condition.1 condition.2 before.2 moved⟩)
    ⟨initial, Bounded.nil _ _⟩ met ran
  exact kept.2

end Journal

namespace Sample

/-- A vault of 1000 whose account may receive a tenth of it a day. -/
def funded : List (Action Unit) := deposit 1000 .untranched 10 ++ [.call (.setExternalAccount 9 "EquityOracle" 10000 1000)]

def releasing (now outside amount : Nat) : List (Action Unit) :=
  [.nextTransaction now, .beginAppraisal "USDC"] ++
    (if outside = 0 then [] else [.recordExternalEquity 0 "EquityOracle" outside]) ++
    [.use 0 (.releaseExternal 2 "USDC" amount)]

/-- Two releases in one window, and one in the next that is a day later than both. -/
def spaced : List (Action Unit) :=
  releasing 1000 0 60 ++ releasing 2000 60 40 ++ releasing (releaseWindowMs + 2000) 100 100

def straddling : List (Action Unit) := releasing (releaseWindowMs - 1) 0 100 ++ releasing releaseWindowMs 100 100

def levelTest (j : Journal Unit) : Action Unit → Bool
  | .call c => !c.registers
  | .use index _ => j.world.appraisals[index]?.all fun a => decide ((j.world.vault.consumeAppraisal a).toOption = some 1000)
  | _ => true

theorem levelTest_sound {j : Journal Unit} {action : Action Unit} (passed : levelTest j action = true) :
    Journal.Level 1000 j action := by
  cases action with
  | call c => exact Bool.not_eq_eq_eq_not.mp passed
  | use index u =>
    intro _ a opened
    rw [levelTest, opened] at passed
    exact toOption_eq_some.mp (of_decide_eq_true passed)
  | _ => trivial

def unforgottenTest (j : Journal Unit) (action : Action Unit) : Bool :=
  j.world.vault.external.all fun ext => (j.world.releaseOf action).all fun e => j.releases.all fun earlier =>
    decide (e.time < earlier.time + releaseWindowMs →
      (Journal.windowAt ext.releasedInWindow ext.windowStartMs e.time).1 ≤ earlier.time)

theorem unforgottenTest_sound {j : Journal Unit} {action : Action Unit} (passed : unforgottenTest j action = true) :
    Journal.Unforgotten j action := by
  intro ext known e member earlier before
  rw [unforgottenTest, known] at passed
  exact of_decide_eq_true (List.all_eq_true.mp (List.all_eq_true.mp passed e member) earlier before)

end Sample

/-- Three releases that use the limit up on both days. -/
theorem Journal.daily_release_of_spaced :
    ∃ w : World Unit, World.play (Sample.genesis .untranched) Sample.funded = .ok w ∧
      ∃ j, exec step ⟨w, []⟩ Sample.spaced = .ok j ∧ j.releases.length = 3 ∧ Bounded releaseWindowMs 100 j.releases := by
  refine exists_ok (fun w => decide (w.vault.external = some (.registered 9 "EquityOracle" 10000 1000)) &&
    (alongTest step (fun j action => Sample.levelTest j action && Sample.unforgottenTest j action) ⟨w, []⟩ Sample.spaced &&
      (exec step ⟨w, []⟩ Sample.spaced).toOption.any fun j => decide (j.releases.length = 3))) (by decide +kernel) ?_
  intro w _ passed
  simp only [Bool.and_eq_true, decide_eq_true_eq] at passed
  obtain ⟨registered, met, runs⟩ := passed
  refine exists_ok _ runs fun j ran three => ⟨of_decide_eq_true three, ?_⟩
  have condition : Along step (fun j action => Level 1000 j action ∧ Unforgotten j action) ⟨w, []⟩ Sample.spaced := by
    refine along_of_test step (fun _ _ _ (_ : True) _ => trivial) (fun _ _ _ both => ?_) trivial met
    simp only [Bool.and_eq_true] at both
    exact ⟨Sample.levelTest_sound both.1, Sample.unforgottenTest_sound both.2⟩
  have bounded : Bounded releaseWindowMs (1000 * 1000 / bpsDenom) j.releases := daily_release_bounded registered condition ran
  exact bounded

/-- Twice the limit leaves within a millisecond. -/
theorem Journal.daily_release_straddles :
    ∃ w : World Unit, World.play (Sample.genesis .untranched) Sample.funded = .ok w ∧
      w.vault.external = some (.registered 9 "EquityOracle" 10000 1000) ∧
      Along step (Level 1000) ⟨w, []⟩ Sample.straddling ∧
      ∃ j, exec step ⟨w, []⟩ Sample.straddling = .ok j ∧ during j.releases (releaseWindowMs - 1) 2 = 200 ∧
        ¬ Bounded releaseWindowMs 100 j.releases := by
  refine exists_ok (fun w => decide (w.vault.external = some (.registered 9 "EquityOracle" 10000 1000)) &&
    (alongTest step Sample.levelTest ⟨w, []⟩ Sample.straddling &&
      (exec step ⟨w, []⟩ Sample.straddling).toOption.any fun j =>
        decide (during j.releases (releaseWindowMs - 1) 2 = 200) &&
          decide (during j.releases (releaseWindowMs - 1) releaseWindowMs = 200))) (by decide +kernel) ?_
  intro w _ passed
  simp only [Bool.and_eq_true, decide_eq_true_eq] at passed
  obtain ⟨registered, level, runs⟩ := passed
  refine ⟨registered, ?_, exists_ok _ runs ?_⟩
  · exact along_of_test step (fun _ _ _ (_ : True) _ => trivial) (fun _ _ _ passed => Sample.levelTest_sound passed)
      trivial level
  · intro j _ released
    simp only [Bool.and_eq_true, decide_eq_true_eq] at released
    refine ⟨released.1, fun bounded => ?_⟩
    have within := bounded (releaseWindowMs - 1)
    omega

end SuiOptions.Vault
