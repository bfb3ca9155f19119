import SuiOptions.Vault.Effects

/-! Hurdle accrual over schedules.

An accrual adds what the current claim earns since the last one, so what was accrued
earns hurdle too. Schedules are lists of times inside one accrual cap, with no deposit
or withdrawal between them.
-/

set_option autoImplicit false

namespace SuiOptions.Vault

open Execution Move

def CapitalStructure.hurdleBps : CapitalStructure → Nat
  | .untranched => 0
  | .seniorJunior hurdle _ _ _ => hurdle

/-- A claim of one unit at one basis point earns one unit in so many milliseconds. -/
def bpsYear : Nat := bpsDenom * msPerYear

def earned (claim hurdle elapsed : Nat) : Nat := claim * hurdle * elapsed / bpsDenom / msPerYear

theorem earned_eq (claim hurdle elapsed : Nat) : earned claim hurdle elapsed = claim * hurdle * elapsed / bpsYear :=
  Nat.div_div_eq_div_mul ..

theorem earned_of_zero {claim hurdle : Nat} (none : claim * hurdle = 0) (elapsed : Nat) : earned claim hurdle elapsed = 0 := by
  rw [earned_eq, none, Nat.zero_mul, Nat.zero_div]

theorem earned_zero (claim hurdle : Nat) : earned claim hurdle 0 = 0 := by
  rw [earned_eq, Nat.mul_zero, Nat.zero_div]

namespace TrancheBook

variable {cs : CapitalStructure} {book next : TrancheBook} {now : Nat}

def accrued (cs : CapitalStructure) (book : TrancheBook) (now : Nat) : TrancheBook :=
  { book with
    lastAccrualMs := now
    seniorClaim := book.seniorClaim + earned book.seniorClaim cs.hurdleBps (now - book.lastAccrualMs) }

theorem accrued_of_none (none : earned book.seniorClaim cs.hurdleBps (now - book.lastAccrualMs) = 0) :
    { book with lastAccrualMs := now } = accrued cs book now := by
  rw [accrued, none, Nat.add_zero]

theorem accrue_inside (later : book.lastAccrualMs ≤ now) (inside : now - book.lastAccrualMs ≤ accrualCapMs)
    (ran : book.accrue cs now = .ok next) : next = accrued cs book now := by
  cases cs with
  | untranched =>
    cases ran
    exact accrued_of_none (earned_of_zero (Nat.mul_zero _) _)
  | seniorJunior hurdle target maintenance upside =>
    simp only [accrue] at ran
    split at ran
    · rename_i early
      have same : now = book.lastAccrualMs := by omega
      cases ran
      subst same
      exact accrued_of_none (by rw [Nat.sub_self, earned_zero])
    · split at ran
      · rename_i none
        cases ran
        refine accrued_of_none (earned_of_zero ?_ _)
        rcases none with free | empty
        · exact (congrArg _ free).trans (Nat.mul_zero _)
        · exact (congrArg (· * _) empty).trans (Nat.zero_mul _)
      · obtain ⟨accrual, cast, ran⟩ := bind_ok.mp ran
        obtain ⟨claim, total, produced⟩ := bind_ok.mp ran
        cases produced
        obtain ⟨-, rfl⟩ := fit_ok.mp cast
        obtain ⟨-, rfl⟩ := fit_ok.mp total
        rw [Nat.min_eq_left inside]
        rfl

/-- An accrual inside the cap returns when the claim earns nothing or fits. -/
theorem accrue_of_fits (later : book.lastAccrualMs ≤ now) (inside : now - book.lastAccrualMs ≤ accrualCapMs)
    (fits : book.seniorClaim * cs.hurdleBps ≠ 0 → (accrued cs book now).seniorClaim < u128Bound) :
    book.accrue cs now = .ok (accrued cs book now) := by
  have returns : ∃ next, book.accrue cs now = .ok next := by
    cases cs with
    | untranched => exact ⟨_, rfl⟩
    | seniorJunior hurdle target maintenance upside =>
      simp only [accrue]
      split
      · exact ⟨_, rfl⟩
      · split
        · exact ⟨_, rfl⟩
        · rename_i earns
          have small := fits (Nat.mul_ne_zero (fun empty => earns (Or.inr empty)) fun free => earns (Or.inl free))
          have accrual : earned book.seniorClaim hurdle (now - book.lastAccrualMs) < u128Bound :=
            Nat.lt_of_le_of_lt (Nat.le_add_left _ _) small
          rw [Nat.min_eq_left inside]
          exact ⟨_, bind_ok.mpr ⟨_, fit_ok.mpr ⟨accrual, rfl⟩, bind_ok.mpr ⟨_, fit_ok.mpr ⟨small, rfl⟩, rfl⟩⟩⟩
  obtain ⟨next, ran⟩ := returns
  rw [ran, accrue_inside later inside ran]

/-! ### Schedules -/

/-- Times in order, inside one accrual cap. -/
def Schedule (book : TrancheBook) (times : List Nat) : Prop :=
  (book.lastAccrualMs :: times).Pairwise (· ≤ ·) ∧ ∀ time ∈ times, time ≤ book.lastAccrualMs + accrualCapMs

/-- The step adds what the claim of the given size earns since the last one. -/
def Earns (cs : CapitalStructure) (claim : Nat) (book : TrancheBook) (time : Nat) : Prop :=
  ∃ next, book.accrue cs time = .ok next ∧
    next.seniorClaim = book.seniorClaim + earned claim cs.hurdleBps (time - book.lastAccrualMs)

/-- Accruing at every time of a schedule is accruing once, to a unit a step, and every step earns on the claim
the schedule started from. -/
structure CadenceFree (cs : CapitalStructure) (book : TrancheBook) (times : List Nat) : Prop where
  single : ∃ stepped once, exec (fun state time => state.accrue cs time) book times = .ok stepped ∧
    book.accrue cs (times.getLastD book.lastAccrualMs) = .ok once ∧
    stepped.seniorClaim ≤ once.seniorClaim + times.length ∧ once.seniorClaim ≤ stepped.seniorClaim + times.length
  simple : Along (fun state time => state.accrue cs time) (Earns cs book.seniorClaim) book times

/-- Of the two years of the cap, what the first unit of hurdle leaves is too short for a second one. -/
def AccruesOnce (cs : CapitalStructure) (book : TrancheBook) : Prop :=
  let rate := book.seniorClaim * cs.hurdleBps
  rate = 0 ∨ (rate + cs.hurdleBps) * (accrualCapMs - (bpsYear + rate - 1) / rate) < bpsYear

/-! ### When hurdle compounds -/

theorem first_unit {rate : Nat} (some : 0 < rate) :
    bpsYear ≤ rate * ((bpsYear + rate - 1) / rate) ∧ rate * ((bpsYear + rate - 1) / rate) < bpsYear + rate := by
  have low := Nat.mul_div_le (bpsYear + rate - 1) rate
  have high := Nat.lt_mul_div_succ (bpsYear + rate - 1) some
  rw [Nat.mul_add, Nat.mul_one] at high
  constructor <;> omega

theorem earned_more (claim more hurdle elapsed : Nat) :
    earned (claim + more) hurdle elapsed = (claim * hurdle + more * hurdle) * elapsed / bpsYear := by
  rw [earned_eq, Nat.add_mul claim more hurdle]

theorem earned_lt {claim more hurdle elapsed : Nat} (units : Nat) (before : claim * hurdle * elapsed < units * bpsYear)
    (after : units * bpsYear ≤ (claim * hurdle + more * hurdle) * elapsed) :
    earned claim hurdle elapsed < earned (claim + more) hurdle elapsed := by
  have positive : 0 < bpsYear := by decide
  rw [earned_more, earned_eq]
  exact Nat.lt_of_lt_of_le ((Nat.div_lt_iff_lt_mul positive).mpr before) ((Nat.le_div_iff_mul_le positive).mpr after)

/-- The first unit of hurdle makes a second one accrue that the first claim had not earned. -/
theorem compounds_of_small {claim hurdle : Nat} (some : 0 < claim * hurdle) (small : claim * hurdle < bpsDenom)
    (long : bpsYear ≤ (claim * hurdle + hurdle) *
      (accrualCapMs - (bpsYear + claim * hurdle - 1) / (claim * hurdle))) :
    ∃ first second, first + second ≤ accrualCapMs ∧
      earned claim hurdle second < earned (claim + earned claim hurdle first) hurdle second := by
  have held : 1 ≤ claim := Nat.pos_of_mul_pos_right some
  have paid : 1 ≤ hurdle := Nat.pos_of_mul_pos_left some
  have most : hurdle ≤ claim * hurdle := Nat.le_mul_of_pos_left hurdle held
  obtain ⟨low, high⟩ := first_unit some
  generalize (bpsYear + claim * hurdle - 1) / (claim * hurdle) = first at low high long
  obtain ⟨lower, higher⟩ := first_unit (Nat.lt_of_lt_of_le some (Nat.le_add_right _ hurdle))
  generalize (bpsYear + (claim * hurdle + hurdle) - 1) / (claim * hurdle + hurdle) = second at lower higher
  have year : bpsYear = 315360000000000 := rfl
  have denom : bpsDenom = 10000 := rfl
  have unit : earned claim hurdle first = 1 := by
    rw [earned_eq]
    exact Nat.div_eq_of_lt_le (by omega) (by omega)
  have slow : 10000 < second := by
    by_contra fast
    have short := Nat.mul_le_mul (Nat.add_le_add (Nat.le_of_lt small) (most.trans (Nat.le_of_lt small))) (Nat.le_of_not_lt fast)
    omega
  refine ⟨first, second, ?_, ?_⟩
  · have fits : second ≤ accrualCapMs - first := by
      by_contra beyond
      have more := Nat.mul_le_mul_left (claim * hurdle + hurdle) (Nat.succ_le_of_lt (Nat.lt_of_not_le beyond))
      rw [Nat.mul_succ] at more
      omega
    omega
  · rw [unit]
    refine earned_lt 1 ?_ (by rw [Nat.one_mul, Nat.one_mul]; exact lower)
    have tail := Nat.mul_le_mul_left hurdle (Nat.succ_le_of_lt slow)
    rw [Nat.add_mul] at higher
    nlinarith

theorem compounds_of_large {claim hurdle : Nat} (large : bpsDenom ≤ claim * hurdle) :
    ∃ first second, first + second ≤ accrualCapMs ∧
      earned claim hurdle second < earned (claim + earned claim hurdle first) hurdle second := by
  have year : bpsYear = 315360000000000 := rfl
  have denom : bpsDenom = 10000 := rfl
  have annual : earned claim hurdle msPerYear = claim * hurdle / bpsDenom := by
    rw [earned_eq, bpsYear, Nat.mul_div_mul_right _ _ (by decide)]
  have paid : 1 ≤ hurdle := Nat.pos_of_mul_pos_left (Nat.lt_of_lt_of_le (by decide) large)
  generalize gain : claim * hurdle / bpsDenom = units at annual
  rw [denom] at gain large
  have low : units * 10000 ≤ claim * hurdle := by omega
  have high : claim * hurdle < (units + 1) * 10000 := by omega
  by_cases much : 10000 ≤ units * hurdle
  case pos =>
    refine ⟨msPerYear, msPerYear, by decide, ?_⟩
    nth_rewrite 2 [annual]
    refine earned_lt (units + 1) ?_ ?_
    · calc claim * hurdle * msPerYear < (units + 1) * 10000 * msPerYear := Nat.mul_lt_mul_of_pos_right high (by decide)
        _ = (units + 1) * bpsYear := Nat.mul_assoc ..
    · calc (units + 1) * bpsYear = (units * 10000 + 10000) * msPerYear := by
            rw [← Nat.succ_mul]
            exact (Nat.mul_assoc ..).symm
        _ ≤ (claim * hurdle + units * hurdle) * msPerYear := Nat.mul_le_mul_right _ (Nat.add_le_add low much)
  case neg =>
    -- one millisecond before the first claim would earn a unit, the grown one has
    have few : units < 10000 := by
      by_contra many
      have most := Nat.mul_le_mul (Nat.le_of_not_lt many) paid
      omega
    obtain ⟨reach, beyond⟩ := first_unit (Nat.lt_of_lt_of_le (by decide) large)
    generalize (bpsYear + claim * hurdle - 1) / (claim * hurdle) = elapsed at reach beyond
    have started : 1 ≤ elapsed := by
      by_contra never
      have zero : elapsed = 0 := by omega
      subst zero
      omega
    obtain ⟨second, rfl⟩ := Nat.exists_eq_add_of_le' started
    rw [Nat.mul_succ] at reach beyond
    have slow : 20000 ≤ second := by
      by_contra fast
      have short := Nat.mul_le_mul (Nat.le_of_lt high) (Nat.le_of_lt (Nat.lt_of_not_le fast))
      nlinarith
    refine ⟨msPerYear, second, ?_, ?_⟩
    · have inside : second ≤ msPerYear := by
        by_contra beyond
        have long := Nat.mul_le_mul large (Nat.le_of_lt (Nat.lt_of_not_le beyond))
        have span : 10000 * msPerYear = bpsYear := rfl
        omega
      have span : accrualCapMs = msPerYear + msPerYear := rfl
      omega
    · rw [annual]
      refine earned_lt 1 (by omega) ?_
      rw [Nat.one_mul, Nat.add_mul]
      have gains : claim * hurdle ≤ units * hurdle * second :=
        calc claim * hurdle ≤ units * 1 * 20000 := by omega
          _ ≤ units * hurdle * second := Nat.mul_le_mul (Nat.mul_le_mul_left units paid) slow
      omega

/-! ### Both directions -/

theorem CadenceFree.second {first second : Nat} (inside : first + second ≤ accrualCapMs)
    (free : CadenceFree cs book [book.lastAccrualMs + first, book.lastAccrualMs + first + second]) :
    earned (book.seniorClaim + earned book.seniorClaim cs.hurdleBps first) cs.hurdleBps second =
      earned book.seniorClaim cs.hurdleBps second := by
  obtain ⟨⟨middle, ran, -⟩, rest⟩ := free.simple
  obtain ⟨⟨last, again, claim⟩, -⟩ := rest middle ran
  have early := accrue_inside (Nat.le_add_right _ first) (by omega) ran
  subst early
  have here : (accrued cs book (book.lastAccrualMs + first)).lastAccrualMs = book.lastAccrualMs + first := rfl
  have late := accrue_inside (by omega) (by omega) again
  subst late
  simp only [accrued, Nat.add_sub_cancel_left] at claim
  omega

/-- A book that earns, along a schedule, only what the claim of its start earns. -/
structure Steady (cs : CapitalStructure) (start : TrancheBook) (holds : TrancheBook → Prop) : Prop where
  within : ∀ state, holds state → start.seniorClaim ≤ state.seniorClaim ∧ state.seniorClaim ≤ start.seniorClaim + 1
  returns : ∀ state time, holds state → state.lastAccrualMs ≤ time → time ≤ start.lastAccrualMs + accrualCapMs →
    state.accrue cs time = .ok (accrued cs state time)
  earns : ∀ state time, holds state → state.lastAccrualMs ≤ time → time ≤ start.lastAccrualMs + accrualCapMs →
    earned state.seniorClaim cs.hurdleBps (time - state.lastAccrualMs) =
      earned start.seniorClaim cs.hurdleBps (time - state.lastAccrualMs)
  moves : ∀ state time, holds state → state.lastAccrualMs ≤ time → time ≤ start.lastAccrualMs + accrualCapMs →
    holds (accrued cs state time)

namespace Steady

variable {start state : TrancheBook} {holds : TrancheBook → Prop} {times : List Nat}

theorem run (steady : Steady cs start holds) (initial : holds state)
    (ordered : (state.lastAccrualMs :: times).Pairwise (· ≤ ·))
    (capped : ∀ time ∈ times, time ≤ start.lastAccrualMs + accrualCapMs) :
    (∃ final, exec (fun state time => state.accrue cs time) state times = .ok final ∧ holds final) ∧
      Along (fun state time => state.accrue cs time) (Earns cs start.seniorClaim) state times := by
  induction times generalizing state with
  | nil => exact ⟨⟨state, rfl, initial⟩, trivial⟩
  | cons time rest ih =>
    obtain ⟨first, later⟩ := List.pairwise_cons.mp ordered
    have forward : state.lastAccrualMs ≤ time := first time List.mem_cons_self
    have inside := capped time List.mem_cons_self
    have ran := steady.returns state time initial forward inside
    obtain ⟨⟨final, through, held⟩, simple⟩ := ih (steady.moves state time initial forward inside) later
      fun other member => capped other (List.mem_cons_of_mem _ member)
    refine ⟨⟨final, (exec_cons_ok _).mpr ⟨_, ran, through⟩, held⟩, ⟨_, ran, ?_⟩, fun next moved => ?_⟩
    · rw [← steady.earns state time initial forward inside]
      rfl
    · cases ran.symm.trans moved
      exact simple

theorem cadenceFree (steady : Steady cs book holds) (initial : holds book) (schedule : Schedule book times) :
    CadenceFree cs book times := by
  obtain ⟨ordered, capped⟩ := schedule
  obtain ⟨⟨stepped, ran, held⟩, simple⟩ := steady.run initial ordered capped
  refine ⟨?_, simple⟩
  cases times with
  | nil =>
    cases ran
    have still := steady.returns book book.lastAccrualMs initial (Nat.le_refl _) (Nat.le_add_right _ _)
    refine ⟨book, _, rfl, still, ?_⟩
    simp only [accrued, Nat.sub_self, earned_zero]
    exact ⟨Nat.le_refl _, Nat.le_refl _⟩
  | cons time rest =>
    have last : (time :: rest).getLastD book.lastAccrualMs ∈ time :: rest := by
      rw [List.getLastD_cons]
      exact List.getLastD_mem_cons
    have forward := (List.pairwise_cons.mp ordered).1 _ last
    have once := steady.returns book _ initial forward (capped _ last)
    have reached := steady.within _ (steady.moves book _ initial forward (capped _ last))
    have stepwise := steady.within _ held
    refine ⟨stepped, _, ran, once, ?_⟩
    simp only [List.length_cons]
    omega

end Steady

theorem steady_of_zero (none : book.seniorClaim * cs.hurdleBps = 0) :
    Steady cs book fun state => book.lastAccrualMs ≤ state.lastAccrualMs ∧ state.seniorClaim = book.seniorClaim := by
  have nothing : ∀ (state : TrancheBook) (elapsed : Nat), state.seniorClaim = book.seniorClaim → earned state.seniorClaim cs.hurdleBps elapsed = 0 := by
    intro state elapsed same
    rw [same]
    exact earned_of_zero none elapsed
  constructor
  case within =>
    rintro state ⟨-, same⟩
    omega
  case returns =>
    rintro state time ⟨after, same⟩ forward inside
    refine accrue_of_fits forward (by omega) fun earns => ?_
    rw [same] at earns
    exact absurd none earns
  case earns =>
    rintro state time ⟨-, same⟩ forward inside
    rw [same]
  case moves =>
    rintro state time ⟨after, same⟩ forward inside
    refine ⟨after.trans forward, ?_⟩
    rw [accrued, nothing state _ same]
    exact same

theorem rate_of_once {rate hurdle first : Nat} (high : rate * first < bpsYear + rate)
    (short : (rate + hurdle) * (accrualCapMs - first) < bpsYear) : rate < bpsDenom := by
  by_contra fast
  have large : bpsDenom ≤ rate := Nat.le_of_not_lt fast
  have span : accrualCapMs = msPerYear + msPerYear := rfl
  have early : first ≤ msPerYear := by
    by_contra late
    have year := Nat.mul_le_mul_left rate (Nat.succ_le_of_lt (Nat.lt_of_not_le late))
    have whole := Nat.mul_le_mul_right msPerYear large
    rw [Nat.mul_succ] at year
    have same : bpsDenom * msPerYear = bpsYear := rfl
    omega
  have rest : bpsDenom * msPerYear ≤ (rate + hurdle) * (accrualCapMs - first) :=
    Nat.mul_le_mul (large.trans (Nat.le_add_right _ _)) (by omega)
  exact absurd short (Nat.not_lt_of_le rest)

/-- One unit accrues, and then the cap is too near for another. -/
theorem steady_of_once {first : Nat} (some : 0 < book.seniorClaim * cs.hurdleBps)
    (high : book.seniorClaim * cs.hurdleBps * first < bpsYear + book.seniorClaim * cs.hurdleBps)
    (short : (book.seniorClaim * cs.hurdleBps + cs.hurdleBps) * (accrualCapMs - first) < bpsYear) :
    Steady cs book fun state => book.lastAccrualMs ≤ state.lastAccrualMs ∧ (state.seniorClaim = book.seniorClaim ∨
      state.seniorClaim = book.seniorClaim + 1 ∧ book.lastAccrualMs + first ≤ state.lastAccrualMs) := by
  have slow := rate_of_once high short
  have paid : 1 ≤ cs.hurdleBps := Nat.pos_of_mul_pos_left some
  have small : book.seniorClaim ≤ book.seniorClaim * cs.hurdleBps := Nat.le_mul_of_pos_right _ paid
  -- from the first claim at most one unit accrues, and not before its time
  have unit : ∀ elapsed, elapsed ≤ accrualCapMs → earned book.seniorClaim cs.hurdleBps elapsed = 0 ∨
      earned book.seniorClaim cs.hurdleBps elapsed = 1 ∧ first ≤ elapsed := by
    intro elapsed inside
    rw [earned_eq]
    by_cases early : book.seniorClaim * cs.hurdleBps * elapsed < bpsYear
    · exact Or.inl (Nat.div_eq_of_lt early)
    · have strict := Nat.mul_lt_mul_of_pos_right slow (show 0 < accrualCapMs by decide)
      have twice : bpsDenom * accrualCapMs = 2 * bpsYear := rfl
      have below := Nat.mul_le_mul_left (book.seniorClaim * cs.hurdleBps) inside
      refine Or.inr ⟨Nat.div_eq_of_lt_le (by omega) (by omega), ?_⟩
      by_contra sooner
      have before := Nat.mul_le_mul_left (book.seniorClaim * cs.hurdleBps) (Nat.succ_le_of_lt (Nat.lt_of_not_le sooner))
      rw [Nat.mul_succ] at before
      omega
  -- from the grown claim nothing accrues in what is left of the cap
  have none : ∀ elapsed, elapsed ≤ accrualCapMs - first → earned (book.seniorClaim + 1) cs.hurdleBps elapsed = 0 ∧
      earned book.seniorClaim cs.hurdleBps elapsed = 0 := by
    intro elapsed inside
    have grown := Nat.mul_le_mul_left (book.seniorClaim * cs.hurdleBps + cs.hurdleBps) inside
    have simple := Nat.mul_le_mul_right elapsed (Nat.le_add_right (book.seniorClaim * cs.hurdleBps) cs.hurdleBps)
    rw [earned_more, Nat.one_mul, earned_eq]
    exact ⟨Nat.div_eq_of_lt (by omega), Nat.div_eq_of_lt (by omega)⟩
  constructor
  case within =>
    rintro state ⟨-, same | ⟨more, -⟩⟩ <;> omega
  case returns =>
    rintro state time ⟨after, same | ⟨more, later⟩⟩ forward inside
    · refine accrue_of_fits forward (by omega) fun _ => ?_
      simp only [accrued, same]
      have few := unit (time - state.lastAccrualMs) (by omega)
      have bound : bpsDenom + 1 < u128Bound := by decide
      omega
    · refine accrue_of_fits forward (by omega) fun _ => ?_
      simp only [accrued, more, (none (time - state.lastAccrualMs) (by omega)).1]
      have bound : bpsDenom + 1 < u128Bound := by decide
      omega
  case earns =>
    rintro state time ⟨after, same | ⟨more, later⟩⟩ forward inside
    · rw [same]
    · obtain ⟨grown, simple⟩ := none (time - state.lastAccrualMs) (by omega)
      rw [more, grown, simple]
  case moves =>
    rintro state time ⟨after, same | ⟨more, later⟩⟩ forward inside
    · refine ⟨after.trans forward, ?_⟩
      simp only [accrued, same]
      rcases unit (time - state.lastAccrualMs) (by omega) with still | ⟨one, long⟩
      · exact Or.inl (by rw [still, Nat.add_zero])
      · exact Or.inr ⟨by rw [one], by omega⟩
    · refine ⟨after.trans forward, Or.inr ?_⟩
      simp only [accrued, more, (none (time - state.lastAccrualMs) (by omega)).1]
      exact ⟨trivial, later.trans forward⟩

/-- Hurdle is independent of the cadence exactly where at most one unit of it can accrue within the cap: on every
other book the schedule decides what the seniors are owed. -/
theorem cadence_free_iff (cs : CapitalStructure) (book : TrancheBook) :
    (∀ times, Schedule book times → CadenceFree cs book times) ↔ AccruesOnce cs book := by
  constructor
  · intro free
    have simple : ∀ first second, first + second ≤ accrualCapMs →
        earned (book.seniorClaim + earned book.seniorClaim cs.hurdleBps first) cs.hurdleBps second =
          earned book.seniorClaim cs.hurdleBps second := by
      intro first second inside
      refine (free [book.lastAccrualMs + first, book.lastAccrualMs + first + second] ⟨?_, ?_⟩).second inside
      · simp
        omega
      · simp
        omega
    by_contra more
    obtain ⟨some, long⟩ := not_or.mp more
    have grows : ∃ first second, first + second ≤ accrualCapMs ∧ earned book.seniorClaim cs.hurdleBps second <
        earned (book.seniorClaim + earned book.seniorClaim cs.hurdleBps first) cs.hurdleBps second := by
      by_cases small : book.seniorClaim * cs.hurdleBps < bpsDenom
      · exact compounds_of_small (Nat.pos_of_ne_zero some) small (Nat.le_of_not_lt long)
      · exact compounds_of_large (Nat.le_of_not_lt small)
    obtain ⟨first, second, inside, compounded⟩ := grows
    exact absurd (simple first second inside) (Nat.ne_of_gt compounded)
  · rintro (none | short) times schedule
    · exact (steady_of_zero none).cadenceFree ⟨Nat.le_refl _, rfl⟩ schedule
    · by_cases none : book.seniorClaim * cs.hurdleBps = 0
      · exact (steady_of_zero none).cadenceFree ⟨Nat.le_refl _, rfl⟩ schedule
      · have some := Nat.pos_of_ne_zero none
        exact (steady_of_once some (first_unit some).2 short).cadenceFree ⟨Nat.le_refl _, Or.inl rfl⟩ schedule

def deposited : TrancheBook :=
  { new 0 with seniorShares := 1000000, seniorClaim := 1000000, seniorPrincipalBasis := 1000000 }

def tenPercent : CapitalStructure := .seniorJunior 1000 2000 1500 .preferredOnly

/-- A crank after the first of two years is worth ten thousand to the seniors. -/
theorem yearly_crank_compounds :
    (∃ stepped once, exec (fun state time => state.accrue tenPercent time) deposited [msPerYear, 2 * msPerYear] =
        .ok stepped ∧ deposited.accrue tenPercent (2 * msPerYear) = .ok once ∧
      stepped.seniorClaim = 1210000 ∧ once.seniorClaim = 1200000) ∧
    Schedule deposited [msPerYear, 2 * msPerYear] ∧ ¬ CadenceFree tenPercent deposited [msPerYear, 2 * msPerYear] := by
  have twice : exec (fun state time => state.accrue tenPercent time) deposited [msPerYear, 2 * msPerYear] =
      .ok { deposited with lastAccrualMs := 2 * msPerYear, seniorClaim := 1210000 } := by decide +kernel
  have straight : deposited.accrue tenPercent (2 * msPerYear) =
      .ok { deposited with lastAccrualMs := 2 * msPerYear, seniorClaim := 1200000 } := by decide +kernel
  refine ⟨⟨_, _, twice, straight, rfl, rfl⟩, ⟨by decide, by decide⟩, fun free => ?_⟩
  obtain ⟨⟨stepped, once, ran, single, low, -⟩, -⟩ := free
  cases twice.symm.trans ran
  cases straight.symm.trans single
  exact absurd low (by decide)

end TrancheBook

/-! ### Cranks -/

namespace TrancheBook

theorem accrue_congr {cs : CapitalStructure} {book other next : TrancheBook} {now : Nat}
    (claim : other.seniorClaim = book.seniorClaim) (last : other.lastAccrualMs = book.lastAccrualMs)
    (ran : book.accrue cs now = .ok next) :
    ∃ moved, other.accrue cs now = .ok moved ∧ moved.seniorClaim = next.seniorClaim ∧
      moved.lastAccrualMs = next.lastAccrualMs := by
  cases cs with
  | untranched =>
    cases ran
    exact ⟨_, rfl, claim, rfl⟩
  | seniorJunior hurdle target maintenance upside =>
    simp only [accrue, claim, last] at ran ⊢
    split at ran
    · cases ran
      rw [if_pos ‹_›]
      exact ⟨_, rfl, claim, last⟩
    · rw [if_neg ‹_›]
      split at ran
      · cases ran
        rw [if_pos ‹_›]
        exact ⟨_, rfl, rfl, rfl⟩
      · rw [if_neg ‹_›]
        obtain ⟨accrual, cast, ran⟩ := bind_ok.mp ran
        obtain ⟨total, sum, produced⟩ := bind_ok.mp ran
        cases produced
        exact ⟨_, bind_ok.mpr ⟨accrual, cast, bind_ok.mpr ⟨total, sum, rfl⟩⟩, rfl, rfl⟩

end TrancheBook

namespace TradingVault

variable {Obj : Type} {v next : TradingVault Obj} {cfg : VaultProtocolConfig}

theorem crankCapital_accrues {a : Appraisal Obj} {now : Nat} (ran : v.crankCapital cfg a now = .ok next) :
    next.capital = v.capital ∧ ∃ book, v.book.accrue v.capital now = .ok book ∧
      next.book.seniorClaim = book.seniorClaim ∧ next.book.lastAccrualMs = book.lastAccrualMs := by
  obtain ⟨nav, seniorNav, juniorNav, -, synced⟩ := crankCapital_ok ran
  obtain ⟨book, accrues, synced⟩ := bind_ok.mp synced
  obtain ⟨⟨senior, junior⟩, -, synced⟩ := bind_ok.mp synced
  obtain ⟨breached, -, produced⟩ := bind_ok.mp synced
  cases produced
  obtain ⟨claim, -, last⟩ := book.updateRiskState_claim v.capital nav juniorNav now
  exact ⟨rfl, book, accrues, claim, last⟩

/-- Whatever the appraisals, a run of cranks accrues at their times and does nothing else to the claim. -/
theorem cranks_accrue {cranks : List (Appraisal Obj × Nat)} {book : TrancheBook}
    (claim : book.seniorClaim = v.book.seniorClaim) (last : book.lastAccrualMs = v.book.lastAccrualMs)
    (ran : exec (fun v crank => v.crankCapital cfg crank.1 crank.2) v cranks = .ok next) :
    ∃ stepped, exec (fun state time => state.accrue v.capital time) book (cranks.map (·.2)) = .ok stepped ∧
      stepped.seniorClaim = next.book.seniorClaim := by
  induction cranks generalizing v book with
  | nil =>
    cases ran
    exact ⟨book, rfl, claim⟩
  | cons crank rest ih =>
    rw [exec_cons_ok] at ran
    obtain ⟨middle, moved, ran⟩ := ran
    obtain ⟨capital, after, accrues, claims, lasts⟩ := crankCapital_accrues moved
    obtain ⟨here, accrued, same, time⟩ := TrancheBook.accrue_congr claim last accrues
    obtain ⟨stepped, through, equal⟩ := ih (same.trans claims.symm) (time.trans lasts.symm) ran
    rw [capital] at through
    exact ⟨stepped, (exec_cons_ok _).mpr ⟨here, accrued, through⟩, equal⟩

end TradingVault

end SuiOptions.Vault
