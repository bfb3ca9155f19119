import Mathlib.Data.List.Induction
import Mathlib.Tactic.Common

/-! Deterministic transition systems whose steps may fail.

A system is a step function into `Except`; a failing step has no successor, so
a run is a list of accepted actions. Invariants are proved once per step and
transported to whole runs by the rules below.
-/

set_option autoImplicit false

namespace Execution

variable {σ α ε β γ : Type}

/-- A bind returns exactly when both of its parts do. -/
theorem bind_ok {first : Except ε β} {next : β → Except ε γ} {result : γ} :
    (first >>= next) = .ok result ↔ ∃ middle, first = .ok middle ∧ next middle = .ok result := by
  cases first with
  | error why => simp [bind, Except.bind]
  | ok value => simp [bind, Except.bind]

/-- A bind fails exactly when one of its parts does. -/
theorem bind_error {first : Except ε β} {next : β → Except ε γ} {why : ε} :
    (first >>= next) = .error why ↔
      first = .error why ∨ ∃ middle, first = .ok middle ∧ next middle = .error why := by
  cases first with
  | error why => simp [bind, Except.bind]
  | ok value => simp [bind, Except.bind]

theorem pure_ok {value result : β} : (pure value : Except ε β) = .ok result ↔ value = result := by
  simp [pure, Except.pure]

theorem toOption_eq_some {outcome : Except ε β} {value : β} : outcome.toOption = some value ↔ outcome = .ok value := by
  cases outcome with
  | error why => simp [Except.toOption]
  | ok other => simp [Except.toOption]

theorem toOption_isSome {outcome : Except ε β} : outcome.toOption.isSome = true ↔ ∃ value, outcome = .ok value := by
  rw [Option.isSome_iff_exists]
  exact exists_congr fun value => toOption_eq_some

/-- A computation whose value passes a test returns a value with the properties
that such values have. -/
theorem exists_ok {outcome : Except ε β} {property : β → Prop} (test : β → Bool)
    (passes : outcome.toOption.any test = true)
    (holds : ∀ value, outcome = .ok value → test value = true → property value) :
    ∃ value, outcome = .ok value ∧ property value := by
  cases outcome with
  | error why => cases passes
  | ok value => exact ⟨value, rfl, holds value rfl passes⟩

def require (condition : Prop) [Decidable condition] (why : ε) : Except ε Unit :=
  if condition then .ok () else .error why

theorem require_ok {condition : Prop} [Decidable condition] {why : ε} {value : Unit} :
    require condition why = .ok value ↔ condition := by
  unfold require
  split <;> simp [*]

theorem require_of {condition : Prop} [Decidable condition] {why : ε} (holds : condition) :
    require condition why = .ok () := if_pos holds

theorem require_error {condition : Prop} [Decidable condition] {why reason : ε} :
    require condition why = .error reason ↔ ¬ condition ∧ reason = why := by
  unfold require
  split <;> simp [*, eq_comm]

def need (found : Option β) (why : ε) : Except ε β :=
  match found with
  | some value => .ok value
  | none => .error why

theorem need_ok {found : Option β} {why : ε} {value : β} :
    need found why = .ok value ↔ found = some value := by
  cases found <;> simp [need]

def Avoids (bad : ε → Prop) (ran : Except ε β) : Prop := ∀ why, ran = .error why → ¬ bad why

theorem Avoids.ok (bad : ε → Prop) (value : β) : Avoids bad (.ok value : Except ε β) := by
  intro why failed
  cases failed

theorem Avoids.bind {bad : ε → Prop} {first : Except ε β} {next : β → Except ε γ} (early : Avoids bad first)
    (late : ∀ middle, first = .ok middle → Avoids bad (next middle)) : Avoids bad (first >>= next) := by
  intro why failed
  rcases bind_error.mp failed with stopped | ⟨middle, passed, stopped⟩
  · exact early why stopped
  · exact late middle passed why stopped

theorem need_avoids {bad : ε → Prop} {found : Option β} {why : ε} (fine : ¬ bad why) :
    Avoids bad (need found why) := by
  cases found with
  | some value => exact Avoids.ok _ _
  | none =>
    intro reason failed
    cases failed
    exact fine

variable (step : σ → α → Except ε σ)

/-- Perform a list of actions; the first failing one fails the whole list. -/
def exec : σ → List α → Except ε σ
  | state, [] => .ok state
  | state, action :: rest => step state action >>= fun next => exec next rest

@[simp] theorem exec_nil (state : σ) : exec step state [] = .ok state := rfl

theorem exec_cons_ok {state final : σ} {action : α} {rest : List α} :
    exec step state (action :: rest) = .ok final ↔
      ∃ next, step state action = .ok next ∧ exec step next rest = .ok final := bind_ok

theorem exec_append_ok {state final : σ} {first rest : List α} :
    exec step state (first ++ rest) = .ok final ↔
      ∃ middle, exec step state first = .ok middle ∧ exec step middle rest = .ok final := by
  induction first generalizing state with
  | nil => simp
  | cons action first ih =>
    simp only [List.cons_append, exec_cons_ok, ih]
    constructor
    · rintro ⟨next, moved, middle, left, right⟩
      exact ⟨middle, ⟨next, moved, left⟩, right⟩
    · rintro ⟨middle, ⟨next, moved, left⟩, right⟩
      exact ⟨next, moved, middle, left, right⟩

def Reaches (state final : σ) : Prop := ∃ actions, exec step state actions = .ok final

theorem Reaches.refl (state : σ) : Reaches step state state := ⟨[], rfl⟩

variable {step} in
theorem Reaches.trans {first second third : σ} (early : Reaches step first second)
    (late : Reaches step second third) : Reaches step first third := by
  obtain ⟨left, ranLeft⟩ := early
  obtain ⟨right, ranRight⟩ := late
  exact ⟨left ++ right, (exec_append_ok step).mpr ⟨second, ranLeft, ranRight⟩⟩

variable {step} in
theorem Reaches.snoc {first second third : σ} {action : α} (early : Reaches step first second)
    (moved : step second action = .ok third) : Reaches step first third :=
  early.trans ⟨[action], (exec_cons_ok step).mpr ⟨third, moved, rfl⟩⟩

theorem exec_invariant (holds : σ → Prop)
    (preserved : ∀ state action next, holds state → step state action = .ok next → holds next)
    {state final : σ} {actions : List α} (initial : holds state)
    (ran : exec step state actions = .ok final) : holds final := by
  induction actions generalizing state with
  | nil => cases ran; exact initial
  | cons action rest ih =>
    obtain ⟨next, moved, tail⟩ := (exec_cons_ok step).mp ran
    exact ih (preserved state action next initial moved) tail

/-- What every step of a kind preserves, runs of such steps preserve. -/
theorem exec_invariant_only (allowed : α → Prop) (holds : σ → Prop)
    (preserved : ∀ state action next, holds state → allowed action → step state action = .ok next → holds next)
    {state final : σ} {actions : List α} (initial : holds state) (only : ∀ action ∈ actions, allowed action)
    (ran : exec step state actions = .ok final) : holds final := by
  induction actions generalizing state with
  | nil => cases ran; exact initial
  | cons action rest ih =>
    obtain ⟨next, moved, tail⟩ := (exec_cons_ok step).mp ran
    exact ih (preserved state action next initial (only action (by simp)) moved)
      (fun later member => only later (List.mem_cons_of_mem action member)) tail

/-- Every step of a run meets a condition on the state it starts from and its action. -/
def Along (condition : σ → α → Prop) : σ → List α → Prop
  | _, [] => True
  | state, action :: rest =>
    condition state action ∧ ∀ next, step state action = .ok next → Along condition next rest

/-- The invariant rule for runs whose steps all meet a condition. -/
theorem exec_invariant_along (condition : σ → α → Prop) (holds : σ → Prop)
    (preserved : ∀ state action next, holds state → condition state action →
      step state action = .ok next → holds next)
    {state final : σ} {actions : List α} (initial : holds state)
    (met : Along step condition state actions)
    (ran : exec step state actions = .ok final) : holds final := by
  induction actions generalizing state with
  | nil => cases ran; exact initial
  | cons action rest ih =>
    obtain ⟨next, moved, tail⟩ := (exec_cons_ok step).mp ran
    exact ih (preserved state action next initial met.1 moved) (met.2 next moved) tail

/-- What an invariant and a condition give at one step, they give along every run. -/
theorem along_of_invariant {condition property : σ → α → Prop} (holds : σ → Prop)
    (preserved : ∀ state action next, holds state → condition state action →
      step state action = .ok next → holds next)
    (gives : ∀ state action, holds state → condition state action → property state action)
    {state : σ} {actions : List α} (initial : holds state) (met : Along step condition state actions) :
    Along step property state actions := by
  induction actions generalizing state with
  | nil => trivial
  | cons action rest ih =>
    refine ⟨gives state action initial met.1, fun next moved => ?_⟩
    exact ih (preserved state action next initial met.1 moved) (met.2 next moved)

theorem along_of_forall {condition : σ → α → Prop} (each : ∀ state action, condition state action) (state : σ)
    (actions : List α) : Along step condition state actions := by
  induction actions generalizing state with
  | nil => trivial
  | cons action rest ih => exact ⟨each state action, fun next _ => ih next⟩

/-- A property of the steps of a run and a condition are the same along it when they are the same at every step that starts
with the invariant. -/
theorem along_iff_along {allowed property condition : σ → α → Prop} (holds : σ → Prop)
    (same : ∀ state action, holds state → allowed state action → (property state action ↔ condition state action))
    (preserved : ∀ state action next, holds state → allowed state action → property state action →
      step state action = .ok next → holds next)
    {state : σ} {actions : List α} (initial : holds state) (met : Along step allowed state actions) :
    Along step property state actions ↔ Along step condition state actions := by
  induction actions generalizing state with
  | nil => exact Iff.rfl
  | cons action rest ih =>
    have here := same state action initial met.1
    have later (had : property state action) (next) (moved : step state action = .ok next) :
        Along step property next rest ↔ Along step condition next rest :=
      ih (preserved state action next initial met.1 had moved) (met.2 next moved)
    constructor
    · intro along
      exact ⟨here.mp along.1, fun next moved => (later along.1 next moved).mp (along.2 next moved)⟩
    · intro along
      have had := here.mpr along.1
      exact ⟨had, fun next moved => (later had next moved).mpr (along.2 next moved)⟩

theorem along_snoc {condition : σ → α → Prop} {state : σ} {actions : List α} {last : α}
    (met : Along step condition state actions)
    (ends : ∀ final, exec step state actions = .ok final → condition final last) :
    Along step condition state (actions ++ [last]) := by
  induction actions generalizing state with
  | nil => exact ⟨ends state rfl, fun _ _ => trivial⟩
  | cons action rest ih =>
    refine ⟨met.1, fun next moved => ih (met.2 next moved) fun final ran => ?_⟩
    exact ends final ((exec_cons_ok step).mpr ⟨next, moved, ran⟩)

theorem along_start {bad : σ → Prop} {state final : σ} {actions : List α}
    (since : Along step (fun later _ => bad later) state actions) (ran : exec step state actions = .ok final)
    (reached : bad final) : bad state := by
  cases actions with
  | nil =>
    cases ran
    exact reached
  | cons action rest => exact since.1

/-- What a step into a bad state has, every step of a run has that stays in bad states. -/
theorem along_of_reached {bad : σ → Prop} {property : σ → α → Prop}
    (gives : ∀ state action next, step state action = .ok next → bad next → property state action)
    {state final : σ} {actions : List α} (since : Along step (fun later _ => bad later) state actions)
    (ran : exec step state actions = .ok final) (reached : bad final) : Along step property state actions := by
  induction actions generalizing state with
  | nil => trivial
  | cons action rest ih =>
    obtain ⟨next, moved, tail⟩ := (exec_cons_ok step).mp ran
    have later : bad next := along_start step (since.2 next moved) tail reached
    refine ⟨gives state action next moved later, fun other moved' => ?_⟩
    cases moved.symm.trans moved'
    exact ih (since.2 next moved) tail

/-- A run that ends badly has a step that caused it, and the state has been bad since. -/
theorem exec_origin {holds bad : σ → Prop} {cause : σ → α → Prop}
    (preserved : ∀ state action next, holds state → step state action = .ok next → holds next)
    (origin : ∀ state action next, holds state → step state action = .ok next → bad next →
      bad state ∨ cause state action)
    {state final : σ} {actions : List α} (initial : holds state) (fine : ¬ bad state)
    (ran : exec step state actions = .ok final) (reached : bad final) :
    ∃ before action after middle next, actions = before ++ action :: after ∧
      exec step state before = .ok middle ∧ cause middle action ∧ step middle action = .ok next ∧
      exec step next after = .ok final ∧ Along step (fun later _ => bad later) next after := by
  -- on the last action: it is the cause, or the state before it was bad already
  induction actions using List.reverseRecOn generalizing final with
  | nil =>
    cases ran
    exact absurd reached fine
  | append_singleton rest last ih =>
    obtain ⟨middle, early, late⟩ := (exec_append_ok step).mp ran
    obtain ⟨next, moved, same⟩ := (exec_cons_ok step).mp late
    cases same
    have held := exec_invariant step holds preserved initial early
    rcases origin middle last final held moved reached with before | caused
    · obtain ⟨first, action, after, start, next, rfl, ran, caused, stepped, tail, since⟩ := ih early before
      refine ⟨first, action, after ++ [last], start, next, by simp, ran, caused, stepped,
        (exec_append_ok step).mpr ⟨middle, tail, late⟩, along_snoc step since fun other reached => ?_⟩
      cases tail.symm.trans reached
      exact before
    · exact ⟨rest, last, [], middle, final, rfl, early, caused, moved, rfl, trivial⟩

/-- Run a check before every step; steps that fail end the run. -/
def alongTest (test : σ → α → Bool) : σ → List α → Bool
  | _, [] => true
  | state, action :: rest =>
    test state action &&
      match step state action with
      | .ok next => alongTest test next rest
      | .error _ => true

/-- A check that implies the condition in every state with an invariant. -/
theorem along_of_test {condition : σ → α → Prop} {test : σ → α → Bool} {holds : σ → Prop}
    (preserved : ∀ state action next, holds state → step state action = .ok next → holds next)
    (sound : ∀ state action, holds state → test state action = true → condition state action)
    {state : σ} {actions : List α} (initial : holds state) (passed : alongTest step test state actions = true) :
    Along step condition state actions := by
  induction actions generalizing state with
  | nil => trivial
  | cons action rest ih =>
    simp only [alongTest, Bool.and_eq_true] at passed
    refine ⟨sound state action initial passed.1, fun next moved => ?_⟩
    have later := passed.2
    rw [moved] at later
    exact ih (preserved state action next initial moved) later

/-- A counter that a step leaves alone exactly when a condition holds stays put in a run
exactly when the condition holds along it. -/
theorem counter_eq_iff_along {allowed condition : σ → α → Prop} {holds : σ → Prop} {counter : σ → Nat}
    (moves : ∀ state action next, holds state → allowed state action → step state action = .ok next →
      holds next ∧ counter state ≤ counter next ∧ (counter next = counter state ↔ condition state action))
    {state final : σ} {actions : List α} (initial : holds state) (met : Along step allowed state actions)
    (ran : exec step state actions = .ok final) :
    counter state ≤ counter final ∧ (counter final = counter state ↔ Along step condition state actions) := by
  induction actions generalizing state with
  | nil =>
    cases ran
    exact ⟨Nat.le_refl _, fun _ => trivial, fun _ => rfl⟩
  | cons action rest ih =>
    obtain ⟨next, moved, tail⟩ := (exec_cons_ok step).mp ran
    obtain ⟨after, grows, iff⟩ := moves state action next initial met.1 moved
    obtain ⟨later, run⟩ := ih after (met.2 next moved) tail
    refine ⟨Nat.le_trans grows later, fun same => ?_, fun along => ?_⟩
    · refine ⟨iff.mp (by omega), fun other reached => ?_⟩
      cases moved.symm.trans reached
      exact run.mp (by omega)
    · rw [run.mpr (along.2 next moved), iff.mpr along.1]

end Execution
