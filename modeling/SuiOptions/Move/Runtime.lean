import Mathlib
import SuiOptions.Lib.Execution

/-! The part of the Move virtual machine the contracts depend on.

Unsigned integers are natural numbers with the bounds checked at every
operation that can leave them: addition, subtraction and multiplication abort
instead of wrapping, and so does a narrowing cast. An abort discards the whole
transaction, so an operation either returns its new state or an `Abort`.
-/

set_option autoImplicit false

namespace SuiOptions.Move

open Execution

/-- Why a transaction is discarded: an assertion of the package, with its own
error codes, or the virtual machine itself. -/
inductive Abort (Code : Type) where
  | code (why : Code)
  | arithmetic
  | outOfGas
  deriving DecidableEq, Repr

variable {Code : Type}

abbrev Result (Code : Type) (value : Type) := Except (Abort Code) value

def u64Bound : Nat := 2 ^ 64

def u128Bound : Nat := 2 ^ 128

/-- The abort of a callee, under the codes of its caller. -/
def Abort.map {Other : Type} (rename : Code → Other) : Abort Code → Abort Other
  | .code why => .code (rename why)
  | .arithmetic => .arithmetic
  | .outOfGas => .outOfGas

def within {Other value : Type} (rename : Code → Other) : Result Code value → Result Other value
  | .ok result => .ok result
  | .error why => .error (why.map rename)

theorem within_ok {Other value : Type} {rename : Code → Other} {ran : Result Code value} {result : value} :
    within rename ran = .ok result ↔ ran = .ok result := by
  cases ran with
  | ok produced => simp [within]
  | error why => simp [within]

/-- `assert!(condition, why)` -/
def check (condition : Prop) [Decidable condition] (why : Code) : Result Code Unit :=
  require condition (.code why)

theorem check_ok {condition : Prop} [Decidable condition] {why : Code} {value : Unit} :
    check condition why = .ok value ↔ condition := require_ok

theorem check_of {condition : Prop} [Decidable condition] {why : Code} (holds : condition) :
    check condition why = .ok () := require_of holds

theorem check_error {condition : Prop} [Decidable condition] {why : Code} {reason : Abort Code} :
    check condition why = .error reason ↔ ¬ condition ∧ reason = .code why := require_error

/-- A guarded computation fails with another code exactly when the guard holds and the rest fails. -/
theorem check_bind_error {value : Type} {condition : Prop} [Decidable condition] {why reason : Code}
    {next : Unit → Result Code value} (other : reason ≠ why) :
    (check condition why >>= next) = .error (.code reason) ↔ condition ∧ next () = .error (.code reason) := by
  rw [bind_error]
  constructor
  · rintro (failed | ⟨_, holds, failed⟩)
    · exact absurd (Abort.code.inj (check_error.mp failed).2) other
    · exact ⟨check_ok.mp holds, failed⟩
  · rintro ⟨holds, failed⟩
    exact Or.inr ⟨(), check_of holds, failed⟩

theorem check_pure_error {value : Type} {condition : Prop} [Decidable condition] {why : Code}
    {produced : value} {reason : Abort Code} :
    (check condition why >>= fun _ => (pure produced : Result Code value)) = .error reason ↔
      ¬ condition ∧ reason = .code why := by
  rw [bind_error, check_error]
  constructor
  · rintro (failed | ⟨_, _, impossible⟩)
    · exact failed
    · cases impossible
  · exact Or.inl

/-- A guarded computation returns exactly when the guard holds and the rest returns. -/
theorem check_bind_ok {value : Type} {condition : Prop} [Decidable condition] {why : Code}
    {next : Unit → Result Code value} {result : value} :
    (check condition why >>= next) = .ok result ↔ condition ∧ next () = .ok result := by
  simp only [bind_ok, check_ok]
  exact ⟨fun ⟨_, holds, ran⟩ => ⟨holds, ran⟩, fun ⟨holds, ran⟩ => ⟨(), holds, ran⟩⟩

theorem check_pure_ok {value : Type} {condition : Prop} [Decidable condition] {why : Code}
    {produced result : value} :
    (check condition why >>= fun _ => (pure produced : Result Code value)) = .ok result ↔
      condition ∧ result = produced := by
  rw [check_bind_ok, pure_ok, eq_comm]

theorem check_avoids {bad : Abort Code → Prop} {condition : Prop} [Decidable condition] {why : Code}
    (fine : ¬ bad (.code why)) : Avoids bad (check condition why) := by
  intro reason failed
  rw [(check_error.mp failed).2]
  exact fine

theorem check_bind_avoids {value : Type} {bad : Abort Code → Prop} {condition : Prop} [Decidable condition]
    {why : Code} {next : Unit → Result Code value} (fine : ¬ bad (.code why))
    (rest : condition → Avoids bad (next ())) : Avoids bad (check condition why >>= next) :=
  (check_avoids fine).bind (fun _ holds => rest (check_ok.mp holds))

def fit (bound value : Nat) : Result Code Nat :=
  if value < bound then .ok value else .error .arithmetic

theorem fit_ok {bound value result : Nat} :
    (fit bound value : Result Code Nat) = .ok result ↔ value < bound ∧ value = result := by
  unfold fit
  split <;> simp [*]

theorem fit_of {bound value : Nat} (small : value < bound) :
    (fit bound value : Result Code Nat) = .ok value := if_pos small

theorem fit_error {bound value : Nat} {why : Code} : fit bound value ≠ .error (.code why) := by
  unfold fit
  split <;> simp

theorem fit_avoids {bad : Abort Code → Prop} {bound value : Nat} (fine : ¬ bad .arithmetic) :
    Avoids bad (fit bound value) := by
  unfold fit
  split
  · exact Avoids.ok _ _
  · intro why failed
    cases failed
    exact fine

def addU64 (a b : Nat) : Result Code Nat := fit u64Bound (a + b)

def addU128 (a b : Nat) : Result Code Nat := fit u128Bound (a + b)

def mulU128 (a b : Nat) : Result Code Nat := fit u128Bound (a * b)

def castU64 (a : Nat) : Result Code Nat := fit u64Bound a

def sub (a b : Nat) : Result Code Nat :=
  if b ≤ a then .ok (a - b) else .error .arithmetic

theorem sub_ok {a b result : Nat} :
    (sub a b : Result Code Nat) = .ok result ↔ b ≤ a ∧ a - b = result := by
  unfold sub
  split <;> simp [*]

theorem sub_error {a b : Nat} {why : Code} : sub a b ≠ .error (.code why) := by
  unfold sub
  split <;> simp

theorem sub_avoids {bad : Abort Code → Prop} {a b : Nat} (fine : ¬ bad .arithmetic) : Avoids bad (sub a b) := by
  unfold sub
  split
  · exact Avoids.ok _ _
  · intro why failed
    cases failed
    exact fine

theorem sub_of {a b : Nat} (enough : b ≤ a) : (sub a b : Result Code Nat) = .ok (a - b) := if_pos enough

/-- Division aborts on a zero divisor. -/
def div (a b : Nat) : Result Code Nat :=
  if b = 0 then .error .arithmetic else .ok (a / b)

theorem div_ok {a b result : Nat} :
    (div a b : Result Code Nat) = .ok result ↔ b ≠ 0 ∧ a / b = result := by
  unfold div
  split <;> simp [*]

end SuiOptions.Move
