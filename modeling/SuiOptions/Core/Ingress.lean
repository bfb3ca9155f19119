import SuiOptions.Core.PutAssignment
import SuiOptions.Exchange.Market

/-! Put buckets behind the launch gate.

Every venue that writes asks the options domain of the whitelist for its
sender; exercising, closing and redeeming never do. A spread at a cursor is
exercised with coins that are written for it, so it takes a sender whom the
gate lets in.
-/

set_option autoImplicit false

namespace SuiOptions.Exchange

/-- `assert_ingress_allowed` passes. -/
def DomainState.Allows (domain : DomainState) (who : Address) : Prop :=
  domain.paused = false ∧ (domain.enabled = false ∨ who ∈ domain.members)

theorem DomainState.assertIngressAllowed_ok {domain : DomainState} {who : Address} {value : Unit} :
    domain.assertIngressAllowed who = .ok value ↔ domain.Allows who := by
  simp only [assertIngressAllowed, Execution.bind_ok, Move.check_ok, exists_const, Allows]

end SuiOptions.Exchange

namespace SuiOptions.Core

open Execution Move Exchange

variable {ι : Type} [DecidableEq ι]

/-- The call brings new collateral in. -/
def PutOp.isIngress : PutOp ι → Bool
  | .write _ _ _ | .writeSpread _ _ _ _ _ => true
  | _ => false

/-- The call, once the gate has let its sender in. -/
def PutOp.admitted : PutOp ι → PutOp ι
  | .writeSpread _ i j amount topUp => .writeSpread true i j amount topUp
  | op => op

/-- The put buckets and the options domain of the whitelist. -/
structure GatedPuts (ι : Type) where
  puts : PutSystem ι
  options : DomainState

inductive GatedOp (ι : Type) where
  | call (sender : Address) (op : PutOp ι)
  | gate (what : Market.WhitelistCall)

/-- The gate of the write venues. -/
def GatedPuts.assertIngress (s : GatedPuts ι) (sender : Address) (op : PutOp ι) : Result Error Unit :=
  if op.isIngress then within (fun _ => .ingressNotAllowed) (s.options.assertIngressAllowed sender) else pure ()

def gatedStep (s : GatedPuts ι) : GatedOp ι → Result Error (GatedPuts ι)
  | .call sender op => do
    s.assertIngress sender op
    let puts ← putStep s.puts op.admitted
    pure { s with puts }
  | .gate what => do
    let options ← within (fun _ => .ingressNotAllowed) (Market.gate s.options what)
    pure { s with options }

/-- Buckets without positions, behind a `new_domain`. -/
def GatedPuts.create (now : Nat) (terms : ι → Terms) : GatedPuts ι :=
  ⟨PutSystem.create now terms, ⟨[], true, false⟩⟩

def GatedOp.Permissionless : GatedOp ι → Prop
  | .call _ op => op.Permissionless
  | .gate _ => False

/-- The condition on a call is that on its effect on the buckets. -/
def GatedPuts.Careful (s : GatedPuts ι) : GatedOp ι → Prop
  | .call _ op => s.puts.Careful op
  | .gate _ => True

/-- Wherever the cursor of a live bucket stands on a spread, calls that need no position and no
capability lead to a state in which one unit of that spread is exercised. -/
def GatedPuts.Assignable (s : GatedPuts ι) : Prop :=
  ∀ i r escrow, s.puts.now < (s.puts.buckets i).expiryMs → r ∈ (s.puts.buckets i).spreads →
    r.Has (s.puts.buckets i).exerciseCursor → (s.puts.buckets i).escrows r.start = some escrow →
    ∃ ops ready who next, (∀ op ∈ ops, op.Permissionless) ∧ exec gatedStep s ops = .ok ready ∧
      r ∈ (ready.puts.buckets i).spreads ∧ r.Has (ready.puts.buckets i).exerciseCursor ∧
      gatedStep ready (.call who (.exerciseSpread i escrow.longBucketId 1 1)) = .ok next

section Projection

variable {s next : GatedPuts ι} {sender : Address} {op : PutOp ι} {puts : PutSystem ι}

omit [DecidableEq ι] in
theorem GatedPuts.admit_ok {value : Unit} :
    s.assertIngress sender op = .ok value ↔ (op.isIngress = true → s.options.Allows sender) := by
  unfold assertIngress
  split
  · rename_i ingress
    rw [within_ok, DomainState.assertIngressAllowed_ok]
    exact ⟨fun allowed _ => allowed, fun allowed => allowed ingress⟩
  · rename_i other
    exact ⟨fun _ ingress => absurd ingress other, fun _ => rfl⟩

theorem gatedStep_call : gatedStep s (.call sender op) = .ok next ↔
    (op.isIngress = true → s.options.Allows sender) ∧ putStep s.puts op.admitted = .ok next.puts ∧
      next.options = s.options := by
  simp only [gatedStep, bind_ok, GatedPuts.admit_ok, exists_const, pure_ok]
  refine and_congr_right fun _ => ⟨?_, ?_⟩
  · rintro ⟨puts, stepped, rfl⟩
    exact ⟨stepped, rfl⟩
  · rintro ⟨stepped, same⟩
    exact ⟨next.puts, stepped, by rw [← same]⟩

theorem gatedStep_gate {what : Market.WhitelistCall} (moved : gatedStep s (.gate what) = .ok next) : next.puts = s.puts := by
  obtain ⟨options, _, moved⟩ := bind_ok.mp moved
  cases moved
  rfl

/-- Calls through the gate are calls on the buckets. -/
theorem gated_calls {ops : List (GatedOp ι)} (free : ∀ op ∈ ops, op.Permissionless)
    (ran : exec gatedStep s ops = .ok next) :
    ∃ calls : List (PutOp ι), (∀ op ∈ calls, op.Permissionless) ∧ exec putStep s.puts calls = .ok next.puts := by
  refine exec_invariant_only gatedStep GatedOp.Permissionless (fun t => ∃ calls : List (PutOp ι),
    (∀ op ∈ calls, op.Permissionless) ∧ exec putStep s.puts calls = .ok t.puts) ?_ ⟨[], by simp, rfl⟩ free ran
  rintro state op after ⟨calls, only, called⟩ free stepped
  cases op with
  | gate what => exact absurd free id
  | call sender op =>
    obtain ⟨-, moved, -⟩ := gatedStep_call.mp stepped
    refine ⟨calls ++ [op.admitted], fun call member => ?_,
      (exec_append_ok putStep).mpr ⟨state.puts, called, (exec_cons_ok putStep).mpr ⟨_, moved, rfl⟩⟩⟩
    rcases List.mem_append.mp member with early | last
    · exact only call early
    · rw [List.mem_singleton.mp last]
      cases op <;> exact free

end Projection

section Runs

variable [Fintype ι] {now : Nat} {terms : ι → Terms} {s : GatedPuts ι}

end Runs

section Samples

variable {terms : ι → Terms} {s : GatedPuts ι} {op : GatedOp ι}

theorem GatedPuts.held_step {next : GatedPuts ι} (held : s.puts.Held terms) (stepped : gatedStep s op = .ok next) :
    next.puts.Held terms := by
  cases op with
  | call sender op =>
    obtain ⟨-, moved, -⟩ := gatedStep_call.mp stepped
    exact held.step moved
  | gate what =>
    rw [gatedStep_gate stepped]
    exact held

/-- What can be done through the gate can be done on the buckets. -/
theorem GatedPuts.Assignable.puts (assignable : s.Assignable) : s.puts.Assignable := by
  intro i r escrow live member here listed
  obtain ⟨ops, ready, who, next, free, ran, spread, stands, stepped⟩ := assignable i r escrow live member here listed
  obtain ⟨calls, only, called⟩ := gated_calls free ran
  exact ⟨calls, ready.puts, next.puts, only, called, spread, stands, (gatedStep_call.mp stepped).2.1⟩

theorem GatedPuts.held_of_run {now : Nat} {ops : List (GatedOp ι)}
    (ran : exec gatedStep (GatedPuts.create now terms) ops = .ok s) : s.puts.Held terms :=
  exec_invariant gatedStep (fun t => t.puts.Held terms) (fun _ _ _ held stepped => held_step held stepped)
    (PutSystem.Held.create now terms) ran

end Samples

end SuiOptions.Core
