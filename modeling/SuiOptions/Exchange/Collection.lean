import SuiOptions.Exchange.FillBound

/-! Collecting the entries of orders that expired long ago.

An entry keeps the expiry its order was signed with. The sum of that expiry and the
grace period is a sum of 64 bits, so an order signed to expire near the end of time
leaves an entry that no batch can list.
-/

set_option autoImplicit false

namespace SuiOptions.Exchange

open Execution Move

namespace SettlementRegistry

/-- The order of the entry expired at least the grace period ago. -/
abbrev Due (now : Nat) (state : FillState) : Prop := state.expiryMs + gcGraceMs ≤ now

/-- The registry without the listed entries that are due. -/
def collected (now : Nat) (reg : SettlementRegistry) (digests : List Bytes) : SettlementRegistry :=
  { reg with fills := fun digest => (reg.fills digest).filter fun state => ¬ (digests.contains digest = true ∧ Due now state) }

/-- The sum of expiry and grace period is computed for every listed entry. -/
def Summable (reg : SettlementRegistry) (digests : List Bytes) : Prop :=
  ∀ digest ∈ digests, ∀ state, reg.fills digest = some state → state.expiryMs + gcGraceMs < u64Bound

variable {now : Nat} {reg : SettlementRegistry} {digest : Bytes} {digests : List Bytes}

theorem fills_collected {state : FillState} : (reg.collected now digests).fills digest = some state ↔
    reg.fills digest = some state ∧ ¬ (digest ∈ digests ∧ Due now state) := by
  rw [collected, Option.filter_eq_some_iff, decide_eq_true_iff, List.contains_iff_mem]

theorem eq_collected {fills : Bytes → Option FillState} (same : ∀ digest state, fills digest = some state ↔
    reg.fills digest = some state ∧ ¬ (digest ∈ digests ∧ Due now state)) :
    { reg with fills } = reg.collected now digests := by
  have equal : fills = (reg.collected now digests).fills := by
    funext digest
    apply Option.ext
    intro state
    rw [same, fills_collected]
  rw [equal]
  rfl

theorem collected_nil : reg.collected now [] = reg :=
  (eq_collected (by simp)).symm

theorem collected_cons : (reg.collected now [digest]).collected now digests = reg.collected now (digest :: digests) := by
  have kept : ∀ other state, ((reg.collected now [digest]).collected now digests).fills other = some state ↔
      reg.fills other = some state ∧ ¬ (other ∈ digest :: digests ∧ Due now state) := by
    intro other state
    rw [fills_collected, fills_collected, List.mem_singleton, List.mem_cons]
    tauto
  exact eq_collected kept

theorem summable_single : reg.Summable [digest] ↔
    ∀ state, reg.fills digest = some state → state.expiryMs + gcGraceMs < u64Bound := by
  simp [Summable]

theorem gcOne_iff {next : SettlementRegistry} : gcOne now reg digest = .ok next ↔
    reg.Summable [digest] ∧ next = reg.collected now [digest] := by
  rw [summable_single]
  unfold gcOne
  cases present : reg.fills digest with
  | none =>
    -- an unknown digest is skipped
    have same : reg = reg.collected now [digest] := by
      apply eq_collected
      intro other state
      constructor
      · intro found
        refine ⟨found, ?_⟩
        rintro ⟨listed, -⟩
        rw [List.mem_singleton.mp listed, present] at found
        cases found
      · exact And.left
    rw [← same]
    simp [eq_comm]
  | some state =>
    -- the entry goes when it is due, and whether it is depends on a sum that must not overflow
    have same : (if Due now state then { reg with fills := Function.update reg.fills digest none } else reg) =
        reg.collected now [digest] := by
      split
      · rename_i due
        apply eq_collected
        intro other found
        rw [Function.update_apply]
        split
        · rename_i here
          subst here
          rw [present]
          constructor
          · intro impossible
            cases impossible
          · rintro ⟨⟨⟩, kept⟩
            exact absurd ⟨List.mem_singleton_self _, due⟩ kept
        · rename_i apart
          rw [List.mem_singleton]
          tauto
      · rename_i young
        apply eq_collected
        intro other found
        constructor
        · intro here
          refine ⟨here, ?_⟩
          rintro ⟨listed, due⟩
          rw [List.mem_singleton.mp listed, present] at here
          cases here
          exact young due
        · exact And.left
    rw [bind_ok]
    constructor
    · rintro ⟨eligible, added, produced⟩
      obtain ⟨small, rfl⟩ := fit_ok.mp added
      refine ⟨fun other found => ?_, ?_⟩
      · cases found
        exact small
      · rw [← same]
        exact (pure_ok.mp produced).symm
    · rintro ⟨small, rfl⟩
      refine ⟨_, fit_of (small state rfl), ?_⟩
      rw [← same]
      rfl

/-- What the first digest of a batch leaves behind has no sum that was not there before, and
what it removes has expired. -/
theorem summable_cons : reg.Summable (digest :: digests) ↔
    reg.Summable [digest] ∧ (reg.collected now [digest]).Summable digests := by
  rw [summable_single]
  constructor
  · intro all
    refine ⟨all digest List.mem_cons_self, ?_⟩
    intro other listed state found
    exact all other (List.mem_cons_of_mem _ listed) state (fills_collected.mp found).1
  · rintro ⟨here, later⟩ other listed state found
    by_cases same : other = digest
    · exact here state (same ▸ found)
    · rcases List.mem_cons.mp listed with equal | listed
      · exact absurd equal same
      · apply later other listed state
        rw [fills_collected, List.mem_singleton]
        exact ⟨found, fun removed => same removed.1⟩

/-- A collection returns, and without exactly the listed entries that are due, if and only if none
of the listed entries has an expiry that overflows with the grace period. -/
theorem gc_iff (now : Nat) (reg : SettlementRegistry) (digests : List Bytes) :
    gc now reg digests = .ok (reg.collected now digests) ↔ reg.Summable digests := by
  unfold gc
  have whole : ∀ {final}, exec (gcOne now) reg digests = .ok final ↔
      reg.Summable digests ∧ final = reg.collected now digests := by
    induction digests generalizing reg with
    | nil =>
      intro final
      rw [exec_nil, collected_nil, Except.ok.injEq, eq_comm]
      simp [Summable]
    | cons digest rest ih =>
      intro final
      rw [exec_cons_ok, @summable_cons now, ← @collected_cons now reg digest rest]
      constructor
      · rintro ⟨next, first, later⟩
        obtain ⟨small, rfl⟩ := gcOne_iff.mp first
        obtain ⟨fits, rfl⟩ := (ih _).mp later
        exact ⟨⟨small, fits⟩, rfl⟩
      · rintro ⟨⟨small, fits⟩, rfl⟩
        exact ⟨_, gcOne_iff.mpr ⟨small, rfl⟩, (ih _).mpr ⟨fits, rfl⟩⟩
  rw [whole]
  exact and_iff_left rfl

end SettlementRegistry

namespace Vector

open Market SettlementRegistry

/-- An order that its maker signs to expire at the end of time. -/
def lasting : Order := { order with expiryMs := 18446744073709551615 }

def lastingDigest : Bytes := bigEndian 32 0x171230c93e9e7b38bf6007afa5e07555173d7eae9e1e368201ac18421209594a

def hashing : Natives := { natives with
  blake2b256 := fun input =>
    if input = domainTag ++ [domainVersion] ++ addressBytes registryId ++ lasting.toBytes then lastingDigest
    else natives.blake2b256 input }

/-- The maker cancels both orders, and the first stays expired for the grace period. -/
def cancellations : List Event :=
  [.transaction maker, .call (.cancel order.toBytes), .call (.cancel lasting.toBytes), .tick 1754934800000]

/-- An entry that is due stays where a batch also lists the entry of the lasting order. -/
theorem gc_aborts : ∃ s, exec (step hashing) opening cancellations = .ok s ∧
    (∃ state, s.registry.fills orderDigest = some state ∧ Due s.now state) ∧
      gc s.now s.registry [orderDigest, lastingDigest] = .error .arithmetic := by
  refine exists_ok (fun s => (s.registry.fills orderDigest).any (fun state => decide (Due s.now state)) &&
    match gc s.now s.registry [orderDigest, lastingDigest] with
    | .error why => decide (why = .arithmetic)
    | .ok _ => false) (by decide +kernel) ?_
  intro s _ passed
  rw [Bool.and_eq_true, Option.any_eq_true] at passed
  obtain ⟨⟨state, found, due⟩, failed⟩ := passed
  refine ⟨⟨state, found, of_decide_eq_true due⟩, ?_⟩
  cases ran : gc s.now s.registry [orderDigest, lastingDigest] with
  | ok next =>
    rw [ran] at failed
    cases failed
  | error why =>
    rw [ran] at failed
    rw [of_decide_eq_true failed]

end Vector

end SuiOptions.Exchange
