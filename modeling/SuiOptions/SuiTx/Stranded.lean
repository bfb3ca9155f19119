import SuiOptions.SuiTx.Builder

/-! The checker for results that nothing consumes, and what it says about a run. -/

set_option autoImplicit false

namespace SuiOptions.SuiTx

open Ptb

/-- How many values a Move call returns, of those the put-exercise transactions can emit. -/
def returnArity : Function → Option Nat
  | .zero => some 1
  | .borrowFlashloanBase | .borrowFlashloanQuote => some 2
  | .returnFlashloanBase | .returnFlashloanQuote => some 0
  | .swapExactQuoteForBase => some 3
  | .exercisePut => some 1
  | .exercisePutCoin => some 0
  | .takerSwapQuoteForBase => some 0
  | .redeemFunds | .swapExactBaseForQuote | .exerciseCall => none

/-- A call with one value is named as a whole; the coins of a split are named one by one. -/
def produced (index arity : Nat) (alwaysNested : Bool) : List Argument :=
  match arity with
  | 0 => []
  | 1 => if alwaysNested then [.nestedResult index 0] else [.result index]
  | n + 2 => (List.range (n + 2)).map (.nestedResult index)

def isResult : Argument → Bool
  | .result _ | .nestedResult _ _ => true
  | .pure _ | .object _ => false

section Naming

variable (i j : Nat)

@[simp] theorem isResult_pure : isResult (.pure i) = false := rfl

@[simp] theorem isResult_object : isResult (.object i) = false := rfl

@[simp] theorem isResult_result : isResult (.result i) = true := rfl

@[simp] theorem isResult_nestedResult : isResult (.nestedResult i j) = true := rfl

end Naming

structure Tally where
  outstanding : List Argument
  consumed : List Argument
  deriving DecidableEq

namespace Tally

def consume (t : Tally) (arg : Argument) : Option Tally :=
  if isResult arg = false then some t
  else if arg ∈ t.consumed then none
  else if arg ∈ t.outstanding then some ⟨t.outstanding.erase arg, t.consumed ++ [arg]⟩
  else none

def consumeAll (t : Tally) : List Argument → Option Tally
  | [] => some t
  | arg :: rest =>
    match t.consume arg with
    | none => none
    | some next => next.consumeAll rest

def produce (t : Tally) (results : List Argument) : Tally := { t with outstanding := t.outstanding ++ results }

variable {τ : Type} (arity : Function → Option Nat)

def command (t : Tally) (index : Nat) : Command (MoveCall τ) → Option (String × Tally)
  | .moveCall c arguments =>
    match arity c.function, t.consumeAll arguments with
    | some n, some next => some (c.function.name, next.produce (produced index n false))
    | _, _ => none
  | .splitCoins _ amounts => some ("SplitCoins", t.produce (produced index amounts.length true))
  | .mergeCoins _ sources => (t.consumeAll sources).map fun next => ("MergeCoins", next)
  | .transferObjects objects _ => (t.consumeAll objects).map fun next => ("TransferObjects", next)

def commands (t : Tally) (index : Nat) : List (Command (MoveCall τ)) → Option (List String × Tally)
  | [] => some ([], t)
  | c :: rest =>
    match t.command arity index c with
    | none => none
    | some (call, next) =>
      match next.commands (index + 1) rest with
      | none => none
      | some (calls, last) => some (call :: calls, last)

end Tally

/-- The names of what is called, when every result is consumed exactly once. -/
def assertNothingStranded {τ : Type} (ptb : List (Command (MoveCall τ))) : Option (List String) :=
  match (⟨[], []⟩ : Tally).commands returnArity 0 ptb with
  | none => none
  | some (calls, last) => if last.outstanding = [] then some calls else none

theorem assertNothingStranded_ok {τ : Type} {commands : List (Command (MoveCall τ))} {names : List String}
    (checked : assertNothingStranded commands = some names) :
    ∃ calls last, (⟨[], []⟩ : Tally).commands returnArity 0 commands = some (calls, last) ∧ last.outstanding = [] := by
  unfold assertNothingStranded at checked
  split at checked
  · cases checked
  · rename_i calls last tallied
    split at checked
    · rename_i settled
      exact ⟨calls, last, tallied, settled⟩
    · cases checked

/-- What a command takes by value. -/
def takes {τ : Type} : Command (MoveCall τ) → List Argument
  | .moveCall _ arguments => arguments
  | .splitCoins _ _ => []
  | .mergeCoins _ sources => sources
  | .transferObjects objects _ => objects

def resultsOf {τ : Type} (index : Nat) : Command (MoveCall τ) → List Argument
  | .moveCall c _ => produced index ((returnArity c.function).getD 0) false
  | .splitCoins _ amounts => produced index amounts.length true
  | _ => []

namespace Tally

variable {τ : Type} {t after : Tally} {name arg : Argument}

theorem consume_keeps (consumed : t.consume arg = some after) (known : name ∈ t.outstanding) (other : name ≠ arg) :
    name ∈ after.outstanding := by
  unfold consume at consumed
  split at consumed
  · cases consumed
    exact known
  · split at consumed
    · cases consumed
    · split at consumed
      · cases consumed
        exact (List.mem_erase_of_ne other).mpr known
      · cases consumed

theorem consumeAll_keeps {args : List Argument} (consumed : t.consumeAll args = some after)
    (known : name ∈ t.outstanding) (untaken : name ∉ args) : name ∈ after.outstanding := by
  induction args generalizing t with
  | nil =>
    cases consumed
    exact known
  | cons arg rest ih =>
    rw [List.mem_cons, not_or] at untaken
    unfold consumeAll at consumed
    split at consumed
    · cases consumed
    · rename_i first
      exact ih consumed (consume_keeps first known untaken.1) untaken.2

theorem command_keeps {index : Nat} {c : Command (MoveCall τ)} {call : String}
    (checked : t.command returnArity index c = some (call, after)) :
    (∀ name ∈ t.outstanding, name ∈ takes c ∨ name ∈ after.outstanding) ∧
      ∀ name ∈ resultsOf index c, name ∈ after.outstanding := by
  cases c with
  | moveCall f args =>
    simp only [command] at checked
    split at checked
    · rename_i n tally arity consumed
      cases checked
      refine ⟨fun name known => ?_, fun name made => List.mem_append_right _ ?_⟩
      · by_cases taken : name ∈ args
        · exact Or.inl taken
        · exact Or.inr (List.mem_append_left _ (consumeAll_keeps consumed known taken))
      · rwa [resultsOf, arity, Option.getD_some] at made
    · cases checked
  | splitCoins coin amounts =>
    cases checked
    exact ⟨fun name known => Or.inr (List.mem_append_left _ known), fun name made => List.mem_append_right _ made⟩
  | mergeCoins target args | transferObjects args recipient =>
    obtain ⟨tally, consumed, named⟩ := Option.map_eq_some_iff.mp checked
    cases named
    refine ⟨fun name known => ?_, fun name made => by cases made⟩
    by_cases taken : name ∈ args
    · exact Or.inl taken
    · exact Or.inr (consumeAll_keeps consumed known taken)

/-- Where nothing is outstanding at the end, every result has been taken by a later command. -/
theorem commands_taken {index : Nat} {commands : List (Command (MoveCall τ))} {calls : List String}
    (checked : t.commands returnArity index commands = some (calls, after)) (settled : after.outstanding = []) :
    (∀ name ∈ t.outstanding, ∃ c ∈ commands, name ∈ takes c) ∧
      ∀ earlier c later, commands = earlier ++ c :: later →
        ∀ name ∈ resultsOf (index + earlier.length) c, ∃ d ∈ later, name ∈ takes d := by
  induction commands generalizing t index calls with
  | nil =>
    cases checked
    refine ⟨fun name known => ?_, fun earlier c later split => by cases (List.append_eq_nil_iff.mp split.symm).2⟩
    rw [settled] at known
    cases known
  | cons c rest ih =>
    unfold commands at checked
    split at checked
    · cases checked
    · rename_i call middle first
      split at checked
      · cases checked
      · rename_i calls last others
        cases checked
        obtain ⟨outstanding, further⟩ := ih others
        obtain ⟨kept, made⟩ := command_keeps first
        constructor
        · intro name known
          rcases kept name known with taken | still
          · exact ⟨c, List.mem_cons_self, taken⟩
          · obtain ⟨d, member, taken⟩ := outstanding name still
            exact ⟨d, List.mem_cons_of_mem _ member, taken⟩
        · intro earlier d later split
          cases earlier with
          | nil =>
            cases split
            exact fun name result => outstanding name (made name result)
          | cons head earlier =>
            obtain ⟨rfl, rfl⟩ := List.cons.inj split
            intro name result
            refine further earlier d later rfl name ?_
            rwa [List.length_cons, ← Nat.add_assoc, Nat.add_right_comm] at result

end Tally

section Accounted

variable {σ τ ρ : Type} {m next : Machine σ τ ρ} {t after : Tally}

def Accounted (m : Machine σ τ ρ) (t : Tally) : Prop :=
  ∀ i j, m.Live i j → ∃ arg ∈ t.outstanding, arg.place = some (.slot i j)

theorem Accounted.take {arg : Argument} {taken : Value τ ρ × Machine σ τ ρ} (accounted : Accounted m t)
    (consumed : t.consume arg = some after) (took : m.take arg = some taken) : Accounted taken.2 after := by
  intro i j live
  obtain ⟨before, elsewhere⟩ := live.of_take took
  obtain ⟨name, known, here⟩ := accounted i j before
  refine ⟨name, ?_, here⟩
  -- the result taken is no longer live, so a live one has another name
  have other : name ≠ arg := by
    rintro rfl
    exact elsewhere here
  exact Tally.consume_keeps consumed known other

theorem Accounted.takeAll {args : List Argument} {taken : List (Value τ ρ) × Machine σ τ ρ} (accounted : Accounted m t)
    (consumed : t.consumeAll args = some after) (took : m.takeAll args = some taken) : Accounted taken.2 after := by
  induction args generalizing m t taken with
  | nil =>
    cases consumed
    cases took
    exact accounted
  | cons arg rest ih =>
    obtain ⟨v, middle, vs, first, others, _⟩ := Machine.takeAll_cons took
    unfold Tally.consumeAll at consumed
    split at consumed
    · cases consumed
    · rename_i tally one
      have last : Accounted (vs, taken.2).2 after := ih (accounted.take one first) consumed others
      exact last

theorem mem_produced {index arity j : Nat} (alwaysNested : Bool) (inside : j < arity) :
    ∃ arg ∈ produced index arity alwaysNested, arg.place = some (.slot index j) := by
  match arity with
  | 0 => cases inside
  | 1 =>
    cases Nat.lt_one_iff.mp inside
    cases alwaysNested with
    | true => exact ⟨_, List.mem_singleton_self _, rfl⟩
    | false => exact ⟨_, List.mem_singleton_self _, rfl⟩
  | n + 2 => exact ⟨.nestedResult index j, List.mem_map.mpr ⟨j, List.mem_range.mpr inside, rfl⟩, rfl⟩

theorem Accounted.yields {values : List (Value τ ρ)} {alwaysNested : Bool} (accounted : Accounted m t) :
    Accounted (m.yields values) (t.produce (produced m.count values.length alwaysNested)) := by
  intro i j live
  rcases live.of_yields with before | ⟨rfl, inside⟩
  · obtain ⟨name, known, here⟩ := accounted i j before
    exact ⟨name, List.mem_append_left _ known, here⟩
  · obtain ⟨name, known, here⟩ := mem_produced alwaysNested inside
    exact ⟨name, List.mem_append_right _ known, here⟩

theorem Accounted.ends (accounted : Accounted m t) : Accounted (m.yields ([] : List (Value τ ρ))) t := by
  have kept : Accounted (m.yields []) (t.produce (produced m.count 0 false)) := accounted.yields
  rwa [produced, Tally.produce, List.append_nil] at kept

theorem Accounted.congr (accounted : Accounted m t) (next : Machine σ τ ρ) (contents : next.contents = m.contents)
    (arities : next.arities = m.arities) : Accounted next t := by
  intro i j live
  refine accounted i j ⟨?_, ?_, ?_⟩
  · rw [Machine.count, ← arities]
    exact live.ran
  · rw [← arities]
    exact live.left
  · rw [← contents]
    exact live.linear

theorem Accounted.put {arg : Argument} {value v : Value τ ρ} (accounted : Accounted m t) (known : m.read arg = some v)
    (linear : v.isLinear = true) : Accounted (m.put arg (some value)) t :=
  fun i j live => accounted i j (live.of_put known linear)

theorem Accounted.fresh (fresh : m.arities = []) : Accounted m ⟨[], []⟩ := by
  intro i j live
  have ran := live.ran
  rw [Machine.count, fresh] at ran
  cases ran

theorem Accounted.not_stranded (accounted : Accounted m t) (settled : t.outstanding = []) : m.stranded = false := by
  rw [← Bool.not_eq_true, Machine.stranded_iff]
  rintro ⟨i, j, live⟩
  obtain ⟨name, known, _⟩ := accounted i j live
  rw [settled] at known
  cases known

variable [DecidableEq τ] {call : MoveCall τ → σ → List (Value τ ρ) → Option (σ × List (Value τ ρ))}
  {arity : Function → Option Nat}

/-- A call returns as many values as its function is said to. -/
def Honest (call : MoveCall τ → σ → List (Value τ ρ) → Option (σ × List (Value τ ρ)))
    (arity : Function → Option Nat) : Prop :=
  ∀ c world args done n, call c world args = some done → arity c.function = some n → done.2.length = n

theorem Accounted.step {c : Command (MoveCall τ)} {name : String} (accounted : Accounted m t) (honest : Honest call arity)
    (checked : t.command arity m.count c = some (name, after)) (ran : m.step call c = some next) :
    Accounted next after ∧ next.count = m.count + 1 := by
  cases c with
  | moveCall f args =>
    simp only [Tally.command] at checked
    simp only [Machine.step] at ran
    split at checked
    · rename_i n tally known consumed
      cases checked
      split at ran
      · cases ran
      · rename_i values taken took
        split at ran
        · cases ran
        · rename_i world left called
          cases ran
          have kept := accounted.takeAll consumed took
          -- the tally adds as many results as the function is said to return
          cases honest f _ _ _ n called known
          have counted : taken.count = m.count := Machine.takeAll_count took
          refine ⟨?_, by rw [Machine.yields_count]; exact congrArg (· + 1) counted⟩
          rw [← counted]
          exact (kept.congr (taken.enter world) rfl rfl).yields
    · cases checked
  | splitCoins coin amounts =>
    cases checked
    simp only [Machine.step] at ran
    split at ran
    · rename_i type value parts known sizes
      split at ran
      · cases ran
        have same : (parts.map (Value.coin type : Nat → Value τ ρ)).length = amounts.length := by
          rw [List.length_map, Machine.readPures_length sizes]
        have counted : (m.put coin (some (.coin type (value - parts.sum)))).count = m.count :=
          congrArg List.length (Machine.put_arities _)
        refine ⟨?_, by rw [Machine.yields_count, counted]⟩
        rw [← counted, ← same]
        exact (accounted.put known rfl).yields
      · cases ran
    · cases ran
  | mergeCoins target sources =>
    simp only [Tally.command, Option.map_eq_some_iff] at checked
    obtain ⟨tally, consumed, named⟩ := checked
    cases named
    simp only [Machine.step] at ran
    split at ran
    · cases ran
    · rename_i values taken took
      have kept := accounted.takeAll consumed took
      split at ran
      · rename_i type value known
        split at ran
        · cases ran
        · rename_i more sum
          cases ran
          have counted : (taken.put target (some (.coin type (value + more)))).count = m.count :=
            (congrArg List.length (Machine.put_arities _)).trans (Machine.takeAll_count took)
          refine ⟨?_, by rw [Machine.yields_count, counted]⟩
          exact (kept.put known rfl).ends
      · cases ran
  | transferObjects objects recipient =>
    simp only [Tally.command, Option.map_eq_some_iff] at checked
    obtain ⟨tally, consumed, named⟩ := checked
    cases named
    simp only [Machine.step] at ran
    split at ran
    · rename_i values taken address took known
      cases ran
      have kept := accounted.takeAll consumed took
      refine ⟨?_, by rw [Machine.yields_count]; exact congrArg (· + 1) (Machine.takeAll_count took)⟩
      exact (kept.congr (taken.send address values) rfl rfl).ends
    · cases ran

theorem Accounted.run {commands : List (Command (MoveCall τ))} {names : List String} (accounted : Accounted m t)
    (honest : Honest call arity) (checked : t.commands arity m.count commands = some (names, after))
    (ran : m.run call commands = some next) : Accounted next after := by
  -- the index the checker counts by is the number of commands the machine has run
  induction commands generalizing m t names with
  | nil =>
    cases checked
    cases ran
    exact accounted
  | cons c rest ih =>
    unfold Tally.commands at checked
    unfold Machine.run at ran
    split at checked
    · cases checked
    · rename_i name middle first
      split at ran
      · cases ran
      · rename_i reached stepped
        obtain ⟨kept, counted⟩ := accounted.step honest first stepped
        split at checked
        · cases checked
        · rename_i names last others
          cases checked
          exact ih kept (counted ▸ others) ran

end Accounted

end SuiOptions.SuiTx
