import Mathlib.Algebra.GroupWithZero.Nat
import Mathlib.Data.List.Basic
import Mathlib.Logic.Function.Basic

/-! Programmable transactions: commands over values that are used once.

A command takes its arguments from inputs and from the results of earlier commands. A
coin or a resource is moved out when it is taken by value. A transaction commits when
every command succeeds and no result that holds one is left over.
-/

set_option autoImplicit false

namespace Ptb

inductive Argument where
  /-- A pure input, in place. -/
  | pure (n : Nat)
  /-- An input object, by its id. -/
  | object (id : Nat)
  /-- The one result of a command. -/
  | result (i : Nat)
  | nestedResult (i j : Nat)
  deriving DecidableEq

inductive Place where
  | object (id : Nat)
  | slot (i j : Nat)
  deriving DecidableEq

def Argument.place : Argument → Option Place
  | .pure _ => none
  | .object id => some (.object id)
  | .result i => some (.slot i 0)
  | .nestedResult i j => some (.slot i j)

def Argument.Before (n : Nat) : Argument → Prop
  | .pure _ | .object _ => True
  | .result i | .nestedResult i _ => i < n

variable {σ τ ρ φ : Type}

inductive Value (τ ρ : Type) where
  | pure (n : Nat)
  /-- A shared object, passed by reference. -/
  | shared (id : Nat)
  | coin (type : τ) (amount : Nat)
  /-- Neither copied nor dropped. -/
  | resource (r : ρ)
  deriving DecidableEq

def Value.isLinear : Value τ ρ → Bool
  | .coin _ _ | .resource _ => true
  | .pure _ | .shared _ => false

inductive Command (φ : Type) where
  | splitCoins (coin : Argument) (amounts : List Argument)
  | mergeCoins (target : Argument) (sources : List Argument)
  | transferObjects (objects : List Argument) (recipient : Argument)
  | moveCall (function : φ) (arguments : List Argument)
  deriving DecidableEq

def Command.arguments {φ : Type} : Command φ → List Argument
  | .splitCoins coin amounts => coin :: amounts
  | .mergeCoins target sources => target :: sources
  | .transferObjects objects recipient => recipient :: objects
  | .moveCall _ arguments => arguments

structure Machine (σ τ ρ : Type) where
  world : σ
  contents : Place → Option (Value τ ρ)
  /-- How many values each command that has run left. -/
  arities : List Nat
  sent : List (Nat × Value τ ρ)

namespace Machine

variable (m : Machine σ τ ρ)

def count : Nat := m.arities.length

/-- A command is named as a whole only if it left one value. -/
def single : Argument → Bool
  | .result i => m.arities[i]? = some 1
  | _ => true

def read : Argument → Option (Value τ ρ)
  | .pure n => some (.pure n)
  | a => if m.single a then a.place.bind m.contents else none

def write (p : Place) (value : Option (Value τ ρ)) : Machine σ τ ρ :=
  { m with contents := Function.update m.contents p value }

def put (a : Argument) (value : Option (Value τ ρ)) : Machine σ τ ρ :=
  match a.place with
  | none => m
  | some p => m.write p value

def clear (m : Machine σ τ ρ) : List Argument → Machine σ τ ρ
  | [] => m
  | a :: rest => (m.put a none).clear rest

/-- An argument by value: what must be used up is moved out. -/
def take (a : Argument) : Option (Value τ ρ × Machine σ τ ρ) :=
  match m.read a with
  | none => none
  | some v => some (v, if v.isLinear then m.put a none else m)

def takeAll (m : Machine σ τ ρ) : List Argument → Option (List (Value τ ρ) × Machine σ τ ρ)
  | [] => some ([], m)
  | a :: rest =>
    match m.take a with
    | none => none
    | some (v, next) =>
      match next.takeAll rest with
      | none => none
      | some (vs, last) => some (v :: vs, last)

def readPure (a : Argument) : Option Nat :=
  match m.read a with
  | some (.pure n) => some n
  | _ => none

def readPures (m : Machine σ τ ρ) : List Argument → Option (List Nat)
  | [] => some []
  | a :: rest =>
    match m.readPure a, m.readPures rest with
    | some n, some ns => some (n :: ns)
    | _, _ => none

def yields (values : List (Value τ ρ)) : Machine σ τ ρ :=
  { m with
    contents := fun p => match p with
      | .object id => m.contents (.object id)
      | .slot i j => if i = m.count then values[j]? else m.contents (.slot i j)
    arities := m.arities ++ [values.length] }

def enter (world : σ) : Machine σ τ ρ := { m with world }

def send (address : Nat) (values : List (Value τ ρ)) : Machine σ τ ρ :=
  { m with sent := m.sent ++ values.map fun v => (address, v) }

def coinsOf [DecidableEq τ] (type : τ) : List (Value τ ρ) → Option Nat
  | [] => some 0
  | .coin t amount :: rest => if t = type then (coinsOf type rest).map (amount + ·) else none
  | _ => none

variable [DecidableEq τ] (call : φ → σ → List (Value τ ρ) → Option (σ × List (Value τ ρ)))

def step : Command φ → Option (Machine σ τ ρ)
  | .splitCoins coin amounts =>
    match m.read coin, m.readPures amounts with
    | some (.coin type value), some parts =>
      if parts.sum ≤ value then
        some ((m.put coin (some (.coin type (value - parts.sum)))).yields (parts.map (.coin type)))
      else none
    | _, _ => none
  -- the sources go first: a target among them is gone when it is read
  | .mergeCoins target sources =>
    match m.takeAll sources with
    | none => none
    | some (values, next) =>
      match next.read target with
      | some (.coin type value) =>
        match coinsOf type values with
        | none => none
        | some more => some ((next.put target (some (.coin type (value + more)))).yields [])
      | _ => none
  | .transferObjects objects recipient =>
    match m.takeAll objects, m.readPure recipient with
    | some (values, next), some address =>
      some ((next.send address values).yields [])
    | _, _ => none
  | .moveCall function arguments =>
    match m.takeAll arguments with
    | none => none
    | some (values, next) =>
      match call function next.world values with
      | none => none
      | some (world, left) => some ((next.enter world).yields left)

def run (m : Machine σ τ ρ) : List (Command φ) → Option (Machine σ τ ρ)
  | [] => some m
  | command :: rest =>
    match m.step call command with
    | none => none
    | some next => next.run rest

def stranded : Bool :=
  (List.range m.count).any fun i => (List.range (m.arities.getD i 0)).any fun j =>
    (m.contents (.slot i j)).any Value.isLinear

def commit (commands : List (Command φ)) : Option (Machine σ τ ρ) :=
  match m.run call commands with
  | none => none
  | some final => if final.stranded then none else some final

structure Live (i j : Nat) : Prop where
  ran : i < m.count
  left : j < m.arities.getD i 0
  linear : (m.contents (.slot i j)).any Value.isLinear = true

end Machine

variable {m next : Machine σ τ ρ} {a : Argument} {v : Value τ ρ} {i j : Nat}

theorem Argument.Before.mono {n k : Nat} (before : a.Before n) (more : n ≤ k) : a.Before k := by
  cases a with
  | pure n => trivial
  | object id => trivial
  | result i => exact Nat.lt_of_lt_of_le before more
  | nestedResult i j => exact Nat.lt_of_lt_of_le before more

theorem Argument.Before.place_ne {n : Nat} (before : a.Before n) (past : n ≤ i) : a.place ≠ some (.slot i j) := by
  intro here
  cases a with
  | pure n => cases here
  | object id => cases here
  | result k =>
    cases here
    exact Nat.lt_irrefl _ (Nat.lt_of_lt_of_le before past)
  | nestedResult k l =>
    cases here
    exact Nat.lt_irrefl _ (Nat.lt_of_lt_of_le before past)

namespace Machine

section Effects

variable (values : List (Value τ ρ)) (value : Option (Value τ ρ)) (p q : Place) (world : σ) (address : Nat)

@[simp] theorem yields_slot :
    (m.yields values).contents (.slot i j) = if i = m.count then values[j]? else m.contents (.slot i j) := rfl

@[simp] theorem yields_object (id : Nat) : (m.yields values).contents (.object id) = m.contents (.object id) := rfl

@[simp] theorem yields_count : (m.yields values).count = m.count + 1 := List.length_append

@[simp] theorem yields_arity :
    (m.yields values).arities[i]? = if i = m.count then some values.length else m.arities[i]? := by
  unfold yields
  split
  · rename_i last
    simp [last, count]
  · rename_i other
    rcases Nat.lt_or_gt_of_ne other with before | after
    · exact List.getElem?_append_left before
    · have past : m.arities.length + 1 ≤ i := after
      rw [List.getElem?_eq_none (Nat.le_of_succ_le past), List.getElem?_eq_none]
      rwa [List.length_append]

@[simp] theorem yields_world : (m.yields values).world = m.world := rfl

@[simp] theorem yields_sent : (m.yields values).sent = m.sent := rfl

@[simp] theorem put_count (b : Argument) : (m.put b value).count = m.count := by
  unfold put
  split <;> rfl

@[simp] theorem put_world (b : Argument) : (m.put b value).world = m.world := by
  unfold put
  split <;> rfl

@[simp] theorem put_sent (b : Argument) : (m.put b value).sent = m.sent := by
  unfold put
  split <;> rfl

@[simp] theorem write_contents : (m.write p value).contents q = if q = p then value else m.contents q :=
  Function.update_apply _ _ _ _

@[simp] theorem write_arities : (m.write p value).arities = m.arities := rfl

@[simp] theorem write_count : (m.write p value).count = m.count := rfl

@[simp] theorem write_world : (m.write p value).world = m.world := rfl

@[simp] theorem write_sent : (m.write p value).sent = m.sent := rfl

@[simp] theorem enter_contents : (m.enter world).contents = m.contents := rfl

@[simp] theorem enter_arities : (m.enter world).arities = m.arities := rfl

@[simp] theorem enter_count : (m.enter world).count = m.count := rfl

@[simp] theorem enter_world : (m.enter world).world = world := rfl

@[simp] theorem enter_sent : (m.enter world).sent = m.sent := rfl

@[simp] theorem send_contents : (m.send address values).contents = m.contents := rfl

@[simp] theorem send_arities : (m.send address values).arities = m.arities := rfl

@[simp] theorem send_count : (m.send address values).count = m.count := rfl

@[simp] theorem send_world : (m.send address values).world = m.world := rfl

@[simp] theorem send_sent : (m.send address values).sent = m.sent ++ values.map fun v => (address, v) := rfl

@[simp] theorem read_pure (n : Nat) : m.read (.pure n) = some (.pure n) := rfl

@[simp] theorem read_object (id : Nat) : m.read (.object id) = m.contents (.object id) := rfl

@[simp] theorem read_nestedResult : m.read (.nestedResult i j) = m.contents (.slot i j) := rfl

@[simp] theorem read_result : m.read (.result i) = if m.arities[i]? = some 1 then m.contents (.slot i 0) else none := by
  simp [read, single, Argument.place]

@[simp] theorem put_object (id : Nat) : m.put (.object id) value = m.write (.object id) value := rfl

@[simp] theorem put_result : m.put (.result i) value = m.write (.slot i 0) value := rfl

@[simp] theorem put_nestedResult : m.put (.nestedResult i j) value = m.write (.slot i j) value := rfl

end Effects

theorem stranded_iff : m.stranded = true ↔ ∃ i j, m.Live i j := by
  simp only [stranded, List.any_eq_true, List.mem_range]
  constructor
  · rintro ⟨i, ran, j, left, linear⟩
    exact ⟨i, j, ran, left, linear⟩
  · rintro ⟨i, j, live⟩
    exact ⟨i, live.ran, j, live.left, live.linear⟩

section Reading

theorem read_place {p : Place} (known : m.read a = some v) (place : a.place = some p) : m.contents p = some v := by
  cases a with
  | pure n => cases place
  | object id =>
    cases place
    simpa [read, single, Argument.place] using known
  | result i =>
    cases place
    simp only [read, Argument.place, Option.bind_some] at known
    split at known
    · exact known
    · cases known
  | nestedResult i j =>
    cases place
    simpa [read, single, Argument.place] using known

theorem put_arities (value : Option (Value τ ρ)) : (m.put a value).arities = m.arities := by
  unfold put
  split <;> rfl

theorem put_contents (value : Option (Value τ ρ)) (p : Place) :
    (m.put a value).contents p = if a.place = some p then value else m.contents p := by
  unfold put
  split
  · rename_i none
    simp [none]
  · rename_i q here
    simp [write, Function.update_apply, here, eq_comm]

theorem read_yields (values : List (Value τ ρ)) (before : a.Before m.count) : (m.yields values).read a = m.read a := by
  cases a with
  | pure n => rfl
  | object id => simp
  | result i =>
    have other : i ≠ m.count := Nat.ne_of_lt before
    simp [other]
  | nestedResult i j =>
    have other : i ≠ m.count := Nat.ne_of_lt before
    simp [other]

theorem read_put {b : Argument} (value : Option (Value τ ρ)) (other : a.place ≠ b.place) :
    (m.put b value).read a = m.read a := by
  have kept (p : Place) (here : a.place = some p) : (m.put b value).contents p = m.contents p := by
    rw [put_contents, if_neg fun same => other (here.trans same.symm)]
  cases a with
  | pure n => rfl
  | object id => exact kept _ rfl
  | result i => rw [read_result, read_result, put_arities, kept (.slot i 0) rfl]
  | nestedResult i j => exact kept _ rfl

theorem read_put_self {p : Place} {w : Value τ ρ} (known : m.read a = some v) (place : a.place = some p) :
    (m.put a (some w)).read a = some w := by
  have here : (m.put a (some w)).contents p = some w := by
    rw [put_contents, if_pos place]
  cases a with
  | pure n => cases place
  | object id =>
    cases place
    exact here
  | result i =>
    cases place
    rw [read_result] at known ⊢
    split at known
    · rename_i one
      rw [put_arities, if_pos one, here]
    · cases known
  | nestedResult i j =>
    cases place
    exact here

@[simp] theorem read_enter (world : σ) : (m.enter world).read a = m.read a := by
  cases a with
  | pure n => rfl
  | object id => rfl
  | result i => rfl
  | nestedResult i j => rfl

theorem take_ok {taken : Value τ ρ × Machine σ τ ρ} (took : m.take a = some taken) :
    m.read a = some taken.1 ∧ taken.2 = if taken.1.isLinear then m.put a none else m := by
  unfold take at took
  split at took
  · cases took
  · rename_i v known
    cases took
    exact ⟨known, rfl⟩

theorem takeAll_cons {rest : List Argument} {taken : List (Value τ ρ) × Machine σ τ ρ}
    (took : m.takeAll (a :: rest) = some taken) :
    ∃ v middle vs, m.take a = some (v, middle) ∧ middle.takeAll rest = some (vs, taken.2) ∧ taken.1 = v :: vs := by
  unfold takeAll at took
  split at took
  · cases took
  · rename_i v middle first
    split at took
    · cases took
    · rename_i vs last others
      cases took
      exact ⟨v, middle, vs, first, others, rfl⟩

theorem take_arities {taken : Value τ ρ × Machine σ τ ρ} (took : m.take a = some taken) :
    taken.2.arities = m.arities := by
  rw [(take_ok took).2]
  split
  · exact put_arities none
  · rfl

theorem takeAll_arities {args : List Argument} {taken : List (Value τ ρ) × Machine σ τ ρ}
    (took : m.takeAll args = some taken) : taken.2.arities = m.arities := by
  induction args generalizing m taken with
  | nil =>
    cases took
    rfl
  | cons arg rest ih =>
    obtain ⟨v, middle, vs, first, others, _⟩ := takeAll_cons took
    exact (ih others).trans (take_arities first)

theorem takeAll_count {args : List Argument} {taken : List (Value τ ρ) × Machine σ τ ρ}
    (took : m.takeAll args = some taken) : taken.2.count = m.count := congrArg List.length (takeAll_arities took)

theorem readPures_length {args : List Argument} {amounts : List Nat} (known : m.readPures args = some amounts) :
    amounts.length = args.length := by
  induction args generalizing amounts with
  | nil =>
    cases known
    rfl
  | cons arg rest ih =>
    unfold readPures at known
    split at known
    · rename_i n ns _ others
      cases known
      exact congrArg (· + 1) (ih others)
    · cases known

theorem take_moves (known : m.read a = some v) (linear : v.isLinear = true) : m.take a = some (v, m.put a none) := by
  simp [take, known, linear]

theorem take_keeps (known : m.read a = some v) (copied : v.isLinear = false) : m.take a = some (v, m) := by
  simp [take, known, copied]

theorem takeAll_of {rest : List Argument} (first : m.take a = some (v, next)) :
    m.takeAll (a :: rest) = (next.takeAll rest).map fun taken => (v :: taken.1, taken.2) := by
  rw [takeAll, first]
  dsimp only
  cases next.takeAll rest with
  | none => rfl
  | some taken => rfl

theorem takeAll_two {b : Argument} {second : Value τ ρ} (one : m.read a = some v) (two : m.read b = some second)
    (other : b.place ≠ a.place) (linear : v.isLinear = true ∧ second.isLinear = true) (rest : List Argument) :
    m.takeAll (a :: b :: rest) =
      (((m.put a none).put b none).takeAll rest).map fun taken => (v :: second :: taken.1, taken.2) := by
  have still : (m.put a none).read b = some second := by
    rw [read_put none other, two]
  rw [takeAll_of (take_moves one linear.1), takeAll_of (take_moves still linear.2), Option.map_map]
  rfl

theorem clear_world (args : List Argument) : (m.clear args).world = m.world := by
  induction args generalizing m with
  | nil => rfl
  | cons a rest ih => rw [clear, ih, put_world]

theorem clear_sent (args : List Argument) : (m.clear args).sent = m.sent := by
  induction args generalizing m with
  | nil => rfl
  | cons a rest ih => rw [clear, ih, put_sent]

theorem clear_arities (args : List Argument) : (m.clear args).arities = m.arities := by
  induction args generalizing m with
  | nil => rfl
  | cons a rest ih => rw [clear, ih, put_arities]

theorem clear_count (args : List Argument) : (m.clear args).count = m.count := congrArg List.length (clear_arities args)

theorem clear_contents {args : List Argument} {p : Place} :
    (m.clear args).contents p = if ∃ a ∈ args, a.place = some p then none else m.contents p := by
  induction args generalizing m with
  | nil => simp [clear]
  | cons b rest ih =>
    rw [clear, ih, put_contents]
    by_cases later : ∃ a ∈ rest, a.place = some p
    · obtain ⟨a, inside, here⟩ := later
      rw [if_pos ⟨a, inside, here⟩, if_pos ⟨a, List.mem_cons_of_mem b inside, here⟩]
    · rw [if_neg later]
      by_cases here : b.place = some p
      · rw [if_pos here, if_pos ⟨b, List.mem_cons_self, here⟩]
      · rw [if_neg here, if_neg]
        rintro ⟨a, inside, same⟩
        rcases List.mem_cons.mp inside with rfl | inside
        · exact here same
        · exact later ⟨a, inside, same⟩

theorem read_clear {args : List Argument} (other : ∀ b ∈ args, a.place ≠ b.place) : (m.clear args).read a = m.read a := by
  induction args generalizing m with
  | nil => rfl
  | cons b rest ih =>
    rw [clear, ih fun c inside => other c (List.mem_cons_of_mem b inside), read_put none (other b List.mem_cons_self)]

theorem takeAll_apart (pairs : List (Argument × Value τ ρ)) (known : ∀ q ∈ pairs, m.read q.1 = some q.2)
    (linear : ∀ q ∈ pairs, q.2.isLinear = true) (apart : pairs.Pairwise fun q r => r.1.place ≠ q.1.place) :
    m.takeAll (pairs.map (·.1)) = some (pairs.map (·.2), m.clear (pairs.map (·.1))) := by
  induction pairs generalizing m with
  | nil => rfl
  | cons q rest ih =>
    obtain ⟨here, later⟩ := List.pairwise_cons.mp apart
    -- moving one argument out leaves the places of the others as they were
    have still (r : Argument × Value τ ρ) (inside : r ∈ rest) : (m.put q.1 none).read r.1 = some r.2 := by
      rw [read_put none (here r inside)]
      exact known r (List.mem_cons_of_mem q inside)
    rw [List.map_cons, takeAll_of (take_moves (known q List.mem_cons_self) (linear q List.mem_cons_self)),
      ih still (fun r inside => linear r (List.mem_cons_of_mem q inside)) later]
    rfl

theorem readPures_replicate (count n : Nat) : m.readPures (List.replicate count (.pure n)) = some (List.replicate count n) := by
  induction count with
  | zero => rfl
  | succ count ih => simp [List.replicate_succ, readPures, readPure, ih]

end Reading

section Running

variable [DecidableEq τ] {call : φ → σ → List (Value τ ρ) → Option (σ × List (Value τ ρ))}

theorem run_cons (c : Command φ) (rest : List (Command φ)) :
    m.run call (c :: rest) = (m.step call c).bind fun next => next.run call rest := by
  rw [run]
  cases m.step call c with
  | none => rfl
  | some next => rfl

section Following

variable {α β γ : Type} {c : Command φ} {rest : List (Command φ)} {seen : Machine σ τ ρ → γ} {conclude : β → γ}

/-- The rule for a command that does what some step of the world does. -/
theorem run_follow {x : Option α} {reached : α → Machine σ τ ρ} {later : α → Option β}
    (stepped : m.step call c = x.map reached)
    (each : ∀ a, x = some a → ((reached a).run call rest).map seen = (later a).map conclude) :
    (m.run call (c :: rest)).map seen = (x.bind later).map conclude := by
  rw [run_cons, stepped]
  cases done : x with
  | none => rfl
  | some a => exact each a done

theorem run_guard {condition : Prop} [Decidable condition] {later : Option β}
    (stepped : m.step call c = if condition then some next else none)
    (each : (next.run call rest).map seen = later.map conclude) :
    (m.run call (c :: rest)).map seen = (if condition then later else none).map conclude := by
  rw [run_cons, stepped]
  by_cases holds : condition
  · rw [if_pos holds, if_pos holds]
    exact each
  · rw [if_neg holds, if_neg holds]
    rfl

theorem run_transfer (pairs : List (Argument × Value τ ρ)) (address : Nat) (known : ∀ q ∈ pairs, m.read q.1 = some q.2)
    (linear : ∀ q ∈ pairs, q.2.isLinear = true) (apart : pairs.Pairwise fun q r => r.1.place ≠ q.1.place) :
    (m.run call [.transferObjects (pairs.map (·.1)) (.pure address)]).map (fun final => (final.world, final.sent)) =
      some (m.world, m.sent ++ (pairs.map (·.2)).map fun v => (address, v)) := by
  rw [run_cons, step, takeAll_apart pairs known linear apart]
  simp [readPure, run, clear_world, clear_sent]

end Following

theorem run_append (first rest : List (Command φ)) :
    m.run call (first ++ rest) = (m.run call first).bind fun next => next.run call rest := by
  induction first generalizing m with
  | nil => rfl
  | cons c first ih =>
    rw [List.cons_append, run_cons, run_cons, Option.bind_assoc]
    exact Option.bind_congr fun next _ => ih

/-- The rule for one more command. -/
theorem run_snoc {commands : List (Command φ)} {c : Command φ} {mid : Machine σ τ ρ}
    (ran : m.run call commands = some mid) (stepped : mid.step call c = some next) :
    m.run call (commands ++ [c]) = some next := by
  rw [run_append, ran, Option.bind_some, run_cons, stepped]
  rfl

theorem step_split {type : τ} {value : Nat} (known : m.read a = some (.coin type value)) (n : Nat) :
    m.step call (.splitCoins a [.pure n]) =
      if n ≤ value then some ((m.put a (some (.coin type (value - n)))).yields [.coin type n]) else none := by
  simp [step, known, readPures, readPure]

theorem coinsOf_map (type : τ) (amounts : List Nat) :
    coinsOf type (amounts.map (Value.coin type : Nat → Value τ ρ)) = some amounts.sum := by
  induction amounts with
  | nil => rfl
  | cons amount rest ih => simp [coinsOf, ih]

theorem step_merge {type : τ} {value : Nat} (held : List (Argument × Nat)) (into : m.read a = some (.coin type value))
    (known : ∀ q ∈ held, m.read q.1 = some (.coin type q.2)) (apart : held.Pairwise fun q r => r.1.place ≠ q.1.place)
    (other : ∀ q ∈ held, a.place ≠ q.1.place) :
    m.step call (.mergeCoins a (held.map (·.1))) =
      some (((m.clear (held.map (·.1))).put a (some (.coin type (value + (held.map (·.2)).sum)))).yields []) := by
  have took : m.takeAll (held.map (·.1)) = some ((held.map (·.2)).map (Value.coin type), m.clear (held.map (·.1))) := by
    have all := takeAll_apart (held.map fun q => (q.1, (Value.coin type q.2 : Value τ ρ)))
      (by
        intro q inside
        obtain ⟨source, listed, rfl⟩ := List.mem_map.mp inside
        exact known source listed)
      (by
        intro q inside
        obtain ⟨source, _, rfl⟩ := List.mem_map.mp inside
        rfl)
      (List.pairwise_map.mpr apart)
    simpa only [List.map_map, Function.comp_def] using all
  have still : (m.clear (held.map (·.1))).read a = some (.coin type value) := by
    rw [read_clear, into]
    intro b inside
    obtain ⟨source, listed, rfl⟩ := List.mem_map.mp inside
    exact other source listed
  rw [step, took]
  simp only [still, coinsOf_map]

theorem step_splitMany {type : τ} {value : Nat} (known : m.read a = some (.coin type value)) {count n : Nat}
    (enough : count * n ≤ value) :
    m.step call (.splitCoins a (List.replicate count (.pure n))) =
      some ((m.put a (some (.coin type (value - count * n)))).yields (List.replicate count (.coin type n))) := by
  simp [step, known, readPures_replicate, enough]

theorem step_call {f : φ} {args : List Argument} {values : List (Value τ ρ)} (took : m.takeAll args = some (values, next)) :
    m.step call (.moveCall f args) =
      (call f next.world values).map fun done => (next.enter done.1).yields done.2 := by
  rw [step, took]
  dsimp only
  cases call f next.world values with
  | none => rfl
  | some done => rfl

end Running

section Unnamed

variable {id : Nat}

theorem takeAll_unnamed {args : List Argument} {taken : List (Value τ ρ) × Machine σ τ ρ}
    (took : m.takeAll args = some taken) (other : ∀ b ∈ args, b.place ≠ some (.object id)) :
    taken.2.contents (.object id) = m.contents (.object id) := by
  induction args generalizing m taken with
  | nil =>
    cases took
    rfl
  | cons arg rest ih =>
    obtain ⟨v, middle, vs, first, others, _⟩ := takeAll_cons took
    rw [ih others fun b inside => other b (List.mem_cons_of_mem arg inside)]
    have moved := (take_ok first).2
    dsimp only at moved
    rw [moved]
    split
    · rw [put_contents, if_neg (other arg List.mem_cons_self)]
    · rfl

variable [DecidableEq τ] {call : φ → σ → List (Value τ ρ) → Option (σ × List (Value τ ρ))}

/-- An object a command does not name stays as it is. -/
theorem step_unnamed {c : Command φ} (ran : m.step call c = some next)
    (other : ∀ b ∈ c.arguments, b.place ≠ some (.object id)) :
    next.contents (.object id) = m.contents (.object id) := by
  cases c with
  | splitCoins coin amounts =>
    simp only [step] at ran
    split at ran
    · split at ran
      · cases ran
        rw [yields_object, put_contents, if_neg (other coin List.mem_cons_self)]
      · cases ran
    · cases ran
  | mergeCoins target sources =>
    simp only [step] at ran
    split at ran
    · cases ran
    · rename_i values taken took
      have kept := takeAll_unnamed took fun b inside => other b (List.mem_cons_of_mem target inside)
      split at ran
      · split at ran
        · cases ran
        · cases ran
          rw [yields_object, put_contents, if_neg (other target List.mem_cons_self)]
          exact kept
      · cases ran
  | transferObjects objects recipient =>
    simp only [step] at ran
    split at ran
    · rename_i values taken address took known
      cases ran
      exact takeAll_unnamed took fun b inside => other b (List.mem_cons_of_mem recipient inside)
    · cases ran
  | moveCall f args =>
    simp only [step] at ran
    split at ran
    · cases ran
    · rename_i values taken took
      split at ran
      · cases ran
      · cases ran
        exact takeAll_unnamed took other

theorem run_unnamed {commands : List (Command φ)} (ran : m.run call commands = some next)
    (other : ∀ c ∈ commands, ∀ b ∈ c.arguments, b.place ≠ some (.object id)) :
    next.contents (.object id) = m.contents (.object id) := by
  induction commands generalizing m with
  | nil =>
    cases ran
    rfl
  | cons c rest ih =>
    unfold run at ran
    split at ran
    · cases ran
    · rename_i reached stepped
      rw [ih ran fun d inside => other d (List.mem_cons_of_mem c inside)]
      exact step_unnamed stepped (other c List.mem_cons_self)

end Unnamed

section Live

/-- What is taken is not live any more, and nothing else becomes live. -/
theorem Live.of_take {taken : Value τ ρ × Machine σ τ ρ} (live : taken.2.Live i j) (took : m.take a = some taken) :
    m.Live i j ∧ a.place ≠ some (.slot i j) := by
  obtain ⟨known, moved⟩ := take_ok took
  by_cases linear : taken.1.isLinear = true
  · rw [if_pos linear] at moved
    have elsewhere : a.place ≠ some (.slot i j) := by
      intro here
      have gone := live.linear
      rw [moved, put_contents, if_pos here] at gone
      cases gone
    refine ⟨⟨?_, ?_, ?_⟩, elsewhere⟩
    · have ran := live.ran
      rwa [moved, count, put_arities] at ran
    · have left := live.left
      rwa [moved, put_arities] at left
    · have linear := live.linear
      rwa [moved, put_contents, if_neg elsewhere] at linear
  · rw [if_neg linear] at moved
    rw [moved] at live
    refine ⟨live, fun here => ?_⟩
    -- it was read, and is not linear
    have kept := live.linear
    rw [read_place known here] at kept
    exact linear kept

theorem Live.of_put {value : Value τ ρ} (live : (m.put a (some value)).Live i j) (known : m.read a = some v)
    (linear : v.isLinear = true) : m.Live i j where
  ran := by
    have ran := live.ran
    rwa [count, put_arities] at ran
  left := by
    have left := live.left
    rwa [put_arities] at left
  linear := by
    have still := live.linear
    rw [put_contents] at still
    split at still
    · rename_i here
      rw [read_place known here]
      exact linear
    · exact still

theorem Live.of_yields {values : List (Value τ ρ)} (live : (m.yields values).Live i j) :
    m.Live i j ∨ (i = m.count ∧ j < values.length) := by
  have ran := live.ran
  have left := live.left
  have linear := live.linear
  simp only [count, yields, List.length_append, List.length_singleton] at ran left
  by_cases last : i = m.count
  · refine Or.inr ⟨last, ?_⟩
    rwa [List.getD_eq_getElem?_getD, last, count, List.getElem?_append_right (Nat.le_refl _), Nat.sub_self] at left
  · have before : i < m.arities.length := Nat.lt_of_le_of_ne (Nat.le_of_lt_succ ran) last
    refine Or.inl ⟨before, ?_, ?_⟩
    · rwa [List.getD_eq_getElem?_getD, List.getElem?_append_left before, ← List.getD_eq_getElem?_getD] at left
    · rwa [yields_slot, if_neg last] at linear

end Live

end Machine

end Ptb
