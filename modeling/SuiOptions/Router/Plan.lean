import Mathlib.Data.List.Sort
import SuiOptions.Exchange.Order
import SuiOptions.Lib.Words

/-! The split-route planner: `exchange-router`, function by function.

Liquidity is a ladder of order levels for each direction of a market, and a path is
a chain of ladders. The greedy loop gives the next chunk of input to the path with
the best marginal rate. Rates are floating-point numbers and only order the paths,
so they are a parameter here. Sums of 64 bits wrap, as in a release build.
-/

set_option autoImplicit false

namespace SuiOptions.Router

open Exchange

def u64Max : Nat := 2 ^ 64 - 1

def u128Max : Nat := 2 ^ 128 - 1

def wrapAdd (a b : Nat) : Nat := (a + b) % 2 ^ 64

/-- One consumable slice of liquidity: a resting signed order in a fixed direction. -/
structure LiquiditySegment where
  digest : Bytes
  /-- The input this order can still absorb. -/
  maxIn : UInt64
  /-- Net output for each unit of input, as a fraction. -/
  num : UInt64
  den : UInt64
  deriving DecidableEq

def LiquiditySegment.outForIn (seg : LiquiditySegment) (input : Nat) : Nat :=
  input * seg.num.toNat / seg.den.toNat % 2 ^ 64

/-- The arithmetic of marginal rates, `f64` in the source. -/
structure Rates (ρ : Type) where
  one : ρ
  mul : ρ → ρ → ρ
  ofSegment : LiquiditySegment → ρ
  gt : ρ → ρ → Bool

/-- A directed edge of the markets graph: one market side, best first. -/
structure HopLadder where
  market : ID
  fromToken : String
  toToken : String
  segments : List LiquiditySegment
  deriving DecidableEq

structure RouterConfig where
  maxHops : Nat
  maxPaths : Nat

/-- `RouterConfig::default()` -/
def RouterConfig.standard : RouterConfig := ⟨3, 4⟩

structure FillLeg where
  digest : Bytes
  amountIn : Nat
  deriving DecidableEq, Repr

structure PathPlan where
  tokens : List String
  markets : List ID
  input : Nat
  expectedOut : Nat
  hops : List (List FillLeg)
  deriving DecidableEq, Repr

structure RoutePlan where
  input : Nat
  unrouted : Nat
  expectedOut : Nat
  paths : List PathPlan
  deriving DecidableEq, Repr

inductive RouterError where
  | noPath (fromToken toToken : String)
  | zeroInput
  deriving DecidableEq, Repr

/-! ### Candidate paths -/

/-- The search below a token; `room` is the number of hops that may still follow. -/
def dfs (ladders : List HopLadder) (target : String) : Nat → String → List String → List HopLadder → List (List HopLadder)
  | room, here, visited, stack =>
    if here = target then if stack = [] then [] else [stack]
    else
      match room with
      | 0 => []
      | room + 1 => ladders.flatMap fun l =>
        if l.fromToken = here ∧ l.toToken ∉ visited then
          dfs ladders target room l.toToken (visited ++ [l.toToken]) (stack ++ [l])
        else []

/-- Simple paths, no token twice, with at most `maxHops` hops. -/
def enumeratePaths (ladders : List HopLadder) (source target : String) (maxHops : Nat) : List (List HopLadder) :=
  dfs ladders target maxHops source [source] []

/-! ### One path -/

abbrev Budget := Bytes → Option Nat

structure HopState where
  ladder : HopLadder
  consumed : Bytes → Option Nat

structure PathState where
  hops : List HopState
  input : Nat
  out : Nat
  /-- Input that reached a hop and found no segment there. No function reads it. -/
  unallocated : Nat

def PathState.new (hops : List HopLadder) : PathState := ⟨hops.map fun l => ⟨l, fun _ => none⟩, 0, 0, 0⟩

namespace HopState

variable (hop : HopState) (budget : Budget)

def segmentCapacity (seg : LiquiditySegment) : Nat :=
  min ((budget seg.digest).getD seg.maxIn.toNat) (seg.maxIn.toNat - (hop.consumed seg.digest).getD 0)

def liveSegment : Option LiquiditySegment := hop.ladder.segments.find? fun seg => 0 < hop.segmentCapacity budget seg

def consume (digest : Bytes) (take : Nat) : HopState :=
  { hop with consumed := Function.update hop.consumed digest (some (wrapAdd ((hop.consumed digest).getD 0) take)) }

end HopState

/-- The budget after an order gives `take`, which is at most what it has. -/
def Budget.spend (budget : Budget) (seg : LiquiditySegment) (take : Nat) : Budget :=
  Function.update budget seg.digest (some ((budget seg.digest).getD seg.maxIn.toNat - take))

def saturatingMul (a b : Nat) : Nat := Words.saturatingMul 128 a b

theorem saturatingMul_eq {a b : Nat} (fits : a * b ≤ u128Max) : saturatingMul a b = a * b := min_eq_left fits

def gcd (a b : Nat) : Nat := max (Nat.gcd a b) 1

section Head

variable {ρ : Type} (rates : Rates ρ)

/-- The marginal rate of the hops, and the path input that every live segment can take: the
capacity of a hop is translated back by the rate of the hops before it. -/
def headFrom (budget : Budget) : List HopState → ρ → Nat → Nat → Nat → Option (ρ × Nat)
  | [], rate, cap, _, _ => some (rate, cap)
  | hop :: rest, rate, cap, upNum, upDen =>
    match hop.liveSegment budget with
    | none => none
    | some seg =>
      let localCap := hop.segmentCapacity budget seg
      let translated := saturatingMul localCap upDen / upNum
      let num := saturatingMul upNum seg.num.toNat
      let den := saturatingMul upDen seg.den.toNat
      headFrom budget rest (rates.mul rate (rates.ofSegment seg)) (min cap (min translated u64Max))
        (num / gcd num den) (den / gcd num den)

def PathState.head (st : PathState) (budget : Budget) : Option (ρ × Nat) :=
  match headFrom rates budget st.hops rates.one u64Max 1 1 with
  | none => none
  | some (rate, cap) => if cap = 0 then none else some (rate, cap)

end Head

structure Filling where
  left : Nat
  out : Nat
  hop : HopState
  budget : Budget

/-- The loop over the segments of a hop. Every round takes something, so `left` rounds are enough. -/
def fill : Nat → Filling → Filling
  | 0, f => f
  | rounds + 1, f =>
    if f.left = 0 then f
    else
      match f.hop.liveSegment f.budget with
      | none => f
      | some seg =>
        let take := min f.left (f.hop.segmentCapacity f.budget seg)
        if take = 0 then f
        else fill rounds
          { left := f.left - take
            out := wrapAdd f.out (seg.outForIn take)
            hop := f.hop.consume seg.digest take
            budget := f.budget.spend seg take }

structure Pushed where
  hops : List HopState
  flow : Nat
  budget : Budget
  unallocated : Nat

def push : List HopState → Nat → Budget → Pushed
  | [], flow, budget => ⟨[], flow, budget, 0⟩
  | hop :: rest, flow, budget =>
    let filled := fill flow ⟨flow, 0, hop, budget⟩
    let later := push rest filled.out filled.budget
    ⟨filled.hop :: later.hops, later.flow, later.budget, filled.left + later.unallocated⟩

def PathState.allocate (st : PathState) (chunk : Nat) (budget : Budget) : PathState × Budget :=
  let pushed := push st.hops chunk budget
  ({ hops := pushed.hops
     input := wrapAdd st.input chunk
     out := wrapAdd st.out pushed.flow
     unallocated := st.unallocated + pushed.unallocated }, pushed.budget)

/-! ### The greedy loop -/

structure Search where
  states : List PathState
  budget : Budget
  remaining : Nat

section Greedy

variable {ρ : Type} (rates : Rates ρ)

def best (budget : Budget) : List PathState → Nat → Option (Nat × ρ × Nat) → Option (Nat × ρ × Nat)
  | [], _, found => found
  | st :: rest, i, found =>
    match st.head rates budget with
    | none => best budget rest (i + 1) found
    | some (rate, cap) =>
      match found with
      | none => best budget rest (i + 1) (some (i, rate, cap))
      | some (_, r, _) => best budget rest (i + 1) (if rates.gt rate r then some (i, rate, cap) else found)

/-- Every round routes something, so `remaining` rounds are enough. -/
def greedy : Nat → Search → Search
  | 0, s => s
  | rounds + 1, s =>
    if s.remaining = 0 then s
    else
      match best rates s.budget s.states 0 none with
      | none => s
      | some (i, _, cap) =>
        match s.states[i]? with
        | none => s
        | some st =>
          let chunk := min s.remaining cap
          let (st, budget) := st.allocate chunk s.budget
          greedy rounds ⟨s.states.set i st, budget, s.remaining - chunk⟩

end Greedy

/-- `budget.entry(s.digest).or_insert(s.max_in)` -/
def Budget.enter (budget : Budget) (seg : LiquiditySegment) : Budget :=
  Function.update budget seg.digest (some ((budget seg.digest).getD seg.maxIn.toNat))

def initialBudget (ladders : List HopLadder) : Budget :=
  (ladders.flatMap HopLadder.segments).foldl Budget.enter fun _ => none

def HopState.legs (hop : HopState) : List FillLeg :=
  hop.ladder.segments.filterMap fun seg => (hop.consumed seg.digest).map fun amount => ⟨seg.digest, amount⟩

def PathState.plan (st : PathState) : PathPlan where
  tokens := (st.hops.head?.map (·.ladder.fromToken)).toList ++ st.hops.map (·.ladder.toToken)
  markets := st.hops.map (·.ladder.market)
  input := st.input
  expectedOut := st.out
  hops := st.hops.map HopState.legs

def Search.plan (s : Search) (amountIn : Nat) : RoutePlan :=
  let used := s.states.filter fun st => st.input ≠ 0
  { input := amountIn - s.remaining
    unrouted := s.remaining
    expectedOut := used.foldl (fun total st => wrapAdd total st.out) 0
    paths := used.map PathState.plan }

/-- The candidates: shorter paths first, and no more than the configuration allows. -/
def candidates (ladders : List HopLadder) (source target : String) (config : RouterConfig) : List (List HopLadder) :=
  ((enumeratePaths ladders source target config.maxHops).insertionSort fun p q => p.length ≤ q.length).take config.maxPaths

/-- The states, the budget and the input left when the greedy loop ends. -/
def search {ρ : Type} (rates : Rates ρ) (ladders : List HopLadder) (source target : String) (amountIn : UInt64)
    (config : RouterConfig) : Search :=
  greedy rates amountIn.toNat
    ⟨(candidates ladders source target config).map PathState.new, initialBudget ladders, amountIn.toNat⟩

def planRoute {ρ : Type} (rates : Rates ρ) (ladders : List HopLadder) (source target : String) (amountIn : UInt64)
    (config : RouterConfig) : Except RouterError RoutePlan :=
  if amountIn = 0 then .error .zeroInput
  else if enumeratePaths ladders source target config.maxHops = [] then .error (.noPath source target)
  else .ok ((search rates ladders source target amountIn config).plan amountIn.toNat)

end SuiOptions.Router
