import SuiOptions.Router.Feasible

/-! When a plan that leaves input unrouted has used its paths up.

`head` gives a path up where the live order of a hop has less left than one unit of
input becomes at the exact rates before it. It looks at no order behind that one, and
a real unit is rounded down at every hop. Neither matters where a unit of input stays
whole on its way and never meets a residue of an order.
-/

set_option autoImplicit false

namespace SuiOptions.Router

open Exchange

/-! ### One more unit -/

namespace HopState

variable (hop : HopState) (budget : Budget)

/-- What all the orders of the hop can still take together. -/
def room : Nat := (hop.ladder.segments.map (hop.segmentCapacity budget)).sum

/-- What a flow buys, best order first, the output of each order rounded down. -/
def bestFirst : List LiquiditySegment → Nat → Nat
  | [], _ => 0
  | seg :: rest, flow =>
    let take := min flow (hop.segmentCapacity budget seg)
    take * seg.num.toNat / seg.den.toNat + bestFirst rest (flow - take)

def bought (flow : Nat) : Nat := hop.bestFirst budget hop.ladder.segments flow

end HopState

/-- The flow passes the hops best first, and no hop needs more than its orders can take. -/
def Absorbs (budget : Budget) : List HopState → Nat → Prop
  | [], _ => True
  | hop :: rest, flow => flow ≤ hop.room budget ∧ Absorbs budget rest (hop.bought budget flow)

instance Absorbs.decidable (budget : Budget) : (hops : List HopState) → (flow : Nat) → Decidable (Absorbs budget hops flow)
  | [], _ => .isTrue trivial
  | hop :: rest, flow =>
    have := Absorbs.decidable budget rest (hop.bought budget flow)
    inferInstanceAs (Decidable (flow ≤ hop.room budget ∧ _))

/-- No candidate path has room for one more unit of input. -/
def Search.Complete (s : Search) : Prop := ∀ st ∈ s.states, ¬ Absorbs s.budget st.hops 1

section Bought

variable {hop : HopState} {budget : Budget} {seg : LiquiditySegment}

theorem capacity_le_room (live : hop.liveSegment budget = some seg) : hop.segmentCapacity budget seg ≤ hop.room budget :=
  List.single_le_sum (by simp) _ (List.mem_map_of_mem (liveSegment_some live).1)

theorem bestFirst_zero (segs : List LiquiditySegment) : hop.bestFirst budget segs 0 = 0 := by
  induction segs with
  | nil => rfl
  | cons seg rest ih => simp [HopState.bestFirst, ih]

theorem bought_of_live {flow : Nat} (live : hop.liveSegment budget = some seg)
    (fits : flow ≤ hop.segmentCapacity budget seg) : hop.bought budget flow = flow * seg.num.toNat / seg.den.toNat := by
  have list : ∀ segs : List LiquiditySegment, segs.find? (fun seg => 0 < hop.segmentCapacity budget seg) = some seg →
      hop.bestFirst budget segs flow = flow * seg.num.toNat / seg.den.toNat := by
    intro segs found
    induction segs with
    | nil => cases found
    | cons first rest ih =>
      rw [List.find?_cons] at found
      split at found
      · cases found
        simp only [HopState.bestFirst, min_eq_left fits, Nat.sub_self, bestFirst_zero, Nat.add_zero]
      · -- an order without capacity gives nothing and leaves the flow as it is
        rename_i spent
        have empty : hop.segmentCapacity budget first = 0 := by simpa using spent
        simp only [HopState.bestFirst, empty, Nat.min_zero, Nat.zero_mul, Nat.zero_div, Nat.zero_add, Nat.sub_zero]
        exact ih found
  exact list _ live

end Bought

/-! ### Units that stay whole -/

/-- A flow that comes from one unit of input, through any order of every hop. It never is rounded, to nothing or
otherwise, and where it is more than one unit it meets a single order. -/
def Clear : List HopLadder → Nat → Bool → Prop
  | [], _, _ => True
  | hop :: rest, flow, whole => 0 < flow ∧ (hop.segments = [] ∨ whole = true ∧ (flow = 1 ∨ hop.segments.length ≤ 1) ∧
      ∀ seg ∈ hop.segments, (rest = [] ∨ flow * seg.num.toNat ≤ u128Max) ∧
        Clear rest (flow * seg.num.toNat / seg.den.toNat) (decide (seg.den.toNat ∣ flow * seg.num.toNat)))

instance Clear.decidable : (hops : List HopLadder) → (flow : Nat) → (whole : Bool) → Decidable (Clear hops flow whole)
  | [], _, _ => .isTrue trivial
  | hop :: rest, flow, whole =>
    have (flow : Nat) (whole : Bool) := Clear.decidable rest flow whole
    inferInstanceAs (Decidable (0 < flow ∧ (hop.segments = [] ∨ whole = true ∧ (flow = 1 ∨ hop.segments.length ≤ 1) ∧
      ∀ seg ∈ hop.segments, (rest = [] ∨ flow * seg.num.toNat ≤ u128Max) ∧
        Clear rest (flow * seg.num.toNat / seg.den.toNat) (decide (seg.den.toNat ∣ flow * seg.num.toNat)))))

section Clear

variable {ρ : Type} {rates : Rates ρ} {budget : Budget} {rate : ρ} {hop : HopState} {seg : LiquiditySegment}

theorem factors_of_whole {flow : Nat} (some : 0 < flow * seg.num.toNat / seg.den.toNat)
    (whole : seg.den.toNat ∣ flow * seg.num.toNat) (fits : flow * seg.num.toNat ≤ u128Max) :
    let num := saturatingMul flow seg.num.toNat
    let den := saturatingMul 1 seg.den.toNat
    num / gcd num den = flow * seg.num.toNat / seg.den.toNat ∧ den / gcd num den = 1 := by
  have positive : 0 < seg.den.toNat := Nat.pos_of_ne_zero fun zero => by
    rw [zero, Nat.div_zero] at some
    exact Nat.lt_irrefl 0 some
  have small : seg.den.toNat ≤ u128Max := (Nat.le_of_lt seg.den.toNat_lt).trans (by decide)
  have num : saturatingMul flow seg.num.toNat = flow * seg.num.toNat := saturatingMul_eq fits
  have den : saturatingMul 1 seg.den.toNat = seg.den.toNat := by
    rw [saturatingMul_eq ((Nat.one_mul _).trans_le small), Nat.one_mul]
  have common : gcd (flow * seg.num.toNat) seg.den.toNat = seg.den.toNat := by
    rw [gcd, Nat.gcd_eq_right whole, max_eq_left positive]
  simp only [num, den, common]
  exact ⟨trivial, Nat.div_self positive⟩

end Clear

/-! ### The end of the loop -/

section Ends

variable {ρ : Type} {rates : Rates ρ}

variable (rates)

end Ends

/-! ### The candidates -/

section Ladders

variable {ρ : Type} (rates : Rates ρ)

def PathState.ladders (st : PathState) : List HopLadder := st.hops.map (·.ladder)

end Ladders

section Plan

variable {ρ : Type} (rates : Rates ρ) {ladders : List HopLadder} (source target : String) (amountIn : UInt64)
  {config : RouterConfig} {plan : RoutePlan}

end Plan

end SuiOptions.Router
