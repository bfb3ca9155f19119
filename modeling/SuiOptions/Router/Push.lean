import SuiOptions.Lib.Sums
import SuiOptions.Router.Plan

/-! One allocation of the planner.

The capacity that `head` reports translates every hop's room back to path input and
rounds down, so a chunk within it is one take from the live segment of every hop.
-/

set_option autoImplicit false

namespace SuiOptions.Router

open Exchange

/-- The ladders the planner is given: every order once, at a positive rate. An output that does not
fit 64 bits is cut and then understates what the legs yield. -/
structure Sound (ladders : List HopLadder) : Prop where
  once : ((ladders.flatMap HopLadder.segments).map (·.digest)).Nodup
  positive : ∀ l ∈ ladders, ∀ seg ∈ l.segments, 0 < seg.num.toNat ∧ 0 < seg.den.toNat

namespace HopState

variable (hop : HopState)

def used (digest : Bytes) : Nat := (hop.consumed digest).getD 0

def total : Nat := (hop.ladder.segments.map fun seg => hop.used seg.digest).sum

/-- The output of a hop when its legs are executed, each for all its input at once. -/
def yield : Nat :=
  (hop.ladder.segments.map fun seg => hop.used seg.digest * seg.num.toNat / seg.den.toNat).sum

end HopState

/-- No hop plans more input than the one before yields, and the last yields the output. -/
def Chained : Nat → List HopState → Nat → Prop
  | available, [], out => out ≤ available
  | available, hop :: rest, out => hop.total ≤ available ∧ Chained hop.yield rest out

theorem Chained.mono {available more out less : Nat} {hops : List HopState} (chained : Chained available hops out)
    (atLeast : available ≤ more) (atMost : less ≤ out) : Chained more hops less := by
  induction hops generalizing available more with
  | nil =>
    have bound : out ≤ available := chained
    exact atMost.trans (bound.trans atLeast)
  | cons hop rest ih => exact ⟨chained.1.trans atLeast, ih chained.2 le_rfl⟩

/-- Two fills round down apart to no more than one fill of both. -/
theorem floor_add_le (first second num den : Nat) (positive : 0 < den) :
    first * num / den + second * num / den ≤ (first + second) * num / den := by
  rw [Nat.le_div_iff_mul_le positive, Nat.add_mul, Nat.add_mul]
  have left := Nat.div_mul_le_self (first * num) den
  have right := Nat.div_mul_le_self (second * num) den
  omega

/-! ### One take -/

section Take

variable {hop : HopState} {budget : Budget} {seg : LiquiditySegment} {flow : Nat}

structure Takes (hop : HopState) (budget : Budget) (seg : LiquiditySegment) (flow : Nat) : Prop where
  member : seg ∈ hop.ladder.segments
  room : flow ≤ hop.segmentCapacity budget seg
  positive : 0 < flow

theorem Takes.used_le (takes : Takes hop budget seg flow) : hop.used seg.digest + flow ≤ seg.maxIn.toNat := by
  have room := takes.room
  have positive := takes.positive
  unfold HopState.segmentCapacity at room
  unfold HopState.used
  omega

theorem Takes.used_consume (takes : Takes hop budget seg flow) (digest : Bytes) :
    (hop.consume seg.digest flow).used digest =
      if digest = seg.digest then hop.used seg.digest + flow else hop.used digest := by
  have small : hop.used seg.digest + flow < 2 ^ 64 := lt_of_le_of_lt takes.used_le seg.maxIn.toNat_lt
  unfold HopState.used at small ⊢
  simp only [HopState.consume, Function.update_apply]
  split
  · simp only [Option.getD_some, wrapAdd]
    exact Nat.mod_eq_of_lt small
  · rfl

theorem Takes.fill (takes : Takes hop budget seg flow) (live : hop.liveSegment budget = some seg) :
    fill flow ⟨flow, 0, hop, budget⟩ = ⟨0, seg.outForIn flow, hop.consume seg.digest flow, budget.spend seg flow⟩ := by
  obtain ⟨rounds, rfl⟩ : ∃ rounds, flow = rounds + 1 := ⟨flow - 1, by have := takes.positive; omega⟩
  have ended : ∀ (rounds : Nat) (f : Filling), f.left = 0 → Router.fill rounds f = f := by
    intro rounds f empty
    cases rounds with
    | zero => rfl
    | succ rounds => rw [Router.fill, if_pos empty]
  have all : min (rounds + 1) (hop.segmentCapacity budget seg) = rounds + 1 := min_eq_left takes.room
  have out : wrapAdd 0 (seg.outForIn (rounds + 1)) = seg.outForIn (rounds + 1) := by
    rw [wrapAdd, Nat.zero_add, LiquiditySegment.outForIn, Nat.mod_mod]
  rw [Router.fill, if_neg (Nat.succ_ne_zero rounds)]
  simp only [live, all, if_neg (Nat.succ_ne_zero rounds), Nat.sub_self, out]
  exact ended _ _ rfl

variable {ladders : List HopLadder}

theorem Sound.segments_nodup (sound : Sound ladders) (known : hop.ladder ∈ ladders) :
    (hop.ladder.segments.map (·.digest)).Nodup := by
  refine List.Nodup.sublist (List.Sublist.map _ ?_) sound.once
  exact List.sublist_flatten_of_mem (List.mem_map_of_mem known)

theorem Takes.total_consume (takes : Takes hop budget seg flow) (once : (hop.ladder.segments.map (·.digest)).Nodup) :
    (hop.consume seg.digest flow).total = hop.total + flow := by
  have changed := Sums.sum_map_changed (f := fun s : LiquiditySegment => hop.used s.digest)
    (g := fun s => (hop.consume seg.digest flow).used s.digest) once.of_map takes.member (by
      intro other inside different
      have apart : other.digest ≠ seg.digest := fun same =>
        different (List.inj_on_of_nodup_map once inside takes.member same)
      simp only [takes.used_consume, if_neg apart])
  simp only [takes.used_consume, if_pos trivial] at changed
  unfold HopState.total
  simp only [takes.used_consume]
  have same : (hop.consume seg.digest flow).ladder = hop.ladder := rfl
  rw [same]
  omega

theorem Takes.yield_consume (takes : Takes hop budget seg flow) (once : (hop.ladder.segments.map (·.digest)).Nodup)
    (rated : 0 < seg.den.toNat) : hop.yield + seg.outForIn flow ≤ (hop.consume seg.digest flow).yield := by
  have changed := Sums.sum_map_changed (f := fun s : LiquiditySegment => hop.used s.digest * s.num.toNat / s.den.toNat)
    (g := fun s => (hop.consume seg.digest flow).used s.digest * s.num.toNat / s.den.toNat) once.of_map takes.member (by
      intro other inside different
      have apart : other.digest ≠ seg.digest := fun same =>
        different (List.inj_on_of_nodup_map once inside takes.member same)
      simp only [takes.used_consume, if_neg apart])
  simp only [takes.used_consume, if_pos trivial] at changed
  have floors := floor_add_le (hop.used seg.digest) flow seg.num.toNat seg.den.toNat rated
  have wrapped : seg.outForIn flow ≤ flow * seg.num.toNat / seg.den.toNat := Nat.mod_le _ _
  unfold HopState.yield
  simp only [takes.used_consume]
  have same : (hop.consume seg.digest flow).ladder = hop.ladder := rfl
  rw [same]
  omega

theorem Takes.spend (takes : Takes hop budget seg flow) {digest : Bytes} {left : Nat} (known : budget digest = some left) :
    ∃ after, budget.spend seg flow digest = some after ∧
      after + (hop.consume seg.digest flow).used digest = left + hop.used digest := by
  unfold Budget.spend
  rw [Function.update_apply]
  by_cases here : digest = seg.digest
  · subst here
    have room := takes.room
    unfold HopState.segmentCapacity at room
    rw [known, Option.getD_some] at room
    refine ⟨left - flow, by rw [if_pos rfl, known, Option.getD_some], ?_⟩
    rw [takes.used_consume, if_pos rfl]
    omega
  · exact ⟨left, by rw [if_neg here, known], by rw [takes.used_consume, if_neg here]⟩

end Take

/-! ### The flow through a path -/

def drawn (hops : List HopState) (digest : Bytes) : Nat := (hops.map fun hop => hop.used digest).sum

def firstTotal (hops : List HopState) : Nat := (hops.head?.map HopState.total).getD 0

/-- Every hop of the path has taken all that reached it, from its budget, and rounds no better than its legs. -/
structure Carried (hops : List HopState) (flow : Nat) (budget : Budget) (pushed : Pushed) : Prop where
  complete : pushed.unallocated = 0
  ladders : pushed.hops.map (·.ladder) = hops.map (·.ladder)
  spent : ∀ digest left, budget digest = some left →
    ∃ after, pushed.budget digest = some after ∧ after + drawn pushed.hops digest = left + drawn hops digest
  chained : ∀ available out, Chained available hops out → Chained (available + flow) pushed.hops (out + pushed.flow)
  first : hops ≠ [] → firstTotal pushed.hops = firstTotal hops + flow

theorem Carried.nil (flow : Nat) (budget : Budget) : Carried [] flow budget ⟨[], flow, budget, 0⟩ where
  complete := rfl
  ladders := rfl
  spent _ left known := ⟨left, known, rfl⟩
  chained _ _ chained := Nat.add_le_add_right chained flow
  first impossible := absurd rfl impossible

/-- The hop takes its flow whole, and the rest of the path carries what it puts out. -/
theorem Carried.cons {hop after : HopState} {rest : List HopState} {flow out : Nat} {budget spent : Budget} {later : Pushed}
    (ladder : after.ladder = hop.ladder) (total : after.total = hop.total + flow) (yield : hop.yield + out ≤ after.yield)
    (spend : ∀ digest left, budget digest = some left → ∃ now, spent digest = some now ∧ now + after.used digest =
      left + hop.used digest) (carried : Carried rest out spent later) :
    Carried (hop :: rest) flow budget ⟨after :: later.hops, later.flow, later.budget, 0 + later.unallocated⟩ where
  complete := by rw [Nat.zero_add, carried.complete]
  ladders := by simp only [List.map_cons, ladder, carried.ladders]
  spent digest left known := by
    obtain ⟨now, middle, here⟩ := spend digest left known
    obtain ⟨final, ended, below⟩ := carried.spent digest now middle
    refine ⟨final, ended, ?_⟩
    simp only [drawn, List.map_cons, List.sum_cons] at below ⊢
    omega
  chained available final chained := by
    have below := carried.chained hop.yield final chained.2
    exact ⟨total ▸ Nat.add_le_add_right chained.1 flow, below.mono yield le_rfl⟩
  first _ := total

section Head

variable {ρ : Type} {rates : Rates ρ} {budget : Budget} {rate final : ρ} {cap upNum upDen bound : Nat}

theorem headFrom_le {hops : List HopState} (head : headFrom rates budget hops rate cap upNum upDen = some (final, bound)) :
    bound ≤ cap := by
  induction hops generalizing rate cap upNum upDen with
  | nil =>
    cases head
    exact le_rfl
  | cons hop rest ih =>
    unfold headFrom at head
    split at head
    · cases head
    · exact (ih head).trans (min_le_left _ _)

theorem liveSegment_congr {hop : HopState} {other : Budget}
    (same : ∀ seg ∈ hop.ladder.segments, budget seg.digest = other seg.digest) :
    hop.liveSegment budget = hop.liveSegment other := by
  refine List.find?_congr fun seg member => ?_
  have capacity : hop.segmentCapacity budget seg = hop.segmentCapacity other seg := by
    simp only [HopState.segmentCapacity, same seg member]
  rw [capacity]

theorem liveSegment_some {hop : HopState} {seg : LiquiditySegment} (live : hop.liveSegment budget = some seg) :
    seg ∈ hop.ladder.segments ∧ 0 < hop.segmentCapacity budget seg := by
  unfold HopState.liveSegment at live
  have roomy := List.find?_some live
  exact ⟨List.mem_of_find?_eq_some live, by simpa using roomy⟩

end Head

/-! ### Scales -/

/-- The flow is at most the chunk at the rate of the hops passed, and that rate has room for the hops to come. -/
structure Scaled (room flow chunk upNum upDen : Nat) : Prop where
  num : 0 < upNum
  den : 0 < upDen
  numRoom : upNum * u64Max ^ room ≤ u128Max
  denRoom : upDen * u64Max ^ room ≤ u128Max
  scale : flow * upDen ≤ chunk * upNum

theorem saturatingMul_of_room {up value room : Nat} (bound : up * u64Max ^ (room + 1) ≤ u128Max) (small : value ≤ u64Max) :
    saturatingMul up value = up * value ∧ up * value * u64Max ^ room ≤ u128Max := by
  have product : up * value * u64Max ^ room ≤ u128Max := by
    calc up * value * u64Max ^ room ≤ up * u64Max * u64Max ^ room :=
          Nat.mul_le_mul_right _ (Nat.mul_le_mul_left _ small)
      _ = up * u64Max ^ (room + 1) := by rw [Nat.pow_succ, Nat.mul_assoc, Nat.mul_comm u64Max]
      _ ≤ u128Max := bound
  have one : 1 ≤ u64Max ^ room := Nat.one_le_pow _ _ (by decide)
  have direct : up * value ≤ u128Max := (Nat.le_mul_of_pos_right _ one).trans product
  exact ⟨saturatingMul_eq direct, product⟩

theorem Scaled.next {room flow chunk upNum upDen out : Nat} {seg : LiquiditySegment}
    (scaled : Scaled (room + 1) flow chunk upNum upDen) (positive : 0 < seg.num.toNat ∧ 0 < seg.den.toNat)
    (floored : out ≤ flow * seg.num.toNat / seg.den.toNat) :
    let num := saturatingMul upNum seg.num.toNat
    let den := saturatingMul upDen seg.den.toNat
    Scaled room out chunk (num / gcd num den) (den / gcd num den) := by
  have limit : ∀ value : UInt64, value.toNat ≤ u64Max := fun value => Nat.le_sub_one_of_lt value.toNat_lt
  obtain ⟨numEq, numRoom⟩ := saturatingMul_of_room scaled.numRoom (limit seg.num)
  obtain ⟨denEq, denRoom⟩ := saturatingMul_of_room scaled.denRoom (limit seg.den)
  simp only [numEq, denEq]
  have numPos : 0 < upNum * seg.num.toNat := Nat.mul_pos scaled.num positive.1
  have denPos : 0 < upDen * seg.den.toNat := Nat.mul_pos scaled.den positive.2
  have reduced : gcd (upNum * seg.num.toNat) (upDen * seg.den.toNat) =
      Nat.gcd (upNum * seg.num.toNat) (upDen * seg.den.toNat) := max_eq_left (Nat.gcd_pos_of_pos_left _ numPos)
  rw [reduced]
  have whole : 0 < Nat.gcd (upNum * seg.num.toNat) (upDen * seg.den.toNat) := Nat.gcd_pos_of_pos_left _ numPos
  have numDvd := Nat.gcd_dvd_left (upNum * seg.num.toNat) (upDen * seg.den.toNat)
  have denDvd := Nat.gcd_dvd_right (upNum * seg.num.toNat) (upDen * seg.den.toNat)
  refine ⟨Nat.div_pos (Nat.le_of_dvd numPos numDvd) whole, Nat.div_pos (Nat.le_of_dvd denPos denDvd) whole,
    (Nat.mul_le_mul_right _ (Nat.div_le_self _ _)).trans numRoom,
    (Nat.mul_le_mul_right _ (Nat.div_le_self _ _)).trans denRoom, ?_⟩
  have product : out * (upDen * seg.den.toNat) ≤ chunk * (upNum * seg.num.toNat) := by
    calc out * (upDen * seg.den.toNat)
        = out * seg.den.toNat * upDen := by ring
      _ ≤ flow * seg.num.toNat * upDen := Nat.mul_le_mul_right _ ((Nat.le_div_iff_mul_le positive.2).mp floored)
      _ = flow * upDen * seg.num.toNat := by ring
      _ ≤ chunk * upNum * seg.num.toNat := Nat.mul_le_mul_right _ scaled.scale
      _ = chunk * (upNum * seg.num.toNat) := by ring
  refine Nat.le_of_mul_le_mul_right ?_ whole
  rw [Nat.mul_assoc, Nat.mul_assoc, Nat.div_mul_cancel denDvd, Nat.div_mul_cancel numDvd]
  exact product

/-- A chunk within the translated capacity of a segment reaches it as a flow within its capacity. -/
theorem Scaled.within {room flow chunk upNum upDen capacity : Nat} (scaled : Scaled room flow chunk upNum upDen)
    (bound : chunk ≤ saturatingMul capacity upDen / upNum) : flow ≤ capacity := by
  have product : chunk * upNum ≤ capacity * upDen :=
    ((Nat.le_div_iff_mul_le scaled.num).mp bound).trans (min_le_left _ _)
  exact Nat.le_of_mul_le_mul_right (scaled.scale.trans product) scaled.den

section Push

variable {ρ : Type} {rates : Rates ρ}

/-- A chunk within the capacity that `head` finds is carried by every hop. -/
theorem push_carried {hops : List HopState} (once : ((hops.flatMap (·.ladder.segments)).map (·.digest)).Nodup)
    (positive : ∀ hop ∈ hops, ∀ seg ∈ hop.ladder.segments, 0 < seg.num.toNat ∧ 0 < seg.den.toNat)
    {rate final : ρ} {cap upNum upDen bound chunk flow : Nat} {budget current : Budget}
    (head : headFrom rates budget hops rate cap upNum upDen = some (final, bound)) (within : chunk ≤ bound)
    (scaled : hops ≠ [] → Scaled (hops.length - 1) flow chunk upNum upDen)
    (same : ∀ hop ∈ hops, ∀ seg ∈ hop.ladder.segments, current seg.digest = budget seg.digest) :
    Carried hops flow current (push hops flow current) := by
  induction hops generalizing rate cap upNum upDen flow current with
  | nil => exact Carried.nil flow current
  | cons hop rest ih =>
    have here := scaled (List.cons_ne_nil _ _)
    unfold headFrom at head
    split at head
    · cases head
    rename_i seg live
    simp only at head
    have rated := positive hop List.mem_cons_self seg (liveSegment_some live).1
    have room : flow ≤ hop.segmentCapacity budget seg := here.within
      (within.trans ((headFrom_le head).trans ((min_le_right _ _).trans (min_le_left _ _))))
    have capacity : hop.segmentCapacity current seg = hop.segmentCapacity budget seg := by
      simp only [HopState.segmentCapacity, same hop List.mem_cons_self seg (liveSegment_some live).1]
    rw [← liveSegment_congr (same hop List.mem_cons_self)] at live
    rw [List.flatMap_cons, List.map_append, List.nodup_append] at once
    obtain ⟨own, later, apart⟩ := once
    -- the hops behind see what comes out of this one, and none of the orders taken here
    have behind : ∀ {out : Nat} {spent : Budget}, out ≤ flow * seg.num.toNat / seg.den.toNat →
        (∀ digest, digest ≠ seg.digest → spent digest = current digest) → Carried rest out spent (push rest out spent) := by
      intro out spent floored kept
      refine ih later (fun next member => positive next (List.mem_cons_of_mem _ member)) head (fun more => ?_) ?_
      · have longer : (hop :: rest).length - 1 = rest.length - 1 + 1 := by
          have := List.length_pos_iff.mpr more
          rw [List.length_cons]
          omega
        exact (longer ▸ here).next rated floored
      · intro next member other inside
        rw [kept, same next (List.mem_cons_of_mem _ member) other inside]
        exact fun equal => apart _ (List.mem_map_of_mem (liveSegment_some live).1) _
          (List.mem_map_of_mem (List.mem_flatMap.mpr ⟨next, member, inside⟩)) equal.symm
    rcases Nat.eq_zero_or_pos flow with rfl | some
    · exact Carried.cons rfl rfl le_rfl (fun _ left known => ⟨left, known, rfl⟩)
        (behind (Nat.zero_le _) fun _ _ => rfl)
    · have takes : Takes hop current seg flow := ⟨(liveSegment_some live).1, capacity ▸ room, some⟩
      rw [push, takes.fill live]
      exact Carried.cons rfl (takes.total_consume own) (takes.yield_consume own rated.2) (fun _ _ known => takes.spend known)
        (behind (Nat.mod_le _ _) fun _ other => Function.update_of_ne other _ _)

end Push

end SuiOptions.Router
