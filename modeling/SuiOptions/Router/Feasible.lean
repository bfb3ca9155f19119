import SuiOptions.Router.Push

/-! What a route plan promises, over the whole greedy loop. -/

set_option autoImplicit false

namespace SuiOptions.Router

open Exchange

/-! ### Executing a plan -/

section Execution

variable (ladders : List HopLadder)

def orderOf (digest : Bytes) : Option LiquiditySegment :=
  (ladders.flatMap HopLadder.segments).find? fun seg => seg.digest = digest

def FillLeg.out (leg : FillLeg) : Nat :=
  match orderOf ladders leg.digest with
  | some seg => leg.amountIn * seg.num.toNat / seg.den.toNat
  | none => 0

def legsIn (legs : List FillLeg) : Nat := (legs.map (·.amountIn)).sum

def legsOut (legs : List FillLeg) : Nat := (legs.map (FillLeg.out ladders)).sum

def execute : Nat → List (List FillLeg) → Nat
  | available, [] => available
  | _, legs :: rest => execute (legsOut ladders legs) rest

/-- Every hop finds its input: the first in what is available, the others in what the hop before yields. -/
def Fed : Nat → List (List FillLeg) → Prop
  | _, [] => True
  | available, legs :: rest => legsIn legs ≤ available ∧ Fed (legsOut ladders legs) rest

end Execution

/-- The fills planned against an order, over all paths and hops. -/
def RoutePlan.planned (plan : RoutePlan) (digest : Bytes) : Nat :=
  legsIn ((plan.paths.flatMap fun path => path.hops.flatten).filter (·.digest = digest))

structure PathPlan.Feasible (ladders : List HopLadder) (path : PathPlan) : Prop where
  /-- At most one leg for each order in a hop. -/
  once : ∀ legs ∈ path.hops, (legs.map (·.digest)).Nodup
  /-- The whole input of the path goes to the legs of the first hop. -/
  first : legsIn (path.hops.head?.getD []) = path.input
  fed : Fed ladders path.input path.hops
  out : path.expectedOut ≤ execute ladders path.input path.hops

structure RoutePlan.Feasible (ladders : List HopLadder) (amountIn : UInt64) (plan : RoutePlan) : Prop where
  budgets : ∀ l ∈ ladders, ∀ seg ∈ l.segments, plan.planned seg.digest ≤ seg.maxIn.toNat
  paths : ∀ path ∈ plan.paths, path.Feasible ladders
  routed : plan.input = (plan.paths.map (·.input)).sum
  amount : plan.input + plan.unrouted = amountIn.toNat
  out : plan.expectedOut ≤ (plan.paths.map fun path => execute ladders path.input path.hops).sum

/-! ### Candidate paths -/

structure Simple (ladders : List HopLadder) (maxHops : Nat) (path : List HopLadder) : Prop where
  members : ∀ l ∈ path, l ∈ ladders
  tokens : (path.map (·.toToken)).Nodup
  short : path.length ≤ maxHops
  nonempty : path ≠ []

theorem dfs_simple {ladders : List HopLadder} {target here : String} {room maxHops : Nat} {visited : List String}
    {stack : List HopLadder} (members : ∀ l ∈ stack, l ∈ ladders) (tokens : (stack.map (·.toToken)).Nodup)
    (seen : ∀ l ∈ stack, l.toToken ∈ visited) (short : stack.length + room ≤ maxHops) :
    ∀ path ∈ dfs ladders target room here visited stack, Simple ladders maxHops path := by
  -- what is found at the target is the stack
  have reached : ∀ room, stack.length + room ≤ maxHops →
      ∀ path ∈ (if stack = [] then [] else [stack]), Simple ladders maxHops path := by
    intro room short path member
    split at member
    · cases member
    · rename_i nonempty
      rw [List.mem_singleton.mp member]
      exact ⟨members, tokens, by omega, nonempty⟩
  induction room generalizing here visited stack with
  | zero =>
    intro path member
    unfold dfs at member
    split at member
    · exact reached 0 short path member
    · cases member
  | succ room ih =>
    intro path member
    unfold dfs at member
    split at member
    · exact reached _ short path member
    · obtain ⟨l, given, found⟩ := List.mem_flatMap.mp member
      split at found
      · rename_i fresh
        -- the stack with one more ladder meets the hypotheses again
        have pushedMembers : ∀ k ∈ stack ++ [l], k ∈ ladders := by
          intro k inside
          rcases List.mem_append.mp inside with old | new
          · exact members k old
          · rw [List.mem_singleton.mp new]
            exact given
        have pushedTokens : ((stack ++ [l]).map (·.toToken)).Nodup := by
          rw [List.map_append, List.nodup_append]
          refine ⟨tokens, List.nodup_singleton _, ?_⟩
          rintro token old _ new rfl
          obtain ⟨k, inside, rfl⟩ := List.mem_map.mp old
          have same : k.toToken = l.toToken := by simpa using new
          exact fresh.2 (same ▸ seen k inside)
        have pushedSeen : ∀ k ∈ stack ++ [l], k.toToken ∈ visited ++ [l.toToken] := by
          intro k inside
          rcases List.mem_append.mp inside with old | new
          · exact List.mem_append_left _ (seen k old)
          · rw [List.mem_singleton.mp new]
            exact List.mem_append_right _ (List.mem_singleton_self _)
        have pushedShort : (stack ++ [l]).length + room ≤ maxHops := by
          rw [List.length_append, List.length_singleton]
          omega
        -- and so do the paths found behind it
        refine ih pushedMembers pushedTokens pushedSeen pushedShort ?_ path found
        intro others shorter route inside
        rw [if_neg (by simp)] at inside
        rw [List.mem_singleton.mp inside]
        exact ⟨pushedMembers, pushedTokens, by omega, by simp⟩
      · cases found

theorem candidates_simple {ladders : List HopLadder} {source target : String} {config : RouterConfig} :
    ∀ path ∈ candidates ladders source target config, Simple ladders config.maxHops path := by
  intro path member
  have sorted := List.mem_of_mem_take member
  rw [List.mem_insertionSort] at sorted
  exact dfs_simple (by simp) (by simp) (by simp) (by simp) path sorted

theorem Simple.once {ladders : List HopLadder} {maxHops : Nat} {path : List HopLadder} (simple : Simple ladders maxHops path)
    (sound : Sound ladders) : ((path.flatMap HopLadder.segments).map (·.digest)).Nodup := by
  have distinct : path.Nodup := simple.tokens.of_map
  obtain ⟨listed, same, inside⟩ := distinct.subperm simple.members
  have part : ((listed.flatMap HopLadder.segments).map (·.digest)).Nodup :=
    sound.once.sublist ((inside.flatMap HopLadder.segments).map _)
  exact ((same.flatMap fun _ _ => List.Perm.refl _).map _).nodup_iff.mp part

/-! ### The greedy loop -/

section Loop

variable {ladders : List HopLadder} {maxHops amountIn : Nat}

/-- One path between two rounds. -/
structure PathState.Sound (ladders : List HopLadder) (maxHops : Nat) (st : PathState) : Prop where
  simple : Simple ladders maxHops (st.hops.map (·.ladder))
  complete : st.unallocated = 0
  first : firstTotal st.hops = st.input
  chained : Chained st.input st.hops st.out

def Search.drawn (s : Search) (digest : Bytes) : Nat := (s.states.map fun st => Router.drawn st.hops digest).sum

/-- The search between two rounds: no order has given more than it had. -/
structure Search.Sound (ladders : List HopLadder) (maxHops amountIn : Nat) (s : Search) : Prop where
  paths : ∀ st ∈ s.states, st.Sound ladders maxHops
  routed : (s.states.map (·.input)).sum + s.remaining = amountIn
  budget : ∀ l ∈ ladders, ∀ seg ∈ l.segments,
    ∃ left, s.budget seg.digest = some left ∧ left + s.drawn seg.digest = seg.maxIn.toNat

theorem PathState.new_sound {path : List HopLadder} (simple : Simple ladders maxHops path) :
    (PathState.new path).Sound ladders maxHops := by
  have idle : ∀ hop ∈ (PathState.new path).hops, ∀ digest, hop.used digest = 0 := by
    intro hop member digest
    obtain ⟨l, -, rfl⟩ := List.mem_map.mp member
    rfl
  have total : ∀ hop ∈ (PathState.new path).hops, hop.total = 0 := by
    intro hop member
    simp [HopState.total, idle hop member]
  have chained : ∀ hops : List HopState, (∀ hop ∈ hops, hop.total = 0) → ∀ available, Chained available hops 0 := by
    intro hops
    induction hops with
    | nil => exact fun _ available => Nat.zero_le available
    | cons hop rest ih =>
      intro empty available
      refine ⟨?_, ih (fun next member => empty next (List.mem_cons_of_mem _ member)) _⟩
      rw [empty hop List.mem_cons_self]
      exact Nat.zero_le available
  refine ⟨?_, rfl, ?_, chained _ total 0⟩
  · have same : (PathState.new path).hops.map (·.ladder) = path := by
      simp [PathState.new, Function.comp_def]
    rw [same]
    exact simple
  · cases path with
    | nil => rfl
    | cons l rest => exact total ⟨l, fun _ => none⟩ List.mem_cons_self

variable {ρ : Type} {rates : Rates ρ}

theorem best_spec {budget : Budget} {states : List PathState} {base i : Nat} {rate : ρ} {cap : Nat}
    {found : Option (Nat × ρ × Nat)} (chosen : best rates budget states base found = some (i, rate, cap)) :
    found = some (i, rate, cap) ∨ ∃ j st, i = base + j ∧ states[j]? = some st ∧ st.head rates budget = some (rate, cap) := by
  induction states generalizing base found with
  | nil => exact Or.inl chosen
  | cons st rest ih =>
    have later : ∀ {carried}, best rates budget rest (base + 1) carried = some (i, rate, cap) →
        (carried = some (i, rate, cap) ∨ ∃ j other, i = base + j ∧ (st :: rest)[j]? = some other ∧
          other.head rates budget = some (rate, cap)) := by
      intro carried ran
      refine (ih ran).imp_right ?_
      rintro ⟨j, other, rfl, located, headed⟩
      exact ⟨j + 1, other, by omega, located, headed⟩
    unfold best at chosen
    split at chosen
    · exact later chosen
    · rename_i r c headed
      have here : ∀ {i : Nat} {rate : ρ} {cap : Nat}, some (base, r, c) = some (i, rate, cap) →
          ∃ j other, i = base + j ∧ (st :: rest)[j]? = some other ∧ other.head rates budget = some (rate, cap) := by
        intro i rate cap same
        cases same
        exact ⟨0, st, rfl, rfl, headed⟩
      split at chosen
      · exact Or.inr ((later chosen).elim here id)
      · split at chosen
        · exact Or.inr ((later chosen).elim here id)
        · exact later chosen

theorem head_spec {st : PathState} {budget : Budget} {rate : ρ} {cap : Nat} (headed : st.head rates budget = some (rate, cap)) :
    0 < cap ∧ headFrom rates budget st.hops rates.one u64Max 1 1 = some (rate, cap) := by
  unfold PathState.head at headed
  split at headed
  · cases headed
  · rename_i r c ran
    split at headed
    · cases headed
    · rename_i some
      cases headed
      exact ⟨Nat.pos_of_ne_zero some, ran⟩

theorem PathState.Sound.rated {st : PathState} (kept : st.Sound ladders maxHops) (sound : Router.Sound ladders) :
    ∀ hop ∈ st.hops, ∀ seg ∈ hop.ladder.segments, 0 < seg.num.toNat ∧ 0 < seg.den.toNat := by
  intro hop member seg inside
  exact sound.positive hop.ladder (kept.simple.members _ (List.mem_map_of_mem member)) seg inside

theorem PathState.Sound.scaled {st : PathState} (kept : st.Sound ladders maxHops) (short : maxHops ≤ 3) (chunk : Nat) :
    st.hops ≠ [] → Scaled (st.hops.length - 1) chunk chunk 1 1 := by
  intro _
  have length : st.hops.length ≤ 3 := by
    have := kept.simple.short
    rw [List.length_map] at this
    omega
  -- two factors of 64 bits fit, and the third is not used
  have power : u64Max ^ (st.hops.length - 1) ≤ u64Max ^ 2 := Nat.pow_le_pow_right (by decide) (by omega)
  have fits : 1 * u64Max ^ (st.hops.length - 1) ≤ u128Max := by
    rw [Nat.one_mul]
    exact power.trans (by decide)
  exact ⟨Nat.one_pos, Nat.one_pos, fits, fits, le_rfl⟩

theorem PathState.Sound.carried {st : PathState} {budget : Budget} {rate : ρ} {cap chunk : Nat}
    (kept : st.Sound ladders maxHops) (sound : Router.Sound ladders) (short : maxHops ≤ 3)
    (headed : st.head rates budget = some (rate, cap)) (within : chunk ≤ cap) :
    Carried st.hops chunk budget (push st.hops chunk budget) := by
  have once := kept.simple.once sound
  rw [List.flatMap_map] at once
  exact push_carried once (kept.rated sound) (head_spec headed).2 within (kept.scaled short chunk) fun _ _ _ _ => rfl

theorem PathState.Sound.allocate {st : PathState} {budget : Budget} {chunk : Nat} (kept : st.Sound ladders maxHops)
    (carried : Carried st.hops chunk budget (push st.hops chunk budget)) (small : st.input + chunk < 2 ^ 64) :
    (st.allocate chunk budget).1.Sound ladders maxHops := by
  have input : wrapAdd st.input chunk = st.input + chunk := Nat.mod_eq_of_lt small
  have hops : st.hops ≠ [] := fun empty => kept.simple.nonempty (by rw [empty, List.map_nil])
  refine ⟨?_, ?_, ?_, ?_⟩
  · simp only [PathState.allocate, carried.ladders]
    exact kept.simple
  · simp only [PathState.allocate, kept.complete, carried.complete]
  · simp only [PathState.allocate, input]
    rw [carried.first hops, kept.first]
  · simp only [PathState.allocate, input]
    exact (carried.chained _ _ kept.chained).mono le_rfl (Nat.mod_le _ _)

theorem Search.Sound.round {s : Search} {i : Nat} {st : PathState} {rate : ρ} {cap : Nat}
    (kept : s.Sound ladders maxHops amountIn) (sound : Router.Sound ladders) (short : maxHops ≤ 3) (small : amountIn < 2 ^ 64)
    (located : s.states[i]? = some st) (headed : st.head rates s.budget = some (rate, cap)) :
    Search.Sound ladders maxHops amountIn
      ⟨s.states.set i (st.allocate (min s.remaining cap) s.budget).1, (st.allocate (min s.remaining cap) s.budget).2,
        s.remaining - min s.remaining cap⟩ := by
  have member := List.mem_of_getElem? located
  have carried := (kept.paths st member).carried sound short headed (min_le_right s.remaining cap)
  have share : st.input ≤ (s.states.map (·.input)).sum := List.single_le_sum (by simp) _ (List.mem_map_of_mem member)
  have routed := kept.routed
  have chunk : min s.remaining cap ≤ s.remaining := min_le_left _ _
  have fits : st.input + min s.remaining cap < 2 ^ 64 := by omega
  refine ⟨fun other inside => ?_, ?_, fun l given seg inside => ?_⟩
  · rcases List.mem_or_eq_of_mem_set inside with old | rfl
    · exact kept.paths other old
    · exact (kept.paths st member).allocate carried fits
  · have changed := Sums.sum_map_set (·.input) (st.allocate (min s.remaining cap) s.budget).1 located
    have input : (st.allocate (min s.remaining cap) s.budget).1.input = st.input + min s.remaining cap :=
      Nat.mod_eq_of_lt fits
    simp only [input] at changed
    simp only
    omega
  · obtain ⟨left, known, balance⟩ := kept.budget l given seg inside
    obtain ⟨after, spent, moved⟩ := carried.spent _ left known
    refine ⟨after, spent, ?_⟩
    have changed := Sums.sum_map_set (fun st : PathState => Router.drawn st.hops seg.digest)
      (st.allocate (min s.remaining cap) s.budget).1 located
    have drawn : Router.drawn (st.allocate (min s.remaining cap) s.budget).1.hops seg.digest =
        Router.drawn (push st.hops (min s.remaining cap) s.budget).hops seg.digest := rfl
    rw [drawn] at changed
    unfold Search.drawn at balance ⊢
    simp only at balance ⊢
    omega

theorem Search.Sound.greedy {s : Search} (kept : s.Sound ladders maxHops amountIn) (sound : Router.Sound ladders)
    (short : maxHops ≤ 3) (small : amountIn < 2 ^ 64) (rounds : Nat) :
    (Router.greedy rates rounds s).Sound ladders maxHops amountIn := by
  induction rounds generalizing s with
  | zero => exact kept
  | succ rounds ih =>
    unfold Router.greedy
    split
    · exact kept
    · split
      · exact kept
      · rename_i i rate cap chosen
        split
        · exact kept
        · rename_i st located
          rcases best_spec chosen with impossible | ⟨j, other, rfl, here, headed⟩
          · cases impossible
          · rw [Nat.zero_add] at located ⊢
            rw [here] at located
            cases located
            exact ih (kept.round sound short small here headed)

theorem entered {segs : List LiquiditySegment} {budget : Budget} (once : (segs.map (·.digest)).Nodup)
    (fresh : ∀ seg ∈ segs, budget seg.digest = none) :
    (∀ digest, digest ∉ segs.map (·.digest) → segs.foldl Budget.enter budget digest = budget digest) ∧
      ∀ seg ∈ segs, segs.foldl Budget.enter budget seg.digest = some seg.maxIn.toNat := by
  induction segs generalizing budget with
  | nil => exact ⟨fun _ _ => rfl, by simp⟩
  | cons first rest ih =>
    obtain ⟨alone, once⟩ := List.nodup_cons.mp once
    have apart : ∀ seg ∈ rest, seg.digest ≠ first.digest := fun seg inside same =>
      alone (List.mem_map.mpr ⟨seg, inside, same⟩)
    have unset : ∀ seg ∈ rest, budget.enter first seg.digest = none := by
      intro seg inside
      rw [Budget.enter, Function.update_of_ne (apart seg inside)]
      exact fresh seg (List.mem_cons_of_mem _ inside)
    obtain ⟨others, own⟩ := ih once unset
    refine ⟨fun digest absent => ?_, fun seg inside => ?_⟩
    · rw [List.map_cons, List.mem_cons, not_or] at absent
      rw [List.foldl_cons, others digest absent.2, Budget.enter, Function.update_of_ne absent.1]
    · rw [List.foldl_cons]
      rcases List.mem_cons.mp inside with rfl | later
      · rw [others _ alone, Budget.enter, Function.update_self, fresh _ List.mem_cons_self, Option.getD_none]
      · exact own seg later

theorem initialBudget_eq (sound : Router.Sound ladders) {l : HopLadder} (given : l ∈ ladders) {seg : LiquiditySegment}
    (member : seg ∈ l.segments) : initialBudget ladders seg.digest = some seg.maxIn.toNat :=
  (entered sound.once fun _ _ => rfl).2 seg (List.mem_flatMap.mpr ⟨l, given, member⟩)

theorem search_sound {source target : String} {amountIn : UInt64} {config : RouterConfig} (sound : Router.Sound ladders)
    (short : config.maxHops ≤ 3) :
    (search rates ladders source target amountIn config).Sound ladders config.maxHops amountIn.toNat := by
  refine Search.Sound.greedy ⟨fun st member => ?_, ?_, fun l given seg member => ?_⟩ sound short amountIn.toNat_lt _
  · obtain ⟨path, candidate, rfl⟩ := List.mem_map.mp member
    exact PathState.new_sound (candidates_simple path candidate)
  · simp [PathState.new, Function.comp_def]
  · refine ⟨seg.maxIn.toNat, initialBudget_eq sound given member, ?_⟩
    simp [Search.drawn, Router.drawn, PathState.new, Function.comp_def, HopState.used]

end Loop

/-! ### The plan -/

section Legs

variable {ladders : List HopLadder} {hop : HopState}

theorem orderOf_eq (sound : Sound ladders) (known : hop.ladder ∈ ladders) {seg : LiquiditySegment}
    (member : seg ∈ hop.ladder.segments) : orderOf ladders seg.digest = some seg := by
  have listed : seg ∈ ladders.flatMap HopLadder.segments := List.mem_flatMap.mpr ⟨_, known, member⟩
  cases found : orderOf ladders seg.digest with
  | none =>
    have missed := List.find?_eq_none.mp found seg listed
    simp at missed
  | some other =>
    have same : other.digest = seg.digest := by simpa using List.find?_some found
    rw [List.inj_on_of_nodup_map sound.once (List.mem_of_find?_eq_some found) listed same]

def legsOf (hop : HopState) (segs : List LiquiditySegment) : List FillLeg :=
  segs.filterMap fun seg => (hop.consumed seg.digest).map fun amount => ⟨seg.digest, amount⟩

theorem legsOf_cons (seg : LiquiditySegment) (rest : List LiquiditySegment) :
    legsOf hop (seg :: rest) = ((hop.consumed seg.digest).map fun amount => (⟨seg.digest, amount⟩ : FillLeg)).toList ++
      legsOf hop rest := by
  unfold legsOf
  rw [List.filterMap_cons]
  cases hop.consumed seg.digest <;> rfl

theorem legsIn_legsOf (segs : List LiquiditySegment) :
    legsIn (legsOf hop segs) = (segs.map fun seg => hop.used seg.digest).sum := by
  induction segs with
  | nil => rfl
  | cons seg rest ih =>
    rw [legsOf_cons, List.map_cons, List.sum_cons, ← ih]
    cases consumed : hop.consumed seg.digest <;> simp [legsIn, HopState.used, consumed]

theorem legsOut_legsOf (sound : Sound ladders) (known : hop.ladder ∈ ladders) {segs : List LiquiditySegment}
    (part : ∀ seg ∈ segs, seg ∈ hop.ladder.segments) : legsOut ladders (legsOf hop segs) =
      (segs.map fun seg => hop.used seg.digest * seg.num.toNat / seg.den.toNat).sum := by
  induction segs with
  | nil => rfl
  | cons seg rest ih =>
    have order := orderOf_eq sound known (part seg List.mem_cons_self)
    rw [legsOf_cons, List.map_cons, List.sum_cons, ← ih fun other inside => part other (List.mem_cons_of_mem _ inside)]
    cases consumed : hop.consumed seg.digest <;> simp [legsOut, FillLeg.out, HopState.used, consumed, order]

theorem digests_legsOf (segs : List LiquiditySegment) :
    ((legsOf hop segs).map (·.digest)).Sublist (segs.map (·.digest)) := by
  induction segs with
  | nil => exact List.Sublist.slnil
  | cons seg rest ih =>
    rw [legsOf_cons]
    cases hop.consumed seg.digest with
    | none => exact ih.cons _
    | some amount => exact ih.cons_cons _

theorem legsIn_filter (digest : Bytes) {segs : List LiquiditySegment} (once : (segs.map (·.digest)).Nodup) :
    legsIn ((legsOf hop segs).filter (·.digest = digest)) ≤ hop.used digest := by
  induction segs with
  | nil => exact Nat.zero_le _
  | cons seg rest ih =>
    obtain ⟨alone, once⟩ := List.nodup_cons.mp once
    rw [legsOf_cons, List.filter_append]
    by_cases here : seg.digest = digest
    · subst here
      have others : (legsOf hop rest).filter (·.digest = seg.digest) = [] := by
        rw [List.filter_eq_nil_iff]
        intro leg member same
        have listed := (digests_legsOf rest).subset (List.mem_map_of_mem member)
        rw [of_decide_eq_true same] at listed
        exact alone listed
      rw [others, List.append_nil]
      cases consumed : hop.consumed seg.digest <;> simp [legsIn, HopState.used, consumed]
    · have skipped : (((hop.consumed seg.digest).map fun amount => (⟨seg.digest, amount⟩ : FillLeg)).toList.filter
          (·.digest = digest)) = [] := by
        cases hop.consumed seg.digest <;> simp [here]
      rw [skipped, List.nil_append]
      exact ih once

theorem legsIn_append (first second : List FillLeg) : legsIn (first ++ second) = legsIn first + legsIn second := by
  simp [legsIn]

theorem legsIn_hops (sound : Sound ladders) (digest : Bytes) {hops : List HopState} (known : ∀ hop ∈ hops, hop.ladder ∈ ladders) :
    legsIn ((hops.map HopState.legs).flatten.filter (·.digest = digest)) ≤ drawn hops digest := by
  induction hops with
  | nil => exact Nat.zero_le _
  | cons hop rest ih =>
    have here : legsIn (hop.legs.filter (·.digest = digest)) ≤ hop.used digest :=
      legsIn_filter digest (sound.segments_nodup (known hop List.mem_cons_self))
    have below := ih fun next member => known next (List.mem_cons_of_mem _ member)
    rw [List.map_cons, List.flatten_cons, List.filter_append, legsIn_append]
    exact Nat.add_le_add here below

theorem legsIn_paths (sound : Sound ladders) (digest : Bytes) {states : List PathState}
    (known : ∀ st ∈ states, ∀ hop ∈ st.hops, hop.ladder ∈ ladders) :
    legsIn ((((states.filter fun st => st.input ≠ 0).map PathState.plan).flatMap fun path => path.hops.flatten).filter
      (·.digest = digest)) ≤ (states.map fun st => drawn st.hops digest).sum := by
  induction states with
  | nil => exact Nat.zero_le _
  | cons st rest ih =>
    have here := legsIn_hops sound digest (known st List.mem_cons_self)
    have below := ih fun other member => known other (List.mem_cons_of_mem _ member)
    rw [List.map_cons, List.sum_cons, List.filter_cons]
    split
    · rw [List.map_cons, List.flatMap_cons, List.filter_append, legsIn_append]
      exact Nat.add_le_add here below
    · exact below.trans (Nat.le_add_left _ _)

theorem fed_of_chained (sound : Sound ladders) {hops : List HopState} (known : ∀ hop ∈ hops, hop.ladder ∈ ladders)
    {available out : Nat} (chained : Chained available hops out) :
    Fed ladders available (hops.map HopState.legs) ∧ out ≤ execute ladders available (hops.map HopState.legs) := by
  induction hops generalizing available with
  | nil => exact ⟨trivial, chained⟩
  | cons hop rest ih =>
    have yield : legsOut ladders hop.legs = hop.yield :=
      legsOut_legsOf sound (known hop List.mem_cons_self) fun _ inside => inside
    have total : legsIn hop.legs = hop.total := legsIn_legsOf _
    obtain ⟨fed, out⟩ := ih (fun next member => known next (List.mem_cons_of_mem _ member)) chained.2
    refine ⟨⟨total ▸ chained.1, ?_⟩, ?_⟩
    · rw [yield]
      exact fed
    · rw [List.map_cons, execute, yield]
      exact out

end Legs

section Plan

variable {ladders : List HopLadder} {maxHops : Nat}

theorem PathState.Sound.known {st : PathState} (kept : st.Sound ladders maxHops) : ∀ hop ∈ st.hops, hop.ladder ∈ ladders :=
  fun _ member => kept.simple.members _ (List.mem_map_of_mem member)

theorem PathState.Sound.feasible {st : PathState} (kept : st.Sound ladders maxHops) (sound : Router.Sound ladders) :
    st.plan.Feasible ladders := by
  obtain ⟨fed, out⟩ := fed_of_chained sound kept.known kept.chained
  refine ⟨fun legs member => ?_, ?_, fed, out⟩
  · obtain ⟨hop, inside, rfl⟩ := List.mem_map.mp member
    exact (sound.segments_nodup (kept.known hop inside)).sublist (digests_legsOf _)
  · have first := kept.first
    simp only [PathState.plan]
    rw [← first]
    cases st.hops with
    | nil => rfl
    | cons hop rest => exact legsIn_legsOf _

theorem foldl_wrapAdd_le (states : List PathState) (total : Nat) :
    states.foldl (fun total st => wrapAdd total st.out) total ≤ total + (states.map (·.out)).sum := by
  induction states generalizing total with
  | nil => exact le_rfl
  | cons st rest ih =>
    have wrapped : wrapAdd total st.out ≤ total + st.out := Nat.mod_le _ _
    rw [List.foldl_cons, List.map_cons, List.sum_cons]
    exact (ih _).trans (by omega)

/-- The paths without input carry nothing. -/
theorem sum_used (states : List PathState) :
    ((states.filter fun st => st.input ≠ 0).map (·.input)).sum = (states.map (·.input)).sum := by
  induction states with
  | nil => rfl
  | cons st rest ih =>
    rw [List.filter_cons, List.map_cons, List.sum_cons, ← ih]
    split
    · rw [List.map_cons, List.sum_cons]
    · rename_i unused
      have empty : st.input = 0 := by simpa using unused
      rw [empty, Nat.zero_add]

theorem Search.Sound.feasible {s : Search} {amountIn : UInt64} (kept : s.Sound ladders maxHops amountIn.toNat)
    (sound : Router.Sound ladders) : (s.plan amountIn.toNat).Feasible ladders amountIn := by
  have routed := kept.routed
  have used : ∀ st ∈ s.states.filter (fun st => st.input ≠ 0), st.Sound ladders maxHops := fun st member =>
    kept.paths st (List.mem_of_mem_filter member)
  refine ⟨fun l given seg member => ?_, fun path member => ?_, ?_, ?_, ?_⟩
  · obtain ⟨left, -, balance⟩ := kept.budget l given seg member
    have planned := legsIn_paths sound seg.digest fun st inside => (kept.paths st inside).known
    unfold Search.drawn at balance
    exact le_trans planned (by omega)
  · obtain ⟨st, inside, rfl⟩ := List.mem_map.mp member
    exact (used st inside).feasible sound
  · have inputs : (s.plan amountIn.toNat).paths.map (·.input) = (s.states.filter fun st => st.input ≠ 0).map (·.input) := by
      simp only [Search.plan, List.map_map]
      rfl
    rw [inputs, sum_used]
    simp only [Search.plan]
    omega
  · simp only [Search.plan]
    omega
  · have each : ((s.states.filter fun st => st.input ≠ 0).map (·.out)).sum ≤
        ((s.states.filter fun st => st.input ≠ 0).map fun st => execute ladders st.plan.input st.plan.hops).sum :=
      List.sum_le_sum fun st member => ((used st member).feasible sound).out
    have total := foldl_wrapAdd_le (s.states.filter fun st => st.input ≠ 0) 0
    simp only [Search.plan, List.map_map] at total ⊢
    rw [Nat.zero_add] at total
    exact total.trans each

end Plan

/-- Every plan can be executed as it stands: no order is filled beyond what it has, every hop is
fed, all that reaches a hop is allocated, and the output is not overstated. -/
theorem plan_feasible {ρ : Type} (rates : Rates ρ) {ladders : List HopLadder} (sound : Sound ladders) (source target : String)
    (amountIn : UInt64) {config : RouterConfig} (short : config.maxHops ≤ 3) {plan : RoutePlan}
    (planned : planRoute rates ladders source target amountIn config = .ok plan) :
    plan.Feasible ladders amountIn ∧
      ∀ st ∈ (search rates ladders source target amountIn config).states, st.unallocated = 0 := by
  have kept : (search rates ladders source target amountIn config).Sound ladders config.maxHops amountIn.toNat :=
    search_sound sound short
  unfold planRoute at planned
  split at planned
  · cases planned
  split at planned
  · cases planned
  cases planned
  exact ⟨kept.feasible sound, fun st member => (kept.paths st member).complete⟩

namespace Sample

def fractions : Rates (Nat × Nat) where
  one := (1, 1)
  mul first second := (first.1 * second.1, first.2 * second.2)
  ofSegment seg := (seg.num.toNat, seg.den.toNat)
  gt first second := second.1 * first.2 < first.1 * second.2

/-- A direct market at one to one and then at a half, and two markets by way of a third token. -/
def ladders : List HopLadder :=
  [⟨1, "SUI", "WAL", [⟨[1], 100, 1, 1⟩, ⟨[2], 1000, 1, 2⟩]⟩,
    ⟨2, "SUI", "USDC", [⟨[3], 100000, 2, 1⟩]⟩,
    ⟨3, "USDC", "WAL", [⟨[4], 100000, 45, 100⟩]⟩]

theorem sound : Sound ladders := ⟨by decide, by decide⟩

def plan : RoutePlan where
  input := 300
  unrouted := 0
  expectedOut := 280
  paths :=
    [⟨["SUI", "WAL"], [1], 100, 100, [[⟨[1], 100⟩]]⟩,
      ⟨["SUI", "USDC", "WAL"], [2, 3], 200, 180, [[⟨[3], 200⟩], [⟨[4], 400⟩]]⟩]

theorem plan_feasible_split : planRoute fractions ladders "SUI" "WAL" 300 .standard = .ok plan ∧
    plan.Feasible ladders 300 := by
  have planned : planRoute fractions ladders "SUI" "WAL" 300 .standard = .ok plan := by decide +kernel
  exact ⟨planned, (plan_feasible fractions sound "SUI" "WAL" 300 (by decide) planned).1⟩

end Sample

end SuiOptions.Router
