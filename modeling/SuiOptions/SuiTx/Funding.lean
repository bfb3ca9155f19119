import SuiOptions.SuiTx.Chain
import SuiOptions.SuiTx.Stranded

/-! The coins a transaction funds from a wallet: exactly the amounts asked for, and nothing
left among its results. -/

set_option autoImplicit false

namespace SuiOptions.SuiTx

open Ptb Words

variable {ι β τ : Type}

/-- The wallet is what the sender has of a type. -/
structure Wallet.Stocks (wallet : Wallet) (type : τ) (m : Machine (World ι β τ) τ (DeepBook.FlashLoan τ)) : Prop where
  coins : ∀ c ∈ wallet.coins, m.contents (.object c.1) = some (.coin type c.2)
  distinct : (wallet.coins.map (·.1)).Nodup
  funds : m.world.funds type = wallet.available

/-- From one machine to the next only these objects are spent, and only these coins of the type come
into hand. -/
structure Grown (m next : Machine (World ι β τ) τ (DeepBook.FlashLoan τ)) (ids : List Nat) (type : τ)
    (hand : List (Argument × Nat)) : Prop where
  coins : ∀ c ∈ hand, next.read c.1 = some (.coin type c.2)
  made : ∀ c ∈ hand, ∃ i j, c.1.place = some (.slot i j) ∧ m.count ≤ i
  before : ∀ c ∈ hand, c.1.Before next.count
  apart : hand.Pairwise fun c d => d.1.place ≠ c.1.place
  frame : ∀ a : Argument, a.Before m.count → (∀ id ∈ ids, a.place ≠ some (.object id)) → next.read a = m.read a
  count : m.count ≤ next.count
  sent : next.sent = m.sent
  accounted : ∀ t, Accounted m t → Accounted next ⟨t.outstanding ++ hand.map (·.1), []⟩

section Growing

variable {m mid : Machine (World ι β τ) τ (DeepBook.FlashLoan τ)} {ids : List Nat} {type : τ}
  {hand : List (Argument × Nat)}

theorem Grown.refl (m : Machine (World ι β τ) τ (DeepBook.FlashLoan τ)) (ids : List Nat) (type : τ) :
    Grown m m ids type [] := by
  refine ⟨nofun, nofun, nofun, List.Pairwise.nil, fun _ _ _ => rfl, Nat.le_refl _, rfl, fun t accounted => ?_⟩
  rw [List.map_nil, List.append_nil]
  exact accounted

theorem Grown.enter (grown : Grown m mid ids type hand) (next : World ι β τ) :
    Grown m (mid.enter next) ids type hand where
  coins c inside := (Machine.read_enter next).trans (grown.coins c inside)
  made := grown.made
  before := grown.before
  apart := grown.apart
  frame a before other := (Machine.read_enter next).trans (grown.frame a before other)
  count := grown.count
  sent := grown.sent
  accounted t accounted := (grown.accounted t accounted).congr (mid.enter next) rfl rfl

theorem Grown.object (grown : Grown m mid ids type hand) {id : Nat} (spent : id ∈ ids)
    (value : Option (Value τ (DeepBook.FlashLoan τ))) : Grown m (mid.put (.object id) value) ids type hand where
  coins := by
    intro c inside
    obtain ⟨i, j, place, _⟩ := grown.made c inside
    rw [Machine.read_put value (by
      rw [place]
      nofun)]
    exact grown.coins c inside
  made := grown.made
  before := by
    rw [Machine.put_count]
    exact grown.before
  apart := grown.apart
  frame a before other := by
    rw [Machine.read_put value (other id spent)]
    exact grown.frame a before other
  count := by
    rw [Machine.put_count]
    exact grown.count
  sent := (Machine.put_sent value _).trans grown.sent
  accounted t accounted := by
    intro i j live
    refine grown.accounted t accounted i j ⟨?_, ?_, ?_⟩
    · have ran := live.ran
      rwa [Machine.put_count] at ran
    · have left := live.left
      rwa [Machine.put_arities] at left
    · have linear := live.linear
      rwa [Machine.put_contents, if_neg nofun] at linear

theorem Grown.pay {coin : Argument} {value : Nat} (grown : Grown m mid ids type [(coin, value)]) (left : Nat) :
    Grown m (mid.put coin (some (.coin type left))) ids type [(coin, left)] := by
  obtain ⟨i, j, place, past⟩ := grown.made _ (List.mem_singleton_self _)
  refine ⟨?_, ?_, ?_, List.pairwise_singleton _ _, ?_, ?_, (Machine.put_sent _ _).trans grown.sent, ?_⟩
  · intro c inside
    cases List.mem_singleton.mp inside
    exact Machine.read_put_self (grown.coins _ (List.mem_singleton_self _)) place
  · intro c inside
    cases List.mem_singleton.mp inside
    exact ⟨i, j, place, past⟩
  · intro c inside
    cases List.mem_singleton.mp inside
    rw [Machine.put_count]
    exact grown.before (coin, value) (List.mem_singleton_self _)
  · intro a before other
    -- the coin in hand was made after the first machine; what was there before is elsewhere
    rw [Machine.read_put _ (fun same => before.place_ne past (same.trans place))]
    exact grown.frame a before other
  · rw [Machine.put_count]
    exact grown.count
  · intro t accounted
    exact (grown.accounted t accounted).put (grown.coins _ (List.mem_singleton_self _)) rfl

/-- All the coins in hand and some objects are moved out. -/
theorem Grown.clear (grown : Grown m mid ids type hand) {objects : List Nat} (spent : ∀ id ∈ objects, id ∈ ids) :
    Grown m (mid.clear (objects.map Argument.object ++ hand.map (·.1))) ids type [] where
  coins := nofun
  made := nofun
  before := nofun
  apart := List.Pairwise.nil
  frame a before other := by
    rw [Machine.read_clear]
    · exact grown.frame a before other
    · intro b inside
      rcases List.mem_append.mp inside with inside | inside
      · obtain ⟨id, listed, rfl⟩ := List.mem_map.mp inside
        exact other id (spent id listed)
      · obtain ⟨c, listed, rfl⟩ := List.mem_map.mp inside
        obtain ⟨i, j, place, past⟩ := grown.made c listed
        exact fun same => before.place_ne past (same.trans place)
  count := by
    rw [Machine.clear_count]
    exact grown.count
  sent := (Machine.clear_sent _).trans grown.sent
  accounted t accounted := by
    intro i j live
    have linear := live.linear
    rw [Machine.clear_contents] at linear
    split at linear
    · cases linear
    · rename_i elsewhere
      have before : mid.Live i j := by
        refine ⟨?_, ?_, linear⟩
        · have ran := live.ran
          rwa [Machine.clear_count] at ran
        · have left := live.left
          rwa [Machine.clear_arities] at left
      obtain ⟨name, known, here⟩ := grown.accounted t accounted i j before
      rcases List.mem_append.mp known with known | known
      · exact ⟨name, List.mem_append_left _ known, here⟩
      · exact absurd ⟨name, List.mem_append_right _ known, here⟩ elsewhere

theorem Grown.ends (grown : Grown m mid ids type hand) : Grown m (mid.yields []) ids type hand where
  coins c inside := (Machine.read_yields [] (grown.before c inside)).trans (grown.coins c inside)
  made := grown.made
  before c inside := by
    rw [Machine.yields_count]
    exact (grown.before c inside).mono (Nat.le_succ _)
  apart := grown.apart
  frame a before other := (Machine.read_yields [] (before.mono grown.count)).trans (grown.frame a before other)
  count := by
    rw [Machine.yields_count]
    exact Nat.le_succ_of_le grown.count
  sent := grown.sent
  accounted t accounted := (grown.accounted t accounted).ends

theorem Grown.one (grown : Grown m mid ids type []) (amount : Nat) :
    Grown m (mid.yields [.coin type amount]) ids type [(.result mid.count, amount)] where
  coins := by
    intro c inside
    cases List.mem_singleton.mp inside
    simp
  made := by
    intro c inside
    cases List.mem_singleton.mp inside
    exact ⟨mid.count, 0, rfl, grown.count⟩
  before := by
    intro c inside
    cases List.mem_singleton.mp inside
    rw [Machine.yields_count]
    exact Nat.lt_succ_self _
  apart := List.pairwise_singleton _ _
  frame a before other := (Machine.read_yields _ (before.mono grown.count)).trans (grown.frame a before other)
  count := by
    rw [Machine.yields_count]
    exact Nat.le_succ_of_le grown.count
  sent := grown.sent
  accounted t accounted := by
    have kept := (grown.accounted t accounted)
    rw [List.map_nil, List.append_nil] at kept
    intro i j live
    rcases live.of_yields with before | ⟨rfl, inside⟩
    · obtain ⟨name, known, here⟩ := kept i j before
      exact ⟨name, List.mem_append_left _ known, here⟩
    · cases Nat.lt_one_iff.mp inside
      exact ⟨_, List.mem_append_right _ (List.mem_singleton_self _), rfl⟩

theorem Grown.many (grown : Grown m mid ids type hand) {count : Nat} (few : count < 2 ^ 16) (amount : Nat) :
    Grown m (mid.yields (List.replicate count (.coin type amount))) ids type
      ((nestedResults (.result mid.count) count).map (fun a => (a, amount)) ++ hand) := by
  -- the new coins are the results of the last command, numbered from zero
  have fresh (c : Argument × Nat) (inside : c ∈ (nestedResults (.result mid.count) count).map (fun a => (a, amount))) :
      ∃ j, j < count ∧ c = (.nestedResult mid.count j, amount) := by
    simp only [nestedResults_small few, List.map_map, List.mem_map, List.mem_range] at inside
    obtain ⟨j, small, rfl⟩ := inside
    exact ⟨j, small, rfl⟩
  -- what each coin holds and where it comes from, that it is in the past, that the coins are apart, the frame,
  -- and the account of what is live
  refine ⟨?_, ?_, ?_, ?_, ?_, ?_, grown.sent, ?_⟩
  · intro c inside
    rcases List.mem_append.mp inside with new | old
    · obtain ⟨j, small, rfl⟩ := fresh c new
      simp [small]
    · exact (Machine.read_yields _ (grown.before c old)).trans (grown.coins c old)
  · intro c inside
    rcases List.mem_append.mp inside with new | old
    · obtain ⟨j, small, rfl⟩ := fresh c new
      exact ⟨mid.count, j, rfl, grown.count⟩
    · exact grown.made c old
  · intro c inside
    rw [Machine.yields_count]
    rcases List.mem_append.mp inside with new | old
    · obtain ⟨j, small, rfl⟩ := fresh c new
      exact Nat.lt_succ_self _
    · exact (grown.before c old).mono (Nat.le_succ _)
  · refine List.pairwise_append.mpr ⟨?_, grown.apart, ?_⟩
    · rw [nestedResults_small few, List.map_map, List.pairwise_map]
      refine List.nodup_range.imp ?_
      intro j k other same
      cases same
      exact other rfl
    · intro c new d old
      obtain ⟨j, small, rfl⟩ := fresh c new
      exact (grown.before d old).place_ne (Nat.le_refl _)
  · exact fun a before other => (Machine.read_yields _ (before.mono grown.count)).trans (grown.frame a before other)
  · rw [Machine.yields_count]
    exact Nat.le_succ_of_le grown.count
  · intro t accounted i j live
    rcases live.of_yields with before | ⟨rfl, inside⟩
    · obtain ⟨name, known, here⟩ := grown.accounted t accounted i j before
      refine ⟨name, ?_, here⟩
      rw [List.map_append]
      rcases List.mem_append.mp known with known | known
      · exact List.mem_append_left _ known
      · exact List.mem_append_right _ (List.mem_append_right _ known)
    · rw [List.length_replicate] at inside
      refine ⟨.nestedResult mid.count j, ?_, rfl⟩
      rw [List.map_append, List.map_map]
      refine List.mem_append_right _ (List.mem_append_left _ ?_)
      simp only [nestedResults_small few, List.map_map, List.mem_map, List.mem_range]
      exact ⟨j, inside, rfl⟩

end Growing

def coinAt (m : Machine (World ι β τ) τ (DeepBook.FlashLoan τ)) (id : Nat) : Nat :=
  match m.contents (.object id) with
  | some (.coin _ amount) => amount
  | _ => 0

section Paying

variable {m : Machine (World ι β τ) τ (DeepBook.FlashLoan τ)} {id other value : Nat} {type : τ}
  {results : List (Value τ (DeepBook.FlashLoan τ))}

theorem coinAt_paid : coinAt ((m.put (.object id) (some (.coin type value))).yields results) id = value := by
  rw [coinAt, Machine.yields_object, Machine.put_object, Machine.write_contents, if_pos rfl]

theorem coinAt_unpaid {left : Option (Value τ (DeepBook.FlashLoan τ))} (apart : id ≠ other) :
    coinAt ((m.put (.object id) left).yields results) other = coinAt m other := by
  rw [coinAt, coinAt, Machine.yields_object, Machine.put_object, Machine.write_contents,
    if_neg fun same => apart (Place.object.inj same).symm]

end Paying

/-- All the wallet has of a type: its objects and its address balance. -/
def Wallet.worth (wallet : Wallet) (type : τ) (m : Machine (World ι β τ) τ (DeepBook.FlashLoan τ)) : Nat :=
  (wallet.coins.map fun c => coinAt m c.1).sum + m.world.funds type

theorem Wallet.Stocks.worth {m : Machine (World ι β τ) τ (DeepBook.FlashLoan τ)} {wallet : Wallet} {type : τ}
    (stocks : wallet.Stocks type m) :
    wallet.worth type m = (wallet.coins.map (·.2)).sum + m.world.funds type := by
  have same : wallet.coins.map (fun c => coinAt m c.1) = wallet.coins.map (·.2) := by
    refine List.map_congr_left fun c inside => ?_
    rw [coinAt, stocks.coins c inside]
  rw [Wallet.worth, same]

section Emitting

variable [DecidableEq τ] (engine : DeepBook.Engine β) {m : Machine (World ι β τ) τ (DeepBook.FlashLoan τ)}
  {pt built : Builder τ} {type : τ} {wallet : Wallet} {shortfall amount count : Nat}

def World.withdrawn (w : World ι β τ) (type : τ) (amount : Nat) : World ι β τ :=
  { w with funds := Function.update w.funds type (w.funds type - amount) }

theorem withdrawn_zero (w : World ι β τ) (type : τ) : w.withdrawn type 0 = w := by
  rw [World.withdrawn, Nat.sub_zero, Function.update_eq_self]

theorem withdraw_funds (ids : List Nat) (length : pt.length = m.count) (enough : shortfall ≤ m.world.funds type) :
    ∃ commands mid hand, withdraw pt type shortfall = (hand.head?.map (·.1), pt ++ commands) ∧
      m.run (execute engine) commands = some mid ∧ Grown m mid ids type hand ∧ hand.length ≤ 1 ∧
      (hand.map (·.2)).sum = shortfall ∧ (∀ id, mid.contents (.object id) = m.contents (.object id)) ∧
      mid.world = m.world.withdrawn type shortfall ∧ mid.count = (pt ++ commands).length := by
  by_cases short : 0 < shortfall
  · have stepped : m.step (execute engine) (.moveCall ⟨frameworkPackage, .redeemFunds, [type]⟩ [.pure shortfall]) =
        some ((m.enter (m.world.withdrawn type shortfall)).yields [.coin type shortfall]) := by
      rw [Machine.step_call (show m.takeAll [.pure shortfall] = some ([.pure shortfall], m) from rfl)]
      simp only [execute, World.redeemFunds, World.withdrawn, if_pos enough, if_true, Option.map_some]
    refine ⟨[.moveCall ⟨frameworkPackage, .redeemFunds, [type]⟩ [.pure shortfall]], _,
      [(.result m.count, shortfall)], ?_, ?_,
      ((Grown.refl m ids type).enter (m.world.withdrawn type shortfall)).one shortfall,
      Nat.le_refl _, List.sum_singleton, fun id => rfl, rfl, ?_⟩
    · rw [withdraw, if_pos short]
      simp only [redeem, Builder.moveCall, Builder.command, length]
      rfl
    · rw [Machine.run_cons, stepped]
      rfl
    · rw [Machine.yields_count, Machine.enter_count, List.length_append, length]
      rfl
  · cases Nat.eq_zero_of_not_pos short
    refine ⟨[], m, [], ?_, rfl, Grown.refl m ids type, Nat.zero_le _, rfl, fun _ => rfl, (withdrawn_zero _ _).symm, ?_⟩
    · rw [withdraw, if_neg short, List.append_nil]
      rfl
    · rw [List.append_nil, length]

section Merging

variable {mid : Machine (World ι β τ) τ (DeepBook.FlashLoan τ)} {ids : List Nat} {hand : List (Argument × Nat)}
  {first : Nat × Nat} {others : List (Nat × Nat)}

def merging (others : List (Nat × Nat)) (hand : List (Argument × Nat)) : List (Argument × Nat) :=
  others.map (fun c => (Argument.object c.1, c.2)) ++ hand

theorem merging_arguments :
    (merging others hand).map (·.1) = (others.map (·.1)).map Argument.object ++ hand.map (·.1) := by
  simp only [merging, List.map_append, List.map_map, Function.comp_def]

theorem merging_sum : ((merging others hand).map (·.2)).sum = (others.map (·.2)).sum + (hand.map (·.2)).sum := by
  simp only [merging, List.map_append, List.map_map, Function.comp_def, List.sum_append]

theorem merging_step (call : MoveCall τ → World ι β τ → List (Value τ (DeepBook.FlashLoan τ)) →
      Option (World ι β τ × List (Value τ (DeepBook.FlashLoan τ)))) (grown : Grown m mid ids type hand)
    (distinct : ((first :: others).map (·.1)).Nodup)
    (known : ∀ c ∈ first :: others, mid.contents (.object c.1) = some (.coin type c.2)) :
    mid.step call (.mergeCoins (.object first.1) ((merging others hand).map (·.1))) =
      some (((mid.clear ((merging others hand).map (·.1))).put (.object first.1)
        (some (.coin type (first.2 + ((merging others hand).map (·.2)).sum)))).yields []) := by
  obtain ⟨alone, apart⟩ := List.pairwise_cons.mp distinct
  refine Machine.step_merge (merging others hand)
    (show mid.read (.object first.1) = some (.coin type first.2) from known first List.mem_cons_self) ?_ ?_ ?_
  · intro q inside
    rcases List.mem_append.mp inside with inside | inside
    · obtain ⟨c, listed, rfl⟩ := List.mem_map.mp inside
      exact known c (List.mem_cons_of_mem first listed)
    · exact grown.coins q inside
  · refine List.pairwise_append.mpr ⟨?_, grown.apart, ?_⟩
    · rw [List.pairwise_map]
      exact (List.pairwise_map.mp apart).imp fun other same => other (Place.object.inj (Option.some.inj same)).symm
    · intro q inside r held
      obtain ⟨c, listed, rfl⟩ := List.mem_map.mp inside
      obtain ⟨i, j, place, _⟩ := grown.made r held
      rw [place]
      nofun
  · intro q inside
    rcases List.mem_append.mp inside with inside | inside
    · obtain ⟨c, listed, rfl⟩ := List.mem_map.mp inside
      exact fun same => alone _ (List.mem_map_of_mem listed) (Place.object.inj (Option.some.inj same))
    · obtain ⟨i, j, place, _⟩ := grown.made q inside
      rw [place]
      nofun

theorem merge_funds (grown : Grown m mid ids type hand) (spent : ∀ c ∈ first :: others, c.1 ∈ ids)
    (distinct : ((first :: others).map (·.1)).Nodup)
    (known : ∀ c ∈ first :: others, mid.contents (.object c.1) = some (.coin type c.2))
    (length : pt.length = mid.count) :
    ∃ commands next,
      (if (others.map (·.1)).map Argument.object ++ hand.map (·.1) = [] then pt
        else (pt.command (.mergeCoins (.object first.1)
          ((others.map (·.1)).map Argument.object ++ hand.map (·.1)))).2) = pt ++ commands ∧
      mid.run (execute engine) commands = some next ∧ Grown m next ids type [] ∧
      next.contents (.object first.1) = some (.coin type (first.2 + (others.map (·.2)).sum + (hand.map (·.2)).sum)) ∧
      (∀ c ∈ others, coinAt next c.1 = 0) ∧ next.world = mid.world ∧ next.count = (pt ++ commands).length := by
  by_cases nothing : (others.map (·.1)).map Argument.object ++ hand.map (·.1) = []
  · obtain ⟨alone, empty⟩ := List.append_eq_nil_iff.mp nothing
    cases List.map_eq_nil_iff.mp (List.map_eq_nil_iff.mp alone)
    cases List.map_eq_nil_iff.mp empty
    refine ⟨[], mid, ?_, rfl, grown, ?_, nofun, rfl, ?_⟩
    · rw [if_pos nothing, List.append_nil]
    · rw [known first List.mem_cons_self]
      rfl
    · rw [List.append_nil, length]
  · have stepped := merging_step (execute engine) grown distinct known
    have objects : ∀ id ∈ others.map (·.1), id ∈ ids := by
      intro id inside
      obtain ⟨c, listed, rfl⟩ := List.mem_map.mp inside
      exact spent c (List.mem_cons_of_mem first listed)
    have kept := ((grown.clear objects).object (spent first List.mem_cons_self)
      (some (.coin type (first.2 + ((merging others hand).map (·.2)).sum)))).ends
    rw [← merging_arguments] at kept nothing ⊢
    refine ⟨[.mergeCoins (.object first.1) ((merging others hand).map (·.1))], _, ?_, ?_, kept, ?_, ?_, ?_, ?_⟩
    · rw [if_neg nothing, Builder.command]
    · rw [Machine.run_cons, stepped]
      rfl
    · rw [Machine.yields_object, Machine.put_object, Machine.write_contents, if_pos rfl, merging_sum, Nat.add_assoc]
    · intro c listed
      have other : first.1 ≠ c.1 := (List.pairwise_cons.mp distinct).1 _ (List.mem_map_of_mem listed)
      rw [coinAt_unpaid other, coinAt, Machine.clear_contents, if_pos]
      refine ⟨.object c.1, ?_, rfl⟩
      rw [merging_arguments]
      exact List.mem_append_left _ (List.mem_map_of_mem (List.mem_map_of_mem listed))
    · rw [Machine.yields_world, Machine.put_world, Machine.clear_world]
    · rw [Machine.yields_count, Machine.put_count, Machine.clear_count, List.length_append, length]
      rfl

end Merging

/-- What a wallet gives: `count` coins of `amount`, all apart, and nothing else is left of it among
the results. -/
structure Funded (m next : Machine (World ι β τ) τ (DeepBook.FlashLoan τ)) (wallet : Wallet) (type : τ)
    (amount count : Nat) (coins : List Argument) : Prop where
  number : coins.length = count
  grown : Grown m next (wallet.coins.map (·.1)) type (coins.map fun a => (a, amount))
  debited : wallet.worth type next + count * amount = wallet.worth type m
  world : ∃ drawn ≤ m.world.funds type, next.world = m.world.withdrawn type drawn

theorem emit_withdrawn {coins : List Argument} (few : count < 2 ^ 16) (length : pt.length = m.count) (some : count ≠ 0)
    (funds : shortfall ≤ m.world.funds type) (empty : wallet.coins = []) (exact : shortfall = count * amount)
    (made : emit pt type [] shortfall amount count = .ok (coins, built)) :
    ∃ commands next, built = pt ++ commands ∧ m.run (execute engine) commands = .some next ∧
      Funded m next wallet type amount count coins ∧ next.count = built.length := by
  obtain ⟨commands, mid, hand, withdrew, ran, grown, single, sum, _, world, counted⟩ :=
    withdraw_funds engine (wallet.coins.map (·.1)) length funds
  have worth (next : Machine (World ι β τ) τ (DeepBook.FlashLoan τ)) (same : next.world = mid.world) :
      wallet.worth type next + count * amount = wallet.worth type m := by
    rw [Wallet.worth, Wallet.worth, empty, same, world, ← exact]
    simp only [World.withdrawn, Function.update_self, List.map_nil, List.sum_nil]
    omega
  unfold emit at made
  rw [withdrew] at made
  match hand with
  | [] => cases made
  | [(coin, value)] =>
    rw [List.map_singleton, List.sum_singleton] at sum
    obtain rfl : value = shortfall := sum
    dsimp only [List.head?_cons, Option.map_some] at made
    split at made
    · rename_i one
      cases made
      rw [one, Nat.one_mul] at exact
      cases exact
      exact ⟨commands, mid, rfl, ran, ⟨one.symm, grown, worth mid rfl, _, funds, world⟩, counted⟩
    · rename_i more
      rw [Builder.command] at made
      cases made
      have known := grown.coins _ (List.mem_singleton_self _)
      -- all but one are split off; what is left of the withdrawn coin is the last of them
      have rest : value - (count - 1) * amount = amount := by
        rw [exact, ← Nat.sub_mul, show count - (count - 1) = 1 by omega, Nat.one_mul]
      have enough : (count - 1) * amount ≤ value := by
        rw [exact]
        exact Nat.mul_le_mul_right amount (Nat.sub_le count 1)
      have stepped : mid.step (execute engine) (.splitCoins coin (List.replicate (count - 1) (.pure amount))) = _ :=
        Machine.step_splitMany known enough
      rw [rest] at stepped
      have kept := (grown.pay amount).many (show count - 1 < 2 ^ 16 by omega) amount
      rw [Machine.put_count, counted] at kept
      refine ⟨commands ++ [.splitCoins coin (List.replicate (count - 1) (.pure amount))],
        (mid.put coin (.some (.coin type amount))).yields (List.replicate (count - 1) (.coin type amount)), ?_, ?_,
        ⟨?_, ?_, worth _ ?_, value, funds, ?_⟩, ?_⟩
      · rw [List.append_assoc]
      · exact Machine.run_snoc ran stepped
      · simp only [nestedResults_small (show count - 1 < 2 ^ 16 by omega), List.length_append, List.length_map,
          List.length_range, List.length_singleton]
        omega
      · rwa [List.map_append]
      · rw [Machine.yields_world, Machine.put_world]
      · rw [Machine.yields_world, Machine.put_world, world]
      · rw [Machine.yields_count, Machine.put_count, counted]
        simp only [List.length_append, List.length_singleton]
  | _ :: _ :: _ => simp at single

theorem emit_spent {first : Nat × Nat} {others : List (Nat × Nat)} {coins : List Argument} (few : count < 2 ^ 16)
    (stocks : wallet.Stocks type m) (length : pt.length = m.count) (funds : shortfall ≤ m.world.funds type)
    (has : wallet.coins = first :: others)
    (enough : count * amount ≤ (wallet.coins.map (·.2)).sum + shortfall)
    (made : emit pt type (first.1 :: others.map (·.1)) shortfall amount count = .ok (coins, built)) :
    ∃ commands next, built = pt ++ commands ∧ m.run (execute engine) commands = .some next ∧
      Funded m next wallet type amount count coins ∧ next.count = built.length := by
  obtain ⟨commands, mid, hand, withdrew, ran, grown, single, sum, objects, world, counted⟩ :=
    withdraw_funds engine (wallet.coins.map (·.1)) length funds
  have distinct := stocks.distinct
  rw [has] at distinct
  obtain ⟨merges, next, merging, merged, kept, total, gone, still, reached⟩ := merge_funds engine grown
    (fun c inside => List.mem_map_of_mem (has ▸ inside)) distinct
    (fun c inside => (objects c.1).trans (stocks.coins c (has ▸ inside))) counted.symm
  -- a withdrawal leaves one coin in hand, or none
  have held : (hand.head?.map (·.1)).toList = hand.map (·.1) := by
    match hand with
    | [] => rfl
    | [_] => rfl
    | _ :: _ :: _ => simp at single
  unfold emit at made
  rw [withdrew] at made
  simp only [held] at made
  rw [merging] at made
  simp only [Builder.command] at made
  cases made
  rw [sum] at total
  have within : count * amount ≤ first.2 + (others.map (·.2)).sum + shortfall := by
    rwa [has, List.map_cons, List.sum_cons] at enough
  have stepped : next.step (execute engine) (.splitCoins (.object first.1) (List.replicate count (.pure amount))) = _ :=
    Machine.step_splitMany (show next.read (.object first.1) = _ from total) within
  have paid := (kept.object (List.mem_map_of_mem (has ▸ List.mem_cons_self))
    (.some (.coin type (first.2 + (others.map (·.2)).sum + shortfall - count * amount)))).many few amount
  rw [Machine.put_count, reached, List.append_nil] at paid
  refine ⟨commands ++ merges ++ [.splitCoins (.object first.1) (List.replicate count (.pure amount))], _, ?_, ?_,
    ⟨?_, paid, ?_, shortfall, funds, ?_⟩, ?_⟩
  · simp only [List.append_assoc]
  · refine Machine.run_snoc ?_ stepped
    rw [Machine.run_append, ran, Option.bind_some, merged]
  · simp only [nestedResults_small few, List.length_map, List.length_range]
  · have others_gone (left : Option (Value τ (DeepBook.FlashLoan τ))) (results : List (Value τ (DeepBook.FlashLoan τ))) :
        others.map (fun c => coinAt ((next.put (.object first.1) left).yields results) c.1) = others.map fun _ => 0 := by
      refine List.map_congr_left fun c listed => ?_
      have other : first.1 ≠ c.1 := (List.pairwise_cons.mp distinct).1 _ (List.mem_map_of_mem listed)
      rw [coinAt_unpaid other]
      exact gone c listed
    rw [stocks.worth, Wallet.worth, has, List.map_cons, List.map_cons, List.sum_cons, List.sum_cons, others_gone,
      coinAt_paid, Machine.yields_world, Machine.put_world, still, world]
    simp only [World.withdrawn, Function.update_self, List.map_const', List.sum_replicate, smul_zero]
    omega
  · rw [Machine.yields_world, Machine.put_world, still, world]
  · rw [Machine.yields_count, Machine.put_count, reached]
    simp only [List.length_append, List.length_singleton]

/-- Whatever the wallet holds, the commands that fund the coins succeed: the coins are exact, the wallet
is debited by exactly what they hold, and the rest of it stays in its objects and its balance. -/
theorem exactCoins_funds [ToString τ] {coins : List Argument} (few : count < 2 ^ 16) (stocks : wallet.Stocks type m)
    (length : pt.length = m.count)
    (made : exactCoins pt wallet type amount count = .ok (coins, built)) :
    ∃ commands next, built = pt ++ commands ∧ m.run (execute engine) commands = .some next ∧
      Funded m next wallet type amount count coins ∧ next.count = built.length := by
  unfold exactCoins at made
  split at made
  · rename_i none
    cases made
    refine ⟨[], m, (List.append_nil _).symm, rfl, ⟨none.symm, Grown.refl m _ type, ?_, 0, Nat.zero_le _, ?_⟩, length.symm⟩
    · rw [none, Nat.zero_mul, Nat.add_zero]
    · exact (withdrawn_zero _ _).symm
  · rename_i some
    split at made
    · cases made
    · rename_i small
      have total := foldl_saturatingAdd 64 (wallet.coins.map (·.2)) 0
      rw [Nat.zero_min, Nat.zero_add] at total
      dsimp only at made
      split at made
      · cases made
      · rename_i affordable
        rw [total] at made affordable
        have order : count * amount = amount * count := Nat.mul_comm count amount
        have funds : amount * count - min (wallet.coins.map (·.2)).sum (2 ^ 64 - 1) ≤ m.world.funds type := by
          rw [stocks.funds]
          omega
        cases has : wallet.coins with
        | nil =>
          rw [has] at made funds
          refine emit_withdrawn engine few length some funds has ?_ made
          simp only [List.map_nil, List.sum_nil]
          omega
        | cons first others =>
          refine emit_spent engine few stocks length funds has ?_ (by simpa only [has, List.map_cons] using made)
          omega

end Emitting

section Affording

variable {pt : Builder τ} {wallet : Wallet} {type : τ} {amount count : Nat}

/-- The wallet has the coins, and where it has no coin object there is something to withdraw. -/
def Wallet.Affords (wallet : Wallet) (amount count : Nat) : Prop :=
  amount * count < 2 ^ 64 ∧ amount * count ≤ (wallet.coins.map (·.2)).sum + wallet.available ∧
    (wallet.coins = [] → 0 < amount)

theorem emit_isOk {refs : List Nat} {shortfall : Nat} (some : refs = [] → 0 < shortfall) :
    ∃ done, emit pt type refs shortfall amount count = .ok done := by
  unfold emit
  cases refs with
  | nil =>
    simp only [withdraw, if_pos (some rfl)]
    split
    · exact ⟨_, rfl⟩
    · exact ⟨_, rfl⟩
  | cons first others => exact ⟨_, rfl⟩

theorem emit_nothing : ¬ ∃ done, emit pt type [] 0 amount count = .ok done := by
  rintro ⟨done, made⟩
  cases made

theorem exactCoins_isOk [ToString τ] :
    (∃ done, exactCoins pt wallet type amount count = .ok done) ↔ count = 0 ∨ wallet.Affords amount count := by
  have total := foldl_saturatingAdd 64 (wallet.coins.map (·.2)) 0
  rw [Nat.zero_min, Nat.zero_add] at total
  unfold exactCoins Wallet.Affords
  rw [total]
  by_cases none : count = 0
  · rw [if_pos none]
    exact ⟨fun _ => Or.inl none, fun _ => ⟨_, rfl⟩⟩
  · rw [if_neg none]
    by_cases large : 2 ^ 64 ≤ amount * count
    · rw [if_pos large]
      constructor
      · rintro ⟨_, ⟨⟩⟩
      · rintro (zero | ⟨small, _⟩)
        · exact absurd zero none
        · omega
    · rw [if_neg large]
      dsimp only
      split
      · rename_i short
        constructor
        · rintro ⟨_, ⟨⟩⟩
        · rintro (zero | ⟨_, enough, _⟩)
          · exact absurd zero none
          · omega
      · rename_i affordable
        cases has : wallet.coins with
        | nil =>
          rw [has] at affordable
          rw [List.map_nil, List.map_nil, List.sum_nil] at *
          -- coins of nothing leave no shortfall, and without objects there is nothing to split them from
          by_cases zero : amount = 0
          · rw [zero, Nat.zero_mul, Nat.zero_min, Nat.sub_zero]
            refine ⟨fun made => absurd made emit_nothing, ?_⟩
            rintro (zero | ⟨_, _, positive⟩)
            · exact absurd zero none
            · exact absurd (positive rfl) (Nat.lt_irrefl 0)
          · have positive : 0 < amount * count := Nat.mul_pos (Nat.pos_of_ne_zero zero) (Nat.pos_of_ne_zero none)
            refine ⟨fun _ => Or.inr ⟨by omega, by omega, fun _ => Nat.pos_of_ne_zero zero⟩, fun _ => ?_⟩
            refine emit_isOk fun _ => ?_
            omega
        | cons first others =>
          rw [has] at affordable
          exact ⟨fun _ => Or.inr ⟨by omega, by omega, nofun⟩, fun _ => emit_isOk nofun⟩

end Affording

section Sample

/-- Every unit of quote buys one of base, from an ask that never runs out. -/
def Sample.engine : DeepBook.Engine Unit where
  inputFeeRate _ := 0
  quantityOut _ _ quote _ := .ok quote
  createOrder _ quantity isBid _ _ :=
    if isBid then .ok ((), ⟨quantity, 0, 0⟩, ⟨0, quantity, 0⟩) else .ok ((), ⟨0, quantity, 0⟩, ⟨quantity, 0, 0⟩)

def Sample.puts : Core.PutBucket Nat where
  totalWritten := 50
  exerciseCursor := 0
  closed := []
  closedPending := 0
  spreads := []
  expiryMs := 1000
  strike := 2
  strikeScale := 0
  underlyingBalance := 0
  settlementBalance := 100
  supply := 50
  invalidated := false
  escrows _ := none
  totalRedeemed := 0

/-- The underlying is the type 0, the settlement 1, the puts 2 and DEEP 3. -/
def Sample.world : World Nat Unit Nat where
  now := 5
  corePackage := 40
  deepbookPackage := 41
  deepType := 3
  calls := ⟨102, [0, 1, 4], Sample.puts.toBucket⟩
  puts := ⟨101, [0, 1, 2], Sample.puts⟩
  pool := ⟨100, 0, 1, 1, 1, ⟨500, 500, 0⟩, ()⟩
  funds type := if type = 0 then 7 else 0

def Sample.machine : Machine (World Nat Unit Nat) Nat (DeepBook.FlashLoan Nat) where
  world := Sample.world
  contents
    | .object 6 => some (.shared 6)
    | .object 100 => some (.shared 100)
    | .object 101 => some (.shared 101)
    | .object 7 => some (.coin 2 6)
    | .object 8 => some (.coin 2 9)
    | .object 9 => some (.coin 0 5)
    | _ => none
  arities := []
  sent := []

def Sample.putWallet : Wallet := ⟨70, [(7, 6), (8, 9)], 0⟩

def Sample.ownWallet : Wallet := ⟨70, [(9, 5)], 7⟩

theorem Sample.putWallet_stocks : Sample.putWallet.Stocks 2 Sample.machine where
  coins := by decide
  distinct := by decide
  funds := rfl

theorem Sample.ownWallet_stocks : Sample.ownWallet.Stocks 0 Sample.machine where
  coins := by decide
  distinct := by decide
  funds := rfl

end Sample

section Exact

variable [DecidableEq τ] [ToString τ] {m : Machine (World ι β τ) τ (DeepBook.FlashLoan τ)} {wallet : Wallet} {type : τ}
  {amount count : Nat}

/-- Coins are funded exactly when the wallet affords them. The commands then run; they leave the coins
asked for, apart from each other and nothing else among the results, and the wallet is out by what they hold. -/
theorem exact_coins_funded (engine : DeepBook.Engine β) (fresh : m.arities = []) (stocks : wallet.Stocks type m)
    (few : count < 2 ^ 16) :
    ((∃ done, exactCoins [] wallet type amount count = .ok done) ↔ count = 0 ∨ wallet.Affords amount count) ∧
      ∀ coins commands, exactCoins [] wallet type amount count = .ok (coins, commands) →
        ∃ next, m.run (execute engine) commands = some next ∧ coins.length = count ∧
          (∀ c ∈ coins, next.read c = some (.coin type amount)) ∧
          (coins.Pairwise fun c d => d.place ≠ c.place) ∧
          (∀ i j, next.Live i j → ∃ c ∈ coins, c.place = some (.slot i j)) ∧
          wallet.worth type next + count * amount = wallet.worth type m ∧
          (∀ kind, kind ≠ type → next.world.funds kind = m.world.funds kind) ∧ next.sent = m.sent := by
  refine ⟨exactCoins_isOk, fun coins commands made => ?_⟩
  have start : ([] : Builder τ).length = m.count := (congrArg List.length fresh).symm
  obtain ⟨_, next, rfl, ran, funded, _⟩ := exactCoins_funds engine few stocks start made
  obtain ⟨drawn, _, world⟩ := funded.world
  refine ⟨next, ran, funded.number, fun c inside => ?_, ?_, fun i j live => ?_, funded.debited, fun kind other => ?_,
    funded.grown.sent⟩
  · exact funded.grown.coins (c, amount) (List.mem_map_of_mem inside)
  · exact List.pairwise_map.mp funded.grown.apart
  · obtain ⟨c, known, here⟩ := funded.grown.accounted _ (Accounted.fresh fresh) i j live
    rw [List.nil_append, List.map_map] at known
    obtain ⟨c, inside, rfl⟩ := List.mem_map.mp known
    exact ⟨c, inside, here⟩
  · rw [world]
    exact Function.update_of_ne other _ _

/-- Three coins of four take the object and the whole balance of the wallet. -/
theorem exact_coins_funded_three :
    ∃ coins commands next, exactCoins [] Sample.ownWallet 0 4 3 = .ok (coins, commands) ∧
      Sample.machine.run (execute Sample.engine) commands = some next ∧ coins.length = 3 ∧
      Sample.ownWallet.worth 0 next + 3 * 4 = Sample.ownWallet.worth 0 Sample.machine := by
  have can : Sample.ownWallet.Affords 4 3 := ⟨by decide, by decide, by decide⟩
  obtain ⟨affords, funds⟩ := exact_coins_funded Sample.engine rfl Sample.ownWallet_stocks (show 3 < 2 ^ 16 by decide)
  obtain ⟨⟨coins, commands⟩, made⟩ := affords.mpr (Or.inr can)
  obtain ⟨next, ran, number, _, _, _, paid, _⟩ := funds coins commands made
  exact ⟨coins, commands, next, made, ran, number, paid⟩

end Exact

end SuiOptions.SuiTx
