import SuiOptions.Exchange.MatchPaths

/-! An obligation ends only after each of its legs was discharged once, whatever else the
transaction calls in between. -/

set_option autoImplicit false

namespace SuiOptions.Exchange

open Execution Move

def FillObligation.flags (ob : FillObligation) : LegsDone
  | .provide side => (ob.leg side).provided
  | .collect side => (ob.leg side).collected

namespace FillObligation

variable {ob paid : FillObligation} {side : Side}

theorem provide_flags {funds : Nat} (ran : ob.provide side funds = .ok paid) :
    ob.flags (.provide side) = false ∧ paid.flags = ob.flags.mark (.provide side) := by
  obtain ⟨unpaid, ran⟩ := check_bind_ok.mp ran
  obtain ⟨-, ran⟩ := check_bind_ok.mp ran
  obtain ⟨total, -, produced⟩ := bind_ok.mp ran
  cases produced
  refine ⟨unpaid, ?_⟩
  funext leg
  rcases leg with which | which <;> cases which <;> cases side <;> simp [flags, LegsDone.mark]

theorem takeDue_flags {due : Nat} (ran : ob.takeDue side = .ok (due, paid)) :
    ob.flags (.collect side) = false ∧ paid.flags = ob.flags.mark (.collect side) := by
  obtain ⟨-, ran⟩ := check_bind_ok.mp ran
  obtain ⟨uncollected, ran⟩ := check_bind_ok.mp ran
  obtain ⟨-, produced⟩ := check_bind_ok.mp ran
  cases produced
  refine ⟨uncollected, ?_⟩
  funext leg
  rcases leg with which | which <;> cases which <;> cases side <;> simp [flags, LegsDone.mark]

end FillObligation

namespace Market

inductive Touch where
  | nothing
  | opens
  | leg (index : Nat) (which : Leg)
  | ends (index : Nat)

def Call.touch : Call → Touch
  | .beginFill .. => .opens
  | .beginFillReverse .. => .opens
  | .beginMatch .. => .opens
  | .provideBase index _ => .leg index (.provide .base)
  | .provideQuote index _ => .leg index (.provide .quote)
  | .provideBaseFromManager index _ => .leg index (.provide .base)
  | .provideQuoteFromManager index _ => .leg index (.provide .quote)
  | .collectQuoteToManager index _ => .leg index (.collect .base)
  | .collectQuoteWithCap index _ => .leg index (.collect .base)
  | .collectQuoteBearer index => .leg index (.collect .base)
  | .collectBaseToManager index _ => .leg index (.collect .quote)
  | .collectBaseWithCap index _ => .leg index (.collect .quote)
  | .collectBaseBearer index => .leg index (.collect .quote)
  | .finish index => .ends index
  | _ => .nothing

def Touched (obs after : List FillObligation) : Touch → Prop
  | .nothing => after = obs
  | .opens => ∃ ob, ob.flags = (fun _ => false) ∧ after = obs ++ [ob]
  | .leg index which => ∃ ob paid, obs[index]? = some ob ∧ ob.flags which = false ∧
      paid.flags = ob.flags.mark which ∧ after = obs.set index paid
  | .ends index => ∃ ob, obs[index]? = some ob ∧ ob.flags = (fun _ => true) ∧ after = obs.eraseIdx index

variable {natives : Natives} {s next : Market} {side : Side} {index : Nat}

theorem provideLeg_touched {funds : Nat} (ran : s.provideLeg side index funds = .ok next) :
    Touched s.obligations next.obligations (.leg index (.provide side)) := by
  obtain ⟨ob, found, ran⟩ := bind_ok.mp ran
  obtain ⟨paid, entered, produced⟩ := bind_ok.mp ran
  cases produced
  obtain ⟨unpaid, marked⟩ := FillObligation.provide_flags entered
  exact ⟨ob, paid, obligation_ok found, unpaid, marked, rfl⟩

theorem provideLegFromManager_touched {id : ID} (ran : s.provideLegFromManager side index id = .ok next) :
    Touched s.obligations next.obligations (.leg index (.provide side)) := by
  obtain ⟨ob, found, ran⟩ := bind_ok.mp ran
  obtain ⟨bm, -, ran⟩ := bind_ok.mp ran
  obtain ⟨-, ran⟩ := check_bind_ok.mp ran
  obtain ⟨debited, -, ran⟩ := bind_ok.mp ran
  obtain ⟨paid, entered, produced⟩ := bind_ok.mp ran
  cases produced
  obtain ⟨unpaid, marked⟩ := FillObligation.provide_flags entered
  exact ⟨ob, paid, obligation_ok found, unpaid, marked, rfl⟩

theorem collectLegToManager_touched {id : ID} (ran : s.collectLegToManager side index id = .ok next) :
    Touched s.obligations next.obligations (.leg index (.collect side)) := by
  obtain ⟨ob, found, ran⟩ := bind_ok.mp ran
  obtain ⟨bm, -, ran⟩ := bind_ok.mp ran
  obtain ⟨-, ran⟩ := check_bind_ok.mp ran
  obtain ⟨⟨due, paid⟩, taken, ran⟩ := bind_ok.mp ran
  obtain ⟨credited, -, produced⟩ := bind_ok.mp ran
  cases produced
  obtain ⟨uncollected, marked⟩ := FillObligation.takeDue_flags taken
  exact ⟨ob, paid, obligation_ok found, uncollected, marked, rfl⟩

theorem collectLeg_touched {escrow : EscrowBinding} {due : Nat} (ran : s.collectLeg side index escrow = .ok (due, next)) :
    Touched s.obligations next.obligations (.leg index (.collect side)) := by
  obtain ⟨ob, found, ran⟩ := bind_ok.mp ran
  obtain ⟨-, ran⟩ := check_bind_ok.mp ran
  obtain ⟨⟨amount, paid⟩, taken, produced⟩ := bind_ok.mp ran
  cases produced
  obtain ⟨uncollected, marked⟩ := FillObligation.takeDue_flags taken
  exact ⟨ob, paid, obligation_ok found, uncollected, marked, rfl⟩

theorem finish_touched (ran : s.finish index = .ok next) :
    Touched s.obligations next.obligations (.ends index) := by
  obtain ⟨ob, found, ran⟩ := bind_ok.mp ran
  obtain ⟨-, ran⟩ := check_bind_ok.mp ran
  obtain ⟨⟨paidBase, takenBase, paidQuote, takenQuote⟩, ran⟩ := check_bind_ok.mp ran
  obtain ⟨-, ran⟩ := check_bind_ok.mp ran
  obtain ⟨-, ran⟩ := check_bind_ok.mp ran
  obtain ⟨first, -, ran⟩ := bind_ok.mp ran
  obtain ⟨second, -, produced⟩ := bind_ok.mp ran
  cases produced
  refine ⟨ob, obligation_ok found, ?_, rfl⟩
  funext leg
  rcases leg with which | which <;> cases which <;> assumption

theorem beginFillImpl_touched {makerBmId : ID} {orderBytes signature publicKey : Bytes}
    {takerFillAmount minMakerAmountOut : Nat} (ran : s.beginFillImpl natives side makerBmId orderBytes signature publicKey
      takerFillAmount minMakerAmountOut = .ok next) : Touched s.obligations next.obligations .opens := by
  obtain ⟨bm, -, ran⟩ := bind_ok.mp ran
  obtain ⟨⟨ord, hash, terms⟩, -, ran⟩ := bind_ok.mp ran
  obtain ⟨⟨total, reg⟩, -, ran⟩ := bind_ok.mp ran
  obtain ⟨makerDue, -, ran⟩ := bind_ok.mp ran
  obtain ⟨takerDue, -, produced⟩ := bind_ok.mp ran
  cases produced
  refine ⟨_, ?_, rfl⟩
  funext leg
  rcases leg with which | which <;> cases which <;> cases side <;> rfl

theorem beginMatch_touched {idA idB : ID} {orderABytes sigA pkA orderBBytes sigB pkB : Bytes} {fillBaseAmount : Nat}
    (ran : s.beginMatch natives idA idB orderABytes sigA pkA orderBBytes sigB pkB fillBaseAmount = .ok next) :
    Touched s.obligations next.obligations .opens := by
  obtain ⟨bmA, -, ran⟩ := bind_ok.mp ran
  obtain ⟨bmB, -, ran⟩ := bind_ok.mp ran
  obtain ⟨-, ran⟩ := check_bind_ok.mp ran
  obtain ⟨m, -, ran⟩ := bind_ok.mp ran
  obtain ⟨dueA, -, ran⟩ := bind_ok.mp ran
  obtain ⟨dueB, -, produced⟩ := bind_ok.mp ran
  cases produced
  refine ⟨_, ?_, rfl⟩
  funext leg
  rcases leg with which | which <;> cases which <;> rfl

theorem fillWith_obligations {makerBmId : ID} {orderBytes signature publicKey : Bytes}
    {takerCoin takerFillAmount minMakerAmountOut out change : Nat} (ran : s.fillWith natives side makerBmId orderBytes
      signature publicKey takerCoin takerFillAmount minMakerAmountOut = .ok (out, change, next)) :
    next.obligations = s.obligations := by
  obtain ⟨bm, -, ran⟩ := bind_ok.mp ran
  obtain ⟨⟨ord, hash, terms⟩, -, ran⟩ := bind_ok.mp ran
  obtain ⟨-, ran⟩ := check_bind_ok.mp ran
  obtain ⟨-, ran⟩ := check_bind_ok.mp ran
  obtain ⟨first, -, ran⟩ := bind_ok.mp ran
  obtain ⟨credited, -, ran⟩ := bind_ok.mp ran
  obtain ⟨debited, -, ran⟩ := bind_ok.mp ran
  obtain ⟨-, ran⟩ := check_bind_ok.mp ran
  obtain ⟨second, -, ran⟩ := bind_ok.mp ran
  obtain ⟨⟨total, third⟩, -, produced⟩ := bind_ok.mp ran
  cases produced
  rfl

theorem matchOrders_obligations {idA idB : ID} {orderABytes sigA pkA orderBBytes sigB pkB : Bytes} {fillBaseAmount : Nat}
    (ran : s.matchOrders natives idA idB orderABytes sigA pkA orderBBytes sigB pkB fillBaseAmount = .ok next) :
    next.obligations = s.obligations := by
  have classic : Session.matchClassic natives idA idB orderABytes sigA pkA orderBBytes sigB pkB fillBaseAmount
      ⟨s, fun _ => 0⟩ = .ok ⟨next, fun _ => 0⟩ := bind_ok.mpr ⟨next, ran, rfl⟩
  obtain ⟨bmA, bmB, m, heldA, heldB, -, same⟩ := Session.matchClassic_ok.mp classic
  exact congrArg (fun st : Session => st.market.obligations) same

theorem voidSalts_obligations {maker : Address} {minValidSalt : Nat} (ran : s.voidSalts maker minValidSalt = .ok next) :
    next.obligations = s.obligations := by
  obtain ⟨-, rfl⟩ := check_pure_ok.mp ran
  rfl

theorem addManager_obligations {id : ID} {owner : Address} (ran : s.addManager id owner = .ok next) :
    next.obligations = s.obligations := by
  obtain ⟨-, rfl⟩ := check_pure_ok.mp ran
  rfl

theorem call_touched {what : Call} (ran : s.call natives what = .ok next) :
    Touched s.obligations next.obligations what.touch := by
  cases what with
  | fillLimitOrder | fillLimitOrderReverse =>
    obtain ⟨⟨out, change, after⟩, filled, rfl⟩ := map_ok ran
    exact fillWith_obligations filled
  | beginFill | beginFillReverse => exact beginFillImpl_touched ran
  | matchOrders => exact matchOrders_obligations ran
  | beginMatch => exact beginMatch_touched ran
  | provideBase | provideQuote => exact provideLeg_touched ran
  | provideBaseFromManager | provideQuoteFromManager => exact provideLegFromManager_touched ran
  | collectQuoteToManager | collectBaseToManager => exact collectLegToManager_touched ran
  | collectQuoteWithCap | collectBaseWithCap | collectQuoteBearer | collectBaseBearer =>
    obtain ⟨⟨due, after⟩, collected, rfl⟩ := map_ok ran
    exact collectLeg_touched collected
  | finish => exact finish_touched ran
  | cancel =>
    obtain ⟨ord, -, ran⟩ := bind_ok.mp ran
    obtain ⟨-, rfl⟩ := check_pure_ok.mp ran
    rfl
  | cancelUpTo => exact voidSalts_obligations ran
  | cancelUpToForManager =>
    obtain ⟨bm, -, ran⟩ := bind_ok.mp ran
    obtain ⟨-, ran⟩ := check_bind_ok.mp ran
    exact voidSalts_obligations ran
  | gc | admin =>
    obtain ⟨reg, -, produced⟩ := bind_ok.mp ran
    cases produced
    rfl
  | newManager | newWithOwnerCap => exact addManager_obligations ran
  | manage =>
    obtain ⟨bm, -, ran⟩ := bind_ok.mp ran
    obtain ⟨after, -, produced⟩ := bind_ok.mp ran
    cases produced
    rfl
  | gate =>
    obtain ⟨domain, -, produced⟩ := bind_ok.mp ran
    cases produced
    rfl

/-! ### Whole transactions -/

/-- The legs discharged of the obligation at an index until it ends; none when it does not end. The end of an
earlier obligation moves the later ones up. -/
def legsUntilEnd : Nat → List Call → Option (List Leg)
  | _, [] => none
  | index, what :: rest =>
    match what.touch with
    | .nothing => legsUntilEnd index rest
    | .opens => legsUntilEnd index rest
    | .leg place which => if place = index then (which :: ·) <$> legsUntilEnd index rest else legsUntilEnd index rest
    | .ends place =>
      if place = index then some [] else legsUntilEnd (if place < index then index - 1 else index) rest

theorem legs_until_end {calls : List Call} {final : Market} {ob : FillObligation} {legs : List Leg}
    (ran : exec (call natives) s calls = .ok final) (found : s.obligations[index]? = some ob)
    (ended : legsUntilEnd index calls = some legs) :
    legs.Nodup ∧ ∀ leg, leg ∈ legs ↔ ob.flags leg = false := by
  induction calls generalizing s index ob legs with
  | nil => cases ended
  | cons what rest ih =>
    rw [exec_cons_ok] at ran
    obtain ⟨middle, moved, ran⟩ := ran
    have touched := call_touched moved
    rw [legsUntilEnd] at ended
    cases kind : what.touch with
    | nothing =>
      rw [kind] at touched ended
      rw [← touched] at found
      exact ih ran found ended
    -- a new obligation is the last one, so the index keeps its meaning
    | opens =>
      rw [kind] at touched ended
      obtain ⟨new, -, after⟩ := touched
      refine ih ran ?_ ended
      rw [after, List.getElem?_append_left (List.getElem?_eq_some_iff.mp found).1]
      exact found
    | leg place which =>
      rw [kind] at touched ended
      obtain ⟨target, paid, present, undone, marked, after⟩ := touched
      -- a leg of this obligation is discharged now, and its flag keeps it from being discharged again
      by_cases here : place = index
      · subst here
        cases found.symm.trans present
        obtain ⟨others, later, rfl⟩ := Option.map_eq_some_iff.mp (by simpa using ended)
        have now : middle.obligations[place]? = some paid := by
          rw [after, List.getElem?_set_self (List.getElem?_eq_some_iff.mp found).1]
        obtain ⟨once, lacking⟩ := ih ran now later
        refine ⟨List.nodup_cons.mpr ⟨fun again => ?_, once⟩, fun leg => ?_⟩
        · have lacked := (lacking which).mp again
          rw [marked] at lacked
          simp [LegsDone.mark] at lacked
        · rw [List.mem_cons, lacking, marked]
          by_cases same : leg = which
          · subst same
            simp [undone]
          · simp [LegsDone.mark, same]
      · simp only [here, if_false] at ended
        refine ih ran ?_ ended
        rw [after, List.getElem?_set_ne here]
        exact found
    | ends place =>
      rw [kind] at touched ended
      obtain ⟨target, present, complete, after⟩ := touched
      -- it ends here, which takes all of its flags; or another one ends
      by_cases here : place = index
      · subst here
        cases found.symm.trans present
        simp only [if_true, Option.some.injEq] at ended
        subst ended
        simp [complete]
      · simp only [here, if_false] at ended
        refine ih ran ?_ ended
        rw [after, List.getElem?_eraseIdx, ← found]
        -- the end of an earlier obligation moves this one up
        by_cases earlier : place < index
        · have back : index - 1 + 1 = index := by omega
          rw [if_pos earlier, if_neg (by omega), back]
        · rw [if_neg earlier, if_pos (by omega)]

theorem legs_of_opened {what : Call} {rest : List Call} {opened final : Market} {legs : List Leg}
    (kind : what.touch = .opens) (began : s.call natives what = .ok opened)
    (ran : exec (call natives) opened rest = .ok final)
    (ended : legsUntilEnd s.obligations.length rest = some legs) : legs.Perm allLegs := by
  have touched := call_touched began
  rw [kind] at touched
  obtain ⟨ob, fresh, after⟩ := touched
  have found : opened.obligations[s.obligations.length]? = some ob := by
    rw [after, List.getElem?_concat_length]
  obtain ⟨once, lacking⟩ := legs_until_end ran found ended
  refine (List.perm_ext_iff_of_nodup once (by decide)).mpr fun leg => ?_
  rw [lacking, fresh]
  simp [mem_allLegs leg]

end Market

/-- The two ways to settle agree. Whatever the order of the legs, an obligation opened, discharged and finished
succeeds exactly when the classic call does and leaves the same registry, managers, vaults, events and coins; and a
transaction that finishes an obligation has discharged each of its legs once. -/
theorem Session.obligation_path_classic (natives : Natives) (st : Session) :
    (∀ legs, Complete legs → ∀ side makerBmId orderBytes signature publicKey takerFillAmount minMakerAmountOut next,
      fillByLegs natives legs side makerBmId orderBytes signature publicKey takerFillAmount minMakerAmountOut st =
          .ok next ↔
        fillClassic natives side makerBmId orderBytes signature publicKey takerFillAmount minMakerAmountOut st =
          .ok next) ∧
    (∀ legs, Complete legs → ∀ idA idB orderABytes sigA pkA orderBBytes sigB pkB fillBaseAmount next,
      matchByLegs natives idA idB orderABytes sigA pkA orderBBytes sigB pkB fillBaseAmount st legs = .ok next ↔
        matchClassic natives idA idB orderABytes sigA pkA orderBBytes sigB pkB fillBaseAmount st = .ok next) ∧
    ∀ (what : Market.Call) (rest : List Market.Call) (opened final : Market) (legs : List Leg),
      what.touch = .opens → st.market.call natives what = .ok opened →
      exec (Market.call natives) opened rest = .ok final →
      Market.legsUntilEnd st.market.obligations.length rest = some legs → legs.Perm allLegs := by
  refine ⟨?fills, ?pairs, ?legs⟩
  case fills =>
    intro legs complete side makerBmId orderBytes signature publicKey takerFillAmount minMakerAmountOut next
    rw [fillByLegs_ok complete, fillClassic_ok]
  case pairs =>
    intro legs complete idA idB orderABytes sigA pkA orderBBytes sigB pkB fillBaseAmount next
    rw [matchByLegs_ok complete, matchClassic_ok]
  case legs =>
    intro what rest opened final legs kind began ran ended
    exact Market.legs_of_opened kind began ran ended

namespace Vector

open Market

def funded : List Event :=
  [.transaction maker, .call (.newManager managerId), .call (.manage managerId (.deposit (token .base) 50000000000)),
    .transaction 7]

def lateLegs : List Leg := [.provide .quote, .provide .base, .collect .quote, .collect .base]

def lateCalls : List Call :=
  [.provideQuote 0 100, .provideBaseFromManager 0 managerId, .collectBaseBearer 0, .collectQuoteToManager 0 managerId,
    .finish 0]

theorem lateLegs_complete : Complete lateLegs := by
  refine ⟨by decide, fun side => ?_⟩
  cases side <;> decide

def classicFill (s : Market) : Result Error Session :=
  Session.fillClassic natives .base managerId order.toBytes (schemeEd25519 :: signature) publicKey 100 0 ⟨s, fun _ => 1000⟩

def begun (s : Market) : Result Error Market :=
  s.call natives (.beginFill managerId order.toBytes (schemeEd25519 :: signature) publicKey 100 0)

theorem obligation_path_vector : ∃ s, exec (step natives) opening funded = .ok s ∧
    (∃ next, classicFill s = .ok next ∧ next.market.events.length = 1 ∧
      Session.fillByLegs natives lateLegs .base managerId order.toBytes (schemeEd25519 :: signature) publicKey 100 0
        ⟨s, fun _ => 1000⟩ = .ok next) ∧
    ∃ opened final, begun s = .ok opened ∧ exec (call natives) opened lateCalls = .ok final ∧
      legsUntilEnd s.obligations.length lateCalls = some lateLegs ∧ lateLegs.Perm allLegs := by
  refine exists_ok (fun s => s.obligations.isEmpty &&
    (classicFill s).toOption.any (fun next => decide (next.market.events.length = 1)) &&
    (begun s).toOption.any fun opened => (exec (call natives) opened lateCalls).toOption.any fun _ => true)
    (by decide +kernel) ?_
  intro s _ passed
  simp only [Bool.and_eq_true, List.isEmpty_iff] at passed
  obtain ⟨⟨none, filled⟩, began⟩ := passed
  obtain ⟨fills, -, legs⟩ := Session.obligation_path_classic natives ⟨s, fun _ => 1000⟩
  have ended : legsUntilEnd s.obligations.length lateCalls = some lateLegs := by
    rw [none]
    rfl
  refine ⟨exists_ok _ filled fun next same one => ?_, ?_⟩
  · exact ⟨of_decide_eq_true one, (fills lateLegs lateLegs_complete ..).mpr same⟩
  · obtain ⟨opened, same, final, ran, -⟩ : ∃ opened, begun s = .ok opened ∧ ∃ final,
        exec (call natives) opened lateCalls = .ok final ∧ True :=
      exists_ok _ began fun opened _ through => exists_ok _ through fun _ _ _ => trivial
    exact ⟨opened, final, same, ran, ended, legs _ _ _ _ _ rfl same ran ended⟩

end Vector

end SuiOptions.Exchange
