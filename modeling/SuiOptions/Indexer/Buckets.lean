import SuiOptions.Core.PutBucket
import SuiOptions.Indexer.Apply

/-! Indexed buckets against the chain.

Call and put buckets live under object ids. A transaction creates a bucket or
performs one operation of `bucket.move` or `put_bucket.move`, and the indexer
applies the events it emits. Spread writes, and the short leg of a put spread
exercise, move a cursor under an event the views ignore. -/

set_option autoImplicit false

namespace SuiOptions.Core

open Execution Move Ranges

def Queue.cursors (q : Queue) : Nat × Nat := (q.totalWritten, q.exerciseCursor)

/-- The bucket objects a transaction takes; advancing the clock is none. -/
def CallOp.buckets {ι : Type} : CallOp ι → Option (List ι)
  | .tick _ => none
  | .write i _ | .exercise i _ _ | .redeemPosition i _ | .burnExpiredOption i _ | .invalidateBucket i
  | .revalidateBucket i | .closeOffset i _ _ | .closeSpread i _ _ | .redeemSpreadPosition i _ => some [i]
  | .destroyEmpty _ => some []
  | .writeSpread _ i j _ _ | .unwindSpread i j _ => some [i, j]

def PutOp.buckets {ι : Type} : PutOp ι → Option (List ι)
  | .tick _ => none
  | .write i _ _ | .exercise i _ _ | .redeemPosition i _ | .burnExpiredOption i _ | .invalidateBucket i
  | .revalidateBucket i | .closeOffset i _ _ | .closeSpread i _ _ | .redeemSpreadPosition i _ => some [i]
  | .destroyEmpty _ => some []
  | .writeSpread _ i j _ _ | .exerciseSpread i j _ _ => some [i, j]

section Cursors

variable {ι : Type} [DecidableEq ι]

def CallOp.written (op : CallOp ι) (k : ι) : Nat :=
  match op with
  | .write i amount | .writeSpread _ i _ amount _ => if k = i then amount else 0
  | _ => 0

def CallOp.exercised : CallOp ι → List ι
  | .exercise i _ _ => [i]
  | .unwindSpread _ j _ => [j]
  | _ => []

def PutOp.written (op : PutOp ι) (k : ι) : Nat :=
  match op with
  | .write i _ amount | .writeSpread _ i _ amount _ => if k = i then amount else 0
  | _ => 0

def PutOp.exercised : PutOp ι → List ι
  | .exercise i _ _ => [i]
  | .exerciseSpread i j _ _ => [i, j]
  | _ => []

theorem advanceCursor_written {q next : Queue} {nextSpread : Nat → Nat} {blocked : Error} {amount : Nat}
    (ran : q.advanceCursor nextSpread blocked amount = .ok next) : next.totalWritten = q.totalWritten := by
  obtain ⟨_, _, ran⟩ := bind_ok.mp ran
  obtain ⟨_, _, ran⟩ := bind_ok.mp ran
  cases pure_ok.mp ran
  rfl

/-- A bucket keeps its cursors, but for the amount written to it and an exercise. -/
structure Moved (before after : Queue) (written : Nat) (exercised : Bool) : Prop where
  totalWritten : after.totalWritten = before.totalWritten + written
  exerciseCursor : exercised = false → after.exerciseCursor = before.exerciseCursor

theorem Moved.same {before after : Queue} (kept : after.cursors = before.cursors) (exercised : Bool) :
    Moved before after 0 exercised :=
  ⟨(Prod.mk.inj kept).1, fun _ => (Prod.mk.inj kept).2⟩

omit [DecidableEq ι] in
theorem Bucket.exercise_moved {now amount payment : Nat} {b next : Bucket ι}
    (ran : b.exercise now amount payment = .ok next) : Moved b.toQueue next.toQueue 0 true := by
  obtain ⟨_, _, _, _, _, _, walked, advanced, _, rfl⟩ := Bucket.exercise_ok.mp ran
  exact ⟨advanceCursor_written advanced, fun never => by cases never⟩

omit [DecidableEq ι] in
theorem PutBucket.exercise_moved {now amount delivery payout : Nat} {b next : PutBucket ι}
    (ran : b.exercise now amount delivery = .ok (payout, next)) : Moved b.toQueue next.toQueue 0 true := by
  obtain ⟨_, _, _, _, _, _, walked, advanced, _, _, rfl⟩ := PutBucket.exercise_ok.mp ran
  exact ⟨advanceCursor_written advanced, fun never => by cases never⟩

theorem Moved.update {β : Type} (queue : β → Queue) (written : ι → Nat) (exercised : ι → Bool) {before after : ι → β}
    {i : ι} {b : β} (changed : after = Function.update before i b)
    (own : Moved (queue (before i)) (queue b) (written i) (exercised i)) (others : ∀ k, k ≠ i → written k = 0) (k : ι) :
    Moved (queue (before k)) (queue (after k)) (written k) (exercised k) := by
  subst changed
  by_cases here : k = i
  · subst here
    rw [Function.update_self]
    exact own
  · rw [Function.update_of_ne here, others k here]
    exact Moved.same rfl _

def CallOp.Moves (op : CallOp ι) (s next : CallSystem ι) : Prop :=
  ∀ k, Moved (s.buckets k).toQueue (next.buckets k).toQueue (op.written k) (decide (k ∈ op.exercised))

theorem CallOp.Moves.update {op : CallOp ι} {s next : CallSystem ι} {i : ι} {b : Bucket ι}
    (changed : next.buckets = Function.update s.buckets i b)
    (own : Moved (s.buckets i).toQueue b.toQueue (op.written i) (decide (i ∈ op.exercised)))
    (others : ∀ k, k ≠ i → op.written k = 0) : op.Moves s next :=
  Moved.update (fun b : Bucket ι => b.toQueue) op.written (fun k => decide (k ∈ op.exercised)) changed own others

theorem callStep_moves {s next : CallSystem ι} {op : CallOp ι} (ran : callStep s op = .ok next) : op.Moves s next := by
  cases op with
  | tick now =>
    obtain ⟨_, rfl⟩ := check_pure_ok.mp ran
    exact fun k => Moved.same rfl _
  | write i amount =>
    obtain ⟨⟨range, b⟩, wrote, ran⟩ := bind_ok.mp ran
    cases pure_ok.mp ran
    obtain ⟨_, _, _, _, _, same⟩ := Bucket.writeAndCheck_ok.mp wrote
    refine .update rfl ?_ fun k differ => if_neg differ
    rw [same]
    exact ⟨by simp [CallOp.written], fun _ => rfl⟩
  | exercise i amount payment =>
    obtain ⟨_, taken, ran⟩ := bind_ok.mp ran
    obtain ⟨_, rfl⟩ := System.take_ok.mp taken
    obtain ⟨b, exercised, ran⟩ := bind_ok.mp ran
    cases pure_ok.mp ran
    refine .update rfl ?_ fun _ _ => rfl
    simpa [CallOp.written, CallOp.exercised, System.spend] using Bucket.exercise_moved exercised
  | redeemPosition i p =>
    obtain ⟨_, taken, ran⟩ := bind_ok.mp ran
    obtain ⟨_, rfl⟩ := System.takePosition_ok.mp taken
    obtain ⟨b, redeemed, ran⟩ := bind_ok.mp ran
    cases pure_ok.mp ran
    obtain ⟨_, _, _, _, _, _, _, same⟩ := Bucket.redeemPosition_ok redeemed
    refine .update rfl (Moved.same ?_ _) fun _ _ => rfl
    rw [same]
    rfl
  | burnExpiredOption i amount =>
    obtain ⟨_, taken, ran⟩ := bind_ok.mp ran
    obtain ⟨_, rfl⟩ := System.take_ok.mp taken
    obtain ⟨b, burned, ran⟩ := bind_ok.mp ran
    cases pure_ok.mp ran
    refine .update rfl (Moved.same ?_ _) fun _ _ => rfl
    rw [(Bucket.burnExpiredOption_ok burned).2]
    rfl
  | invalidateBucket i =>
    obtain ⟨b, flagged, ran⟩ := bind_ok.mp ran
    cases pure_ok.mp ran
    refine .update rfl (Moved.same ?_ _) fun _ _ => rfl
    rw [Bucket.invalidateBucket_ok flagged]
  | revalidateBucket i =>
    obtain ⟨b, flagged, ran⟩ := bind_ok.mp ran
    cases pure_ok.mp ran
    refine .update rfl (Moved.same ?_ _) fun _ _ => rfl
    rw [Bucket.revalidateBucket_ok flagged]
  | closeOffset i p amount =>
    obtain ⟨_, taken, ran⟩ := bind_ok.mp ran
    obtain ⟨_, rfl⟩ := System.take_ok.mp taken
    obtain ⟨_, removed, ran⟩ := bind_ok.mp ran
    obtain ⟨_, rfl⟩ := System.takePosition_ok.mp removed
    obtain ⟨⟨q, b⟩, closed, ran⟩ := bind_ok.mp ran
    cases pure_ok.mp ran
    obtain ⟨_, _, _, _, _, _, _, _, same⟩ := Bucket.closeOffset_ok closed
    refine .update rfl (Moved.same ?_ _) fun _ _ => rfl
    rw [same]
    rfl
  | destroyEmpty p =>
    obtain ⟨_, ran⟩ := check_bind_ok.mp ran
    obtain ⟨_, rfl⟩ := System.takePosition_ok.mp ran
    exact fun k => Moved.same rfl _
  | writeSpread allowed i j amount cash =>
    obtain ⟨_, ran⟩ := check_bind_ok.mp ran
    obtain ⟨_, taken, ran⟩ := bind_ok.mp ran
    obtain ⟨_, rfl⟩ := System.take_ok.mp taken
    obtain ⟨⟨range, b⟩, wrote, ran⟩ := bind_ok.mp ran
    cases pure_ok.mp ran
    obtain ⟨_, _, _, _, _, _, _, _, _, same⟩ := Bucket.writeSpread_ok wrote
    refine .update rfl ?_ fun k differ => if_neg differ
    rw [same]
    exact ⟨by simp [CallOp.written, System.spend], fun _ => rfl⟩
  | unwindSpread i j start =>
    obtain ⟨different, ran⟩ := check_bind_ok.mp ran
    obtain ⟨⟨b, long⟩, unwound, ran⟩ := bind_ok.mp ran
    cases pure_ok.mp ran
    obtain ⟨_, _, _, _, _, exercised, same⟩ := Bucket.unwindSpread_ok.mp unwound
    -- two buckets change: the short one keeps its cursors, the long one is exercised
    have short : CallOp.Moves (.unwindSpread i j start) s (s.setBucket i b) := by
      refine .update rfl (Moved.same ?_ _) fun _ _ => rfl
      rw [same]
      rfl
    intro k
    by_cases here : k = j
    · subst here
      simpa [CallOp.written, CallOp.exercised, System.setBucket, System.retire] using Bucket.exercise_moved exercised
    · simpa [System.setBucket, System.retire, Function.update_of_ne here] using short k
  | closeSpread i p amount =>
    obtain ⟨_, taken, ran⟩ := bind_ok.mp ran
    obtain ⟨_, rfl⟩ := System.take_ok.mp taken
    obtain ⟨_, removed, ran⟩ := bind_ok.mp ran
    obtain ⟨_, rfl⟩ := System.takePosition_ok.mp removed
    obtain ⟨⟨escrow, b⟩, closed, ran⟩ := bind_ok.mp ran
    cases pure_ok.mp ran
    obtain ⟨_, _, _, _, _, _, same⟩ := Bucket.closeSpread_ok closed
    refine .update rfl (Moved.same ?_ _) fun _ _ => rfl
    rw [same]
    rfl
  | redeemSpreadPosition i p =>
    obtain ⟨_, taken, ran⟩ := bind_ok.mp ran
    obtain ⟨_, rfl⟩ := System.takePosition_ok.mp taken
    obtain ⟨⟨escrow, b⟩, redeemed, ran⟩ := bind_ok.mp ran
    cases pure_ok.mp ran
    obtain ⟨_, _, _, _, same⟩ := Bucket.redeemSpreadPosition_ok redeemed
    refine .update rfl (Moved.same ?_ _) fun _ _ => rfl
    rw [same]
    rfl

def PutOp.Moves (op : PutOp ι) (s next : PutSystem ι) : Prop :=
  ∀ k, Moved (s.buckets k).toQueue (next.buckets k).toQueue (op.written k) (decide (k ∈ op.exercised))

theorem PutOp.Moves.update {op : PutOp ι} {s next : PutSystem ι} {i : ι} {b : PutBucket ι}
    (changed : next.buckets = Function.update s.buckets i b)
    (own : Moved (s.buckets i).toQueue b.toQueue (op.written i) (decide (i ∈ op.exercised)))
    (others : ∀ k, k ≠ i → op.written k = 0) : op.Moves s next :=
  Moved.update (fun b : PutBucket ι => b.toQueue) op.written (fun k => decide (k ∈ op.exercised)) changed own others

theorem flush_le {cur pending : Nat} {closed : List Range} {walk : Walk} (ran : flush cur closed pending = .ok walk) :
    cur ≤ walk.cur := by
  induction closed generalizing cur pending with
  | nil =>
    cases ran
    exact Nat.le_refl _
  | cons r rest ih =>
    rw [flush] at ran
    by_cases here : r.start = cur
    · rw [if_pos here] at ran
      obtain ⟨_, length, ran⟩ := bind_ok.mp ran
      obtain ⟨proper, _⟩ := sub_ok.mp length
      obtain ⟨_, _, ran⟩ := bind_ok.mp ran
      have further := ih ran
      omega
    · rw [if_neg here] at ran
      cases ran
      exact Nat.le_refl _

theorem PutBucket.exerciseSpread_lt {now amount delivery payout : Nat} {longId : ι} {b long next longNext : PutBucket ι}
    (ran : b.exerciseSpread now longId long amount delivery = .ok (payout, next, longNext)) :
    b.exerciseCursor < next.exerciseCursor := by
  obtain ⟨_, positive, _, _, _, _, _, _, _, walk, _, _, _, _, _, _, _, _, _, _, _, _, flushed, rfl⟩ :=
    PutBucket.exerciseSpread_ok.mp ran
  have further := flush_le flushed
  exact Nat.lt_of_lt_of_le (Nat.lt_add_of_pos_right positive) further

theorem putStep_moves {s next : PutSystem ι} {op : PutOp ι} (ran : putStep s op = .ok next) : op.Moves s next := by
  cases putStep_move ran with
  | tick later => exact fun k => Moved.same rfl _
  | write wrote =>
    obtain ⟨_, _, _, _, _, _, same⟩ := PutBucket.writeAndCheck_ok.mp wrote
    refine .update rfl ?_ fun k differ => if_neg differ
    rw [same]
    exact ⟨by simp [PutOp.written], fun _ => rfl⟩
  | exercise held exercised =>
    refine .update rfl ?_ fun _ _ => rfl
    simpa [PutOp.written, PutOp.exercised] using PutBucket.exercise_moved exercised
  | redeem member redeemed =>
    obtain ⟨_, _, _, _, _, _, _, same⟩ := PutBucket.redeemPosition_ok redeemed
    refine .update rfl (Moved.same ?_ _) fun _ _ => rfl
    rw [same]
  | burn held expired => exact .update rfl (Moved.same rfl _) fun _ _ => rfl
  | invalidate i => exact .update rfl (Moved.same rfl _) fun _ _ => rfl
  | revalidate i => exact .update rfl (Moved.same rfl _) fun _ _ => rfl
  | closeOffset held member closed =>
    obtain ⟨_, _, _, _, _, _, _, _, _, _, _, same⟩ := PutBucket.closeOffset_ok closed
    refine .update rfl (Moved.same ?_ _) fun _ _ => rfl
    rw [same]
    rfl
  | destroy member empty => exact fun k => Moved.same rfl _
  | writeSpread different held wrote =>
    obtain ⟨_, _, _, _, _, _, _, _, _, same⟩ := PutBucket.writeSpread_ok wrote
    refine .update rfl ?_ fun k differ => if_neg differ
    rw [same]
    exact ⟨by simp [PutOp.written], fun _ => rfl⟩
  | @exerciseSpread i j amount delivery payout b long different held exercised =>
    obtain ⟨_, _, _, _, _, _, _, _, proceeds, walk, _, _, _, _, _, _, _, _, _, _, longExercised, _, _, same⟩ :=
      PutBucket.exerciseSpread_ok.mp exercised
    intro k
    by_cases here : k = j
    · subst here
      simpa [PutOp.written, PutOp.exercised, System.setBucket, System.retire] using
        PutBucket.exercise_moved longExercised
    · have short : PutOp.Moves (.exerciseSpread i j amount delivery) s (s.setBucket i b) := by
        refine .update rfl ?_ fun _ _ => rfl
        rw [same]
        exact ⟨rfl, fun never => by simp [PutOp.exercised] at never⟩
      simpa [System.setBucket, System.retire, System.spend, Function.update_of_ne here] using short k
  | closeSpread held member closed =>
    obtain ⟨_, _, _, _, _, _, same⟩ := PutBucket.closeSpread_ok closed
    refine .update rfl (Moved.same ?_ _) fun _ _ => rfl
    rw [same]
    rfl
  | redeemSpread member redeemed =>
    obtain ⟨_, _, _, _, same⟩ := PutBucket.redeemSpreadPosition_ok redeemed
    refine .update rfl (Moved.same ?_ _) fun _ _ => rfl
    rw [same]
    rfl

end Cursors

end SuiOptions.Core

namespace SuiOptions.Indexer

open SuiOptions.Core Execution Move

structure Quoted where
  signerId : ObjectId
  signerTokenRecipient : SuiAddress
  positionId : ObjectId
  positionRecipient : SuiAddress
  coinRecipient : SuiAddress
  grossPremium : Nat

def Quoted.event (q : Quoted) (bucketId : ObjectId) (executor : SuiAddress) (start stop : Nat) : WriteExecuted where
  bucketId := bucketId
  signerId := q.signerId
  signerTokenRecipient := q.signerTokenRecipient
  executor := executor
  positionId := q.positionId
  positionRecipient := q.positionRecipient
  coinRecipient := q.coinRecipient
  grossPremium := q.grossPremium
  rangeStart := start
  rangeEnd := stop

def callEvents (sender : SuiAddress) (quoted : Option Quoted) (before after : CallSystem ObjectId) :
    CallOp ObjectId → List ChainEvent
  | .tick _ | .destroyEmpty _ => []
  | .write i amount =>
    let start := (before.buckets i).totalWritten
    match quoted with
    | some quote => [.writeExecuted (quote.event i sender start (start + amount))]
    | none => [.collateralizedWrite ⟨i, sender, start + amount⟩]
  | .exercise i _ _ => [.exercised ⟨i, sender, (after.buckets i).exerciseCursor⟩]
  | .redeemPosition i p => [.redeemed ⟨i, sender, p.range.start⟩]
  | .burnExpiredOption i _ => [.expiredOptionBurned i sender]
  | .invalidateBucket i => [.bucketInvalidated ⟨i, sender⟩]
  | .revalidateBucket i => [.bucketRevalidated ⟨i, sender⟩]
  | .closeOffset i _ _ => [.offsetClosed ⟨i, sender⟩ false]
  | .writeSpread _ i j amount _ =>
    let start := (before.buckets i).totalWritten
    [.spreadWritten ⟨i, j, sender, start, start + amount⟩]
  -- The crank exercises the escrowed long call, which emits its own event.
  | .unwindSpread i j _ => [.exercised ⟨j, sender, (after.buckets j).exerciseCursor⟩, .spreadUnwound ⟨i, sender⟩ j]
  | .closeSpread i _ _ => [.spreadClosed ⟨i, sender⟩]
  | .redeemSpreadPosition i _ => [.spreadRedeemed ⟨i, sender⟩]

def putEvents (sender : SuiAddress) (quoted : Option Quoted) (before after : PutSystem ObjectId) :
    PutOp ObjectId → List ChainEvent
  | .tick _ | .destroyEmpty _ => []
  | .write i _ amount =>
    let start := (before.buckets i).totalWritten
    match quoted with
    | some quote => [.putWriteExecuted (quote.event i sender start (start + amount))]
    | none => [.putCollateralizedWrite ⟨i, sender, start + amount⟩]
  | .exercise i _ _ => [.putExercised ⟨i, sender, (after.buckets i).exerciseCursor⟩]
  | .redeemPosition i p => [.putRedeemed ⟨i, sender, p.range.start⟩]
  | .burnExpiredOption i _ => [.putExpiredOptionBurned i sender]
  | .invalidateBucket i => [.putBucketInvalidated ⟨i, sender⟩]
  | .revalidateBucket i => [.putBucketRevalidated ⟨i, sender⟩]
  | .closeOffset i _ _ => [.offsetClosed ⟨i, sender⟩ true]
  | .writeSpread _ i j amount _ =>
    let start := (before.buckets i).totalWritten
    [.putSpreadWritten ⟨i, j, sender, start, start + amount⟩]
  | .exerciseSpread i j _ _ =>
    [.putExercised ⟨j, sender, (after.buckets j).exerciseCursor⟩,
      .putSpreadExercised ⟨i, j, sender, (after.buckets i).exerciseCursor⟩]
  | .closeSpread i _ _ => [.putSpreadClosed ⟨i, sender⟩]
  | .redeemSpreadPosition i _ => [.putSpreadRedeemed ⟨i, sender⟩]

structure Chain where
  calls : CallSystem ObjectId
  puts : PutSystem ObjectId
  created : ObjectId → Option OptionKind

inductive ChainOp where
  | tick (now : Nat)
  | createBucket (b : BucketCreated)
  | createPutBucket (b : BucketCreated)
  | call (sender : SuiAddress) (quoted : Option Quoted) (op : CallOp ObjectId)
  | put (sender : SuiAddress) (quoted : Option Quoted) (op : PutOp ObjectId)

def BucketCreated.terms (b : BucketCreated) : Terms := ⟨b.expiryMs, b.strike, b.strikeScale⟩

namespace Chain

def create (now : Nat) : Chain :=
  ⟨CallSystem.create now fun _ => ⟨0, 0, 0⟩, PutSystem.create now fun _ => ⟨0, 0, 0⟩, fun _ => none⟩

/-- All objects a transaction takes exist and have the right kind. -/
def holds (s : Chain) (kind : OptionKind) (buckets : Option (List ObjectId)) : Bool :=
  buckets.any fun ids => ids.all fun id => s.created id = some kind

/-- One transaction and the events it emits; a new object has an unused id. -/
def step (s : Chain) : ChainOp → Result Error (Chain × List ChainEvent)
  | .tick now => do
    let calls ← callStep s.calls (.tick now)
    let puts ← putStep s.puts (.tick now)
    pure ({ s with calls := calls, puts := puts }, [])
  | .createBucket b => do
    check (s.created b.bucketId = none) .sameObject
    pure ({ s with
      calls := s.calls.setBucket b.bucketId (.create b.terms)
      created := Function.update s.created b.bucketId (some .call) }, [.bucketCreated b])
  | .createPutBucket b => do
    check (s.created b.bucketId = none) .sameObject
    pure ({ s with
      puts := s.puts.setBucket b.bucketId (.create b.terms)
      created := Function.update s.created b.bucketId (some .put) }, [.putBucketCreated b])
  | .call sender quoted op => do
    check (s.holds .call op.buckets = true) .fieldMissing
    let calls ← callStep s.calls op
    pure ({ s with calls := calls }, callEvents sender quoted s.calls calls op)
  | .put sender quoted op => do
    check (s.holds .put op.buckets = true) .fieldMissing
    let puts ← putStep s.puts op
    pure ({ s with puts := puts }, putEvents sender quoted s.puts puts op)

def cursors (s : Chain) (id : ObjectId) : Option (Nat × Nat) :=
  (s.created id).map fun
    | .call => (s.calls.buckets id).cursors
    | .put => (s.puts.buckets id).cursors

end Chain

def Views.cursors (v : Views) (id : ObjectId) : Option (Nat × Nat) :=
  (v.buckets.get? id).map fun b => (b.totalWritten, b.exerciseCursor)

/-- The chain and the views of an indexer that has seen all of it. -/
structure Indexed where
  chain : Chain
  views : Views

structure Transaction where
  op : ChainOp
  timestampMs : Nat

namespace Indexed

def create (now : Nat) : Indexed := ⟨Chain.create now, Views.default⟩

def step (s : Indexed) (t : Transaction) : Result Error Indexed := do
  let (chain, events) ← s.chain.step t.op
  pure ⟨chain, applyEvents t.timestampMs s.views events⟩

/-- The views hold the cursors of exactly the buckets there are. -/
def Mirrors (s : Indexed) : Prop := ∀ id, s.views.cursors id = s.chain.cursors id

end Indexed

/-- The operations that move a cursor under an event the views ignore. -/
def ChainOp.silent : ChainOp → Bool
  | .call _ _ (.writeSpread _ _ _ _ _) | .put _ _ (.writeSpread _ _ _ _ _) | .put _ _ (.exerciseSpread _ _ _ _) => true
  | _ => false

section Agreement

variable {v : Views} {i id : ObjectId} {sender : SuiAddress} {quoted : Option Quoted} {timestampMs : Nat}

@[simp] theorem cursors_addPosition (p : PositionState) : (v.addPosition p).cursors id = v.cursors id := rfl

@[simp] theorem cursors_dropPosition (start : Nat) : (v.dropPosition i start).cursors id = v.cursors id := rfl

theorem cursors_onBucket (f : BucketState → BucketState) (g : Nat × Nat → Nat × Nat)
    (moves : ∀ b, ((f b).totalWritten, (f b).exerciseCursor) = g (b.totalWritten, b.exerciseCursor)) :
    (v.onBucket i f).cursors id = if id = i then (v.cursors id).map g else v.cursors id := by
  simp only [Views.cursors, Views.onBucket, BTreeMap.get?_modify]
  by_cases here : id = i
  · rw [if_pos here, if_pos here]
    cases v.buckets.get? id with
    | none => rfl
    | some b => exact congrArg some (moves b)
  · rw [if_neg here, if_neg here]

@[simp] theorem cursors_write (stop : Nat) : (v.onBucket i fun b => { b with totalWritten := stop }).cursors id =
    if id = i then (v.cursors id).map (fun c => (stop, c.2)) else v.cursors id :=
  cursors_onBucket _ _ fun _ => rfl

@[simp] theorem cursors_exercise (cursor : Nat) : (v.onBucket i fun b => { b with exerciseCursor := cursor }).cursors id =
    if id = i then (v.cursors id).map (fun c => (c.1, cursor)) else v.cursors id :=
  cursors_onBucket _ _ fun _ => rfl

@[simp] theorem cursors_flag (value : Bool) :
    (v.onBucket i fun b => { b with invalidated := value }).cursors id = v.cursors id := by
  have kept : (v.onBucket i fun b => { b with invalidated := value }).cursors id =
      if id = i then (v.cursors id).map (fun c => c) else v.cursors id := cursors_onBucket _ _ fun _ => rfl
  simpa using kept

theorem cursors_insert (b : BucketState) : ({ v with buckets := v.buckets.insert i b } : Views).cursors id =
    if id = i then some (b.totalWritten, b.exerciseCursor) else v.cursors id := by
  simp only [Views.cursors, BTreeMap.get?_insert]
  by_cases here : id = i
  · rw [if_pos here, if_pos here]
    rfl
  · rw [if_neg here, if_neg here]

/-- The events of a transaction move no bucket it does not take. -/
theorem callEvents_others {before after : CallSystem ObjectId} {op : CallOp ObjectId} {ids : List ObjectId}
    (takes : op.buckets = some ids) (outside : id ∉ ids) :
    (applyEvents timestampMs v (callEvents sender quoted before after op)).cursors id = v.cursors id := by
  cases op <;> cases takes <;> (try cases quoted) <;>
    simp_all [applyEvents, applyEvent, callEvents, Quoted.event]

theorem putEvents_others {before after : PutSystem ObjectId} {op : PutOp ObjectId} {ids : List ObjectId}
    (takes : op.buckets = some ids) (outside : id ∉ ids) :
    (applyEvents timestampMs v (putEvents sender quoted before after op)).cursors id = v.cursors id := by
  cases op <;> cases takes <;> (try cases quoted) <;>
    simp_all [applyEvents, applyEvent, putEvents, Quoted.event]

/-- Without a spread write, the events of a call transaction carry every cursor it moved. -/
theorem callEvents_cursors {before after : CallSystem ObjectId} {op : CallOp ObjectId} (moves : op.Moves before after)
    (audible : ChainOp.silent (.call sender quoted op) = false) (held : v.cursors id = some (before.buckets id).cursors) :
    (applyEvents timestampMs v (callEvents sender quoted before after op)).cursors id =
      some (after.buckets id).cursors := by
  have moved := moves id
  have written := moved.totalWritten
  have cursor := moved.exerciseCursor
  cases op <;> (try cases audible) <;> (try cases quoted) <;>
    simp_all [applyEvents, applyEvent, callEvents, Quoted.event, CallOp.written, CallOp.exercised, Queue.cursors] <;>
    split <;> simp_all

theorem putEvents_cursors {before after : PutSystem ObjectId} {op : PutOp ObjectId} (moves : op.Moves before after)
    (audible : ChainOp.silent (.put sender quoted op) = false) (held : v.cursors id = some (before.buckets id).cursors) :
    (applyEvents timestampMs v (putEvents sender quoted before after op)).cursors id =
      some (after.buckets id).cursors := by
  have moved := moves id
  have written := moved.totalWritten
  have cursor := moved.exerciseCursor
  cases op <;> (try cases audible) <;> (try cases quoted) <;>
    simp_all [applyEvents, applyEvent, putEvents, Quoted.event, PutOp.written, PutOp.exercised, Queue.cursors] <;>
    split <;> simp_all

end Agreement

namespace Indexed

variable {s next : Indexed} {t : Transaction} {timestampMs : Nat}

theorem holds_mem {chain : Chain} {kind : OptionKind} {buckets : Option (List ObjectId)}
    (taken : chain.holds kind buckets = true) :
    ∃ ids, buckets = some ids ∧ ∀ id ∈ ids, chain.created id = some kind := by
  cases buckets with
  | none => cases taken
  | some ids => exact ⟨ids, rfl, by simpa [Chain.holds] using taken⟩

theorem call_mirrors {sender : SuiAddress} {quoted : Option Quoted} {op : CallOp ObjectId} (mirrors : s.Mirrors)
    (audible : ChainOp.silent (.call sender quoted op) = false)
    (ran : s.step ⟨.call sender quoted op, timestampMs⟩ = .ok next) : next.Mirrors := by
  obtain ⟨_, stepped, ran⟩ := bind_ok.mp ran
  obtain ⟨taken, stepped⟩ := check_bind_ok.mp stepped
  obtain ⟨calls, moved, stepped⟩ := bind_ok.mp stepped
  cases pure_ok.mp stepped
  cases pure_ok.mp ran
  obtain ⟨ids, takes, created⟩ := holds_mem taken
  intro id
  have held := mirrors id
  -- by what the id names: a call bucket follows its events, others are not touched
  cases named : s.chain.created id with
  | none =>
    have outside : id ∉ ids := fun member => by rw [created id member] at named; cases named
    rw [callEvents_others takes outside, held]
    simp [Chain.cursors, named]
  | some kind =>
    cases kind with
    | call =>
      have known : s.views.cursors id = some (s.chain.calls.buckets id).cursors := by
        rw [held, Chain.cursors, named]
        rfl
      rw [callEvents_cursors (callStep_moves moved) audible known]
      simp [Chain.cursors, named]
    | put =>
      have outside : id ∉ ids := fun member => by rw [created id member] at named; cases named
      rw [callEvents_others takes outside, held]
      simp [Chain.cursors, named]

theorem put_mirrors {sender : SuiAddress} {quoted : Option Quoted} {op : PutOp ObjectId} (mirrors : s.Mirrors)
    (audible : ChainOp.silent (.put sender quoted op) = false)
    (ran : s.step ⟨.put sender quoted op, timestampMs⟩ = .ok next) : next.Mirrors := by
  obtain ⟨_, stepped, ran⟩ := bind_ok.mp ran
  obtain ⟨taken, stepped⟩ := check_bind_ok.mp stepped
  obtain ⟨puts, moved, stepped⟩ := bind_ok.mp stepped
  cases pure_ok.mp stepped
  cases pure_ok.mp ran
  obtain ⟨ids, takes, created⟩ := holds_mem taken
  intro id
  have held := mirrors id
  cases named : s.chain.created id with
  | none =>
    have outside : id ∉ ids := fun member => by rw [created id member] at named; cases named
    rw [putEvents_others takes outside, held]
    simp [Chain.cursors, named]
  | some kind =>
    cases kind with
    | call =>
      have outside : id ∉ ids := fun member => by rw [created id member] at named; cases named
      rw [putEvents_others takes outside, held]
      simp [Chain.cursors, named]
    | put =>
      have known : s.views.cursors id = some (s.chain.puts.buckets id).cursors := by
        rw [held, Chain.cursors, named]
        rfl
      rw [putEvents_cursors (putStep_moves moved) audible known]
      simp [Chain.cursors, named]

theorem create_mirrors {chain : Chain} {b : BucketState} {i : ObjectId} (mirrors : s.Mirrors)
    (new : chain.cursors i = some (b.totalWritten, b.exerciseCursor))
    (others : ∀ id, id ≠ i → chain.cursors id = s.chain.cursors id) :
    Mirrors ⟨chain, { s.views with buckets := s.views.buckets.insert i b }⟩ := by
  intro id
  rw [cursors_insert]
  by_cases here : id = i
  · rw [if_pos here, here, new]
  · rw [if_neg here, others id here]
    exact mirrors id

theorem step_mirrors (mirrors : s.Mirrors) (audible : t.op.silent = false) (ran : s.step t = .ok next) :
    next.Mirrors := by
  obtain ⟨op, timestampMs⟩ := t
  cases op with
  | tick now =>
    obtain ⟨_, stepped, ran⟩ := bind_ok.mp ran
    obtain ⟨calls, early, stepped⟩ := bind_ok.mp stepped
    obtain ⟨puts, late, stepped⟩ := bind_ok.mp stepped
    obtain ⟨_, rfl⟩ := check_pure_ok.mp early
    obtain ⟨_, rfl⟩ := check_pure_ok.mp late
    cases pure_ok.mp stepped
    cases pure_ok.mp ran
    exact mirrors
  | createBucket b =>
    obtain ⟨_, stepped, ran⟩ := bind_ok.mp ran
    obtain ⟨fresh, rfl⟩ := check_pure_ok.mp stepped
    cases pure_ok.mp ran
    refine create_mirrors mirrors ?_ fun id differ => ?_
    · simp [Chain.cursors, System.setBucket, Bucket.create, Queue.cursors, BucketState.create]
    · simp [Chain.cursors, System.setBucket, Function.update_of_ne differ]
  | createPutBucket b =>
    obtain ⟨_, stepped, ran⟩ := bind_ok.mp ran
    obtain ⟨fresh, rfl⟩ := check_pure_ok.mp stepped
    cases pure_ok.mp ran
    refine create_mirrors mirrors ?_ fun id differ => ?_
    · simp [Chain.cursors, System.setBucket, PutBucket.create, Bucket.create, Queue.cursors, BucketState.create]
    · simp [Chain.cursors, System.setBucket, Function.update_of_ne differ]
  | call sender quoted op => exact call_mirrors mirrors audible ran
  | put sender quoted op => exact put_mirrors mirrors audible ran

theorem not_mirrors (id : ObjectId) (mirrors : s.Mirrors) (kept : next.views.cursors id = s.views.cursors id)
    (moved : next.chain.cursors id ≠ s.chain.cursors id) : ¬ next.Mirrors := by
  intro later
  exact moved ((later id).symm.trans (kept.trans (mirrors id)))

theorem writeSpread_breaks {sender : SuiAddress} {quoted : Option Quoted} {allowed : Bool} {i j : ObjectId}
    {amount cash : Nat} (mirrors : s.Mirrors)
    (ran : s.step ⟨.call sender quoted (.writeSpread allowed i j amount cash), timestampMs⟩ = .ok next) :
    ¬ next.Mirrors := by
  obtain ⟨_, stepped, ran⟩ := bind_ok.mp ran
  obtain ⟨taken, stepped⟩ := check_bind_ok.mp stepped
  obtain ⟨ids, takes, created⟩ := holds_mem taken
  cases takes
  have named : s.chain.created i = some .call := created i (by simp)
  obtain ⟨calls, moved, stepped⟩ := bind_ok.mp stepped
  cases pure_ok.mp stepped
  cases pure_ok.mp ran
  have grown := (callStep_moves moved i).totalWritten
  obtain ⟨_, moved⟩ := check_bind_ok.mp moved
  obtain ⟨_, _, moved⟩ := bind_ok.mp moved
  obtain ⟨⟨_, _⟩, wrote, _⟩ := bind_ok.mp moved
  have positive := (Bucket.writeSpread_ok wrote).2.1
  refine not_mirrors i mirrors rfl fun same => ?_
  simp only [Chain.cursors, named, Option.map_some, Option.some.injEq, Queue.cursors, Prod.mk.injEq] at same
  simp only [CallOp.written, if_true] at grown
  omega

theorem put_writeSpread_breaks {sender : SuiAddress} {quoted : Option Quoted} {allowed : Bool} {i j : ObjectId}
    {amount topUp : Nat} (mirrors : s.Mirrors)
    (ran : s.step ⟨.put sender quoted (.writeSpread allowed i j amount topUp), timestampMs⟩ = .ok next) :
    ¬ next.Mirrors := by
  obtain ⟨_, stepped, ran⟩ := bind_ok.mp ran
  obtain ⟨taken, stepped⟩ := check_bind_ok.mp stepped
  obtain ⟨ids, takes, created⟩ := holds_mem taken
  cases takes
  have named : s.chain.created i = some .put := created i (by simp)
  obtain ⟨puts, moved, stepped⟩ := bind_ok.mp stepped
  cases pure_ok.mp stepped
  cases pure_ok.mp ran
  have grown := (putStep_moves moved i).totalWritten
  obtain ⟨_, moved⟩ := check_bind_ok.mp moved
  obtain ⟨_, _, moved⟩ := bind_ok.mp moved
  obtain ⟨⟨_, _⟩, wrote, _⟩ := bind_ok.mp moved
  have positive := (PutBucket.writeSpread_ok wrote).2.1
  refine not_mirrors i mirrors rfl fun same => ?_
  simp only [Chain.cursors, named, Option.map_some, Option.some.injEq, Queue.cursors, Prod.mk.injEq] at same
  simp only [PutOp.written, if_true] at grown
  omega

theorem exerciseSpread_breaks {sender : SuiAddress} {quoted : Option Quoted} {i j : ObjectId} {amount delivery : Nat}
    (mirrors : s.Mirrors)
    (ran : s.step ⟨.put sender quoted (.exerciseSpread i j amount delivery), timestampMs⟩ = .ok next) :
    ¬ next.Mirrors := by
  obtain ⟨_, stepped, ran⟩ := bind_ok.mp ran
  obtain ⟨taken, stepped⟩ := check_bind_ok.mp stepped
  obtain ⟨ids, takes, created⟩ := holds_mem taken
  cases takes
  have named : s.chain.created i = some .put := created i (by simp)
  obtain ⟨puts, moved, stepped⟩ := bind_ok.mp stepped
  cases pure_ok.mp stepped
  cases pure_ok.mp ran
  obtain ⟨different, moved⟩ := check_bind_ok.mp moved
  obtain ⟨_, spent, moved⟩ := bind_ok.mp moved
  obtain ⟨_, rfl⟩ := System.take_ok.mp spent
  obtain ⟨⟨_, b, long⟩, exercised, moved⟩ := bind_ok.mp moved
  cases pure_ok.mp moved
  have further : (s.chain.puts.buckets i).exerciseCursor < b.exerciseCursor := PutBucket.exerciseSpread_lt exercised
  -- the long leg's event is the only one the views apply, and it is about bucket `j`
  have kept : ∀ after, (applyEvents timestampMs s.views (putEvents sender quoted s.chain.puts after
      (.exerciseSpread i j amount delivery))).cursors i = s.views.cursors i := fun after => by
    simp [applyEvents, applyEvent, putEvents, different]
  refine not_mirrors i mirrors (kept _) fun same => ?_
  simp only [Chain.cursors, named, Option.map_some, Option.some.injEq, Queue.cursors, Prod.mk.injEq] at same
  have stays := same.2
  simp only [System.retire, System.setBucket, Function.update_of_ne different, Function.update_self] at stays
  omega

theorem silent_breaks (mirrors : s.Mirrors) (silent : t.op.silent = true) (ran : s.step t = .ok next) :
    ¬ next.Mirrors := by
  obtain ⟨op, timestampMs⟩ := t
  cases op with
  | tick now => cases silent
  | createBucket b => cases silent
  | createPutBucket b => cases silent
  | call sender quoted op =>
    cases op with
    | writeSpread allowed i j amount cash => exact writeSpread_breaks mirrors ran
    | _ => cases silent
  | put sender quoted op =>
    cases op with
    | writeSpread allowed i j amount topUp => exact put_writeSpread_breaks mirrors ran
    | exerciseSpread i j amount delivery => exact exerciseSpread_breaks mirrors ran
    | _ => cases silent

theorem create_empty (now : Nat) : (create now).Mirrors := fun id => by
  simp [create, Chain.create, Chain.cursors, Views.cursors, Views.default]

/-- The views hold the cursors of the chain after every transaction of a run exactly when
no transaction writes a spread or exercises a put spread. -/
theorem buckets_mirrored_iff {now : Nat} {run : List Transaction} {final : Indexed}
    (ran : exec step (create now) run = .ok final) :
    (∀ before middle, before <+: run → exec step (create now) before = .ok middle → middle.Mirrors) ↔
      ∀ t ∈ run, t.op.silent = false := by
  constructor
  · intro throughout t member
    by_contra loud
    obtain ⟨before, after, rfl⟩ := List.append_of_mem member
    obtain ⟨middle, early, late⟩ := (exec_append_ok step).mp ran
    obtain ⟨next, moved, _⟩ := (exec_cons_ok step).mp late
    have reached : exec step (create now) (before ++ [t]) = .ok next :=
      (exec_append_ok step).mpr ⟨middle, early, (exec_cons_ok step).mpr ⟨next, moved, rfl⟩⟩
    have here := throughout before middle ⟨t :: after, rfl⟩ early
    have there := throughout (before ++ [t]) next ⟨after, by simp⟩ reached
    exact silent_breaks here (by simpa using loud) moved there
  · intro audible before middle isPrefix reached
    refine exec_invariant_only step (fun t => t.op.silent = false) Mirrors ?_ (create_empty now) ?_ reached
    · exact fun s t next mirrors quiet moved => step_mirrors mirrors quiet moved
    · exact fun t member => audible t (isPrefix.subset member)

def sampleBucket (id : ObjectId) : BucketCreated := ⟨id, ['B'], ['U'], ['C'], 100, 1, 0⟩

def plainRun : List Transaction :=
  [⟨.createBucket (sampleBucket 1), 5⟩, ⟨.createPutBucket (sampleBucket 2), 5⟩,
    ⟨.call 7 none (.write 1 4), 6⟩, ⟨.put 7 none (.write 2 3 3), 6⟩, ⟨.call 8 none (.exercise 1 3 3), 7⟩]

def spreadRun : List Transaction :=
  [⟨.createBucket (sampleBucket 1), 5⟩, ⟨.createBucket (sampleBucket 2), 5⟩, ⟨.call 7 none (.write 2 1), 6⟩,
    ⟨.call 7 none (.writeSpread true 1 2 1 1), 7⟩]

theorem buckets_mirrored_plain : ∃ final, exec step (create 0) plainRun = .ok final ∧ final.Mirrors := by
  refine exists_ok (fun _ => true) (by decide) fun final ran _ => ?_
  exact (buckets_mirrored_iff ran).mpr (by decide) plainRun final (List.prefix_refl _) ran

/-- After the spread write the chain has one unit written and the view none. -/
theorem spread_write_unseen : ∃ final, exec step (create 0) spreadRun = .ok final ∧
    final.views.cursors 1 = some (0, 0) ∧ final.chain.cursors 1 = some (1, 0) := by
  refine exists_ok (fun final => final.views.cursors 1 = some (0, 0) ∧ final.chain.cursors 1 = some (1, 0)) (by decide)
    fun final _ seen => ?_
  simpa using seen

end Indexed

end SuiOptions.Indexer
