import SuiOptions.Vault.Valuation

/-! The equity oracle: `equity_oracle.move`, and what an appraisal counts of the
external account.

Payments to and from the account move the vault's exposure at once. The book's
entry for the account moves when a poster says so, by a bounded step each time.
-/

set_option autoImplicit false

namespace SuiOptions.Vault

open Execution Move
open Exchange (ID Address DomainState)
open TradingVault

variable {Obj : Type}

structure EquityEntry where
  equity : Nat
  updatedAtMs : Nat
  deriving DecidableEq, Repr

structure EquityBook where
  entries : Table ID EquityEntry
  posters : List Address
  maxAgeMs : Nat
  maxDeltaBps : Nat
  minIntervalMs : Nat
  deriving DecidableEq, Repr

/-- The witness type that only the book's `record` can make. -/
def equityOracle : TypeName := "EquityOracle"

namespace EquityBook

def new : EquityBook where
  entries := []
  posters := []
  maxAgeMs := 300000
  maxDeltaBps := 2000
  minIntervalMs := 60000

variable (book : EquityBook)

def seedEquity (vault : ID) (equity now : Nat) : EquityBook :=
  { book with
    entries :=
      if book.entries.contains vault then book.entries.set vault ⟨equity, now⟩
      else book.entries.add vault ⟨equity, now⟩ }

/-- The step that a post may take from the previous value; from zero, any. -/
def InBand (previous equity : Nat) : Prop :=
  0 < previous → (if previous < equity then equity - previous else previous - equity) * bpsDenom ≤
    previous * book.maxDeltaBps

instance (previous equity : Nat) : Decidable (book.InBand previous equity) :=
  inferInstanceAs (Decidable (0 < previous → _))

def postEquity (sender : Address) (vault : ID) (equity now : Nat) : Result Error EquityBook := do
  check (sender ∈ book.posters) .notPoster
  let entry ← need (book.entries.get? vault) (.code .notSeeded)
  let due ← addU64 entry.updatedAtMs book.minIntervalMs
  check (due ≤ now) .tooSoon
  check (book.InBand entry.equity equity) .deltaTooLarge
  pure { book with entries := book.entries.set vault ⟨equity, now⟩ }

def record (oracles : List TypeName) (v : TradingVault Obj) (a : Appraisal Obj) (now : Nat) :
    Result Error (Appraisal Obj) := do
  let entry ← need (book.entries.get? v.id) (.code .notSeeded)
  check (entry.updatedAtMs < now → now - entry.updatedAtMs ≤ book.maxAgeMs) .stale
  v.recordExternalEquity oracles a equityOracle entry.equity

/-! ### Honest posts -/

def closest (previous truth : Nat) : Nat :=
  if previous = 0 then truth
  else max (previous - previous * book.maxDeltaBps / bpsDenom)
    (min (previous + previous * book.maxDeltaBps / bpsDenom) truth)

theorem inBand_iff {previous equity : Nat} (marked : previous ≠ 0) :
    book.InBand previous equity ↔
      previous - previous * book.maxDeltaBps / bpsDenom ≤ equity ∧
        equity ≤ previous + previous * book.maxDeltaBps / bpsDenom := by
  have bound (delta : Nat) :
      delta * bpsDenom ≤ previous * book.maxDeltaBps ↔ delta ≤ previous * book.maxDeltaBps / bpsDenom :=
    (Nat.le_div_iff_mul_le (by decide)).symm
  simp only [InBand, bound, Nat.pos_of_ne_zero marked, forall_const]
  generalize previous * book.maxDeltaBps / bpsDenom = delta
  split <;> omega

theorem closest_inBand (previous truth : Nat) : book.InBand previous (book.closest previous truth) := by
  by_cases marked : previous = 0
  · intro positive
    omega
  · rw [book.inBand_iff marked, closest, if_neg marked]
    generalize previous * book.maxDeltaBps / bpsDenom = delta
    omega

/-- No other value that a post may write is nearer to the truth. -/
theorem closest_nearest {previous truth other : Nat} (allowed : book.InBand previous other) :
    ((book.closest previous truth : Int) - truth).natAbs ≤ ((other : Int) - truth).natAbs := by
  by_cases marked : previous = 0
  · simp [closest, marked]
  · rw [book.inBand_iff marked] at allowed
    rw [closest, if_neg marked]
    generalize previous * book.maxDeltaBps / bpsDenom = delta at allowed ⊢
    omega

theorem closest_le {previous truth : Nat} (low : previous ≤ truth) : book.closest previous truth ≤ truth := by
  unfold closest
  generalize previous * book.maxDeltaBps / bpsDenom = delta
  split <;> omega

def walked (truth : Nat) : Nat → Nat → Nat
  | 0, entry => entry
  | posts + 1, entry => walked truth posts (book.closest entry truth)

/-- Honest posts never carry an entry past the truth. -/
theorem walked_le {truth posts entry : Nat} (low : entry ≤ truth) : book.walked truth posts entry ≤ truth := by
  induction posts generalizing entry with
  | zero => exact low
  | succ posts ih => exact ih (book.closest_le low)

theorem walked_congr {other : EquityBook} (same : other.maxDeltaBps = book.maxDeltaBps) (truth posts entry : Nat) :
    other.walked truth posts entry = book.walked truth posts entry := by
  induction posts generalizing entry with
  | zero => rfl
  | succ posts ih =>
    have step : other.closest entry truth = book.closest entry truth := by rw [closest, closest, same]
    rw [walked, walked, step, ih]

theorem postEquity_ok {book after : EquityBook} {sender : Address} {vault : ID} {equity now : Nat}
    (ran : book.postEquity sender vault equity now = .ok after) :
    ∃ entry, book.entries.get? vault = some entry ∧ book.InBand entry.equity equity ∧
      after.maxDeltaBps = book.maxDeltaBps ∧ after.entries.get? vault = some ⟨equity, now⟩ := by
  simp only [postEquity, bind_ok, check_ok, exists_const, need_ok, pure_ok] at ran
  obtain ⟨_, entry, found, _, _, _, band, rfl⟩ := ran
  exact ⟨entry, found, band, rfl, Table.get?_set_self found _⟩

theorem record_ok {book : EquityBook} {oracles : List TypeName} {v : TradingVault Obj} {a grown : Appraisal Obj} {now : Nat}
    (ran : book.record oracles v a now = .ok grown) :
    ∃ entry, book.entries.get? v.id = some entry ∧
      v.recordExternalEquity oracles a equityOracle entry.equity = .ok grown := by
  simp only [record, bind_ok, check_ok, exists_const, need_ok] at ran
  obtain ⟨entry, found, _, recorded⟩ := ran
  exact ⟨entry, found, recorded⟩

end EquityBook

/-! ### Payments -/

/-- A payment to the external account, or back from it. -/
inductive Payment (Obj : Type) where
  | release (cap : ID) (a : Appraisal Obj) (t : TypeName) (amount : Nat)
  | back (sender : Address) (t : TypeName) (amount : Nat)

namespace Payment

def run (env : Env) (v : TradingVault Obj) : Payment Obj → Result Error (TradingVault Obj)
  | .release cap a t amount => v.releaseExternal env.cfg cap a t amount env.now
  | .back sender t amount => v.returnExternal sender t amount

/-- What the account is worth after the payment. -/
def equityAfter (equity : Nat) : Payment Obj → Nat
  | .release _ _ _ amount => equity + amount
  | .back _ _ amount => equity - amount

end Payment

/-! ### An appraisal after a payment -/

structure Desk (Obj : Type) where
  appraisal : Option (Appraisal Obj)
  book : EquityBook
  now : Nat

inductive DeskStep where
  | opens (t : TypeName)
  | balance (t : TypeName) (att : PriceAttestation)
  | position (witness : TypeName) (id : ID) (value : Nat)
  | equity
  | post (sender : Address)
  | wait (now : Nat)

namespace Desk

variable (env : Env) (v : TradingVault Obj) (truth : Nat) (d : Desk Obj)

def valued (valuation : Appraisal Obj → Result Error (Appraisal Obj)) : Result Error (Desk Obj) := do
  let a ← need d.appraisal (.code .noSuchObject)
  let grown ← valuation a
  pure { d with appraisal := some grown }

/-- One step of an appraisal of a vault whose external account is truly worth `truth`. -/
def step : DeskStep → Result Error (Desk Obj)
  | .opens t => do
    check (d.appraisal.isNone) .openPotato
    let a ← v.beginAppraisal t
    pure { d with appraisal := some a }
  | .balance t att => d.valued fun a => v.appraiseBalance env.cfg a t att d.now
  | .position witness object value => d.valued fun a => v.recordPositionValue a witness object value
  | .equity => d.valued fun a => d.book.record env.oracles v a d.now
  | .post sender => do
    let entry ← need (d.book.entries.get? v.id) (.code .notSeeded)
    let book ← d.book.postEquity sender v.id (d.book.closest entry.equity truth) d.now
    pure { d with book }
  | .wait now => do
    -- an appraisal ends with its transaction, and so does its time
    check (d.appraisal.isNone) .openPotato
    check (d.now ≤ now) .clockBackwards
    pure { d with now }

end Desk

namespace DeskStep

/-- The prices of a step are the market's. -/
def AtMarket (m : Market Obj) (v : TradingVault Obj) : DeskStep → Prop
  | .balance t att => att.price = m.price t
  | .position _ object value => ∀ o ∈ v.custody.objects, o.id = object → value = m.mark o.object
  | _ => True

/-- The posts made before the equity is recorded. -/
def postsBefore : List DeskStep → Nat
  | [] => 0
  | .equity :: _ => 0
  | .post _ :: rest => postsBefore rest + 1
  | _ :: rest => postsBefore rest

end DeskStep

namespace Desk

open DeskStep (postsBefore)

variable {env : Env} {v : TradingVault Obj} {truth : Nat} {d after : Desk Obj} {m : Market Obj}

/-- A desk with steps to go: the appraisal is at the market's prices, and the market's equity is
what the appraisal has recorded or is going to record. -/
structure Tracks (m : Market Obj) (v : TradingVault Obj) (truth : Nat) (rest : List DeskStep) (d : Desk Obj) :
    Prop where
  priced : ∀ a, d.appraisal = some a → Fits v a ∧ m.Appraised v a
  equity : (∃ a, d.appraisal = some a ∧ a.externalPending = false) ∨
    ∃ entry, d.book.entries.get? v.id = some entry ∧ m.equity = d.book.walked truth (postsBefore rest) entry.equity

theorem valued_ok {valuation : Appraisal Obj → Result Error (Appraisal Obj)} (ran : d.valued valuation = .ok after) :
    ∃ a grown, d.appraisal = some a ∧ valuation a = .ok grown ∧ { d with appraisal := some grown } = after := by
  simp only [valued, bind_ok, need_ok, pure_ok] at ran
  obtain ⟨a, present, grown, values, rfl⟩ := ran
  exact ⟨a, grown, present, values, rfl⟩

theorem Tracks.grow {rest later : List DeskStep} {a grown : Appraisal Obj} (tracks : Tracks m v truth rest d)
    (present : d.appraisal = some a) (fits : Fits v grown) (appraised : m.Appraised v grown)
    (pending : grown.externalPending = a.externalPending) (posts : postsBefore rest = postsBefore later) :
    Tracks m v truth later { d with appraisal := some grown } := by
  refine ⟨?_, ?_⟩
  · rintro _ ⟨⟩
    exact ⟨fits, appraised⟩
  · rcases tracks.equity with ⟨old, same, recorded⟩ | ⟨entry, found, value⟩
    · cases present.symm.trans same
      exact Or.inl ⟨grown, rfl, pending.trans recorded⟩
    · exact Or.inr ⟨entry, found, posts ▸ value⟩

theorem step_tracks {s : DeskStep} {rest : List DeskStep} (tracks : Tracks m v truth (s :: rest) d)
    (market : s.AtMarket m v) (ran : d.step env v truth s = .ok after) : Tracks m v truth rest after := by
  cases s with
  | opens t =>
    simp only [step, bind_ok, check_ok, exists_const, pure_ok] at ran
    obtain ⟨closed, a, begins, rfl⟩ := ran
    refine ⟨?_, ?_⟩
    · rintro _ ⟨⟩
      exact ⟨beginAppraisal_fits begins, .begins m begins⟩
    · rcases tracks.equity with ⟨old, same, _⟩ | ahead
      · rw [same] at closed
        cases closed
      · exact Or.inr ahead
  | balance t att =>
    obtain ⟨a, grown, present, values, rfl⟩ := valued_ok ran
    obtain ⟨fits, appraised⟩ := tracks.priced a present
    refine tracks.grow present (appraiseBalance_fits fits values) (appraised.balance m market values) ?_ rfl
    simp only [appraiseBalance, bind_ok, pure_ok] at values
    obtain ⟨_, _, _, _, _, _, _, _, rfl⟩ := values
    rfl
  | position witness object value =>
    obtain ⟨a, grown, present, values, rfl⟩ := valued_ok ran
    obtain ⟨fits, appraised⟩ := tracks.priced a present
    refine tracks.grow present (recordPositionValue_fits fits values) (appraised.position m market values) ?_ rfl
    obtain ⟨_, _, _, _, rfl⟩ := recordPositionValue_ok values
    rfl
  | equity =>
    obtain ⟨a, grown, present, values, rfl⟩ := valued_ok ran
    obtain ⟨fits, appraised⟩ := tracks.priced a present
    obtain ⟨entry, found, records⟩ := EquityBook.record_ok values
    have legs := records
    simp only [recordExternalEquity, bind_ok, need_ok, check_ok, exists_const, pure_ok] at legs
    obtain ⟨_, _, _, _, pending, _, _, rfl⟩ := legs
    -- the leg can be added once, so nothing was recorded before and the entry is the one tracked
    have value : entry.equity = m.equity := by
      rcases tracks.equity with ⟨old, same, recorded⟩ | ⟨entry', found', value⟩
      · cases present.symm.trans same
        cases pending.symm.trans recorded
      · cases found.symm.trans found'
        exact value.symm
    refine ⟨?_, Or.inl ⟨_, rfl, rfl⟩⟩
    rintro _ ⟨⟩
    exact ⟨recordExternalEquity_fits fits records, appraised.record m value records⟩
  | post sender =>
    simp only [step, bind_ok, need_ok, pure_ok] at ran
    obtain ⟨entry, found, book, posts, rfl⟩ := ran
    obtain ⟨_, _, _, delta, stored⟩ := EquityBook.postEquity_ok posts
    refine ⟨tracks.priced, tracks.equity.imp_right ?_⟩
    rintro ⟨entry', found', value⟩
    cases found.symm.trans found'
    refine ⟨_, stored, ?_⟩
    rw [value, EquityBook.walked_congr _ delta]
    rfl
  | wait now =>
    simp only [step, bind_ok, check_ok, exists_const, pure_ok] at ran
    obtain ⟨_, _, rfl⟩ := ran
    exact ⟨tracks.priced, tracks.equity⟩

theorem exec_tracks {steps : List DeskStep} (tracks : Tracks m v truth steps d)
    (market : ∀ s ∈ steps, s.AtMarket m v) (ran : exec (step env v truth) d steps = .ok after) :
    Tracks m v truth [] after := by
  induction steps generalizing d with
  | nil =>
    cases ran
    exact tracks
  | cons s rest ih =>
    obtain ⟨next, moved, tail⟩ := (exec_cons_ok _).mp ran
    exact ih (step_tracks tracks (market s List.mem_cons_self) moved)
      (fun later member => market later (List.mem_cons_of_mem _ member)) tail

end Desk

def Market.withEquity (m : Market Obj) (equity : Nat) : Market Obj := { m with equity }

theorem DeskStep.AtMarket.withEquity {m : Market Obj} {v : TradingVault Obj} {s : DeskStep} (market : s.AtMarket m v)
    (equity : Nat) : s.AtMarket (m.withEquity equity) v := by
  cases s with
  | balance t att => exact market
  | position witness object value => exact market
  | _ => trivial

/-- The value of a complete appraisal: free balances and objects at the market's prices, and
while there is exposure the entry as the honest posts left it. -/
theorem Desk.nav {env : Env} {v : TradingVault Obj} {truth now nav : Nat} {book : EquityBook} {entry : EquityEntry}
    {m : Market Obj} {steps : List DeskStep} {d : Desk Obj} {a : Appraisal Obj}
    (found : book.entries.get? v.id = some entry) (market : ∀ s ∈ steps, s.AtMarket m v)
    (ran : exec (Desk.step env v truth) ⟨none, book, now⟩ steps = .ok d) (complete : d.appraisal = some a)
    (consumed : v.consumeAppraisal a = .ok nav) :
    nav = m.cash v + m.objects v +
      if 0 < v.exposure then book.walked truth (DeskStep.postsBefore steps) entry.equity else 0 := by
  let known := m.withEquity (book.walked truth (DeskStep.postsBefore steps) entry.equity)
  have start : Desk.Tracks known v truth steps ⟨none, book, now⟩ := ⟨nofun, Or.inr ⟨entry, found, rfl⟩⟩
  have tracks := Desk.exec_tracks start (fun s member => (market s member).withEquity _) ran
  obtain ⟨fits, appraised⟩ := tracks.priced a complete
  exact appraised.nav known fits consumed

/-! ### Payments and the entry -/

namespace Payment

variable {env : Env} {v paid : TradingVault Obj}

theorem run_frame {pay : Payment Obj} (pays : pay.run env v = .ok paid) :
    paid.id = v.id ∧ ∀ sender t amount, pay = .back sender t amount → paid.exposure = v.exposure - amount := by
  cases pay with
  | release cap a t amount =>
    obtain ⟨_, _, _, _, _, _, _, _, _, _, syncs, _, _, _, rfl⟩ := releaseExternal_ok pays
    exact ⟨(syncCapital_frame syncs).id, nofun⟩
  | back sender t amount =>
    obtain ⟨ext, _, known, _, _, _, rfl⟩ := returnExternal_ok pays
    refine ⟨rfl, ?_⟩
    rintro _ _ _ ⟨⟩
    simp [TradingVault.exposure, known]

/-- The entry has come down by what was paid back, or is not counted any more. -/
def Followed (book : EquityBook) (v : TradingVault Obj) (equity posts : Nat) : Payment Obj → Prop
  | .release _ _ _ _ => True
  | .back _ _ amount => v.exposure ≤ amount ∨ book.walked (equity - amount) posts equity ≤ equity - amount

end Payment

/-- After a payment from a book that was right, a complete appraisal counts no more than the
vault's balances and objects and the account's true equity exactly when the honest posts
before it followed the payment. -/
theorem external_nav_le_iff_followed {env : Env} {v paid : TradingVault Obj} {pay : Payment Obj} {book : EquityBook}
    {entry : EquityEntry} {m : Market Obj} {steps : List DeskStep} {d : Desk Obj} {a : Appraisal Obj} {nav : Nat}
    (right : book.entries.get? v.id = some entry) (pays : pay.run env v = .ok paid)
    (market : ∀ s ∈ steps, s.AtMarket m paid)
    (ran : exec (Desk.step env paid (pay.equityAfter entry.equity)) ⟨none, book, env.now⟩ steps = .ok d)
    (complete : d.appraisal = some a) (consumed : paid.consumeAppraisal a = .ok nav) :
    nav ≤ m.cash paid + m.objects paid + pay.equityAfter entry.equity ↔
      pay.Followed book v entry.equity (DeskStep.postsBefore steps) := by
  obtain ⟨same, exposure⟩ := Payment.run_frame pays
  rw [Desk.nav (same ▸ right) market ran complete consumed]
  cases pay with
  | release cap b t amount =>
    have low : book.walked (entry.equity + amount) (DeskStep.postsBefore steps) entry.equity ≤ entry.equity + amount :=
      book.walked_le (Nat.le_add_right _ _)
    simp only [Payment.equityAfter, Payment.Followed, iff_true]
    split <;> omega
  | back sender t amount =>
    rw [exposure sender t amount rfl]
    simp only [Payment.equityAfter, Payment.Followed]
    split <;> omega

namespace Sample

def hedged : List (Action Nat) :=
  deposit 1000 .untranched 10 ++
    [.call (.setExternalAccount 9 equityOracle 10000 10000), .beginAppraisal "USDC",
      .use 0 (.releaseExternal 2 "USDC" 400)]

def equityBook : EquityBook := { EquityBook.new.seedEquity 1 400 1000 with posters := [11] }

def prices : Market Nat := ⟨fun _ => priceScale, fun _ => 0, 0⟩

def recording : List DeskStep := [.opens "USDC", .equity]

def posting : List DeskStep := [.wait 61000, .post 11, .wait 121000, .post 11] ++ recording

def navOf (v : TradingVault Nat) (d : Desk Nat) : Option Nat :=
  d.appraisal.bind fun a => (v.consumeAppraisal a).toOption

theorem priced_of_navOf {v : TradingVault Nat} {d : Desk Nat} {nav : Nat} (found : navOf v d = some nav) :
    ∃ a, d.appraisal = some a ∧ v.consumeAppraisal a = .ok nav := by
  obtain ⟨a, present, value⟩ := Option.bind_eq_some_iff.mp found
  refine ⟨a, present, ?_⟩
  cases outcome : v.consumeAppraisal a with
  | ok other =>
    rw [outcome] at value
    exact congrArg _ (Option.some.inj value)
  | error why =>
    rw [outcome] at value
    cases value

end Sample

/-- Two honest posts follow a payment of 100 out of 400. -/
theorem external_nav_le_after_two_posts :
    ∃ w : World Nat, World.play (Sample.genesis .untranched) Sample.hedged = .ok w ∧
      ∃ paid, Payment.run w.env w.vault (.back 9 "USDC" 100) = .ok paid ∧
        ∃ d, exec (Desk.step w.env paid 300) ⟨none, Sample.equityBook, w.env.now⟩ Sample.posting = .ok d ∧
          ∃ a, d.appraisal = some a ∧ paid.consumeAppraisal a = .ok 1000 ∧
            1000 ≤ Sample.prices.cash paid + Sample.prices.objects paid + 300 := by
  refine exists_ok
    (fun w => (Payment.run w.env w.vault (.back 9 "USDC" 100)).toOption.any fun paid =>
      decide (Sample.equityBook.entries.get? w.vault.id = some ⟨400, 1000⟩) &&
      (exec (Desk.step w.env paid 300) ⟨none, Sample.equityBook, w.env.now⟩ Sample.posting).toOption.any fun d =>
        decide (Sample.navOf paid d = some 1000)) (by decide +kernel) ?_
  intro w _ passed
  refine exists_ok _ passed ?_
  intro paid pays tested
  obtain ⟨right, runs⟩ := Bool.and_eq_true_iff.mp tested
  refine exists_ok _ runs ?_
  intro d ran valued
  obtain ⟨a, complete, consumed⟩ := Sample.priced_of_navOf (of_decide_eq_true valued)
  refine ⟨a, complete, consumed, ?_⟩
  refine (external_nav_le_iff_followed (m := Sample.prices) (of_decide_eq_true right) pays ?_ ran complete consumed).mpr
    ?_
  · simp [Sample.posting, Sample.recording, DeskStep.AtMarket]
  · exact Or.inr (by decide)

/-- An appraisal right after the payment counts the 100 twice. -/
theorem external_return_counted_twice :
    ∃ w : World Nat, World.play (Sample.genesis .untranched) Sample.hedged = .ok w ∧
      Sample.equityBook.entries.get? w.vault.id = some ⟨400, 1000⟩ ∧
      ∃ paid, Payment.run w.env w.vault (.back 9 "USDC" 100) = .ok paid ∧
        ∃ d, exec (Desk.step w.env paid 300) ⟨none, Sample.equityBook, w.env.now⟩ Sample.recording = .ok d ∧
          ∃ a, d.appraisal = some a ∧ paid.consumeAppraisal a = .ok 1100 ∧
            Sample.prices.cash paid + Sample.prices.objects paid + 300 = 1000 := by
  refine exists_ok
    (fun w => decide (Sample.equityBook.entries.get? w.vault.id = some ⟨400, 1000⟩) &&
      (Payment.run w.env w.vault (.back 9 "USDC" 100)).toOption.any fun paid =>
      (exec (Desk.step w.env paid 300) ⟨none, Sample.equityBook, w.env.now⟩ Sample.recording).toOption.any fun d =>
        decide (Sample.navOf paid d = some 1100) &&
          decide (Sample.prices.cash paid + Sample.prices.objects paid + 300 = 1000)) (by decide +kernel) ?_
  intro w _ tested
  obtain ⟨right, passed⟩ := Bool.and_eq_true_iff.mp tested
  refine ⟨of_decide_eq_true right, exists_ok _ passed ?_⟩
  intro paid _ runs
  refine exists_ok _ runs ?_
  intro d _ valued
  obtain ⟨nav, value⟩ := Bool.and_eq_true_iff.mp valued
  obtain ⟨a, complete, consumed⟩ := Sample.priced_of_navOf (of_decide_eq_true nav)
  exact ⟨a, complete, consumed, of_decide_eq_true value⟩

end SuiOptions.Vault
