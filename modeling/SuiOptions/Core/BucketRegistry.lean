import SuiOptions.Core.Strike
import SuiOptions.Core.OptionCoin

/-! Creation and removal of buckets: `bucket_registry.move` and the any-strike
constructors of `bucket.move` and `put_bucket.move`.

Two registries refuse a second bucket of the same terms, the derived objects by
the key and the coin registry by the coin type. Neither forgets: a bucket that
was cleaned up cannot be created again.
-/

set_option autoImplicit false

namespace SuiOptions.Core

open Execution Move

structure BucketKey where
  asset : TypeName
  settlement : TypeName
  expiryMs : Nat
  sig : Nat
  exp : Nat
  isPut : Bool
  deriving DecidableEq

/-- The identity of a `Bucket` or `PutBucket`, fixed at its creation. -/
structure OptionBucket where
  isPut : Bool
  assetType : TypeName
  settlementType : TypeName
  coinType : TypeName
  expiryMs : Nat
  strike : Nat
  strikeScale : Nat
  deriving DecidableEq

structure Board where
  now : Nat
  claimed : List BucketKey
  currencies : List TypeName
  live : List OptionBucket

/-- Type arguments and arguments of `create_bucket_any_strike` or its put twin.
`allowed` is the answer of the whitelist for the sender. -/
structure Listing where
  isPut : Bool
  underlying : MoveType
  settlement : MoveType
  digits : Fin 10 → MoveType
  expiryMs : Nat
  strike : Nat
  strikeScale : Nat
  allowed : Bool

def u32Max : Nat := 2 ^ 32 - 1

-- the address of the package, as its types carry it
variable (package : BitVec 256)

/-- `register_call` and `register_put`: the coin type, when it is the one the terms call for. -/
def Board.register (board : Board) (listing : Listing) (expiryMinutes sig exp : Nat) :
    Result ListingError TypeName := do
  let actual := typeName (optionType package listing.isPut listing.underlying listing.settlement (List.ofFn listing.digits))
  check (actual = expectedTypeBytes package listing.isPut listing.underlying listing.settlement expiryMinutes sig exp)
    .encodingMismatch
  check (actual ∉ board.currencies) .currencyAlreadyExists
  pure actual

def Board.createAnyStrike (board : Board) (listing : Listing) : Result ListingError Board := do
  check (listing.allowed = true) .ingressNotAllowed
  check (board.now < listing.expiryMs) .bucketExpired
  check (listing.expiryMs % 60000 = 0) .expiryNotAligned
  check (listing.expiryMs / 60000 ≤ u32Max) .expiryNotAligned
  check (listing.strikeScale ≤ maxStrikeScale) .strikeScaleTooLarge
  let (sig, exp) ← normalizeStrike listing.strike listing.strikeScale
  let key : BucketKey := ⟨typeName listing.underlying, typeName listing.settlement, listing.expiryMs, sig, exp, listing.isPut⟩
  check (key ∉ board.claimed) .objectAlreadyExists
  let coinType ← board.register package listing (listing.expiryMs / 60000) sig exp
  let bucket : OptionBucket :=
    ⟨listing.isPut, typeName listing.underlying, typeName listing.settlement, coinType, listing.expiryMs, sig, exp⟩
  pure { board with
    claimed := key :: board.claimed
    currencies := coinType :: board.currencies
    live := bucket :: board.live }

/-- `cleanup_bucket`. Whether the bucket is drained is up to its books, which are not part of its identity. -/
def Board.cleanup (board : Board) (bucket : OptionBucket) (drained : Bool) : Result ListingError Board := do
  check (bucket ∈ board.live) .noSuchBucket
  check (bucket.expiryMs ≤ board.now) .bucketNotExpired
  check (drained = true) .bucketNotDrained
  pure { board with live := board.live.erase bucket }

def Board.tick (board : Board) (now : Nat) : Result ListingError Board := do
  check (board.now ≤ now) .clockRegression
  pure { board with now := now }

inductive BoardCall where
  | createAnyStrike (listing : Listing)
  | cleanup (bucket : OptionBucket) (drained : Bool)
  | tick (now : Nat)

def Board.step (board : Board) : BoardCall → Result ListingError Board
  | .createAnyStrike listing => board.createAnyStrike package listing
  | .cleanup bucket drained => board.cleanup bucket drained
  | .tick now => board.tick now

def Board.start (now : Nat) : Board := ⟨now, [], [], []⟩

/-! ### What a bucket denotes -/

def strikeRatio (pair : Nat × Nat) : ℚ := pair.1 / 10 ^ pair.2

theorem strikeRatio_eq_iff (first second : Nat × Nat) : strikeRatio first = strikeRatio second ↔ SameStrike first second := by
  unfold strikeRatio SameStrike
  have power : ∀ n : Nat, (10 : ℚ) ^ n ≠ 0 := fun n => pow_ne_zero n (by norm_num)
  rw [div_eq_div_iff (power _) (power _)]
  norm_cast

def OptionBucket.key (bucket : OptionBucket) : BucketKey :=
  ⟨bucket.assetType, bucket.settlementType, bucket.expiryMs, bucket.strike, bucket.strikeScale, bucket.isPut⟩

/-- The two buckets are the same option: one side, pair, expiry and strike. -/
def SameOption (first second : OptionBucket) : Prop :=
  first.isPut = second.isPut ∧ first.assetType = second.assetType ∧ first.settlementType = second.settlementType ∧
    first.expiryMs = second.expiryMs ∧
    strikeRatio (first.strike, first.strikeScale) = strikeRatio (second.strike, second.strikeScale)

structure OptionTerms where
  isPut : Bool
  underlying : MoveType
  settlement : MoveType
  expiryMs : Nat
  sig : Nat
  exp : Nat

def OptionTerms.key (terms : OptionTerms) : BucketKey :=
  ⟨typeName terms.underlying, typeName terms.settlement, terms.expiryMs, terms.sig, terms.exp, terms.isPut⟩

def OptionTerms.coinType (terms : OptionTerms) : TypeName :=
  expectedTypeBytes package terms.isPut terms.underlying terms.settlement (terms.expiryMs / 60000) terms.sig terms.exp

/-- What creation requires of the fields: whole minutes that fit, a significand and an exponent of their widths. -/
def OptionTerms.Aligned (terms : OptionTerms) : Prop :=
  terms.expiryMs % 60000 = 0 ∧ Encodable (terms.expiryMs / 60000) terms.sig terms.exp

theorem OptionTerms.key_injective : Function.Injective OptionTerms.key := by
  intro first second same
  cases first
  cases second
  simp only [OptionTerms.key, BucketKey.mk.injEq] at same
  obtain ⟨assets, settlements, rfl, rfl, rfl, rfl⟩ := same
  rw [typeName_injective assets, typeName_injective settlements]

theorem expectedTypeBytes_inj {isPut isPut' : Bool} {underlying settlement underlying' settlement' : MoveType}
    {minutes sig exp minutes' sig' exp' : Nat} (left : Encodable minutes sig exp) (right : Encodable minutes' sig' exp')
    (same : expectedTypeBytes package isPut underlying settlement minutes sig exp =
      expectedTypeBytes package isPut' underlying' settlement' minutes' sig' exp') :
    isPut = isPut' ∧ underlying = underlying' ∧ settlement = settlement' ∧ minutes = minutes' ∧ sig = sig' ∧
      exp = exp' := by
  rw [expectedTypeBytes_eq, expectedTypeBytes_eq] at same
  exact expectedType_inj package left right (typeName_injective same)

theorem OptionTerms.coinType_inj {first second : OptionTerms} (left : first.Aligned) (right : second.Aligned)
    (same : first.coinType package = second.coinType package) : first = second := by
  obtain ⟨sides, assets, settlements, minutes, sigs, exps⟩ := expectedTypeBytes_inj package left.2 right.2 same
  have expiries : first.expiryMs = second.expiryMs := by
    have aligned := left.1
    have other := right.1
    omega
  cases first
  cases second
  simp only at sides assets settlements expiries sigs exps
  subst sides assets settlements expiries sigs exps
  rfl

theorem OptionTerms.key_eq_iff {first second : OptionTerms} (left : first.Aligned) (right : second.Aligned) :
    first.key = second.key ↔ first.coinType package = second.coinType package := by
  constructor
  · intro same
    rw [OptionTerms.key_injective same]
  · intro same
    rw [OptionTerms.coinType_inj package left right same]

/-! ### Runs -/

/-- Both registries know every live bucket, and no two live buckets share a key or a coin type. -/
structure Board.Listed (board : Board) : Prop where
  canonical : ∀ bucket ∈ board.live, Canonical (bucket.strike, bucket.strikeScale)
  claimed : ∀ bucket ∈ board.live, bucket.key ∈ board.claimed
  registered : ∀ bucket ∈ board.live, bucket.coinType ∈ board.currencies
  keys : (board.live.map OptionBucket.key).Nodup
  coins : (board.live.map OptionBucket.coinType).Nodup

theorem Board.createAnyStrike_ok {board after : Board} {listing : Listing}
    (created : board.createAnyStrike package listing = .ok after) :
    ∃ bucket : OptionBucket, after = { board with
        claimed := bucket.key :: board.claimed
        currencies := bucket.coinType :: board.currencies
        live := bucket :: board.live } ∧
      bucket.key ∉ board.claimed ∧ bucket.coinType ∉ board.currencies ∧
      Canonical (bucket.strike, bucket.strikeScale) ∧
      strikeRatio (bucket.strike, bucket.strikeScale) = strikeRatio (listing.strike, listing.strikeScale) := by
  simp only [createAnyStrike, register, bind_ok, check_ok, pure_ok, exists_const] at created
  obtain ⟨_, _, _, _, _, ⟨sig, exp⟩, normalized, fresh, coinType, ⟨_, unknown, rfl⟩, rfl⟩ := created
  obtain ⟨_, _, stripped⟩ := normalizeStrike_ok.mp normalized
  refine ⟨⟨listing.isPut, typeName listing.underlying, typeName listing.settlement, _, listing.expiryMs, sig, exp⟩,
    rfl, fresh, unknown, ?_, ?_⟩
  · rw [stripped]
    exact stripZeros_canonical _ _
  · rw [strikeRatio_eq_iff, stripped]
    exact stripZeros_same _ _

theorem Board.Listed.create {board after : Board} {listing : Listing} (listed : board.Listed)
    (created : board.createAnyStrike package listing = .ok after) : after.Listed := by
  obtain ⟨bucket, rfl, fresh, unknown, canonical, _⟩ := Board.createAnyStrike_ok package created
  constructor
  case canonical => exact List.forall_mem_cons.mpr ⟨canonical, listed.canonical⟩
  case claimed =>
    refine List.forall_mem_cons.mpr ⟨List.mem_cons_self, fun other member => ?_⟩
    exact List.mem_cons_of_mem _ (listed.claimed other member)
  case registered =>
    refine List.forall_mem_cons.mpr ⟨List.mem_cons_self, fun other member => ?_⟩
    exact List.mem_cons_of_mem _ (listed.registered other member)
  case keys =>
    refine List.nodup_cons.mpr ⟨fun member => ?_, listed.keys⟩
    obtain ⟨other, live, same⟩ := List.mem_map.mp member
    exact fresh (same ▸ listed.claimed other live)
  case coins =>
    refine List.nodup_cons.mpr ⟨fun member => ?_, listed.coins⟩
    obtain ⟨other, live, same⟩ := List.mem_map.mp member
    exact unknown (same ▸ listed.registered other live)

theorem Board.Listed.cleanup {board after : Board} {bucket : OptionBucket} {drained : Bool} (listed : board.Listed)
    (cleaned : board.cleanup bucket drained = .ok after) : after.Listed := by
  simp only [Board.cleanup, check_bind_ok, pure_ok] at cleaned
  obtain ⟨_, _, _, rfl⟩ := cleaned
  have fewer : (board.live.erase bucket).Sublist board.live := List.erase_sublist
  exact ⟨fun other member => listed.canonical other (fewer.subset member),
    fun other member => listed.claimed other (fewer.subset member),
    fun other member => listed.registered other (fewer.subset member),
    listed.keys.sublist (fewer.map _), listed.coins.sublist (fewer.map _)⟩

theorem Board.Listed.step {board after : Board} {call : BoardCall} (listed : board.Listed)
    (ran : board.step package call = .ok after) : after.Listed := by
  cases call with
  | createAnyStrike listing => exact listed.create package ran
  | cleanup bucket drained => exact listed.cleanup ran
  | tick now =>
    simp only [Board.step, Board.tick, check_bind_ok, pure_ok] at ran
    obtain ⟨_, rfl⟩ := ran
    exact ⟨listed.canonical, listed.claimed, listed.registered, listed.keys, listed.coins⟩

theorem Board.start_listed (now : Nat) : (Board.start now).Listed :=
  ⟨nofun, nofun, nofun, List.nodup_nil, List.nodup_nil⟩

/-- Canonical strikes of one ratio are one strike, so one option has one key. -/
theorem SameOption.key {first second : OptionBucket} (left : Canonical (first.strike, first.strikeScale))
    (right : Canonical (second.strike, second.strikeScale)) (same : SameOption first second) : first.key = second.key := by
  obtain ⟨sides, assets, settlements, expiries, ratios⟩ := same
  have pairs := left.unique right ((strikeRatio_eq_iff _ _).mp ratios)
  simp only [Prod.mk.injEq] at pairs
  unfold OptionBucket.key
  rw [sides, assets, settlements, expiries, pairs.1, pairs.2]

theorem Board.Listed.options {board : Board} (listed : board.Listed) :
    board.live.Pairwise fun first second => ¬ SameOption first second := by
  have keys : board.live.Pairwise fun first second => first.key ≠ second.key := List.pairwise_map.mp listed.keys
  refine keys.imp_of_mem fun {first second} left right differ same => ?_
  exact differ (same.key (listed.canonical first left) (listed.canonical second right))

/-- Strikes are normalized to one pair for each ratio, coin types spell the terms without
collisions, and in no run do two live buckets denote one option or share a coin type. -/
theorem Board.one_bucket_per_option :
    (∀ raw pair : Nat × Nat, normalizeStrike raw.1 raw.2 = .ok pair → strikeRatio pair = strikeRatio raw) ∧
    (∀ first second : Nat × Nat, stripZeros first.1 first.2 = stripZeros second.1 second.2 ↔
      strikeRatio first = strikeRatio second) ∧
    (∀ first second : Nat × Nat, strikeRatio first = strikeRatio second →
      normalizeStrike first.1 first.2 = normalizeStrike second.1 second.2) ∧
    (∀ first second pair : Nat × Nat, normalizeStrike first.1 first.2 = .ok pair →
      (normalizeStrike second.1 second.2 = .ok pair ↔ strikeRatio first = strikeRatio second)) ∧
    (∀ (isPut isPut' : Bool) (underlying settlement underlying' settlement' : MoveType)
      (minutes sig exp minutes' sig' exp' : Nat), Encodable minutes sig exp → Encodable minutes' sig' exp' →
      expectedTypeBytes package isPut underlying settlement minutes sig exp =
        expectedTypeBytes package isPut' underlying' settlement' minutes' sig' exp' →
      isPut = isPut' ∧ underlying = underlying' ∧ settlement = settlement' ∧ minutes = minutes' ∧ sig = sig' ∧
        exp = exp') ∧
    (∀ first second : OptionTerms, first.Aligned → second.Aligned →
      (first.key = second.key ↔ first.coinType package = second.coinType package)) ∧
    ∀ (now : Nat) (calls : List BoardCall) (board : Board),
      exec (Board.step package) (Board.start now) calls = .ok board →
      (board.live.Pairwise fun first second => ¬ SameOption first second) ∧
      (board.live.map OptionBucket.coinType).Nodup := by
  refine ⟨?_, ?_, ?_, ?_, ?_, ?_, ?_⟩
  · intro raw pair normalized
    rw [strikeRatio_eq_iff, (normalizeStrike_ok.mp normalized).2.2]
    exact stripZeros_same _ _
  · intro first second
    rw [strikeRatio_eq_iff, stripZeros_eq_iff]
  · intro first second same
    exact normalizeStrike_congr ((strikeRatio_eq_iff _ _).mp same)
  · intro first second pair normalized
    constructor
    · intro other
      have equal := (normalizeStrike_ok.mp normalized).2.2.symm.trans (normalizeStrike_ok.mp other).2.2
      rw [strikeRatio_eq_iff, ← stripZeros_eq_iff, equal]
    · intro same
      rw [← normalizeStrike_congr ((strikeRatio_eq_iff _ _).mp same), normalized]
  · intro isPut isPut' underlying settlement underlying' settlement' minutes sig exp minutes' sig' exp' left right same
    exact expectedTypeBytes_inj package left right same
  · intro first second left right
    exact OptionTerms.key_eq_iff package left right
  · intro now calls board ran
    have listed := exec_invariant (Board.step package) Board.Listed (fun _ _ _ held moved => held.step package moved)
      (Board.start_listed now) ran
    exact ⟨listed.options, listed.coins⟩

def Listing.spelled (isPut : Bool) (underlying settlement : MoveType) (expiryMs strike strikeScale : Nat) : Listing :=
  let (sig, exp) := stripZeros strike strikeScale
  let digits := (termBytes (expiryMs / 60000) sig exp).map (marker package)
  ⟨isPut, underlying, settlement, fun i => digits.getD i underlying, expiryMs, strike, strikeScale, true⟩

/-- A call with the strike written as 250 hundredths, a put with 25 tenths. -/
def Listing.bothSides : List BoardCall :=
  [.createAnyStrike (.spelled 5 false (.primitive .u8) (.primitive .u16) 60000 250 2),
    .createAnyStrike (.spelled 5 true (.primitive .u8) (.primitive .u16) 60000 25 1)]

theorem Board.one_bucket_per_option_both_sides :
    ∃ board, exec (Board.step 5) (Board.start 0) Listing.bothSides = .ok board ∧ board.live.length = 2 ∧
      (board.live.Pairwise fun first second => ¬ SameOption first second) ∧
      (board.live.map OptionBucket.coinType).Nodup := by
  have runs : ∃ board, exec (Board.step 5) (Board.start 0) Listing.bothSides = .ok board ∧ board.live.length = 2 :=
    exists_ok (fun board => decide (board.live.length = 2)) (by decide +kernel) fun _ _ two => of_decide_eq_true two
  obtain ⟨board, ran, two⟩ := runs
  exact ⟨board, ran, two, (Board.one_bucket_per_option 5).2.2.2.2.2.2 0 Listing.bothSides board ran⟩

end SuiOptions.Core
