import SuiOptions.Vault.Appraised

/-! What a vault is worth at given prices.

A market fixes a price for every coin, a mark for every custodied object and
the external equity. An appraisal made in a market, once consumed, is the worth
of the vault's holdings.
-/

set_option autoImplicit false

namespace SuiOptions.Vault

open Execution Move
open Exchange (ID Address DomainState)
open TradingVault

variable {Obj : Type}

/-- Prices in accounting units, as price attestations scale them. -/
structure Market (Obj : Type) where
  price : TypeName → Nat
  mark : Obj → Nat
  equity : Nat

namespace Market

variable (m : Market Obj) {v next : TradingVault Obj}

def worth (accounting t : TypeName) (amount : Nat) : Nat :=
  if t = accounting then amount else amount * m.price t / priceScale

theorem worth_zero (accounting t : TypeName) : m.worth accounting t 0 = 0 := by simp [worth]

/-- The free balances of a vault, coin by coin. -/
def cash (v : TradingVault Obj) : Nat :=
  (v.purse.assetTypes.map fun t => m.worth v.config.accountingAsset t (v.freeBalance t)).sum

def objects (v : TradingVault Obj) : Nat := (v.custody.objects.map fun o => m.mark o.object).sum

def outside (v : TradingVault Obj) : Nat := if 0 < v.exposure then m.equity else 0

/-- The value of all that a vault holds. -/
def holdings (v : TradingVault Obj) : Nat := m.cash v + m.objects v + m.outside v

/-- An appraisal whose legs are at the market's prices and of objects that are in custody. -/
structure Appraised (m : Market Obj) (v : TradingVault Obj) (a : Appraisal Obj) : Prop where
  balances : ∀ t amount value, .balance t amount value ∈ a.legs → t ≠ v.config.accountingAsset →
    value = amount * m.price t / priceScale
  marks : ∀ id object value, .position id object value ∈ a.legs → value = m.mark object
  present : World.InCustody v a
  equity : ∀ value, .equity value ∈ a.legs → value = m.equity

/-! ### Appraising at the market's prices -/

theorem Appraised.begins {t : TypeName} {a : Appraisal Obj} (ran : v.beginAppraisal t = .ok a) : m.Appraised v a := by
  simp only [beginAppraisal, bind_ok, check_ok, exists_const, pure_ok] at ran
  obtain ⟨asset, rfl⟩ := ran
  refine ⟨fun u amount value member other => ?_, ?_, ?_, ?_⟩
  · cases List.mem_singleton.mp member
    exact absurd asset other
  all_goals simp [World.InCustody]

theorem Appraised.balance {cfg : VaultProtocolConfig} {a grown : Appraisal Obj} {t : TypeName} {att : PriceAttestation}
    {now : Nat} (appraised : m.Appraised v a) (priced : att.price = m.price t)
    (ran : v.appraiseBalance cfg a t att now = .ok grown) : m.Appraised v grown := by
  simp only [appraiseBalance, mulDiv, castU128, bind_ok, check_ok, exists_const, fit_ok, pure_ok] at ran
  obtain ⟨_, _, _, value, ⟨_, _, rfl⟩, _, _, rfl⟩ := ran
  refine ⟨fun u amount value member other => ?_, fun object held value member => ?_, fun object held value member => ?_,
    fun value member => ?_⟩
  · rcases List.mem_append.mp member with old | new
    · exact appraised.balances u amount value old other
    · cases List.mem_singleton.mp new
      rw [priced]
  · exact appraised.marks object held value (by simpa using member)
  · exact appraised.present object held value (by simpa using member)
  · exact appraised.equity value (by simpa using member)

theorem Appraised.position {a grown : Appraisal Obj} {witness : TypeName} {object : ID} {value : Nat}
    (appraised : m.Appraised v a) (marked : ∀ o ∈ v.custody.objects, o.id = object → value = m.mark o.object)
    (ran : v.recordPositionValue a witness object value = .ok grown) : m.Appraised v grown := by
  obtain ⟨o, held, rfl, _, rfl⟩ := recordPositionValue_ok ran
  refine ⟨fun u amount worth member => ?_, fun other kept worth member => ?_, fun other kept worth member => ?_,
    fun worth member => ?_⟩
  · exact appraised.balances u amount worth (by simpa using member)
  · rcases List.mem_append.mp member with old | new
    · exact appraised.marks other kept worth old
    · cases List.mem_singleton.mp new
      exact marked o held rfl
  · rcases List.mem_append.mp member with old | new
    · exact appraised.present other kept worth old
    · cases List.mem_singleton.mp new
      exact ⟨o.tag, held⟩
  · exact appraised.equity worth (by simpa using member)

theorem Appraised.record {oracles : List TypeName} {a grown : Appraisal Obj} {oracle : TypeName} {value : Nat}
    (appraised : m.Appraised v a) (posted : value = m.equity)
    (ran : v.recordExternalEquity oracles a oracle value = .ok grown) : m.Appraised v grown := by
  simp only [recordExternalEquity, bind_ok, need_ok, check_ok, exists_const, pure_ok] at ran
  obtain ⟨_, _, _, _, _, _, _, rfl⟩ := ran
  refine ⟨fun u amount worth member => ?_, fun object held worth member => ?_, fun object held worth member => ?_,
    fun worth member => ?_⟩
  · exact appraised.balances u amount worth (by simpa using member)
  · exact appraised.marks object held worth (by simpa using member)
  · exact appraised.present object held worth (by simpa using member)
  · rcases List.mem_append.mp member with old | new
    · exact appraised.equity worth old
    · cases List.mem_singleton.mp new
      exact posted

def markOf (v : TradingVault Obj) (id : ID) : Nat := ((v.custody.find id).map fun o => m.mark o.object).getD 0

theorem markOf_eq {o : Custodied Obj} (member : o ∈ v.custody.objects) : m.markOf v o.id = m.mark o.object := by
  have found : v.custody.find o.id = some o := by
    rw [Custody.find, List.find?_eq_some_iff_append]
    obtain ⟨before, after, split⟩ := List.append_of_mem member
    refine ⟨by simp, before, after, split, fun other earlier => ?_⟩
    have distinct := v.custody.distinct
    rw [split, List.map_append, List.map_cons, List.nodup_append] at distinct
    have apart := distinct.2.2 other.id (List.mem_map_of_mem earlier) o.id (List.mem_cons_self)
    simpa using apart
  rw [markOf, found]
  rfl

theorem sum_legs {legs : List (Leg Obj)} (worth : TypeName → Nat) (mark : ID → Nat)
    (balances : ∀ t amount value, .balance t amount value ∈ legs → value = worth t)
    (positions : ∀ id object value, .position id object value ∈ legs → value = mark id) :
    (legs.map Leg.value).sum = ((legs.filterMap Leg.balanceType).map worth).sum +
      ((legs.filterMap Leg.positionId).map mark).sum + (legs.filterMap Leg.equityValue).sum := by
  induction legs with
  | nil => rfl
  | cons leg rest ih =>
    have later := ih (fun t amount value member => balances t amount value (List.mem_cons_of_mem _ member))
      (fun id object value member => positions id object value (List.mem_cons_of_mem _ member))
    cases leg with
    | balance t amount value =>
      have here := balances t amount value List.mem_cons_self
      simp only [List.map_cons, List.sum_cons, List.filterMap_cons, Leg.value, Leg.balanceType, Leg.positionId,
        Leg.equityValue] at later ⊢
      omega
    | position id object value =>
      have here := positions id object value List.mem_cons_self
      simp only [List.map_cons, List.sum_cons, List.filterMap_cons, Leg.value, Leg.balanceType, Leg.positionId,
        Leg.equityValue] at later ⊢
      omega
    | equity value =>
      simp only [List.map_cons, List.sum_cons, List.filterMap_cons, Leg.value, Leg.balanceType, Leg.positionId,
        Leg.equityValue] at later ⊢
      omega

/-- The recorded equity is counted once, and only while there is exposure. -/
theorem Appraised.outside {a : Appraisal Obj} (appraised : m.Appraised v a) (fits : Fits v a)
    (posted : a.externalPending = false) (current : Current v a) :
    (a.legs.filterMap Leg.equityValue).sum = m.outside v := by
  have only : ∀ value ∈ a.legs.filterMap Leg.equityValue, value = m.equity := by
    intro value member
    obtain ⟨leg, within, same⟩ := List.mem_filterMap.mp member
    cases leg with
    | equity recorded =>
      cases same
      exact appraised.equity value within
    | balance t amount value => cases same
    | position valued object value => cases same
  have external := current.external
  rw [posted, eq_false Bool.false_ne_true, false_or] at external
  unfold Market.outside
  split
  case isTrue exposed =>
    obtain ⟨value, within⟩ := external.mpr exposed
    have member : value ∈ a.legs.filterMap Leg.equityValue := List.mem_filterMap.mpr ⟨_, within, rfl⟩
    have once := fits.recorded
    match listed : a.legs.filterMap Leg.equityValue with
    | [] => simp [listed] at member
    | [one] =>
      rw [listed] at only
      simpa using only one
    | _ :: _ :: _ => simp [listed] at once
  case isFalse hidden =>
    match listed : a.legs.filterMap Leg.equityValue with
    | [] => rfl
    | value :: rest =>
      have member : value ∈ a.legs.filterMap Leg.equityValue := by rw [listed]; exact List.mem_cons_self
      obtain ⟨leg, within, same⟩ := List.mem_filterMap.mp member
      cases leg with
      | equity recorded => exact absurd (external.mp ⟨recorded, within⟩) hidden
      | balance t amount value => cases same
      | position valued object value => cases same

theorem Appraised.nav {a : Appraisal Obj} {nav : Nat} (appraised : m.Appraised v a) (fits : Fits v a)
    (consumed : v.consumeAppraisal a = .ok nav) : nav = m.holdings v := by
  obtain ⟨types, posted, _, seq, rfl⟩ := World.consumeAppraisal_ok consumed
  have current := fits.current seq
  have exact := World.consumed_exact fits appraised.present consumed
  have balances : ∀ t amount value, .balance t amount value ∈ a.legs →
      value = m.worth v.config.accountingAsset t (v.freeBalance t) := by
    intro t amount value member
    rw [← current.amounts t amount value member, worth]
    split
    case isTrue same => exact fits.par amount value (same ▸ member)
    case isFalse other => exact appraised.balances t amount value member other
  have positions : ∀ id object value, .position id object value ∈ a.legs → value = m.markOf v id := by
    intro id object value member
    obtain ⟨tag, held⟩ := appraised.present id object value member
    rw [appraised.marks id object value member, m.markOf_eq held]
  rw [fits.total, sum_legs _ _ balances positions, appraised.outside m fits posted current, holdings]
  congr 2
  · -- the valued types and the listed ones cover the same balances
    refine Sums.sum_support fits.types v.purse.distinct fun t positive => ?_
    have held : 0 < v.freeBalance t := by
      by_contra none
      rw [Nat.eq_zero_of_not_pos none] at positive
      exact positive (m.worth_zero _ _)
    constructor
    · exact fun _ => v.purse.listed t held
    · intro _
      obtain ⟨value, member⟩ := exact.balances t held
      exact List.mem_filterMap.mpr ⟨_, member, rfl⟩
  · have perm : (a.legs.filterMap Leg.positionId).Perm (v.custody.objects.map (·.id)) :=
      (List.perm_ext_iff_of_nodup exact.positionsOnce v.custody.distinct).mpr exact.positions
    rw [(perm.map (m.markOf v)).sum_eq, List.map_map, objects]
    exact congrArg List.sum (List.map_congr_left fun o member => m.markOf_eq member)

/-! ### One balance changed -/

theorem cash_changed {t : TypeName} (config : next.config = v.config)
    (others : ∀ u, u ≠ t → next.freeBalance u = v.freeBalance u) :
    m.cash next + m.worth v.config.accountingAsset t (v.freeBalance t) =
      m.cash v + m.worth v.config.accountingAsset t (next.freeBalance t) := by
  have covered : ∀ w : TradingVault Obj, ∀ u, m.worth v.config.accountingAsset u (w.freeBalance u) ≠ 0 →
      u ∈ w.purse.assetTypes := by
    intro w u positive
    apply w.purse.listed
    by_contra none
    rw [freeBalance, Nat.eq_zero_of_not_pos none] at positive
    exact positive (m.worth_zero _ _)
  unfold cash
  rw [config]
  exact Sums.sum_changed v.purse.distinct next.purse.distinct (covered v) (covered next)
    (fun u other => by rw [others u other])

end Market

end SuiOptions.Vault
