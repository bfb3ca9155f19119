import SuiOptions.Indexer.Stage

/-! A restart against the running indexer.

After every event of a checkpoint, the rows staged so far are those of the views, and
each reads back as the state it was written from.
Two conflict updates omit columns that an event of the chain can change: the
configuration of a vault, and the adapter and storage time of a custodied position. -/

set_option autoImplicit false

namespace SuiOptions.Indexer

open Words

section Tables

variable {κ σ ρ : Type} [Ord κ] [Std.TransOrd κ]
variable {row : κ → σ → Nat → ρ} {merge : ρ → ρ → ρ} {table : BTreeMap κ ρ} {view next : BTreeMap κ σ} {key : κ}
  {sequence : Nat}

theorem upserts_append (rows more : List (κ × ρ)) :
    upserts merge table (rows ++ more) = upserts merge (upserts merge table rows) more :=
  List.foldl_append

/-- A row written from the state, at whatever sequence. -/
def Written (row : κ → σ → Nat → ρ) (key : κ) (held : ρ) (state : σ) : Prop := ∃ sequence, held = row key state sequence

/-- How an event moves a view so that the snapshot of one entry suffices: it changes
no other entry, and the conflict update leaves no stale column. -/
structure Follows (row : κ → σ → Nat → ρ) (merge : ρ → ρ → ρ) (view next : BTreeMap κ σ) (key : κ) : Prop where
  elsewhere : ∀ other, other ≠ key → next.get? other = view.get? other
  stays : next.get? key = none → view.get? key = none
  current : ∀ old new, view.get? key = some old → next.get? key = some new →
    ∀ before after, merge (row key old before) (row key new after) = row key new after

variable [Std.LawfulEqOrd κ] [DecidableEq κ]

theorem written_snapshot (mirrors : table.Related (Written row) view) (follows : Follows row merge view next key) :
    (upserts merge table (snapshot row next key sequence)).Related (Written row) next := by
  intro other
  cases found : next.get? key with
  | none =>
    rw [snapshot, found]
    change Option.Rel _ (table.get? other) _
    by_cases same : other = key
    · subst same
      rw [found, mirrors.none_iff.mpr (follows.stays found)]
      exact .none
    · rw [follows.elsewhere other same]
      exact mirrors other
  | some new =>
    rw [snapshot, found]
    change Option.Rel _ ((table.upsert key (row key new sequence) merge).get? other) _
    rw [BTreeMap.get?_upsert]
    by_cases same : other = key
    · subst same
      rw [if_pos rfl, found]
      refine .some ⟨sequence, ?_⟩
      cases held : table.get? other with
      | none => rfl
      | some written =>
        obtain ⟨old, known, before, rfl⟩ := mirrors.some held
        exact follows.current old new known found before sequence
    · rw [if_neg same, follows.elsewhere other same]
      exact mirrors other

theorem Follows.modify {f : σ → σ}
    (current : ∀ old, view.get? key = some old →
      ∀ before after, merge (row key old before) (row key (f old) after) = row key (f old) after) :
    Follows row merge view (view.modify key f) key where
  elsewhere := by
    intro other different
    rw [BTreeMap.get?_modify, if_neg different]
  stays := by
    intro missing
    exact BTreeMap.get?_modify_none.mp missing
  current := by
    intro old new held found
    rw [BTreeMap.get?_modify, if_pos rfl, held] at found
    obtain rfl := Option.some.inj found
    exact current old held

theorem Follows.insert {value : σ}
    (current : ∀ old, view.get? key = some old →
      ∀ before after, merge (row key old before) (row key value after) = row key value after) :
    Follows row merge view (view.insert key value) key where
  elsewhere := by
    intro other different
    rw [BTreeMap.get?_insert, if_neg different]
  stays := by
    intro missing
    rw [BTreeMap.get?_insert, if_pos rfl] at missing
    cases missing
  current := by
    intro old new held found
    rw [BTreeMap.get?_insert, if_pos rfl] at found
    obtain rfl := Option.some.inj found
    exact current old held

theorem Follows.entry {fresh : σ} {f : σ → σ} : Follows row mergeAll view (view.entry key fresh f) key :=
  Follows.insert fun _ _ _ _ => rfl

theorem Follows.overwrite {f : σ → σ} : Follows row mergeAll view (view.modify key f) key :=
  Follows.modify fun _ _ _ _ => rfl

theorem written_snapshots {first second : κ} (mirrors : table.Related (Written row) view)
    (elsewhere : ∀ other, other ≠ first → other ≠ second → next.get? other = view.get? other)
    (stays : ∀ other, next.get? other = none → view.get? other = none) :
    (upserts mergeAll (upserts mergeAll table (snapshot row next first sequence))
      (snapshot row next second sequence)).Related (Written row) next := by
  obtain ⟨middle, atFirst, offFirst⟩ :
      ∃ middle : BTreeMap κ σ, middle.get? first = next.get? first ∧
        ∀ other, other ≠ first → middle.get? other = view.get? other := by
    cases found : next.get? first with
    | none => exact ⟨view, stays first found, fun _ _ => rfl⟩
    | some new =>
      refine ⟨view.insert first new, ?_, ?_⟩
      · rw [BTreeMap.get?_insert, if_pos rfl]
      · intro other different
        rw [BTreeMap.get?_insert, if_neg different]
  have same : snapshot row next first sequence = snapshot row middle first sequence := by
    rw [snapshot, snapshot, atFirst]
  rw [same]
  refine written_snapshot (written_snapshot mirrors ⟨offFirst, ?_, fun _ _ _ _ _ _ => rfl⟩)
    ⟨?_, ?_, fun _ _ _ _ _ _ => rfl⟩
  · intro missing
    exact stays first (atFirst ▸ missing)
  · intro other notSecond
    by_cases isFirst : other = first
    · rw [isFirst, atFirst]
    · rw [offFirst other isFirst, elsewhere other isFirst notSecond]
  · intro missing
    by_cases isFirst : second = first
    · rw [isFirst, atFirst, ← isFirst]
      exact missing
    · rw [offFirst second isFirst]
      exact stays second missing

/-- Rows that read as entries of a view put these entries into what is there. -/
theorem foldlM_rows {intoState : ρ → Except RowError (κ × σ)} {entries : List (κ × ρ)}
    (each : ∀ entry ∈ entries, ∃ state, view.get? entry.1 = some state ∧ intoState entry.2 = .ok (entry.1, state))
    (restored : BTreeMap κ σ) :
    ∃ final, entries.foldlM (fun view entry => (intoState entry.2).map fun read => view.insert read.1 read.2) restored =
        .ok final ∧
      ∀ key, final.get? key = if key ∈ entries.map (·.1) then view.get? key else restored.get? key := by
  induction entries generalizing restored with
  | nil => exact ⟨restored, rfl, fun key => by simp⟩
  | cons entry entries ih =>
    obtain ⟨state, known, read⟩ := each entry List.mem_cons_self
    obtain ⟨final, ran, found⟩ := ih (fun later member => each later (List.mem_cons_of_mem _ member))
      (restored.insert entry.1 state)
    refine ⟨final, ?_, ?_⟩
    · rw [List.foldlM_cons, read]
      exact ran
    · intro key
      rw [found, BTreeMap.get?_insert]
      by_cases same : key = entry.1
      · simp [same, known]
      · simp only [same, if_false, List.map_cons, List.mem_cons, false_or]

theorem hydrateRows_of_related {holds : κ → ρ → σ → Prop} {intoState : ρ → Except RowError (κ × σ)}
    (related : table.Related holds view)
    (reads : ∀ key held state, view.get? key = some state → holds key held state → intoState held = .ok (key, state)) :
    hydrateRows intoState table = .ok view := by
  have each : ∀ entry ∈ table.toList, ∃ state, view.get? entry.1 = some state ∧
      intoState entry.2 = .ok (entry.1, state) := by
    intro entry member
    obtain ⟨state, known, holding⟩ := related.some (BTreeMap.mem_toList.mp member)
    exact ⟨state, known, reads entry.1 entry.2 state known holding⟩
  obtain ⟨final, ran, found⟩ := foldlM_rows each ∅
  refine ran.trans (congrArg Except.ok (BTreeMap.ext ?_))
  intro key
  rw [found]
  split
  · rfl
  · next absent =>
    rw [BTreeMap.get?_empty]
    refine (related.none_iff.mp ?_).symm
    cases held : table.get? key with
    | none => rfl
    | some row => exact absurd (List.mem_map.mpr ⟨(key, row), BTreeMap.mem_toList.mpr held, rfl⟩) absent

end Tables

/-! ### The conflict updates that omit columns, on the states -/

def BucketState.updated (held new : BucketState) : BucketState :=
  { held with
    totalWritten := new.totalWritten
    exerciseCursor := new.exerciseCursor
    cleaned := new.cleaned
    invalidated := new.invalidated }

def VaultState.updated (held new : VaultState) : VaultState :=
  { held with
    round := new.round
    currentBucket := new.currentBucket
    latestPps := new.latestPps
    totalShares := new.totalShares
    pendingDeposits := new.pendingDeposits
    depositsPaused := new.depositsPaused }

def TradingVaultPositionState.updated (held new : TradingVaultPositionState) : TradingVaultPositionState :=
  { held with
    active := new.active
    removedAtMs := new.removedAtMs
    lastValue := new.lastValue
    lastAppraisedAtMs := new.lastAppraisedAtMs }

section Merges

variable {id : ObjectId} {before after : Nat}

theorem mergeBucket_row {held new : BucketState} :
    mergeBucket (bucketRow id held before) (bucketRow id new after) = bucketRow id (held.updated new) after := by
  simp only [mergeBucket, bucketRow, BucketState.updated]

theorem mergeVault_row {held new : VaultState} :
    mergeVault (vaultRow id held before) (vaultRow id new after) = vaultRow id (held.updated new) after := by
  simp only [mergeVault, vaultRow, VaultState.updated]

theorem mergeTradingVaultPosition_row {key : ObjectId × ObjectId} {held new : TradingVaultPositionState} :
    mergeTradingVaultPosition (tradingVaultPositionRow key held before) (tradingVaultPositionRow key new after) =
      tradingVaultPositionRow key (held.updated new) after := by
  simp only [mergeTradingVaultPosition, tradingVaultPositionRow, TradingVaultPositionState.updated]

end Merges

section FirstWins

variable {ρ σ : Type} {column : ρ → Text}

/-- An insertion that does nothing on a conflict, its reference aside. -/
def place (column : ρ → Text) (table : BTreeMap ObjectId ρ) (entry : ObjectId × ρ) : BTreeMap ObjectId ρ :=
  if (table.get? entry.1).isSome ∨ (table.find? fun _ row => column row = column entry.2).isSome then table
  else table.insert entry.1 entry.2

theorem insertPool_place {buckets : BTreeMap ObjectId BucketRow} {pools placed : BTreeMap ObjectId DeepBookPoolRow}
    {entry : ObjectId × DeepBookPoolRow} (inserted : insertPool buckets pools entry = some placed) :
    placed = place (·.poolId) pools entry := by
  unfold insertPool at inserted
  unfold place
  split at inserted
  · next conflict => rw [if_pos conflict, Option.some.inj inserted]
  · next free =>
    rw [if_neg free]
    split at inserted
    · exact (Option.some.inj inserted).symm
    · cases inserted

theorem insertMarket_place {buckets : BTreeMap ObjectId BucketRow}
    {markets placed : BTreeMap ObjectId ExchangeMarketLinkRow} {entry : ObjectId × ExchangeMarketLinkRow}
    (inserted : insertMarket buckets markets entry = some placed) :
    placed = place (·.registryId) markets entry := by
  unfold insertMarket at inserted
  unfold place
  split at inserted
  · next conflict => rw [if_pos conflict, Option.some.inj inserted]
  · next free =>
    rw [if_neg free]
    split at inserted
    · exact (Option.some.inj inserted).symm
    · cases inserted

theorem foldl_of_foldlM {α β : Type} {step : β → α → Option β} {total : β → α → β}
    (each : ∀ {b a next}, step b a = some next → next = total b a) {rows : List α} {before after : β}
    (ran : rows.foldlM step before = some after) : after = rows.foldl total before := by
  induction rows generalizing before with
  | nil => exact (Option.some.inj ran).symm
  | cons row rows ih =>
    rw [List.foldlM_cons] at ran
    obtain ⟨middle, first, rest⟩ := Option.bind_eq_some_iff.mp ran
    rw [List.foldl_cons, ← each first]
    exact ih rest

theorem related_place {holds : ObjectId → ρ → σ → Prop} {table : BTreeMap ObjectId ρ} {view : BTreeMap ObjectId σ}
    {key : ObjectId} {row : ρ} {state : σ} (mirrors : table.Related holds view) (missing : view.get? key = none)
    (unused : ∀ other held shown, view.get? other = some shown → holds other held shown → column held ≠ column row)
    (here : holds key row state) : (place column table (key, row)).Related holds (view.insert key state) := by
  have free : ¬ ((table.get? key).isSome ∨ (table.find? fun _ held => column held = column row).isSome) := by
    rintro (taken | taken)
    · rw [mirrors.none_iff.mpr missing] at taken
      cases taken
    · obtain ⟨⟨other, held⟩, found⟩ := Option.isSome_iff_exists.mp taken
      obtain ⟨present, equal⟩ := BTreeMap.find?_some found
      obtain ⟨shown, known, holding⟩ := mirrors.some present
      exact unused other held shown known holding (of_decide_eq_true equal)
  rw [place, if_neg free]
  exact mirrors.insert here

end FirstWins

section Positions

variable {table : BTreeMap (ObjectId × Nat) PositionRow} {rows : List ((ObjectId × Nat) × PositionRow)}
  {deletes : List (ObjectId × Nat)} {key : ObjectId × Nat} {row : PositionRow}

theorem get?_removes (map : BTreeMap (ObjectId × Nat) PositionRow) (key : ObjectId × Nat) :
    (deletes.foldl BTreeMap.remove map).get? key = if key ∈ deletes then none else map.get? key := by
  induction deletes generalizing map with
  | nil => simp
  | cons deleted deletes ih =>
    rw [List.foldl_cons, ih, BTreeMap.get?_remove]
    by_cases same : key = deleted
    · simp [same]
    · simp [same]

theorem persistPositions_delete (key : ObjectId × Nat) :
    persistPositions table rows (deletes ++ [key]) = (persistPositions table rows deletes).remove key :=
  List.foldl_append

theorem persistPositions_mint (kept : key ∉ deletes) (absent : (upserts mergePosition table rows).get? key = none) :
    persistPositions table (rows ++ [(key, row)]) deletes = (persistPositions table rows deletes).insert key row := by
  apply BTreeMap.ext
  intro other
  unfold persistPositions
  rw [upserts_append, get?_removes, BTreeMap.get?_insert, get?_removes]
  change (if other ∈ deletes then none else
    ((upserts mergePosition table rows).upsert key row mergePosition).get? other) = _
  rw [BTreeMap.get?_upsert]
  by_cases same : other = key
  · subst same
    rw [if_neg kept, if_pos rfl, if_pos rfl, absent]
    rfl
  · rw [if_neg same, if_neg same]

theorem get?_upserts_snoc {other : ObjectId × Nat} (different : other ≠ key) :
    (upserts mergePosition table (rows ++ [(key, row)])).get? other = (upserts mergePosition table rows).get? other := by
  rw [upserts_append]
  exact BTreeMap.get?_upsert.trans (if_neg different)

end Positions

/-- What the chain makes once: an object, or the range a write appends to a bucket. -/
inductive Identity where
  | bucket (bucketId : ObjectId)
  | vault (vaultId : ObjectId)
  | pool (poolId : ObjectId)
  | market (registryId : ObjectId)
  | range (bucketId : ObjectId) (rangeStart : Nat)
  deriving DecidableEq

def ChainEvent.creates : ChainEvent → List Identity
  | .bucketCreated b | .putBucketCreated b => [.bucket b.bucketId]
  | .vaultCreated v => [.vault v.vaultId]
  | .deepBookPoolCreated p => [.pool p.poolId]
  | .optionMarketListed m => [.market m.registry]
  | .writeExecuted w | .putWriteExecuted w => [.range w.bucketId w.rangeStart]
  | .rfqSettled s | .putRfqSettled s => [.range s.bucketId s.rangeStart]
  | .vaultRfqSettled s => [.range s.bucketId s.rangeStart]
  | _ => []

def ChainEvent.names : ChainEvent → List Identity
  | .redeemed r | .putRedeemed r => [.range r.bucketId r.rangeStart]
  | event => event.creates

/-- The order of events on a chain: what an event creates, no earlier one has named. -/
def Causal (events : List ChainEvent) : Prop :=
  ∀ i : Fin events.length, ∀ identity ∈ (events.get i).creates,
    identity ∉ (events.take i).flatMap ChainEvent.names

instance (events : List ChainEvent) : Decidable (Causal events) :=
  inferInstanceAs (Decidable (∀ i : Fin events.length, ∀ identity ∈ (events.get i).creates,
    identity ∉ (events.take i).flatMap ChainEvent.names))

theorem Causal.head {earlier later : List ChainEvent} {event : ChainEvent} (causal : Causal (earlier ++ event :: later)) :
    ∀ identity ∈ event.creates, identity ∉ earlier.flatMap ChainEvent.names := by
  have here := causal ⟨earlier.length, by simp⟩
  simpa using here

/-- The events whose effect the conflict updates keep: all but a new configuration of
a known vault, and the storing of a position the vault has held before. -/
def Kept (timestampMs : Nat) (views : Views) : ChainEvent → Prop
  | .vaultConfigApplied c =>
    ∀ v ∈ views.vaults.get? c.vaultId, v.configure c.toVaultConfig = v
  | .tvPositionStored p =>
    ∀ held ∈ views.tradingVaultPositions.get? (p.vaultId, p.positionId),
      held.adapter = p.adapter ∧ held.storedAtMs = timestampMs
  | _ => True

/-- The row of a pool, whatever it records of the event that made it. -/
def PoolWritten (bucketId : ObjectId) (row : DeepBookPoolRow) (pool : DeepBookPoolState) : Prop :=
  ∃ checkpoint timestampMs sequence, row = deepbookPoolRow ⟨pool, bucketId⟩ checkpoint timestampMs sequence

def MarketWritten (bucketId : ObjectId) (row : ExchangeMarketLinkRow) (market : ExchangeMarketState) : Prop :=
  ∃ sequence, row = exchangeMarketRow ⟨bucketId, market.registryId, market.isPut⟩ sequence

/-- Amid a checkpoint: the tables with the rows staged so far are written from the
views, and what they hold has been named. -/
structure Persisted (named : List Identity) (tables : Tables) (views : Views) (batch : CheckpointBatch) : Prop where
  accounts : (upserts mergeAll tables.accounts batch.accounts).Related (Written accountRow) views.accounts
  buckets : (upserts mergeBucket tables.buckets batch.buckets).Related (Written bucketRow) views.buckets
  positions : (persistPositions tables.positions batch.positionUpserts batch.positionDeletes).Related
    (fun _ row position => row.Shows position) views.positions
  deepbookPools : (batch.deepbookPools.foldl (place (·.poolId)) tables.deepbookPools).Related PoolWritten
    views.deepbookPools
  exchangeMarkets : (batch.exchangeMarkets.foldl (place (·.registryId)) tables.exchangeMarkets).Related MarketWritten
    views.exchangeMarkets
  rfqs : (upserts mergeAll tables.rfqs batch.rfqs).Related (Written rfqRow) views.rfqs
  vaults : (upserts mergeVault tables.vaults batch.vaults).Related (Written vaultRow) views.vaults
  vaultRounds : (upserts mergeAll tables.vaultRounds batch.vaultRounds).Related (Written vaultRoundRow)
    views.vaultRounds
  vaultReceipts : (upserts mergeAll tables.vaultReceipts batch.vaultReceipts).Related (Written receiptRow)
    views.vaultReceipts
  tradingVaults : (upserts mergeAll tables.tradingVaults batch.tradingVaults).Related (Written tradingVaultRow)
    views.tradingVaults
  tradingVaultPositions :
    (upserts mergeTradingVaultPosition tables.tradingVaultPositions batch.tradingVaultPositions).Related
      (Written tradingVaultPositionRow) views.tradingVaultPositions
  vaultPositions : (upserts mergeAll tables.vaultPositions batch.vaultPositions).Related (Written vaultPositionRow)
    views.vaultPositions
  bucketsNamed : ∀ bucketId b, views.buckets.get? bucketId = some b → Identity.bucket bucketId ∈ named
  vaultsNamed : ∀ vaultId v, views.vaults.get? vaultId = some v → Identity.vault vaultId ∈ named
  poolsNamed : ∀ bucketId p, views.deepbookPools.get? bucketId = some p → Identity.pool p.poolId ∈ named
  marketsNamed : ∀ bucketId m, views.exchangeMarkets.get? bucketId = some m → Identity.market m.registryId ∈ named
  rowsNamed : ∀ bucketId start row,
    (upserts mergePosition tables.positions batch.positionUpserts).get? (bucketId, start) = some row →
      Identity.range bucketId start ∈ named
  deletesNamed : ∀ bucketId start, (bucketId, start) ∈ batch.positionDeletes → Identity.range bucketId start ∈ named

namespace Persisted

variable {named : List Identity} {tables : Tables} {views : Views} {batch : CheckpointBatch} {sequence : Nat}

theorem subset {more : List Identity} (h : Persisted named tables views batch) (known : named ⊆ more) :
    Persisted more tables views batch :=
  { h with
    bucketsNamed := fun bucketId b found => known (h.bucketsNamed bucketId b found)
    vaultsNamed := fun vaultId v found => known (h.vaultsNamed vaultId v found)
    poolsNamed := fun bucketId p found => known (h.poolsNamed bucketId p found)
    marketsNamed := fun bucketId m found => known (h.marketsNamed bucketId m found)
    rowsNamed := fun bucketId start row found => known (h.rowsNamed bucketId start row found)
    deletesNamed := fun bucketId start found => known (h.deletesNamed bucketId start found) }

theorem grow (h : Persisted named tables views batch) (identity : Identity) :
    Persisted (identity :: named) tables views batch :=
  h.subset (List.subset_cons_self identity named)

theorem account {next : BTreeMap ObjectId AccountState} {accountId : ObjectId} (h : Persisted named tables views batch)
    (follows : Follows accountRow mergeAll views.accounts next accountId) :
    Persisted named tables { views with accounts := next }
      (stageAccount { views with accounts := next } sequence batch accountId) :=
  { h with
    accounts := by
      rw [stageAccount, upserts_append]
      exact written_snapshot h.accounts follows }

theorem bucket {bucketId : ObjectId} {f : BucketState → BucketState} (h : Persisted named tables views batch)
    (current : ∀ b, b.updated (f b) = f b) :
    Persisted named tables (views.onBucket bucketId f)
      (stageBucket (views.onBucket bucketId f) sequence batch bucketId) :=
  { h with
    buckets := by
      rw [stageBucket, upserts_append]
      exact written_snapshot h.buckets (Follows.modify fun b _ _ _ => mergeBucket_row.trans (by rw [current b]))
    bucketsNamed := by
      intro other b found
      change (views.buckets.modify bucketId f).get? other = some b at found
      rw [BTreeMap.get?_modify] at found
      split at found
      · obtain ⟨held, present, -⟩ := Option.map_eq_some_iff.mp found
        exact h.bucketsNamed other held present
      · exact h.bucketsNamed other b found }

theorem createBucket {bucketId : ObjectId} {b : BucketState} (h : Persisted named tables views batch)
    (fresh : Identity.bucket bucketId ∉ named) :
    Persisted (Identity.bucket bucketId :: named) tables { views with buckets := views.buckets.insert bucketId b }
      (stageBucket { views with buckets := views.buckets.insert bucketId b } sequence batch bucketId) :=
  { h.grow (.bucket bucketId) with
    buckets := by
      rw [stageBucket, upserts_append]
      refine written_snapshot h.buckets (Follows.insert ?_)
      intro old held
      exact absurd (h.bucketsNamed bucketId old held) fresh
    bucketsNamed := by
      intro other held found
      change (views.buckets.insert bucketId b).get? other = some held at found
      rw [BTreeMap.get?_insert] at found
      split at found
      · next same => exact same ▸ List.mem_cons_self
      · exact List.mem_cons_of_mem _ (h.bucketsNamed other held found) }

theorem rfq {next : BTreeMap ObjectId RfqState} {auctionId : ObjectId} (h : Persisted named tables views batch)
    (follows : Follows rfqRow mergeAll views.rfqs next auctionId) :
    Persisted named tables { views with rfqs := next }
      (stageRfq { views with rfqs := next } sequence batch auctionId) :=
  { h with
    rfqs := by
      rw [stageRfq, upserts_append]
      exact written_snapshot h.rfqs follows }

theorem vault {vaultId : ObjectId} {f : VaultState → VaultState} (h : Persisted named tables views batch)
    (current : ∀ v, views.vaults.get? vaultId = some v → v.updated (f v) = f v) :
    Persisted named tables (views.onVault vaultId f)
      (stageVault (views.onVault vaultId f) sequence batch vaultId) :=
  { h with
    vaults := by
      rw [stageVault, upserts_append]
      exact written_snapshot h.vaults (Follows.modify fun v held _ _ => mergeVault_row.trans (by rw [current v held]))
    vaultsNamed := by
      intro other v found
      change (views.vaults.modify vaultId f).get? other = some v at found
      rw [BTreeMap.get?_modify] at found
      split at found
      · obtain ⟨held, present, -⟩ := Option.map_eq_some_iff.mp found
        exact h.vaultsNamed other held present
      · exact h.vaultsNamed other v found }

theorem createVault {vaultId : ObjectId} {v : VaultState} (h : Persisted named tables views batch)
    (fresh : Identity.vault vaultId ∉ named) :
    Persisted (Identity.vault vaultId :: named) tables { views with vaults := views.vaults.insert vaultId v }
      (stageVault { views with vaults := views.vaults.insert vaultId v } sequence batch vaultId) :=
  { h.grow (.vault vaultId) with
    vaults := by
      rw [stageVault, upserts_append]
      refine written_snapshot h.vaults (Follows.insert ?_)
      intro old held
      exact absurd (h.vaultsNamed vaultId old held) fresh
    vaultsNamed := by
      intro other held found
      change (views.vaults.insert vaultId v).get? other = some held at found
      rw [BTreeMap.get?_insert] at found
      split at found
      · next same => exact same ▸ List.mem_cons_self
      · exact List.mem_cons_of_mem _ (h.vaultsNamed other held found) }

theorem round {vaultId : ObjectId} {number : Nat} {f : VaultRoundState → VaultRoundState}
    (h : Persisted named tables views batch) :
    Persisted named tables (views.onRound vaultId number f)
      (stageVaultRound (views.onRound vaultId number f) sequence batch vaultId number) :=
  { h with
    vaultRounds := by
      rw [stageVaultRound, upserts_append]
      exact written_snapshot h.vaultRounds Follows.entry }

theorem receipt {m : ReceiptMoved} {kind : ReceiptKind} {f : ReceiptState → ReceiptState}
    (h : Persisted named tables views batch) :
    Persisted named tables (views.onReceipt m kind f) (stageReceipt (views.onReceipt m kind f) sequence batch m kind) :=
  { h with
    vaultReceipts := by
      rw [stageReceipt, upserts_append]
      exact written_snapshot h.vaultReceipts Follows.entry }

theorem tradingVault {next : BTreeMap ObjectId TradingVaultState} {vaultId : ObjectId}
    (h : Persisted named tables views batch) (follows : Follows tradingVaultRow mergeAll views.tradingVaults next vaultId) :
    Persisted named tables { views with tradingVaults := next }
      (stageTradingVault { views with tradingVaults := next } sequence batch vaultId) :=
  { h with
    tradingVaults := by
      rw [stageTradingVault, upserts_append]
      exact written_snapshot h.tradingVaults follows }

theorem custodied {next : BTreeMap (ObjectId × ObjectId) TradingVaultPositionState} {vaultId positionId : ObjectId}
    (h : Persisted named tables views batch)
    (follows : Follows tradingVaultPositionRow mergeTradingVaultPosition views.tradingVaultPositions next (vaultId, positionId)) :
    Persisted named tables { views with tradingVaultPositions := next }
      (stageTradingVaultPosition { views with tradingVaultPositions := next } sequence batch vaultId positionId) :=
  { h with
    tradingVaultPositions := by
      rw [stageTradingVaultPosition, upserts_append]
      exact written_snapshot h.tradingVaultPositions follows }

theorem vaultPosition {next : BTreeMap ObjectId VaultPositionState} {positionId : ObjectId}
    (h : Persisted named tables views batch) (follows : Follows vaultPositionRow mergeAll views.vaultPositions next positionId) :
    Persisted named tables { views with vaultPositions := next }
      (stageVaultPosition { views with vaultPositions := next } sequence batch positionId) :=
  { h with
    vaultPositions := by
      rw [stageVaultPosition, upserts_append]
      exact written_snapshot h.vaultPositions follows }

theorem vaultPositionPair {next : BTreeMap ObjectId VaultPositionState} {first second : ObjectId}
    (h : Persisted named tables views batch)
    (elsewhere : ∀ other, other ≠ first → other ≠ second → next.get? other = views.vaultPositions.get? other)
    (stays : ∀ other, next.get? other = none → views.vaultPositions.get? other = none) :
    Persisted named tables { views with vaultPositions := next }
      (stageVaultPosition { views with vaultPositions := next } sequence
        (stageVaultPosition { views with vaultPositions := next } sequence batch first) second) :=
  { h with
    vaultPositions := by
      rw [stageVaultPosition, stageVaultPosition, upserts_append, upserts_append]
      exact written_snapshots h.vaultPositions elsewhere stays }

theorem mint {row : PositionRow} (h : Persisted named tables views batch) (p : PositionState) (shows : row.Shows p)
    (fresh : Identity.range p.bucketId p.rangeStart ∉ named) :
    Persisted (Identity.range p.bucketId p.rangeStart :: named) tables (views.addPosition p)
      (stagePosition batch (p.bucketId, p.rangeStart) row) :=
  { h.grow (.range p.bucketId p.rangeStart) with
    positions := by
      have kept : (p.bucketId, p.rangeStart) ∉ batch.positionDeletes := fun deleted => fresh (h.deletesNamed _ _ deleted)
      have absent : (upserts mergePosition tables.positions batch.positionUpserts).get? (p.bucketId, p.rangeStart) =
          none := by
        cases found : (upserts mergePosition tables.positions batch.positionUpserts).get? (p.bucketId, p.rangeStart) with
        | none => rfl
        | some held => exact absurd (h.rowsNamed _ _ held found) fresh
      rw [stagePosition, persistPositions_mint kept absent]
      exact h.positions.insert shows
    rowsNamed := by
      intro bucketId start held found
      by_cases same : (bucketId, start) = (p.bucketId, p.rangeStart)
      · obtain ⟨rfl, rfl⟩ := Prod.mk.inj same
        exact List.mem_cons_self
      · change (upserts mergePosition tables.positions
          (batch.positionUpserts ++ [((p.bucketId, p.rangeStart), row)])).get? (bucketId, start) = some held at found
        rw [get?_upserts_snoc same] at found
        exact List.mem_cons_of_mem _ (h.rowsNamed bucketId start held found) }

theorem drop {bucketId : ObjectId} {start : Nat} (h : Persisted named tables views batch) :
    Persisted (Identity.range bucketId start :: named) tables (views.dropPosition bucketId start)
      (stageDelete batch bucketId start) :=
  { h.grow (.range bucketId start) with
    positions := by
      rw [stageDelete, persistPositions_delete]
      exact h.positions.remove
    deletesNamed := by
      intro otherBucket otherStart deleted
      rcases List.mem_append.mp deleted with earlier | last
      · exact List.mem_cons_of_mem _ (h.deletesNamed otherBucket otherStart earlier)
      · obtain ⟨rfl, rfl⟩ := Prod.mk.inj (List.mem_singleton.mp last)
        exact List.mem_cons_self }

theorem pool {p : DeepBookPoolCreated} {timestampMs : Nat} (h : Persisted named tables views batch)
    (fits : views.Fits) (event : p.toDeepBookPoolState.Fits) (fresh : Identity.pool p.poolId ∉ named) :
    Persisted (Identity.pool p.poolId :: named) tables
      { views with deepbookPools := views.deepbookPools.entry p.bucketId p.toDeepBookPoolState id }
      (stagePool { views with deepbookPools := views.deepbookPools.entry p.bucketId p.toDeepBookPoolState id } sequence
        batch p timestampMs) := by
  cases found : views.deepbookPools.get? p.bucketId with
  | none =>
    have staged : ((views.deepbookPools.insert p.bucketId p.toDeepBookPoolState).get? p.bucketId).map (·.poolId) =
        some p.poolId := by
      rw [BTreeMap.get?_insert, if_pos rfl]
      rfl
    rw [BTreeMap.entry_or_insert found, stagePool, if_pos staged]
    exact { h.grow (.pool p.poolId) with
      deepbookPools := by
        rw [List.foldl_append]
        refine related_place h.deepbookPools found ?_ ⟨_, _, _, rfl⟩
        rintro other held pool known ⟨_, _, _, rfl⟩ same
        have equal := toHex_inj (fits.deepbookPools other pool known).2.poolId event.poolId same
        exact fresh (equal ▸ h.poolsNamed other pool known)
      poolsNamed := by
        intro other held present
        rw [BTreeMap.get?_insert] at present
        split at present
        · obtain rfl := Option.some.inj present
          exact List.mem_cons_self
        · exact List.mem_cons_of_mem _ (h.poolsNamed other held present) }
  | some first =>
    have unstaged : (views.deepbookPools.get? p.bucketId).map (·.poolId) ≠ some p.poolId := by
      rw [found]
      intro same
      exact fresh (Option.some.inj same ▸ h.poolsNamed p.bucketId first found)
    rw [BTreeMap.entry_of_some found, stagePool, if_neg unstaged]
    exact h.grow (.pool p.poolId)

theorem market {m : OptionMarketListed} (h : Persisted named tables views batch)
    (fits : views.Fits) (event : Word 256 m.registry) (fresh : Identity.market m.registry ∉ named) :
    Persisted (Identity.market m.registry :: named) tables
      { views with exchangeMarkets := views.exchangeMarkets.entry m.bucket ⟨m.registry, m.isPut⟩ id }
      (stageMarket { views with exchangeMarkets := views.exchangeMarkets.entry m.bucket ⟨m.registry, m.isPut⟩ id }
        sequence batch m) := by
  cases found : views.exchangeMarkets.get? m.bucket with
  | none =>
    have staged : ((views.exchangeMarkets.insert m.bucket ⟨m.registry, m.isPut⟩).get? m.bucket).map (·.registryId) =
        some m.registry := by
      rw [BTreeMap.get?_insert, if_pos rfl]
      rfl
    rw [BTreeMap.entry_or_insert found, stageMarket, if_pos staged]
    exact { h.grow (.market m.registry) with
      exchangeMarkets := by
        rw [List.foldl_append]
        refine related_place h.exchangeMarkets found ?_ ⟨_, rfl⟩
        rintro other held market known ⟨_, rfl⟩ same
        have equal := toHex_inj (fits.exchangeMarkets other market known).2.registryId event same
        exact fresh (equal ▸ h.marketsNamed other market known)
      marketsNamed := by
        intro other held present
        rw [BTreeMap.get?_insert] at present
        split at present
        · obtain rfl := Option.some.inj present
          exact List.mem_cons_self
        · exact List.mem_cons_of_mem _ (h.marketsNamed other held present) }
  | some first =>
    have unstaged : (views.exchangeMarkets.get? m.bucket).map (·.registryId) ≠ some m.registry := by
      rw [found]
      intro same
      exact fresh (Option.some.inj same ▸ h.marketsNamed m.bucket first found)
    rw [BTreeMap.entry_of_some found, stageMarket, if_neg unstaged]
    exact h.grow (.market m.registry)

theorem bid {b : AuctionBid} (h : Persisted named tables views batch) :
    Persisted named tables views (stageBid views sequence batch b) :=
  { h with }

theorem queuedPosition_consumed {vaultId positionId : ObjectId} {globalSeq timestampMs : Nat} :
    queuedPosition (views.onVaultPosition positionId fun p => p.mark .consumed timestampMs) vaultId globalSeq =
      queuedPosition views vaultId globalSeq := by
  refine BTreeMap.find?_key_congr ?_
  intro key
  change ((views.vaultPositions.modify positionId _).get? key).map _ = _
  rw [BTreeMap.get?_modify]
  split
  · rw [Option.map_map]
    rfl
  · rfl

theorem fulfil {w : TvWithdrawFulfilled} {timestampMs : Nat} {txDigest : TxDigest}
    (h : Persisted named tables views batch) :
    Persisted named tables (applyEvent timestampMs views (.tvWithdrawFulfilled w))
      (stageEventIntoBatch (applyEvent timestampMs views (.tvWithdrawFulfilled w)) sequence txDigest timestampMs batch
        (.tvWithdrawFulfilled w)) := by
  obtain ⟨paid, isPaid⟩ : ∃ paid, paid = views.onTradingVault w.vaultId timestampMs fun v => v.withdrawFulfilled w :=
    ⟨_, rfl⟩
  have staged : Persisted named tables paid (stageTradingVault paid sequence batch w.vaultId) :=
    isPaid ▸ h.tradingVault Follows.overwrite
  simp only [applyEvent, stageEventIntoBatch]
  rw [← isPaid]
  cases found : queuedPosition paid w.vaultId w.globalSeq with
  | some positionId =>
    simp only [Views.consumeQueued, found, queuedPosition_consumed]
    exact staged.vaultPosition Follows.overwrite
  | none =>
    simp only [Views.consumeQueued, found]
    exact staged

theorem split {parentId childId : ObjectId} {f g : VaultPositionState → VaultPositionState} {child : VaultPositionState}
    {next : BTreeMap ObjectId VaultPositionState} (h : Persisted named tables views batch)
    (isNext : next = (views.vaultPositions.modify parentId f).entry childId child g) :
    Persisted named tables { views with vaultPositions := next }
      (stageVaultPosition { views with vaultPositions := next } sequence
        (stageVaultPosition { views with vaultPositions := next } sequence batch parentId) childId) := by
  subst isNext
  refine h.vaultPositionPair ?_ ?_
  · intro other notParent notChild
    rw [BTreeMap.get?_entry, if_neg notChild, BTreeMap.get?_modify, if_neg notParent]
  · intro other missing
    rw [BTreeMap.get?_entry] at missing
    split at missing
    · cases missing
    · exact BTreeMap.get?_modify_none.mp missing

theorem merge {keptId mergedId : ObjectId} {f g : VaultPositionState → VaultPositionState}
    {next : BTreeMap ObjectId VaultPositionState} (h : Persisted named tables views batch)
    (isNext : next = (views.vaultPositions.modify keptId f).modify mergedId g) :
    Persisted named tables { views with vaultPositions := next }
      (stageVaultPosition { views with vaultPositions := next } sequence
        (stageVaultPosition { views with vaultPositions := next } sequence batch keptId) mergedId) := by
  subst isNext
  refine h.vaultPositionPair ?_ ?_
  · intro other notKept notMerged
    rw [BTreeMap.get?_modify, if_neg notMerged, BTreeMap.get?_modify, if_neg notKept]
  · intro other missing
    exact BTreeMap.get?_modify_none.mp (BTreeMap.get?_modify_none.mp missing)

theorem step {timestampMs : Nat} {txDigest : TxDigest} (event : ChainEvent) (h : Persisted named tables views batch)
    (known : views.Fits) (fits : event.Fits) (fresh : ∀ identity ∈ event.creates, identity ∉ named)
    (kept : Kept timestampMs views event) :
    Persisted (event.names ++ named) tables (applyEvent timestampMs views event)
      (stageEventIntoBatch (applyEvent timestampMs views event) sequence txDigest timestampMs batch event) := by
  cases event with
  | bucketCreated b | putBucketCreated b => exact h.createBucket (fresh _ List.mem_cons_self)
  | writeExecuted w | putWriteExecuted w =>
    exact (h.bucket fun _ => rfl).mint (.written w _) ⟨rfl, rfl, rfl, rfl, rfl, rfl⟩ (fresh _ List.mem_cons_self)
  | exercised _ | putExercised _ | bucketCleaned _ | putBucketCleaned _ | bucketInvalidated _ | putBucketInvalidated _
  | bucketRevalidated _ | putBucketRevalidated _ | collateralizedWrite _ | putCollateralizedWrite _ =>
    exact h.bucket fun _ => rfl
  | redeemed _ | putRedeemed _ => exact h.drop
  | signerCreated _ => exact h.account Follows.entry
  | signingKeyRotated _ => exact h.account Follows.overwrite
  | deepBookPoolCreated _ => exact h.pool known fits.2 (fresh _ List.mem_cons_self)
  | optionMarketListed _ => exact h.market known fits.2 (fresh _ List.mem_cons_self)
  | auctionCreated _ => exact h.rfq (Follows.insert fun _ _ _ _ => rfl)
  | auctionBid _ =>
    exact (h.rfq Follows.overwrite).bid
  | auctionSettled _ | auctionUnfilled _ | rfqCreated _ | putRfqCreated _ | rfqExpiredUnsold _ | putRfqExpiredUnsold _
  | vaultRfqUnsold _ | swapRfqSettled _ | swapRfqUnfilled _ => exact h.rfq Follows.entry
  | rfqSettled s | putRfqSettled s =>
    exact (h.rfq Follows.entry).mint (.settled s _) ⟨rfl, rfl, rfl, rfl, rfl, rfl⟩ (fresh _ List.mem_cons_self)
  | vaultRfqSettled s =>
    exact (h.rfq Follows.entry).mint (.vaultSettled s) ⟨rfl, rfl, rfl, rfl, rfl, rfl⟩ (fresh _ List.mem_cons_self)
  | vaultCreated _ => exact h.createVault (fresh _ List.mem_cons_self)
  | vaultConfigApplied c =>
    refine h.vault ?_
    intro v held
    rw [kept v held]
    rfl
  | vaultDeposit _ | instantWithdraw _ => exact (h.vault fun _ _ => rfl).receipt
  | sharesClaimed _ | withdrawInitiated _ | withdrawCompleted _ => exact h.receipt
  | vaultBucketSelected _ | vaultRoundFinalized _ => exact (h.vault fun _ _ => rfl).round
  | vaultFeesCharged _ => exact h.round
  | vaultDepositsPaused _ _ => exact h.vault fun _ _ => rfl
  | tvVaultCreated _ => exact h.tradingVault (Follows.insert fun _ _ _ _ => rfl)
  | tvVaultClosing _ | tvVaultClosed _ | tvDepositsPaused _ _ | tvMmReleaseToggled _ _ | tvCuratorRotated _
  | tvDeposited _ | tvCapitalSynced _ | tvRiskStateChanged _ | tvJuniorResetProposed _ | tvJuniorResetCancelled _
  | tvJuniorResetExecuted _ | tvSettlementSnapshot _ | tvVaultAppraised _ _ | tvExternalAccountSet _ _
  | tvExternalAccountCleared _ | tvExternalReleased _ | tvExternalReturned _ | equityPosted _ =>
    exact h.tradingVault Follows.overwrite
  | tvWithdrawRequested _ | tvSettlementRedeemed _ =>
    exact (h.tradingVault Follows.overwrite).vaultPosition Follows.overwrite
  | tvWithdrawFulfilled _ => exact h.fulfil
  | tvPositionMinted _ => exact h.vaultPosition Follows.entry
  | tvPositionSplit _ => exact h.split rfl
  | tvPositionMerged _ => exact h.merge rfl
  | tvWipedPositionBurned _ => exact h.vaultPosition Follows.overwrite
  | tvPositionStored p =>
    refine (h.tradingVault Follows.overwrite).custodied (Follows.insert ?_)
    intro old held before after
    obtain ⟨adapter, storedAt⟩ := kept old held
    rw [mergeTradingVaultPosition_row, TradingVaultPositionState.updated, adapter, storedAt]
  | tvPositionRemoved _ _ =>
    exact (h.tradingVault Follows.overwrite).custodied (Follows.modify fun _ _ _ _ => mergeTradingVaultPosition_row)
  | tvPositionAppraised _ => exact h.custodied (Follows.modify fun _ _ _ _ => mergeTradingVaultPosition_row)
  | _ => exact h

end Persisted

theorem applyCheckpoint_tables {tables next : Tables} {batch : CheckpointBatch}
    (applied : applyCheckpoint tables batch = some next) :
    ∃ events eventParticipants rfqBids, next = {
      events := events
      eventParticipants := eventParticipants
      accounts := upserts mergeAll tables.accounts batch.accounts
      buckets := upserts mergeBucket tables.buckets batch.buckets
      deepbookPools := batch.deepbookPools.foldl (place (·.poolId)) tables.deepbookPools
      exchangeMarkets := batch.exchangeMarkets.foldl (place (·.registryId)) tables.exchangeMarkets
      positions := persistPositions tables.positions batch.positionUpserts batch.positionDeletes
      rfqs := upserts mergeAll tables.rfqs batch.rfqs
      rfqBids := rfqBids
      vaults := upserts mergeVault tables.vaults batch.vaults
      vaultRounds := upserts mergeAll tables.vaultRounds batch.vaultRounds
      vaultReceipts := upserts mergeAll tables.vaultReceipts batch.vaultReceipts
      tradingVaults := upserts mergeAll tables.tradingVaults batch.tradingVaults
      tradingVaultPositions :=
        upserts mergeTradingVaultPosition tables.tradingVaultPositions batch.tradingVaultPositions
      vaultPositions := upserts mergeAll tables.vaultPositions batch.vaultPositions
      progress := some ⟨batch.checkpoint, batch.lastSequence⟩ } := by
  unfold applyCheckpoint at applied
  obtain ⟨eventParticipants, -, applied⟩ := Option.bind_eq_some_iff.mp applied
  obtain ⟨pools, placedPools, applied⟩ := Option.bind_eq_some_iff.mp applied
  obtain ⟨markets, placedMarkets, applied⟩ := Option.bind_eq_some_iff.mp applied
  obtain ⟨rfqBids, -, applied⟩ := Option.bind_eq_some_iff.mp applied
  obtain rfl := Option.some.inj applied
  rw [foldl_of_foldlM insertPool_place placedPools, foldl_of_foldlM insertMarket_place placedMarkets]
  exact ⟨_, _, _, rfl⟩

namespace Persisted

variable {named : List Identity} {tables next : Tables} {views : Views} {batch : CheckpointBatch}

theorem start (checkpoint lastSequence : Nat) :
    Persisted [] Tables.empty Views.default (.empty checkpoint lastSequence) := by
  constructor
  case bucketsNamed | vaultsNamed | poolsNamed | marketsNamed =>
    intro key value found
    cases BTreeMap.get?_empty.symm.trans found
  case rowsNamed =>
    intro bucketId start row found
    cases BTreeMap.get?_empty.symm.trans found
  case deletesNamed =>
    intro bucketId start deleted
    cases deleted
  all_goals exact .empty

theorem hydrate {checkpoint lastSequence : Nat}
    (h : Persisted named tables views (.empty checkpoint lastSequence)) (fits : views.Fits) :
    tables.hydrate = .ok views := by
  have accounts : hydrateRows AccountRow.intoState tables.accounts = .ok views.accounts := by
    refine hydrateRows_of_related h.accounts ?_
    rintro id row state held ⟨sequence, rfl⟩
    obtain ⟨known, fits⟩ := fits.accounts id state held
    exact AccountRow.intoState_accountRow known fits
  have buckets : hydrateRows BucketRow.intoState tables.buckets = .ok views.buckets := by
    refine hydrateRows_of_related h.buckets ?_
    rintro id row state held ⟨sequence, rfl⟩
    obtain ⟨known, fits⟩ := fits.buckets id state held
    exact BucketRow.intoState_bucketRow known fits
  have positions : hydrateRows PositionRow.intoState tables.positions = .ok views.positions := by
    refine hydrateRows_of_related h.positions ?_
    intro key row state held shows
    obtain ⟨rfl, fits⟩ := fits.positions key state held
    exact shows.intoState fits
  have deepbookPools : hydrateRows DeepBookPoolRow.intoState tables.deepbookPools = .ok views.deepbookPools := by
    refine hydrateRows_of_related h.deepbookPools ?_
    rintro id row state held ⟨checkpoint, timestampMs, sequence, rfl⟩
    obtain ⟨known, fits⟩ := fits.deepbookPools id state held
    exact DeepBookPoolRow.intoState_deepbookPoolRow known fits
  have exchangeMarkets : hydrateRows ExchangeMarketLinkRow.intoState tables.exchangeMarkets =
      .ok views.exchangeMarkets := by
    refine hydrateRows_of_related h.exchangeMarkets ?_
    rintro id row state held ⟨sequence, rfl⟩
    obtain ⟨known, fits⟩ := fits.exchangeMarkets id state held
    exact ExchangeMarketLinkRow.intoState_exchangeMarketRow known fits.registryId
  have rfqs : hydrateRows RfqRow.intoState tables.rfqs = .ok views.rfqs := by
    refine hydrateRows_of_related h.rfqs ?_
    rintro id row state held ⟨sequence, rfl⟩
    obtain ⟨known, fits⟩ := fits.rfqs id state held
    exact RfqRow.intoState_rfqRow known fits
  have vaults : hydrateRows VaultRow.intoState tables.vaults = .ok views.vaults := by
    refine hydrateRows_of_related h.vaults ?_
    rintro id row state held ⟨sequence, rfl⟩
    obtain ⟨known, fits⟩ := fits.vaults id state held
    exact VaultRow.intoState_vaultRow known fits
  have vaultRounds : hydrateRows VaultRoundRow.intoState tables.vaultRounds = .ok views.vaultRounds := by
    refine hydrateRows_of_related h.vaultRounds ?_
    rintro key row state held ⟨sequence, rfl⟩
    obtain ⟨known, round, fits⟩ := fits.vaultRounds key state held
    exact VaultRoundRow.intoState_vaultRoundRow known round fits
  have vaultReceipts : hydrateRows VaultReceiptRow.intoState tables.vaultReceipts = .ok views.vaultReceipts := by
    refine hydrateRows_of_related h.vaultReceipts ?_
    rintro key row state held ⟨sequence, rfl⟩
    obtain ⟨known, round, fits⟩ := fits.vaultReceipts key state held
    exact VaultReceiptRow.intoState_receiptRow known round fits
  have tradingVaults : hydrateRows TradingVaultRow.intoState tables.tradingVaults = .ok views.tradingVaults := by
    refine hydrateRows_of_related h.tradingVaults ?_
    rintro id row state held ⟨sequence, rfl⟩
    obtain ⟨known, fits⟩ := fits.tradingVaults id state held
    exact TradingVaultRow.intoState_tradingVaultRow known fits
  have tradingVaultPositions : hydrateRows TradingVaultPositionRow.intoState tables.tradingVaultPositions =
      .ok views.tradingVaultPositions := by
    refine hydrateRows_of_related h.tradingVaultPositions ?_
    rintro key row state held ⟨sequence, rfl⟩
    obtain ⟨vault, position, fits⟩ := fits.tradingVaultPositions key state held
    exact TradingVaultPositionRow.intoState_tradingVaultPositionRow vault position fits
  have vaultPositions : hydrateRows VaultPositionRow.intoState tables.vaultPositions = .ok views.vaultPositions := by
    refine hydrateRows_of_related h.vaultPositions ?_
    rintro id row state held ⟨sequence, rfl⟩
    obtain ⟨known, fits⟩ := fits.vaultPositions id state held
    exact VaultPositionRow.intoState_vaultPositionRow known fits
  rw [Tables.hydrate, accounts, buckets, positions, deepbookPools, exchangeMarkets, rfqs, vaults, vaultRounds,
    vaultReceipts, tradingVaults, tradingVaultPositions, vaultPositions]
  rfl

/-- The next checkpoint starts from the committed tables with nothing staged. -/
theorem commit {checkpoint lastSequence : Nat} (h : Persisted named tables views batch)
    (applied : applyCheckpoint tables batch = some next) :
    Persisted named next views (.empty checkpoint lastSequence) := by
  obtain ⟨events, eventParticipants, rfqBids, rfl⟩ := applyCheckpoint_tables applied
  exact { h with
    rowsNamed := by
      intro bucketId start row found
      change (persistPositions tables.positions batch.positionUpserts batch.positionDeletes).get? (bucketId, start) =
        some row at found
      rw [persistPositions, get?_removes] at found
      split at found
      · cases found
      · exact h.rowsNamed bucketId start row found
    deletesNamed := by
      intro bucketId start deleted
      cases deleted }

end Persisted

def Checkpoint.chainEvents (c : Checkpoint) : List ChainEvent := c.events.map (·.event)

/-- `Kept` for each event of a checkpoint, in the views it meets. -/
def KeptAll (timestampMs : Nat) : Views → List ChainEvent → Prop
  | _, [] => True
  | views, event :: events => Kept timestampMs views event ∧ KeptAll timestampMs (applyEvent timestampMs views event) events

def KeptRun : Views → List Checkpoint → Prop
  | _, [] => True
  | views, c :: checkpoints =>
    KeptAll c.timestampMs views c.chainEvents ∧ KeptRun (applyEvents c.timestampMs views c.chainEvents) checkpoints

/-- What the source's types hold of a checkpoint. -/
structure Checkpoint.Fits (c : Checkpoint) : Prop where
  timestampMs : Word 64 c.timestampMs
  events : ∀ event ∈ c.chainEvents, event.Fits

theorem Persisted.events {timestampMs : Nat} {tables : Tables} (past later : List ChainEvent) {events : List DecodedEvent}
    {inner : Inner} {batch : CheckpointBatch}
    (h : Persisted (past.flatMap ChainEvent.names) tables inner.toViews batch)
    (known : inner.toViews.Fits) (time : Word 64 timestampMs) (fits : ∀ event ∈ events.map (·.event), event.Fits)
    (causal : Causal (past ++ (events.map (·.event) ++ later)))
    (kept : KeptAll timestampMs inner.toViews (events.map (·.event))) :
    Persisted ((past ++ events.map (·.event)).flatMap ChainEvent.names) tables
      (events.foldl (stageEvent timestampMs) (inner, batch)).1.toViews
      (events.foldl (stageEvent timestampMs) (inner, batch)).2 := by
  induction events generalizing past inner batch with
  | nil => simpa using h
  | cons e events ih =>
    obtain ⟨keptHead, keptTail⟩ := kept
    obtain ⟨fitsHead, fitsTail⟩ := List.forall_mem_cons.mp fits
    have stepped := known.step time e.event fitsHead
    obtain ⟨views, isViews⟩ : ∃ views, views = applyEvent timestampMs inner.toViews e.event := ⟨_, rfl⟩
    have next : Persisted ((past ++ [e.event]).flatMap ChainEvent.names) tables views
        (stageEventIntoBatch views inner.nextSequence e.txDigest timestampMs batch e.event) :=
      isViews ▸ (h.step e.event known fitsHead causal.head keptHead).subset (by simp)
    subst isViews
    rw [List.map_cons, List.append_cons]
    exact ih (past ++ [e.event]) { next with } stepped fitsTail (by simpa using causal) keptTail

theorem stageEvents_views (timestampMs : Nat) (events : List DecodedEvent) (inner : Inner) (batch : CheckpointBatch) :
    (events.foldl (stageEvent timestampMs) (inner, batch)).1.toViews =
      applyEvents timestampMs inner.toViews (events.map (·.event)) := by
  induction events generalizing inner batch with
  | nil => rfl
  | cons e events ih => exact ih _ _

theorem stageEvents_sequence (timestampMs : Nat) (events : List DecodedEvent) (inner : Inner)
    (batch : CheckpointBatch) :
    (events.foldl (stageEvent timestampMs) (inner, batch)).1.nextSequence = inner.nextSequence + events.length := by
  induction events generalizing inner batch with
  | nil => rfl
  | cons e events ih =>
    rw [List.foldl_cons, ih, List.length_cons]
    change inner.nextSequence + 1 + events.length = _
    omega

namespace Worker

structure Restorable (past : List ChainEvent) (s : Worker) : Prop where
  persisted : ∀ checkpoint, Persisted (past.flatMap ChainEvent.names) s.tables s.inner.toViews (.empty checkpoint 0)
  fits : s.inner.toViews.Fits
  progress : (s.tables.progress.map (·.lastSequence)).getD 0 + 1 = s.inner.nextSequence

theorem Restorable.start : Restorable [] Worker.start where
  persisted := fun checkpoint => Persisted.start checkpoint 0
  fits := .default
  progress := rfl

theorem Restorable.process {past later : List ChainEvent} {s next : Worker} {c : Checkpoint} (h : Restorable past s)
    (fits : c.Fits) (causal : Causal (past ++ (c.chainEvents ++ later))) (kept : KeptAll c.timestampMs s.inner.toViews c.chainEvents)
    (processed : s.processCheckpoint c = some next) : Restorable (past ++ c.chainEvents) next := by
  obtain ⟨tables, applied, rfl⟩ := Option.map_eq_some_iff.mp processed
  have staged := (h.persisted c.sequenceNumber).events past later h.fits fits.timestampMs fits.events causal kept
  have held : Persisted ((past ++ c.chainEvents).flatMap ChainEvent.names) s.tables (stageBatch s.inner c).1.toViews
    (stageBatch s.inner c).2 := { staged with }
  have views := stageEvents_views c.timestampMs c.events s.inner (.empty c.sequenceNumber 0)
  refine ⟨fun _ => held.commit applied, views ▸ h.fits.steps fits.timestampMs fits.events, ?_⟩
  obtain ⟨events, eventParticipants, rfqBids, rfl⟩ := applyCheckpoint_tables applied
  have sequence := stageEvents_sequence c.timestampMs c.events s.inner (.empty c.sequenceNumber 0)
  have positive := h.progress
  change (stageBatch s.inner c).1.nextSequence - 1 + 1 = (stageBatch s.inner c).1.nextSequence
  change (stageBatch s.inner c).1.nextSequence = _ at sequence
  omega

theorem Restorable.run {past : List ChainEvent} {s final : Worker} {checkpoints : List Checkpoint}
    (h : Restorable past s) (fits : ∀ c ∈ checkpoints, c.Fits) (causal : Causal (past ++ checkpoints.flatMap Checkpoint.chainEvents))
    (kept : KeptRun s.inner.toViews checkpoints) (processed : s.processAll checkpoints = some final) :
    Restorable (past ++ checkpoints.flatMap Checkpoint.chainEvents) final := by
  induction checkpoints generalizing past s with
  | nil =>
    obtain rfl := Option.some.inj processed
    simpa using h
  | cons c checkpoints ih =>
    obtain ⟨keptHead, keptTail⟩ := kept
    obtain ⟨fitsHead, fitsTail⟩ := List.forall_mem_cons.mp fits
    obtain ⟨next, first, rest⟩ := Option.bind_eq_some_iff.mp processed
    rw [List.flatMap_cons] at causal
    have restorable := h.process fitsHead causal keptHead first
    have views : next.inner.toViews = applyEvents c.timestampMs s.inner.toViews c.chainEvents := by
      obtain ⟨tables, -, rfl⟩ := Option.map_eq_some_iff.mp first
      exact stageEvents_views c.timestampMs c.events s.inner _
    rw [List.flatMap_cons, ← List.append_assoc]
    exact ih restorable fitsTail (by rwa [List.append_assoc]) (views ▸ keptTail) rest

/-- Wherever a run whose events the conflict updates keep is cut, hydrating the tables
changes no view, and what follows is as if the process had gone on. -/
theorem restart_equivalence {before after : List Checkpoint} {s : Worker} (fits : ∀ c ∈ before, c.Fits)
    (causal : Causal (before.flatMap Checkpoint.chainEvents)) (kept : KeptRun Views.default before)
    (processed : Worker.start.processAll before = some s) :
    s.tables.hydrate = .ok s.inner.toViews ∧
      ∃ restarted, s.restart = .ok restarted ∧ restarted.processAll after = s.processAll after := by
  have restorable := Restorable.start.run fits causal kept processed
  have hydrated := (restorable.persisted 0).hydrate restorable.fits
  refine ⟨hydrated, s, ?_, rfl⟩
  rw [restart, hydrated, restorable.progress]
  rfl

/-- A vault, a deposit and its configuration applied anew; a position stored for the
first time; a pool for the call coin of a bucket and a write that is redeemed. -/
def keptRun : List Checkpoint :=
  [⟨1, 1000, [⟨.vaultCreated ⟨⟨200, 1000, 7, 3, 10500, 12000⟩, 7, [], [], []⟩, ['a'], 0⟩,
      ⟨.vaultDeposit ⟨7, 40, 0, 5⟩, ['a'], 1⟩, ⟨.bucketCreated ⟨1, [], [], [], 9000, 2, 0⟩, ['b'], 0⟩]⟩,
    ⟨2, 2000, [⟨.vaultConfigApplied ⟨⟨200, 1000, 7, 3, 10500, 12000⟩, 7⟩, ['c'], 0⟩,
      ⟨.deepBookPoolCreated ⟨⟨30, [], [], 1, 1, 1, 0, 0⟩, 1⟩, ['d'], 0⟩,
      ⟨.tvPositionStored ⟨8, 50, ['O']⟩, ['e'], 0⟩]⟩,
    ⟨3, 3000, [⟨.writeExecuted ⟨1, 3, 41, 42, 60, 43, 44, 9, 0, 4⟩, ['f'], 0⟩,
      ⟨.redeemed ⟨1, 43, 0⟩, ['g'], 0⟩]⟩]

theorem keptRun_fits : ∀ c ∈ keptRun, c.Fits := by
  have config : VaultConfig.Fits ⟨200, 1000, 7, 3, 10500, 12000⟩ := by constructor <;> decide
  have pool : DeepBookPoolState.Fits ⟨30, [], [], 1, 1, 1, 0, 0⟩ := by constructor <;> decide
  have write : WriteExecuted.Fits ⟨1, 3, 41, 42, 60, 43, 44, 9, 0, 4⟩ := by constructor <;> decide
  simp only [keptRun, List.forall_mem_cons]
  refine ⟨⟨by decide, ?_⟩, ⟨by decide, ?_⟩, ⟨by decide, ?_⟩, by simp⟩
  · simp only [Checkpoint.chainEvents, List.map_cons, List.map_nil, List.forall_mem_cons]
    exact ⟨⟨by decide, config⟩, ⟨by decide, by decide⟩, ⟨by decide, by decide, by decide, by decide⟩, by simp⟩
  · simp only [Checkpoint.chainEvents, List.map_cons, List.map_nil, List.forall_mem_cons]
    exact ⟨config, ⟨by decide, pool⟩, ⟨by decide, by decide⟩, by simp⟩
  · simp only [Checkpoint.chainEvents, List.map_cons, List.map_nil, List.forall_mem_cons]
    exact ⟨write, trivial, by simp⟩

theorem keptRun_restarts : ∃ s, Worker.start.processAll keptRun = some s ∧
    s.tables.hydrate = .ok s.inner.toViews ∧
      ∃ restarted, s.restart = .ok restarted ∧ restarted.processAll keptRun = s.processAll keptRun := by
  obtain ⟨s, processed⟩ := Option.isSome_iff_exists.mp (show (Worker.start.processAll keptRun).isSome = true by decide)
  refine ⟨s, processed, restart_equivalence keptRun_fits (by decide) ?_ processed⟩
  refine ⟨⟨trivial, trivial, trivial, trivial⟩, ⟨?_, trivial, ?_, trivial⟩, ⟨trivial, trivial, trivial⟩, trivial⟩
  · change ∀ v ∈ _, _
    decide
  · change ∀ held ∈ _, _
    decide

/-- A vault whose management fee is raised from 2% to 3% in the next checkpoint. -/
def configRun : List Checkpoint :=
  [⟨1, 1000, [⟨.vaultCreated ⟨⟨200, 1000, 7, 3, 10500, 12000⟩, 7, [], [], []⟩, ['a'], 0⟩]⟩,
    ⟨2, 2000, [⟨.vaultConfigApplied ⟨⟨300, 1000, 7, 3, 10500, 12000⟩, 7⟩, ['b'], 0⟩]⟩]

theorem configRun_forgotten : Causal (configRun.flatMap Checkpoint.chainEvents) ∧
    ∃ s restarted, Worker.start.processAll configRun = some s ∧ s.restart = .ok restarted ∧
      (s.inner.vaults.get? 7).map (·.mgmtFeeBpsAnnual) = some (some 300) ∧
      (restarted.inner.vaults.get? 7).map (·.mgmtFeeBpsAnnual) = some (some 200) := by
  refine ⟨by decide, ?_⟩
  have seen : (Worker.start.processAll configRun).bind (fun s => s.restart.toOption.map fun restarted =>
      ((s.inner.vaults.get? 7).map (·.mgmtFeeBpsAnnual), (restarted.inner.vaults.get? 7).map (·.mgmtFeeBpsAnnual))) =
      some (some (some 300), some (some 200)) := by decide +kernel
  obtain ⟨s, processed, read⟩ := Option.bind_eq_some_iff.mp seen
  obtain ⟨restarted, opened, fees⟩ := Option.map_eq_some_iff.mp read
  obtain ⟨running, forgotten⟩ := Prod.mk.inj fees
  refine ⟨s, restarted, processed, ?_, running, forgotten⟩
  cases result : s.restart with
  | error e =>
    rw [result] at opened
    cases opened
  | ok final =>
    rw [result] at opened
    exact congrArg Except.ok (Option.some.inj opened)

end Worker

end SuiOptions.Indexer
