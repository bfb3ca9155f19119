import SuiOptions.Lib.BTreeMap

/-! A table that is written behind.

Rows leave in batches, and a batch under way lands at any time, in any order: what the
table holds tells little. What it and the batches under way tell together is lasting when
the merge of two rows tells what either of them tells.
-/

set_option autoImplicit false

structure WriteBehind (κ ρ : Type) [Ord κ] where
  table : BTreeMap κ ρ
  /-- The batches under way. -/
  pending : List (List (κ × ρ))

namespace WriteBehind

variable {κ ρ : Type} [Ord κ] [Std.TransOrd κ]

def empty : WriteBehind κ ρ := ⟨∅, []⟩

def submit (s : WriteBehind κ ρ) (batch : List (κ × ρ)) : WriteBehind κ ρ := { s with pending := batch :: s.pending }

def write (merge : ρ → ρ → ρ) (table : BTreeMap κ ρ) (row : κ × ρ) : BTreeMap κ ρ := table.upsert row.1 row.2 merge

def land (merge : ρ → ρ → ρ) (s : WriteBehind κ ρ) (index : Nat) : WriteBehind κ ρ :=
  match s.pending[index]? with
  | none => s
  | some batch => ⟨batch.foldl (write merge) s.table, s.pending.eraseIdx index⟩

def drop (s : WriteBehind κ ρ) (index : Nat) : WriteBehind κ ρ := { s with pending := s.pending.eraseIdx index }

def crash (s : WriteBehind κ ρ) : WriteBehind κ ρ := { s with pending := [] }

def Tells (s : WriteBehind κ ρ) (key : κ) (what : ρ → Prop) : Prop :=
  (∃ row, s.table.get? key = some row ∧ what row) ∨ ∃ batch ∈ s.pending, ∃ row, (key, row) ∈ batch ∧ what row

variable {s : WriteBehind κ ρ} {key : κ} {what : ρ → Prop} {batch : List (κ × ρ)} {merge : ρ → ρ → ρ}

theorem tells_submit : (s.submit batch).Tells key what ↔ s.Tells key what ∨ ∃ row, (key, row) ∈ batch ∧ what row := by
  unfold Tells submit
  simp only [List.mem_cons, exists_eq_or_imp]
  rw [or_assoc, or_comm (a := ∃ row, (key, row) ∈ batch ∧ what row)]

theorem not_tells_empty : ¬ (empty : WriteBehind κ ρ).Tells key what := by
  rintro (⟨row, found, -⟩ | ⟨batch, inside, -⟩)
  · rw [empty, BTreeMap.get?_empty] at found
    cases found
  · cases inside

theorem tells_settled (settled : s.pending = []) : s.Tells key what ↔ ∃ row, s.table.get? key = some row ∧ what row := by
  unfold Tells
  simp [settled]

theorem tells_mono {more : ρ → Prop} (weaker : ∀ row, what row → more row) (tells : s.Tells key what) : s.Tells key more := by
  rcases tells with ⟨row, found, holds⟩ | ⟨batch, inside, row, member, holds⟩
  · exact Or.inl ⟨row, found, weaker row holds⟩
  · exact Or.inr ⟨batch, inside, row, member, weaker row holds⟩

section Landing

variable [Std.LawfulEqOrd κ] [DecidableEq κ] {table : BTreeMap κ ρ}

theorem of_written (apart : ∀ old new, what (merge old new) → what old ∨ what new)
    (holds : ∃ row, (batch.foldl (write merge) table).get? key = some row ∧ what row) :
    (∃ row, table.get? key = some row ∧ what row) ∨ ∃ row, (key, row) ∈ batch ∧ what row := by
  induction batch generalizing table with
  | nil => exact Or.inl holds
  | cons first rest ih =>
    rcases ih holds with ⟨row, found, tells⟩ | ⟨row, member, tells⟩
    · rw [write, BTreeMap.get?_upsert] at found
      split at found
      · rename_i same
        subst same
        cases held : table.get? first.1 with
        | none =>
          rw [held] at found
          cases found
          exact Or.inr ⟨first.2, List.mem_cons_self, tells⟩
        | some old =>
          rw [held] at found
          cases found
          rcases apart old first.2 tells with before | now
          · exact Or.inl ⟨old, rfl, before⟩
          · exact Or.inr ⟨first.2, List.mem_cons_self, now⟩
      · exact Or.inl ⟨row, found, tells⟩
    · exact Or.inr ⟨row, List.mem_cons_of_mem _ member, tells⟩

/-- Where a merged row tells what either of the two said. -/
theorem written_of (both : ∀ old new, what old ∨ what new → what (merge old new))
    (holds : (∃ row, table.get? key = some row ∧ what row) ∨ ∃ row, (key, row) ∈ batch ∧ what row) :
    ∃ row, (batch.foldl (write merge) table).get? key = some row ∧ what row := by
  induction batch generalizing table with
  | nil =>
    rcases holds with stored | ⟨row, member, -⟩
    · exact stored
    · cases member
  | cons first rest ih =>
    apply ih
    have fresh : what first.2 → first.1 = key → ∃ row, (write merge table first).get? key = some row ∧ what row := by
      rintro tells rfl
      rw [write, BTreeMap.get?_upsert, if_pos rfl]
      cases held : table.get? first.1 with
      | none => exact ⟨_, rfl, tells⟩
      | some old => exact ⟨_, rfl, both old first.2 (Or.inr tells)⟩
    rcases holds with ⟨old, found, tells⟩ | ⟨row, member, tells⟩
    · refine Or.inl ?_
      by_cases same : key = first.1
      · rw [write, BTreeMap.get?_upsert, if_pos same, found]
        exact ⟨_, rfl, both old first.2 (Or.inl tells)⟩
      · rw [write, BTreeMap.get?_upsert, if_neg same]
        exact ⟨old, found, tells⟩
    · rcases List.mem_cons.mp member with rfl | later
      · exact Or.inl (fresh tells rfl)
      · exact Or.inr ⟨row, later, tells⟩

omit [Std.TransOrd κ] [Std.LawfulEqOrd κ] [DecidableEq κ] in
theorem pending_split {index : Nat} (chosen : s.pending[index]? = some batch) (test : List (κ × ρ) → Prop) :
    (∃ other ∈ s.pending, test other) ↔ test batch ∨ ∃ other ∈ s.pending.eraseIdx index, test other := by
  obtain ⟨inside, rfl⟩ := List.getElem?_eq_some_iff.mp chosen
  have perm : s.pending.Perm (s.pending[index] :: s.pending.eraseIdx index) := (List.getElem_cons_eraseIdx_perm inside).symm
  simp only [perm.mem_iff, List.mem_cons, exists_eq_or_imp]

theorem tells_of_land {index : Nat} (apart : ∀ old new, what (merge old new) → what old ∨ what new)
    (tells : (s.land merge index).Tells key what) : s.Tells key what := by
  unfold land at tells
  split at tells
  · exact tells
  · rename_i batch chosen
    unfold Tells
    rw [pending_split chosen]
    rcases tells with stored | under
    · rcases of_written apart stored with before | now
      · exact Or.inl before
      · exact Or.inr (Or.inl now)
    · exact Or.inr (Or.inr under)

theorem land_tells {index : Nat} (both : ∀ old new, what old ∨ what new → what (merge old new))
    (tells : s.Tells key what) : (s.land merge index).Tells key what := by
  unfold land
  split
  · exact tells
  · rename_i batch chosen
    unfold Tells at tells
    rw [pending_split chosen] at tells
    rcases tells with stored | now | under
    · exact Or.inl (written_of both (Or.inl stored))
    · exact Or.inl (written_of both (Or.inr now))
    · exact Or.inr under

theorem tells_land {index : Nat} (lasting : ∀ old new, what (merge old new) ↔ what old ∨ what new) :
    (s.land merge index).Tells key what ↔ s.Tells key what :=
  ⟨tells_of_land fun old new => (lasting old new).mp, land_tells fun old new => (lasting old new).mpr⟩

end Landing

end WriteBehind
