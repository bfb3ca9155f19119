import SuiOptions.ProtocolTypes.Kept

/-! The renderings whose chain form is the name of their type. -/

set_option autoImplicit false

namespace SuiOptions.ProtocolTypes

open Move Text Tokens
open Exchange (Mark charKind isAsciiHexdigit colons hexChar)

theorem noX_of_hex {word : List Char} (hex : ∀ c ∈ word, isAsciiHexdigit c = true) : 'x' ∉ word :=
  fun member => (hexChar (hex 'x' member)).notX rfl

theorem removePair_lead {word : List Char} (hex : ∀ c ∈ word, isAsciiHexdigit c = true) :
    removePair '0' 'x' (['0', 'x'] ++ word) = word := by
  have lead : removePair '0' 'x' (['0', 'x'] ++ word) = removePair '0' 'x' word := rfl
  rw [lead, removePair_of_not_mem (noX_of_hex hex)]

theorem SpelledAddress.removePair_addr (a : SpelledAddress) : removePair '0' 'x' a.addr = a.digits := by
  unfold SpelledAddress.addr
  cases a.lead with
  | false => exact removePair_of_not_mem (noX_of_hex a.digit)
  | true => exact removePair_lead a.digit

namespace SpelledPath

variable (p : SpelledPath)

/-- An address apart from its `::` has all of its digits, a module that is taken for an address is one, and no
identifier holds the two characters `0x`. -/
def Settled : Prop :=
  (p.afterAddress = true → p.digits = addressText p.package) ∧
    (p.beforeModule = true → p.afterModule = false → p.module.text.all isAsciiHexdigit = true →
      padded p.module.text = p.module.text) ∧
    (Written.path p).atom.Unmarked

theorem removePair_address (proper : Proper p.module) : removePair '0' 'x' (address p.module.text) =
    if p.module.text.all isAsciiHexdigit = true then padded p.module.text else removePair '0' 'x' p.module.text := by
  rw [address, proper.stripHex]
  split
  · rename_i hex
    exact removePair_lead fun c member => (padded_hex (List.all_eq_true.mp hex) c member).1
  · rfl

theorem module_iff (proper : Proper p.module) :
    removePair '0' 'x' (if p.beforeModule ∧ p.afterModule = false then address p.module.text else p.module.text) =
        p.module.text ↔
      (p.beforeModule = true → p.afterModule = false → p.module.text.all isAsciiHexdigit = true →
        padded p.module.text = p.module.text) ∧ ¬ ['0', 'x'] <:+: p.module.text := by
  split
  · rename_i begins
    rw [p.removePair_address proper]
    split
    · rename_i hex
      have free : ¬ ['0', 'x'] <:+: p.module.text :=
        fun inside => noX_of_hex (List.all_eq_true.mp hex) (inside.subset (by simp))
      exact ⟨fun same => ⟨fun _ _ _ => same, free⟩, fun known => known.1 begins.1 begins.2 hex⟩
    · rename_i other
      rw [removePair_eq_self_iff]
      exact ⟨fun free => ⟨fun _ _ hex => absurd hex other, free⟩, fun known => known.2⟩
  · rename_i inside
    rw [removePair_eq_self_iff]
    exact ⟨fun free => ⟨fun begins ends => absurd ⟨begins, ends⟩ inside, free⟩, fun known => known.2⟩

/-- The words of a path come out as its name exactly when it is settled. -/
theorem settled_iff (proper : Proper p.module) :
    removePair '0' 'x' (Written.path p).out = (Written.path p).atom.bare ↔ p.Settled := by
  have front : removePair '0' 'x' (if p.afterAddress then p.addr else ['0', 'x'] ++ addressText p.package) =
      if p.afterAddress then p.digits else addressText p.package := by
    split
    · exact p.removePair_addr
    · exact removePair_lead (Exchange.Path.addressText_hex _)
  have digits : ':' ∉ if p.afterAddress then p.digits else addressText p.package := by
    rw [← front]
    intro member
    have whole := (removePair_sublist _).subset member
    revert whole
    split
    · exact p.addr_bare
    · exact not_colon (prefixed_mem _)
  have middle : ':' ∉ removePair '0' 'x'
      (if p.beforeModule ∧ p.afterModule = false then address p.module.text else p.module.text) := by
    intro member
    have whole := (removePair_sublist _).subset member
    revert whole
    split
    · exact not_colon (address_mem p.module.mem)
    · exact identifier_bare _
  have bare : (Written.path p).atom.bare =
      addressText p.package ++ (colons ++ (p.module.text ++ (colons ++ p.name.text))) := by
    simp [Written.atom, Atom.text, path_text]
  rw [p.out_eq proper, removePair_path, removePair_path, front, bare]
  have address : (p.afterAddress = true → p.digits = addressText p.package) ↔
      (if p.afterAddress then p.digits else addressText p.package) = addressText p.package := by
    cases p.afterAddress <;> simp
  unfold Settled
  rw [address]
  constructor
  · intro same
    obtain ⟨addresses, rest⟩ := colons_cancel digits (not_colon (addressText_mem _)) same
    obtain ⟨modules, names⟩ := colons_cancel middle (identifier_bare _) rest
    obtain ⟨whole, free⟩ := (p.module_iff proper).mp modules
    exact ⟨addresses, whole, free, removePair_eq_self_iff.mp names⟩
  · rintro ⟨addresses, whole, free, names⟩
    rw [addresses, (p.module_iff proper).mpr ⟨whole, free⟩, removePair_eq_self_iff.mpr names]

end SpelledPath

namespace Rendering

variable {t : MoveType} {s : List Char}

def Settled (r : Rendering t s) : Prop := ∀ p, .word (.path p) ∈ r.written → p.Settled

/-- A word without `::` is its name. -/
theorem removePair_plain {w : Written} (word : ∀ p, w ≠ .path p) : removePair '0' 'x' w.out = w.atom.bare := by
  rw [out_plain word, removePair_prefixed]
  cases w with
  | primitive which => rfl
  | vector => rfl
  | path p => exact absurd rfl (word p)

theorem chainForm (r : Rendering t s) : chainFormMoveType s = write (removePair '0' 'x' ∘ Written.out) r.written := by
  rw [chainFormMoveType, r.canonicalize, removePair_write r.separated_written]

theorem typeName_eq (r : Rendering t s) : typeName t = write (Atom.bare ∘ Written.atom) r.written := by
  rw [← write_tokens, ← r.denotes]
  exact spell_map _ _

/-- The chain form of a rendering is the name of its type exactly when it is settled. -/
theorem settled_iff (proper : ProperType t) (r : Rendering t s) : chainFormMoveType s = typeName t ↔ r.Settled := by
  rw [r.chainForm, r.typeName_eq]
  have became : ∀ w, .word w ∈ r.written → ∀ c ∈ (removePair '0' 'x' ∘ Written.out) w, Letter charKind c :=
    fun w member c inside => r.written_letters proper w member c ((removePair_sublist _).subset inside)
  have named : ∀ w, .word w ∈ r.written → ∀ c ∈ (Atom.bare ∘ Written.atom) w, Letter charKind c :=
    fun w _ => (w.atom.text_letters false).2
  refine (spell_eq_iff mark_outside r.separated_written became named).trans ?_
  constructor
  · exact fun same p member => (p.settled_iff (r.proper_module proper member)).mp (same _ member)
  · intro settled w member
    cases w with
    | path p => exact (p.settled_iff (r.proper_module proper member)).mpr (settled p member)
    | primitive which => exact removePair_plain fun _ => nofun
    | vector => exact removePair_plain fun _ => nofun

theorem Settled.unmarked {r : Rendering t s} (settled : r.Settled) : UnmarkedType t := by
  intro a member
  rw [← r.denotes] at member
  obtain ⟨token, inside, same⟩ := List.mem_map.mp member
  cases token with
  | mark which => cases same
  | word w =>
    cases same
    cases w with
    | path p => exact (settled p inside).2.2
    | primitive which => trivial
    | vector => trivial

end Rendering

end SuiOptions.ProtocolTypes
