import SuiOptions.ProtocolTypes.Rendering

/-! The chain form of a type.

It is the canonical form without any `0x`, wherever the two characters stand. That is the
name of the type unless one of its identifiers holds them.
-/

set_option autoImplicit false

namespace SuiOptions.ProtocolTypes

open Move Text Tokens
open Exchange (Mark charKind isAsciiHexdigit splitPath stripHex colons hexValue hexChar)

theorem removePair_write {ω : Type} {f : ω → List Char} {tokens : List (Token ω Mark)} (separated : Separated tokens) :
    removePair '0' 'x' (write f tokens) = write (removePair '0' 'x' ∘ f) tokens := by
  have parted : ∀ (which : Mark) (text : List Char),
      removePair '0' 'x' (which.char :: text) = which.char :: removePair '0' 'x' text := by
    intro which text
    have other : which.char ≠ '0' := by cases which <;> decide
    cases text with
    | nil => rfl
    | cons c rest => rw [removePair, if_neg fun pair => other pair.1]
  unfold write
  induction tokens with
  | nil => rfl
  | cons token rest ih =>
    cases token with
    | mark which => rw [spell_mark, spell_mark, parted, ih separated]
    | word text =>
      have apart : (spell Mark.char f rest).head? ≠ some 'x' := by
        have ends : Ends (· = 'x') (spell Mark.char f rest) :=
          separated.1.ends (fun which => by cases which <;> decide)
        exact fun head => ends 'x' head rfl
      rw [spell_word, spell_word, removePair_append _ apart, ih separated.2]
      rfl

/-- No identifier of the word holds the two characters `0x`. -/
def Atom.Unmarked : Atom → Prop
  | .path _ module name => ¬ ['0', 'x'] <:+: module.text ∧ ¬ ['0', 'x'] <:+: name.text
  | _ => True

/-- The word that is left without them. -/
def Atom.stripped : Atom → List Char
  | .primitive which => which.text
  | .vector => vectorText
  | .path package module name => addressText package ++ (colons ++
      (removePair '0' 'x' module.text ++ (colons ++ removePair '0' 'x' name.text)))

theorem removePair_of_not_mem {word : List Char} (free : 'x' ∉ word) : removePair '0' 'x' word = word :=
  removePair_eq_self_iff.mpr fun inside => free (inside.subset (by simp))

theorem removePair_prefixed (a : Atom) : removePair '0' 'x' a.prefixed = a.stripped := by
  cases a with
  | primitive which => cases which <;> decide
  | vector => decide
  | path package module name =>
    have hex : 'x' ∉ addressText package := by
      intro member
      exact (hexChar (Exchange.Path.addressText_hex package 'x' member)).notX rfl
    have begins : ∀ rest : List Char, (colons ++ rest).head? ≠ some 'x' := by
      intro rest
      simp [colons]
    have passed : ∀ rest : List Char, removePair '0' 'x' (colons ++ rest) = colons ++ removePair '0' 'x' rest := by
      intro rest
      cases rest with
      | nil => decide
      | cons c rest => simp [colons, removePair]
    have lead : ∀ rest : List Char, removePair '0' 'x' (['0', 'x'] ++ rest) = removePair '0' 'x' rest := fun _ => rfl
    simp only [Atom.text, if_true, Atom.stripped, path_text]
    rw [lead, removePair_append _ (begins _), removePair_of_not_mem hex, passed, removePair_append _ (begins _), passed]

theorem stripped_iff (a : Atom) : a.stripped = a.bare ↔ a.Unmarked := by
  cases a with
  | primitive which => exact iff_of_true rfl trivial
  | vector => exact iff_of_true rfl trivial
  | path package module name =>
    simp only [Atom.stripped, Atom.text, path_text, Atom.Unmarked, ← removePair_eq_self_iff, Bool.false_eq_true, if_false,
      List.nil_append]
    have shorter : ∀ name : Identifier, (removePair '0' 'x' name.text).length ≤ name.text.length :=
      fun name => (removePair_sublist _).length_le
    constructor
    · intro same
      have lengths := congrArg List.length same
      simp only [List.length_append] at lengths
      have moduleShort := shorter module
      have nameShort := shorter name
      exact ⟨(removePair_sublist _).eq_of_length (by omega), (removePair_sublist _).eq_of_length (by omega)⟩
    · rintro ⟨modules, names⟩
      rw [modules, names]

/-- No identifier of a type holds the two characters `0x`. -/
def UnmarkedType (t : MoveType) : Prop := ∀ a, .word a ∈ tokens t → a.Unmarked

theorem stripped_letters (a : Atom) : ∀ c ∈ a.stripped, Letter charKind c := by
  intro c member
  rw [← removePair_prefixed] at member
  exact (a.text_letters true).2 c ((removePair_sublist _).subset member)

/-- The stripped text is the name exactly when there was nothing to strip. -/
theorem write_stripped_iff (t : MoveType) : write Atom.stripped (tokens t) = typeName t ↔ UnmarkedType t := by
  rw [← write_tokens]
  refine (spell_eq_iff mark_outside (separated t) (fun a _ => stripped_letters a) (fun a _ => (a.text_letters false).2)).trans ?_
  exact forall_congr' fun a => imp_congr_right fun _ => stripped_iff a

section ChainForm

variable {t u : MoveType} {s other : List Char}

theorem canonicalText_canonical (proper : ProperType t) : canonicalizeMoveType (canonicalText t) = canonicalText t :=
  ((Rendering.canonical t true).glued_iff proper).mpr (Rendering.canonical_glued t true)

theorem typeName_canonical (proper : ProperType t) : canonicalizeMoveType (typeName t) = canonicalText t := by
  have known := ((Rendering.canonical t false).glued_iff proper).mpr (Rendering.canonical_glued t false)
  rwa [show write (Atom.text false) (tokens t) = typeName t from write_tokens t] at known

theorem chain_canonicalText (canonical : canonicalizeMoveType s = canonicalText t) :
    chainFormMoveType s = write Atom.stripped (tokens t) := by
  rw [chainFormMoveType, canonical, canonicalText, removePair_write (separated t)]
  exact spell_congr fun a _ => removePair_prefixed a

/-- A rendering becomes the canonical form of its type, and that without the `0x` of its addresses, exactly when no
blank tears a path where it matters and no identifier holds the two characters `0x`. Then types that differ have
different chain forms. -/
theorem chain_form_iff (proper : ProperType t) (properOther : ProperType u) (r : Rendering t s) (q : Rendering u other) :
    ((canonicalizeMoveType s = canonicalText t ∧ canonicalizeMoveType (canonicalizeMoveType s) = canonicalizeMoveType s ∧
        chainFormMoveType s = typeName t ∧ canonicalizeMoveType (chainFormMoveType s) = canonicalizeMoveType s) ↔
      r.Glued ∧ UnmarkedType t) ∧
    (r.Glued ∧ UnmarkedType t → q.Glued ∧ UnmarkedType u → (chainFormMoveType s = chainFormMoveType other ↔ t = u)) := by
  have chain : ∀ {t : MoveType} {s : List Char} (r : Rendering t s), ProperType t → r.Glued ∧ UnmarkedType t →
      chainFormMoveType s = typeName t := by
    rintro t s r proper ⟨glued, unmarked⟩
    rw [chain_canonicalText ((r.glued_iff proper).mpr glued)]
    exact (write_stripped_iff t).mpr unmarked
  constructor
  · constructor
    · rintro ⟨canonical, -, name, -⟩
      rw [chain_canonicalText canonical] at name
      exact ⟨(r.glued_iff proper).mp canonical, (write_stripped_iff t).mp name⟩
    · intro fine
      have canonical := (r.glued_iff proper).mpr fine.1
      have name := chain r proper fine
      refine ⟨canonical, ?_, name, ?_⟩
      · rw [canonical, canonicalText_canonical proper]
      · rw [name, canonical, typeName_canonical proper]
  · intro fine fineOther
    rw [chain r proper fine, chain q properOther fineOther]
    exact typeName_injective.eq_iff

end ChainForm

namespace Sample

def coin : MoveType :=
  .datatype 2 ⟨['c', 'o', 'i', 'n'], by decide⟩ ⟨['C', 'o', 'i', 'n'], by decide⟩ [.primitive .u8]

/-- `0x2::a0xb::T` -/
def marked : MoveType := .datatype 2 ⟨['a', '0', 'x', 'b'], by decide⟩ ⟨['T'], by decide⟩ []

/-- `0x2::ab::T` -/
def unmarked : MoveType := .datatype 2 ⟨['a', 'b'], by decide⟩ ⟨['T'], by decide⟩ []

def displayed : SpelledPath where
  lead := true
  digits := ['0', '2']
  module := ⟨['c', 'o', 'i', 'n'], by decide⟩
  name := ⟨['C', 'o', 'i', 'n'], by decide⟩
  afterAddress := false
  beforeModule := false
  afterModule := false
  beforeName := true
  nonempty := by decide
  short := by decide
  hex := by decide

def torn : SpelledPath := { displayed with afterAddress := true }

/-- `0x02::coin:: Coin< u8 >` -/
def spacedText : List Char :=
  ['0', 'x', '0', '2', ':', ':', 'c', 'o', 'i', 'n', ':', ':', ' ', 'C', 'o', 'i', 'n', '<', ' ', 'u', '8', ' ', '>']

/-- `0x02 ::coin:: Coin<u8>` -/
def apartText : List Char :=
  ['0', 'x', '0', '2', ' ', ':', ':', 'c', 'o', 'i', 'n', ':', ':', ' ', 'C', 'o', 'i', 'n', '<', 'u', '8', '>']

def spaced : Rendering coin spacedText where
  written := [.word (.path displayed), .mark .opens, .word (.primitive .u8), .mark .closes]
  spells := spells_iff.mpr (by decide)
  denotes := rfl

def apart : Rendering coin apartText where
  written := [.word (.path torn), .mark .opens, .word (.primitive .u8), .mark .closes]
  spells := spells_iff.mpr (by decide)
  denotes := rfl

theorem coin_proper : ProperType coin := by
  intro a member
  simp only [coin, tokens, argumentTokens, restTokens, List.mem_cons, List.cons_append, List.nil_append, Token.word.injEq,
    reduceCtorEq, List.not_mem_nil, or_false, false_or] at member
  rcases member with rfl | rfl
  · exact ⟨by decide, by decide⟩
  · trivial

theorem coin_unmarked : UnmarkedType coin := by
  intro a member
  simp only [coin, tokens, argumentTokens, restTokens, List.mem_cons, List.cons_append, List.nil_append, Token.word.injEq,
    reduceCtorEq, List.not_mem_nil, or_false, false_or] at member
  rcases member with rfl | rfl
  · exact ⟨by decide, by decide⟩
  · trivial

theorem unmarked_plain : ProperType unmarked ∧ UnmarkedType unmarked := by
  have only : ∀ a, .word a ∈ tokens unmarked →
      a = .path 2 ⟨['a', 'b'], by decide⟩ ⟨['T'], by decide⟩ := by
    intro a member
    simpa only [unmarked, tokens, argumentTokens, List.mem_cons, Token.word.injEq, List.not_mem_nil, or_false] using member
  exact ⟨fun a member => only a member ▸ ⟨by decide, by decide⟩, fun a member => only a member ▸ ⟨by decide, by decide⟩⟩

theorem spaced_glued : spaced.Glued := by
  intro p member
  simp only [spaced, List.mem_cons, Token.word.injEq, Written.path.injEq, reduceCtorEq, List.not_mem_nil, or_false] at member
  subst member
  exact ⟨by simp [displayed], by simp [displayed]⟩

end Sample

/-- A display form of a type, and the chain's own name of another. -/
theorem chain_form_coin :
    (canonicalizeMoveType Sample.spacedText = canonicalText Sample.coin ∧
      canonicalizeMoveType (canonicalizeMoveType Sample.spacedText) = canonicalizeMoveType Sample.spacedText ∧
      chainFormMoveType Sample.spacedText = typeName Sample.coin ∧
      canonicalizeMoveType (chainFormMoveType Sample.spacedText) = canonicalizeMoveType Sample.spacedText) ∧
    chainFormMoveType Sample.spacedText ≠ chainFormMoveType (write (Atom.text false) (tokens Sample.unmarked)) := by
  obtain ⟨forms, apart⟩ := chain_form_iff Sample.coin_proper Sample.unmarked_plain.1 Sample.spaced
    (Rendering.canonical Sample.unmarked false)
  have fine : Sample.spaced.Glued ∧ UnmarkedType Sample.coin := ⟨Sample.spaced_glued, Sample.coin_unmarked⟩
  refine ⟨forms.mpr fine, fun same => ?_⟩
  have equal := (apart fine ⟨Rendering.canonical_glued _ _, Sample.unmarked_plain.2⟩).mp same
  simp [Sample.coin, Sample.unmarked] at equal

/-- Two types have one chain form, which is the name of the second only; and an address apart from its `::` stays
short. -/
theorem chain_form_collides :
    Sample.marked ≠ Sample.unmarked ∧
      chainFormMoveType (canonicalText Sample.marked) = chainFormMoveType (canonicalText Sample.unmarked) ∧
      chainFormMoveType (canonicalText Sample.marked) ≠ typeName Sample.marked ∧
      Nonempty (Rendering Sample.marked (canonicalText Sample.marked)) ∧
      Nonempty (Rendering Sample.coin Sample.apartText) ∧
      canonicalizeMoveType Sample.apartText ≠ canonicalText Sample.coin := by
  refine ⟨?_, by decide +kernel, by decide +kernel, ⟨Rendering.canonical Sample.marked true⟩, ⟨Sample.apart⟩,
    by decide +kernel⟩
  intro same
  exact absurd (congrArg typeName same) (by decide +kernel)

end SuiOptions.ProtocolTypes
