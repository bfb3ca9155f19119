import SuiOptions.ProtocolTypes.Reading

/-! Which words, and which texts, come back from their chain form. -/

set_option autoImplicit false

namespace SuiOptions.ProtocolTypes

open Move Text Tokens
open Exchange (Mark charKind isAsciiHexdigit splitPath stripHex colons hexDigit hexChar)

/-! ### Words -/

def Addressed (word addr rest : List Char) : Prop :=
  splitPath word = some (addr, rest) ∧ addr ≠ [] ∧ (stripHex addr).all isAsciiHexdigit = true

theorem canonicalizeAtom_addressed {word addr rest : List Char} (addressed : Addressed word addr rest) :
    canonicalizeAtom word = ['0', 'x'] ++ padded (stripHex addr) ++ (colons ++ rest) := by
  obtain ⟨split, nonempty, hex⟩ := addressed
  rw [canonicalizeAtom, split]
  simp only [if_neg nonempty, if_pos hex]

theorem canonicalizeAtom_other {word : List Char} (other : ∀ addr rest, ¬ Addressed word addr rest) :
    canonicalizeAtom word = word := by
  unfold canonicalizeAtom
  split
  · rfl
  · rename_i addr rest split
    split
    · rfl
    · rename_i nonempty
      rw [if_neg fun hex => other addr rest ⟨split, nonempty, hex⟩]

theorem canonicalizeAtom_nil : canonicalizeAtom [] = [] := rfl

section Padded

variable {hex : List Char} (digits : ∀ c ∈ hex, isAsciiHexdigit c = true)

include digits

theorem padded_hex : ∀ c ∈ padded hex, isAsciiHexdigit c = true ∧ c.toLower = c := by
  have table : ∀ d < 16, isAsciiHexdigit (lowerHex d) = true ∧ (lowerHex d).toLower = lowerHex d := by decide
  intro c member
  rcases List.mem_append.mp member with zeros | lower
  · rw [List.eq_of_mem_replicate zeros]
    decide
  · obtain ⟨d, inside, rfl⟩ := List.mem_map.mp lower
    have digit := hexChar (digits d inside)
    rw [← digit.lower]
    exact table _ digit.small

theorem padded_padded : padded (padded hex) = padded hex := by
  have long : 64 ≤ (padded hex).length := by
    simp only [padded, List.length_append, List.length_replicate, List.length_map]
    omega
  have lower : (padded hex).map Char.toLower = padded hex := by
    refine (List.map_congr_left fun c member => (padded_hex digits c member).2).trans (List.map_id _)
  rw [padded, Nat.sub_eq_zero_of_le long, lower]
  rfl

omit digits in
theorem padded_nonempty : padded hex ≠ [] := by
  intro empty
  have length := congrArg List.length empty
  simp only [padded, List.length_append, List.length_replicate, List.length_map, List.length_nil] at length
  omega

theorem padded_noX : 'x' ∉ padded hex :=
  fun member => (hexChar (padded_hex digits _ member).1).notX rfl

theorem padded_noColon : ':' ∉ padded hex :=
  fun member => (hexChar (padded_hex digits _ member).1).notColon rfl

end Padded

theorem removePair_colons (rest : List Char) : removePair '0' 'x' (colons ++ rest) = colons ++ removePair '0' 'x' rest := by
  cases rest with
  | nil => decide
  | cons c rest => simp [colons, removePair]

theorem removePair_path (word rest : List Char) :
    removePair '0' 'x' (word ++ (colons ++ rest)) = removePair '0' 'x' word ++ (colons ++ removePair '0' 'x' rest) := by
  rw [removePair_append _ (by simp [colons]), removePair_colons]

/-- A word that begins with an address, without what marks the address. -/
def body (word : List Char) : List Char :=
  match splitPath word with
  | some (addr, _) => if addr ≠ [] ∧ (stripHex addr).all isAsciiHexdigit = true then word.drop 2 else word
  | none => word

/-- The word is in canonical form, and `0x` stands before its address only. -/
def KeptWord (word : List Char) : Prop := canonicalizeAtom word = word ∧ ¬ ['0', 'x'] <:+: body word

theorem keptWord_other {word : List Char} (other : ∀ addr rest, ¬ Addressed word addr rest) :
    canonicalizeAtom (removePair '0' 'x' word) = word ↔ removePair '0' 'x' word = word := by
  constructor
  · intro back
    by_cases addressed : ∃ addr rest, Addressed (removePair '0' 'x' word) addr rest
    · obtain ⟨addr, rest, known⟩ := addressed
      have digits := List.all_eq_true.mp known.2.2
      rw [canonicalizeAtom_addressed known] at back
      -- the word would begin with an address
      have bare : ':' ∉ ['0', 'x'] ++ padded (stripHex addr) := by
        simp only [List.mem_append, not_or]
        exact ⟨by decide, padded_noColon digits⟩
      have split : splitPath (['0', 'x'] ++ padded (stripHex addr) ++ (colons ++ rest)) =
          some (['0', 'x'] ++ padded (stripHex addr), rest) := Exchange.splitPath_word bare
      rw [back] at split
      have stripped : stripHex (['0', 'x'] ++ padded (stripHex addr)) = padded (stripHex addr) :=
        Exchange.stripHex_lead (Or.inr rfl) fun c member => (padded_hex digits c member).1
      refine absurd ⟨split, by simp, ?_⟩ (other _ _)
      rw [stripped]
      exact List.all_eq_true.mpr fun c member => (padded_hex digits c member).1
    · rw [canonicalizeAtom_other fun addr rest known => addressed ⟨addr, rest, known⟩] at back
      exact back
  · intro same
    rw [same, canonicalizeAtom_other other]

/-- A word comes back from its chain form exactly when it is kept. -/
theorem keptWord_iff (word : List Char) :
    canonicalizeAtom (removePair '0' 'x' (canonicalizeAtom word)) = word ↔ KeptWord word := by
  unfold KeptWord
  by_cases addressed : ∃ addr rest, Addressed word addr rest
  · obtain ⟨addr, rest, known⟩ := addressed
    have digits := List.all_eq_true.mp known.2.2
    -- the address is padded once, and what stands behind loses its pairs
    have chained : canonicalizeAtom (removePair '0' 'x' (canonicalizeAtom word)) =
        ['0', 'x'] ++ padded (stripHex addr) ++ (colons ++ removePair '0' 'x' rest) := by
      have lead : ∀ tail : List Char, removePair '0' 'x' (['0', 'x'] ++ tail) = removePair '0' 'x' tail := fun _ => rfl
      rw [canonicalizeAtom_addressed known, List.append_assoc, lead, removePair_path,
        removePair_of_not_mem (padded_noX digits)]
      have stripped : stripHex (padded (stripHex addr)) = padded (stripHex addr) :=
        Exchange.stripHex_lead (Or.inl rfl) fun c member => (padded_hex digits c member).1
      have begins : Addressed (padded (stripHex addr) ++ (colons ++ removePair '0' 'x' rest)) (padded (stripHex addr))
          (removePair '0' 'x' rest) := by
        refine ⟨Exchange.splitPath_word (padded_noColon digits), padded_nonempty, ?_⟩
        rw [stripped]
        exact List.all_eq_true.mpr fun c member => (padded_hex digits c member).1
      rw [canonicalizeAtom_addressed begins, stripped, padded_padded digits]
    -- a word with an address is compared behind its `0x`
    have inner : body word = word.drop 2 := by
      rw [body, known.1]
      exact if_pos known.2
    have bare : ':' ∉ ['0', 'x'] ++ padded (stripHex addr) := by
      simp only [List.mem_append, not_or]
      exact ⟨by decide, padded_noColon digits⟩
    have passed : removePair '0' 'x' (padded (stripHex addr) ++ (colons ++ rest)) =
        padded (stripHex addr) ++ (colons ++ removePair '0' 'x' rest) := by
      rw [removePair_path, removePair_of_not_mem (padded_noX digits)]
    rw [chained, canonicalizeAtom_addressed known, inner, ← removePair_eq_self_iff]
    constructor
    · intro same
      have split := congrArg splitPath same
      rw [Exchange.splitPath_word bare, known.1] at split
      have rests : removePair '0' 'x' rest = rest := (Prod.mk.inj (Option.some.inj split)).2
      rw [rests] at same passed
      refine ⟨same, ?_⟩
      rw [← same]
      exact passed
    · rintro ⟨same, free⟩
      rw [← same] at free
      have rests := List.append_cancel_left (passed.symm.trans free)
      rw [List.append_cancel_left rests]
      exact same
  · -- a word without an address only loses its pairs
    have other : ∀ addr rest, ¬ Addressed word addr rest := fun addr rest known => addressed ⟨addr, rest, known⟩
    have whole : body word = word := by
      unfold body
      split
      · rename_i addr rest split
        exact if_neg fun known => other addr rest ⟨split, known⟩
      · rfl
    rw [canonicalizeAtom_other other, keptWord_other other, whole, ← removePair_eq_self_iff, and_iff_right rfl]

/-! ### Texts -/

theorem canonicalizeAtom_letters {word : List Char} (letters : ∀ c ∈ word, Letter charKind c) :
    ∀ c ∈ canonicalizeAtom word, Letter charKind c := by
  by_cases addressed : ∃ addr rest, Addressed word addr rest
  · obtain ⟨addr, rest, known⟩ := addressed
    have text := Exchange.splitPath_eq known.1
    have digits := padded_mem (List.all_eq_true.mp known.2.2)
    rw [canonicalizeAtom_addressed known]
    intro c member
    simp only [List.append_assoc, List.mem_append] at member
    rcases member with lead | address | path
    · have known := List.all_eq_true.mp (by decide : ['0', 'x'].all identifierChar = true) c lead
      exact identifier_letter (Or.inl known)
    · exact identifier_letter (Or.inl (digits c address))
    · exact letters c (by rw [text]; exact List.mem_append_right _ (List.mem_append.mpr path))
  · rw [canonicalizeAtom_other fun addr rest known => addressed ⟨addr, rest, known⟩]
    exact letters

theorem chained_letters {word : List Char} (letters : ∀ c ∈ word, Letter charKind c) :
    ∀ c ∈ removePair '0' 'x' (canonicalizeAtom word), Letter charKind c :=
  fun c member => canonicalizeAtom_letters letters c ((removePair_sublist _).subset member)

theorem lex_words (s : List Char) : ∀ word, .word word ∈ lex charKind [] s → ∀ c ∈ word, Letter charKind c :=
  Exchange.Lettered.of_spells (spells_iff.mpr rfl)

def Plain (s : List Char) : Prop := ∀ c ∈ s, charKind c ≠ .blank

def Kept (s : List Char) : Prop := ∀ word, .word word ∈ lex charKind [] s → KeptWord word

section Texts

variable {s : List Char} (plain : Plain s)

include plain

theorem write_lex : write id (lex charKind [] s) = s := (lex_plain mark_char plain []).1

theorem separated_lex : Separated (lex charKind [] s) := (lex_plain mark_char plain []).2

theorem chainForm_write : chainFormMoveType s = write (removePair '0' 'x' ∘ canonicalizeAtom) (lex charKind [] s) := by
  rw [chainFormMoveType, canonicalizeMoveType_eq, removePair_write (separated_lex plain)]

theorem canonicalize_chainForm : canonicalizeMoveType (chainFormMoveType s) =
    write (canonicalizeAtom ∘ removePair '0' 'x' ∘ canonicalizeAtom) (lex charKind [] s) := by
  rw [canonicalizeMoveType_eq, chainForm_write plain]
  exact spell_lex canonicalizeAtom_nil (separated_lex plain) Exchange.mark_kind
    fun word member => chained_letters (lex_words s word member)

/-- A text comes back from its chain form exactly when its words do. -/
theorem kept_iff : canonicalizeMoveType (chainFormMoveType s) = s ↔ Kept s := by
  have back := spell_eq_iff (f := canonicalizeAtom ∘ removePair '0' 'x' ∘ canonicalizeAtom) (g := id) mark_outside
    (separated_lex plain)
    (fun word member => canonicalizeAtom_letters (chained_letters (lex_words s word member)))
    (fun word member => lex_words s word member)
  have whole : spell Mark.char id (lex charKind [] s) = s := write_lex plain
  rw [whole] at back
  rw [canonicalize_chainForm plain, write, back]
  exact forall_congr' fun word => imp_congr_right fun _ => keptWord_iff word

end Texts

/-! ### Brackets -/

theorem brackets_word {word : List Char} (letters : ∀ c ∈ word, Letter charKind c) : brackets word = [] := by
  apply List.filterMap_eq_nil_iff.mpr
  intro c member
  rw [letters c member]

def marks {ω : Type} (tokens : List (Token ω Mark)) : List Mark :=
  tokens.filterMap fun
    | .mark which => some which
    | .word _ => none

theorem brackets_write {ω : Type} {f : ω → List Char} {tokens : List (Token ω Mark)}
    (letters : ∀ text, .word text ∈ tokens → ∀ c ∈ f text, Letter charKind c) : brackets (write f tokens) = marks tokens := by
  unfold write
  induction tokens with
  | nil => rfl
  | cons token rest ih =>
    have later := ih fun text member => letters text (List.mem_cons_of_mem _ member)
    cases token with
    | word text =>
      rw [spell_word, brackets_append, brackets_word (letters text List.mem_cons_self), later]
      rfl
    | mark which =>
      have here : brackets [which.char] = [which] := by cases which <;> decide
      rw [spell_mark, ← List.singleton_append, brackets_append, here, later]
      rfl

theorem brackets_chained {s : List Char} (plain : Plain s) :
    brackets (canonicalizeMoveType (chainFormMoveType s)) = brackets s := by
  have same : brackets s = marks (lex charKind [] s) := by
    have whole : brackets (write id (lex charKind [] s)) = marks (lex charKind [] s) := brackets_write (lex_words s)
    rwa [write_lex plain] at whole
  rw [same, canonicalize_chainForm plain]
  exact brackets_write fun word member => canonicalizeAtom_letters (chained_letters (lex_words s word member))

theorem canonicalize_plain (s : List Char) : Plain (canonicalizeMoveType s) := by
  rw [canonicalizeMoveType_eq]
  intro c member blank
  obtain ⟨token, inside, here⟩ := List.mem_flatMap.mp member
  cases token with
  | word word =>
    have letter := canonicalizeAtom_letters (lex_words s word inside) c here
    rw [Letter, blank] at letter
    cases letter
  | mark which =>
    rw [List.mem_singleton.mp here, Exchange.mark_kind] at blank
    cases blank

end SuiOptions.ProtocolTypes
