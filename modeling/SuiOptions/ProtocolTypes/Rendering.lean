import SuiOptions.ProtocolTypes.Asset

/-! The renderings of a type, and which of them become its canonical form.

A rendering is the tokens of its type, each written in one of its spellings, with blanks
around them. Blanks around a `::` tear a path into words that are canonicalized one by one.
-/

set_option autoImplicit false

namespace SuiOptions.ProtocolTypes

open Move Text Tokens
open Exchange (Mark charKind isAsciiHexdigit splitPath stripHex colons hexValue hexChar)

/-- An address as it can be written: by value, in either case and with leading zeros or
without, after `0x` or bare. -/
structure SpelledAddress where
  lead : Bool
  digits : List Char
  nonempty : digits ≠ []
  short : digits.length ≤ 64
  hex : digits.all isAsciiHexdigit = true

namespace SpelledAddress

variable (a : SpelledAddress)

def addr : List Char := (if a.lead then ['0', 'x'] else []) ++ a.digits

def package : BitVec 256 := BitVec.ofNat 256 (hexValue a.digits)

end SpelledAddress

/-- A path as it can be written: blanks may stand before and after each `::`. -/
structure SpelledPath extends SpelledAddress where
  module : Identifier
  name : Identifier
  afterAddress : Bool
  beforeModule : Bool
  afterModule : Bool
  beforeName : Bool

inductive Written where
  | primitive (which : Primitive)
  | vector
  | path (p : SpelledPath)

def tear : List Char → List (Bool × List Char) → List (List Char)
  | word, [] => [word]
  | word, (apart, next) :: rest => if apart then word :: tear next rest else tear (word ++ next) rest

def SpelledPath.pieces (p : SpelledPath) : List (List Char) :=
  tear p.addr [(p.afterAddress, colons), (p.beforeModule, p.module.text), (p.afterModule, colons), (p.beforeName, p.name.text)]

namespace Written

def pieces : Written → List (List Char)
  | .primitive which => [which.text]
  | .vector => [vectorText]
  | .path p => p.pieces

def atom : Written → Atom
  | .primitive which => .primitive which
  | .vector => .vector
  | .path p => .path p.package p.module p.name

/-- What the source makes of the pieces. -/
def out (w : Written) : List Char := w.pieces.flatMap canonicalizeAtom

end Written

def pieces : Token Written Mark → List (Token (List Char) Mark)
  | .word w => w.pieces.map .word
  | .mark which => [.mark which]

/-- A text that writes a type. -/
structure Rendering (t : MoveType) (s : List Char) where
  written : List (Token Written Mark)
  spells : Spells charKind s (written.flatMap pieces)
  denotes : written.map (Token.map Written.atom) = tokens t

theorem write_pieces (written : List (Token Written Mark)) :
    write canonicalizeAtom (written.flatMap pieces) = write Written.out written := by
  have words : ∀ list : List (List Char), write canonicalizeAtom (list.map (.word : List Char → Token (List Char) Mark)) =
      list.flatMap canonicalizeAtom := by
    intro list
    induction list with
    | nil => rfl
    | cons word rest ih => simp [ih]
  induction written with
  | nil => rfl
  | cons token rest ih =>
    cases token with
    | word w => simp [pieces, words, ih, Written.out]
    | mark which => simp [pieces, ih]

theorem Rendering.canonicalize {t : MoveType} {s : List Char} (r : Rendering t s) :
    canonicalizeMoveType s = write Written.out r.written := by
  rw [canonicalizeMoveType_eq, r.spells.lex, write_pieces]

theorem Rendering.canonicalText {t : MoveType} {s : List Char} (r : Rendering t s) :
    canonicalText t = write (Atom.prefixed ∘ Written.atom) r.written := by
  rw [ProtocolTypes.canonicalText, ← r.denotes]
  exact spell_map _ _

/-! ### What spellings become -/

theorem identifier_letter {c : Char} (identifier : identifierChar c = true ∨ c = ':') : Letter charKind c := by
  have table : ∀ n < 128, identifierChar (Char.ofNat n) = true ∨ Char.ofNat n = ':' → charKind (Char.ofNat n) = .letter := by
    decide +kernel
  have ascii : c.toNat < 128 := by
    have here : c.toNat = c.val.toNat := rfl
    have upper : 'Z'.val.toNat = 90 := rfl
    have lower : 'z'.val.toNat = 122 := rfl
    have digit : '9'.val.toNat = 57 := rfl
    rcases identifier with identifier | rfl
    · simp only [identifierChar, Char.isAlphanum, Char.isAlpha, Char.isUpper, Char.isLower, Char.isDigit, Bool.or_eq_true,
        Bool.and_eq_true, decide_eq_true_eq, ge_iff_le, UInt32.le_iff_toNat_le] at identifier
      rcases identifier with letter | rfl
      · omega
      · decide
    · decide
  have known := table c.toNat ascii
  rw [Char.ofNat_toNat] at known
  exact known identifier

theorem hex_identifier {c : Char} (hex : isAsciiHexdigit c = true) : identifierChar c = true := by
  have zero : '0'.val.toNat = 48 ∧ '9'.val.toNat = 57 := ⟨rfl, rfl⟩
  have lower : 'a'.val.toNat = 97 ∧ 'f'.val.toNat = 102 ∧ 'z'.val.toNat = 122 := ⟨rfl, rfl, rfl⟩
  have upper : 'A'.val.toNat = 65 ∧ 'F'.val.toNat = 70 ∧ 'Z'.val.toNat = 90 := ⟨rfl, rfl, rfl⟩
  simp only [isAsciiHexdigit, Char.le_def, UInt32.le_iff_toNat_le, decide_eq_true_eq] at hex
  simp only [identifierChar, Char.isAlphanum, Char.isAlpha, Char.isUpper, Char.isLower, Char.isDigit, Bool.or_eq_true,
    Bool.and_eq_true, decide_eq_true_eq, ge_iff_le, UInt32.le_iff_toNat_le]
  omega

theorem padded_mem {hex : List Char} (digits : ∀ c ∈ hex, isAsciiHexdigit c = true) :
    ∀ c ∈ padded hex, identifierChar c = true := by
  intro c member
  rcases List.mem_append.mp member with zeros | lower
  · rw [List.eq_of_mem_replicate zeros]
    decide
  · obtain ⟨d, inside, rfl⟩ := List.mem_map.mp lower
    have digit := hexChar (digits d inside)
    rw [← digit.lower]
    exact lowerHex_identifier _ digit.small

theorem address_mem {word : List Char} (letters : ∀ c ∈ word, identifierChar c = true) :
    ∀ c ∈ address word, identifierChar c = true := by
  unfold address
  split
  · rename_i hex
    intro c member
    rcases List.mem_append.mp member with lead | digits
    · simp only [List.mem_cons, List.not_mem_nil, or_false] at lead
      rcases lead with rfl | rfl <;> decide
    · exact padded_mem (List.all_eq_true.mp hex) c digits
  · exact letters

namespace SpelledAddress

variable (a : SpelledAddress)

theorem digit : ∀ c ∈ a.digits, isAsciiHexdigit c = true := List.all_eq_true.mp a.hex

theorem lead_cases : (if a.lead then ['0', 'x'] else []) = [] ∨ (if a.lead then ['0', 'x'] else []) = ['0', 'x'] := by
  cases a.lead
  · exact Or.inl rfl
  · exact Or.inr rfl

theorem addr_mem : ∀ c ∈ a.addr, identifierChar c = true := by
  intro c member
  rcases List.mem_append.mp member with lead | digits
  · cases leads : a.lead <;> simp [leads] at lead
    rcases lead with rfl | rfl <;> decide
  · exact hex_identifier (a.digit c digits)

theorem addr_bare : ':' ∉ a.addr := not_colon a.addr_mem

theorem addr_nonempty : a.addr ≠ [] := by
  intro empty
  exact a.nonempty (List.append_eq_nil_iff.mp empty).2

theorem padded_digits : padded a.digits = addressText a.package := by
  have value : hexValue a.digits < 2 ^ 256 := by
    calc hexValue a.digits < 16 ^ a.digits.length := Exchange.hexValue_lt a.digit
      _ ≤ 16 ^ 64 := Nat.pow_le_pow_right (by decide) a.short
      _ = 2 ^ 256 := by decide
  rw [addressText, package, BitVec.toNat_ofNat, Nat.mod_eq_of_lt value, Exchange.numeral_hexValue a.digit a.short]
  rfl

theorem address_addr : address a.addr = ['0', 'x'] ++ addressText a.package := by
  have stripped : stripHex a.addr = a.digits := Exchange.stripHex_lead a.lead_cases a.digit
  rw [address, stripped, if_pos a.hex, padded_digits]

end SpelledAddress

namespace SpelledPath

variable (p : SpelledPath)

/-- An address apart from its `::` stays as it is, and a module that looks like an address is taken for one where it
begins a word. -/
theorem out_eq (proper : Proper p.module) : (Written.path p).out =
    (if p.afterAddress then p.addr else ['0', 'x'] ++ addressText p.package) ++ (colons ++
      ((if p.beforeModule ∧ p.afterModule = false then address p.module.text else p.module.text) ++
        (colons ++ p.name.text))) := by
  have module : p.module.text ≠ [] := by
    obtain ⟨first, tail, text, -⟩ := proper.cons
    simp [text]
  have whole : ∀ rest, canonicalizeAtom (p.addr ++ (colons ++ rest)) = address p.addr ++ (colons ++ rest) :=
    canonicalizeAtom_path p.addr_nonempty p.addr_bare
  have begins : ∀ rest, canonicalizeAtom (p.module.text ++ (colons ++ rest)) = address p.module.text ++ (colons ++ rest) :=
    canonicalizeAtom_path module (identifier_bare _)
  have wholeEnd : canonicalizeAtom (p.addr ++ colons) = address p.addr ++ colons := by simpa using whole []
  have beginsEnd : canonicalizeAtom (p.module.text ++ colons) = address p.module.text ++ colons := by simpa using begins []
  have apart : canonicalizeAtom colons = colons := by decide
  cases first : p.afterAddress <;> cases second : p.beforeModule <;> cases third : p.afterModule <;>
    cases fourth : p.beforeName <;>
    simp [Written.out, Written.pieces, pieces, tear, first, second, third, fourth, whole, begins, wholeEnd, beginsEnd, apart,
      canonicalizeAtom_colons, canonicalizeAtom_bare p.addr_bare, canonicalizeAtom_bare (identifier_bare _), p.address_addr]

/-- No blank parts the address from its `::`, unless it is in canonical form, and a module of hexadecimal digits does
not begin a word. -/
def Glued : Prop :=
  (p.afterAddress = true → p.addr = ['0', 'x'] ++ addressText p.package) ∧
    (p.beforeModule = true → p.afterModule = false → p.module.text.all isAsciiHexdigit = false)

end SpelledPath

theorem prefixed_mem (package : BitVec 256) : ∀ c ∈ ['0', 'x'] ++ addressText package, identifierChar c = true := by
  intro c member
  rcases List.mem_append.mp member with lead | digits
  · simp only [List.mem_cons, List.not_mem_nil, or_false] at lead
    rcases lead with rfl | rfl <;> decide
  · exact addressText_mem package c digits

theorem path_text (package : BitVec 256) (module name : Identifier) :
    pathText package module name = addressText package ++ (colons ++ (module.text ++ (colons ++ name.text))) := by
  simp [pathText, colons]

theorem address_eq_iff {name : Identifier} (proper : Proper name) :
    address name.text = name.text ↔ name.text.all isAsciiHexdigit = false := by
  rw [address, proper.stripHex]
  cases hex : name.text.all isAsciiHexdigit with
  | false => simp
  | true =>
    simp only [if_true, Bool.true_eq_false, iff_false]
    obtain ⟨first, tail, text, letter⟩ := proper.cons
    rw [text]
    intro same
    have zero : '0' = first := (List.cons.inj same).1
    rw [← zero] at letter
    cases letter

/-- Text up to a `::`. -/
theorem colons_cancel {first second rest other : List Char} (left : ':' ∉ first) (right : ':' ∉ second)
    (same : first ++ (colons ++ rest) = second ++ (colons ++ other)) : first = second ∧ rest = other := by
  have split := congrArg splitPath same
  rw [Exchange.splitPath_word left, Exchange.splitPath_word right] at split
  exact Prod.mk.inj (Option.some.inj split)

/-- The words of a path come out canonical exactly when it is glued. -/
theorem SpelledPath.out_iff (p : SpelledPath) (proper : Proper p.module) :
    (Written.path p).out = (Written.path p).atom.prefixed ↔ p.Glued := by
  have front : ':' ∉ if p.afterAddress then p.addr else ['0', 'x'] ++ addressText p.package := by
    split
    · exact p.addr_bare
    · exact not_colon (prefixed_mem _)
  have middle : ':' ∉ if p.beforeModule ∧ p.afterModule = false then address p.module.text else p.module.text := by
    split
    · exact not_colon (address_mem p.module.mem)
    · exact identifier_bare _
  rw [p.out_eq proper, Written.atom, Atom.prefixed, Atom.text, if_pos rfl, path_text, ← List.append_assoc ['0', 'x']]
  constructor
  · intro same
    obtain ⟨addresses, rest⟩ := colons_cancel front (not_colon (prefixed_mem _)) same
    obtain ⟨modules, -⟩ := colons_cancel middle (identifier_bare _) rest
    refine ⟨fun apart => ?_, fun begins joined => ?_⟩
    · rwa [if_pos apart] at addresses
    · rw [if_pos ⟨begins, joined⟩] at modules
      exact (address_eq_iff proper).mp modules
  · rintro ⟨apart, plain⟩
    have addresses : (if p.afterAddress then p.addr else ['0', 'x'] ++ addressText p.package) =
        ['0', 'x'] ++ addressText p.package := by
      split
      · exact apart ‹_›
      · rfl
    have modules : (if p.beforeModule ∧ p.afterModule = false then address p.module.text else p.module.text) =
        p.module.text := by
      split
      · rename_i begins
        exact (address_eq_iff proper).mpr (plain begins.1 begins.2)
      · rfl
    rw [addresses, modules]

/-! ### Whole types -/

/-- The identifiers of a type are well formed. -/
def ProperType (t : MoveType) : Prop := ∀ a, .word a ∈ tokens t → a.Proper

theorem pathText_letters (package : BitVec 256) (module name : Identifier) :
    ∀ c ∈ pathText package module name, Letter charKind c := by
  intro c member
  rw [path_text] at member
  simp only [colons, List.mem_append, List.mem_cons, List.not_mem_nil, or_false, or_self] at member
  rcases member with address | colon | module' | colon | name'
  · exact identifier_letter (Or.inl (addressText_mem _ _ address))
  · exact identifier_letter (Or.inr colon)
  · exact identifier_letter (Or.inl (module.mem _ module'))
  · exact identifier_letter (Or.inr colon)
  · exact identifier_letter (Or.inl (name.mem _ name'))

namespace Atom

theorem text_letters (lead : Bool) (a : Atom) : a.text lead ≠ [] ∧ ∀ c ∈ a.text lead, Letter charKind c := by
  cases a with
  | primitive which =>
    refine ⟨?_, fun c member => identifier_letter (Or.inl (which.text_mem c member))⟩
    cases which <;> exact List.cons_ne_nil _ _
  | vector =>
    refine ⟨List.cons_ne_nil _ _, fun c member => identifier_letter (Or.inl ?_)⟩
    exact (List.all_eq_true.mp (by decide : vectorText.all identifierChar = true)) c member
  | path package module name =>
    refine ⟨by simp [text, path_text, colons], fun c member => ?_⟩
    rcases List.mem_append.mp member with marks | inside
    · cases lead
      · cases marks
      · exact identifier_letter (Or.inl (prefixed_mem package c (List.mem_append_left _ marks)))
    · exact pathText_letters package module name c inside

/-- A word in canonical spelling, after `0x` or bare. -/
def written (lead : Bool) : Atom → Written
  | .primitive which => .primitive which
  | .vector => .vector
  | .path package module name => .path
      { lead, module, name
        digits := addressText package
        afterAddress := false
        beforeModule := false
        afterModule := false
        beforeName := false
        nonempty := by
          intro empty
          have length : (addressText package).length = 64 := numeral_length ..
          rw [empty] at length
          cases length
        short := (numeral_length ..).le
        hex := List.all_eq_true.mpr (Exchange.Path.addressText_hex package) }

theorem written_atom (lead : Bool) (a : Atom) : (a.written lead).atom = a := by
  cases a with
  | primitive which => rfl
  | vector => rfl
  | path package module name =>
    have value : hexValue (addressText package) = package.toNat :=
      Exchange.Path.hexValue_numeral (lt_of_lt_of_eq package.isLt (by decide))
    simp [written, Written.atom, SpelledAddress.package, value]

theorem written_pieces (lead : Bool) (a : Atom) : (a.written lead).pieces = [a.text lead] := by
  cases a with
  | primitive which => rfl
  | vector => rfl
  | path package module name =>
    simp [written, Written.pieces, SpelledPath.pieces, SpelledAddress.addr, tear, text, path_text]

end Atom

namespace Rendering

variable {t : MoveType} {s : List Char}

def canonical (t : MoveType) (lead : Bool) : Rendering t (write (Atom.text lead) (tokens t)) where
  written := (tokens t).map (Token.map (Atom.written lead))
  spells := by
    have words : ((tokens t).map (Token.map (Atom.written lead))).flatMap pieces = (tokens t).map (Token.map (Atom.text lead)) := by
      rw [List.flatMap_map, ← List.flatMap_singleton' ((tokens t).map _), List.flatMap_map]
      apply List.flatMap_congr
      intro token _
      cases token with
      | word a => simp [pieces, Token.map, a.written_pieces]
      | mark which => rfl
    rw [words]
    exact (separated t).spells Exchange.mark_kind fun a _ => a.text_letters lead
  denotes := by
    rw [List.map_map]
    apply List.map_id''
    intro token
    cases token with
    | word a => simp [Token.map, a.written_atom]
    | mark which => rfl

def Glued (r : Rendering t s) : Prop := ∀ p, .word (.path p) ∈ r.written → p.Glued

theorem canonical_glued (t : MoveType) (lead : Bool) : (canonical t lead).Glued := by
  intro p member
  obtain ⟨token, _, same⟩ := List.mem_map.mp member
  cases token with
  | mark which => cases same
  | word a =>
    cases a with
    | primitive which => cases same
    | vector => cases same
    | path package module name =>
      cases same
      exact ⟨nofun, nofun⟩

theorem atom_mem (r : Rendering t s) {w : Written} (member : .word w ∈ r.written) : .word w.atom ∈ tokens t := by
  rw [← r.denotes]
  exact List.mem_map_of_mem (f := Token.map Written.atom) member

/-- A word without `::` is left as it is. -/
theorem out_plain {w : Written} (word : ∀ p, w ≠ .path p) : w.out = w.atom.prefixed := by
  cases w with
  | primitive which => simp [Written.out, Written.pieces, Written.atom, Atom.text, canonicalizeAtom_bare (not_colon which.text_mem)]
  | vector =>
    have bare : canonicalizeAtom vectorText = vectorText := by decide
    simp [Written.out, Written.pieces, Written.atom, Atom.text, bare]
  | path p => exact absurd rfl (word p)

theorem out_letters {p : SpelledPath} (proper : Proper p.module) : ∀ c ∈ (Written.path p).out, Letter charKind c := by
  intro c member
  have colon : c ∈ colons → Letter charKind c := fun inside => identifier_letter (Or.inr (by simpa [colons] using inside))
  rw [p.out_eq proper] at member
  simp only [List.mem_append] at member
  rcases member with address | inside | (module | inside | name)
  · split at address
    · exact identifier_letter (Or.inl (p.addr_mem c address))
    · exact identifier_letter (Or.inl (prefixed_mem _ c address))
  · exact colon inside
  · split at module
    · exact identifier_letter (Or.inl (address_mem p.module.mem c module))
    · exact identifier_letter (Or.inl (p.module.mem c module))
  · exact colon inside
  · exact identifier_letter (Or.inl (p.name.mem c name))

theorem separated_written (r : Rendering t s) : Separated r.written := by
  rw [← @Separated.map _ _ _ Written.atom, r.denotes]
  exact separated t

theorem proper_module (proper : ProperType t) (r : Rendering t s) {p : SpelledPath} (member : .word (.path p) ∈ r.written) :
    Proper p.module := (proper _ (r.atom_mem member)).1

theorem written_letters (proper : ProperType t) (r : Rendering t s) :
    ∀ w, .word w ∈ r.written → ∀ c ∈ w.out, Letter charKind c := by
  intro w member
  cases w with
  | path p => exact out_letters (r.proper_module proper member)
  | primitive which =>
    rw [out_plain (w := .primitive which) fun _ => nofun]
    exact (Atom.text_letters true _).2
  | vector =>
    rw [out_plain (w := .vector) fun _ => nofun]
    exact (Atom.text_letters true _).2

/-- What a rendering becomes is the canonical form of its type exactly when it is glued. -/
theorem glued_iff (proper : ProperType t) (r : Rendering t s) :
    canonicalizeMoveType s = ProtocolTypes.canonicalText t ↔ r.Glued := by
  have spelled : ∀ w, .word w ∈ r.written → ∀ c ∈ (Atom.prefixed ∘ Written.atom) w, Letter charKind c :=
    fun w _ => (w.atom.text_letters true).2
  rw [r.canonicalize, r.canonicalText]
  refine (spell_eq_iff mark_outside r.separated_written (r.written_letters proper) spelled).trans ?_
  constructor
  · exact fun same p member => (p.out_iff (r.proper_module proper member)).mp (same _ member)
  · intro glued w member
    cases w with
    | path p => exact (p.out_iff (r.proper_module proper member)).mpr (glued p member)
    | primitive which => exact out_plain fun _ => nofun
    | vector => exact out_plain fun _ => nofun

end Rendering

end SuiOptions.ProtocolTypes
