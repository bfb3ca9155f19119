import SuiOptions.Exchange.CanonicalType

/-! Move types as texts: `asset.rs`.

The loop over the characters canonicalizes the words of a text one by one. A type is told
by its tokens, and its name and its canonical form are two ways to write them.
-/

set_option autoImplicit false

namespace SuiOptions.ProtocolTypes

open Move Text Tokens
open Exchange (Mark charKind isAsciiHexdigit splitPath stripHex colons hexValue hexChar)

/-! ### The source -/

/-- `{:0>64}` of an address in lower case -/
def padded (hex : List Char) : List Char := List.replicate (64 - hex.length) '0' ++ hex.map Char.toLower

def canonicalizeAtom (atom : List Char) : List Char :=
  match splitPath atom with
  | none => atom
  | some (addr, rest) =>
    if addr = [] then atom
    else if (stripHex addr).all isAsciiHexdigit then ['0', 'x'] ++ padded (stripHex addr) ++ (colons ++ rest)
    else atom

structure Scan where
  out : List Char
  atom : List Char

def Scan.flush (scan : Scan) : Scan :=
  if scan.atom = [] then scan else ⟨scan.out ++ canonicalizeAtom scan.atom, []⟩

def Scan.step (scan : Scan) (c : Char) : Scan :=
  match charKind c with
  | .mark _ => { scan.flush with out := scan.flush.out ++ [c] }
  | .blank => scan.flush
  | .letter => { scan with atom := scan.atom ++ [c] }

def canonicalizeMoveType (s : List Char) : List Char := (s.foldl Scan.step ⟨[], []⟩).flush.out

def chainFormMoveType (s : List Char) : List Char := removePair '0' 'x' (canonicalizeMoveType s)

/-! ### Types as tokens -/

inductive Atom where
  | primitive (which : Primitive)
  | vector
  | path (package : BitVec 256) (module name : Identifier)
  deriving DecidableEq

mutual

def tokens : MoveType → List (Token Atom Mark)
  | .primitive which => [.word (.primitive which)]
  | .vector element => .word .vector :: .mark .opens :: (tokens element ++ [.mark .closes])
  | .datatype package module name arguments => .word (.path package module name) :: argumentTokens arguments

def argumentTokens : List MoveType → List (Token Atom Mark)
  | [] => []
  | first :: rest => .mark .opens :: (tokens first ++ restTokens rest)

def restTokens : List MoveType → List (Token Atom Mark)
  | [] => [.mark .closes]
  | next :: rest => .mark .comma :: (tokens next ++ restTokens rest)

end

namespace Atom

/-- A word with its address after `0x` or bare. -/
def text (lead : Bool) : Atom → List Char
  | .primitive which => which.text
  | .vector => vectorText
  | .path package module name => (if lead then ['0', 'x'] else []) ++ pathText package module name

/-- The spelling of `type_name::with_defining_ids`. -/
abbrev bare : Atom → List Char := text false

abbrev prefixed : Atom → List Char := text true

end Atom

abbrev write {ω : Type} (f : ω → List Char) : List (Token ω Mark) → List Char := spell Mark.char f

/-- The canonical form of a type: its name, with `0x` before every address. -/
def canonicalText (t : MoveType) : List Char := write Atom.prefixed (tokens t)

mutual

theorem write_tokens (t : MoveType) : write Atom.bare (tokens t) = typeName t := by
  cases t with
  | primitive which => simp [tokens, Atom.text, typeName]
  | vector element => simp [tokens, Atom.text, typeName, Mark.char, write_tokens element]
  | datatype package module name arguments => simp [tokens, Atom.text, typeName, write_argumentTokens arguments]

theorem write_argumentTokens (arguments : List MoveType) : write Atom.bare (argumentTokens arguments) = argumentText arguments := by
  cases arguments with
  | nil => rfl
  | cons first rest => simp [argumentTokens, argumentText, Mark.char, write_tokens first, write_restTokens rest]

theorem write_restTokens (arguments : List MoveType) : write Atom.bare (restTokens arguments) = restText arguments := by
  cases arguments with
  | nil => rfl
  | cons next rest => simp [restTokens, restText, Mark.char, write_tokens next, write_restTokens rest]

end

mutual

theorem separated_tokens (t : MoveType) {rest : List (Token Atom Mark)} (bounded : Bounded rest) (separated : Separated rest) :
    Separated (tokens t ++ rest) := by
  cases t with
  | primitive which => exact ⟨bounded, separated⟩
  | vector element =>
    rw [tokens, List.cons_append, List.cons_append, List.append_assoc]
    exact ⟨Bounded.mark _ _, separated_tokens element (Bounded.mark _ _) separated⟩
  | datatype package module name arguments =>
    rw [tokens, List.cons_append]
    refine ⟨?_, separated_argumentTokens arguments separated⟩
    cases arguments with
    | nil => exact bounded
    | cons first others => exact Bounded.mark _ _

theorem separated_argumentTokens (arguments : List MoveType) {rest : List (Token Atom Mark)} (separated : Separated rest) :
    Separated (argumentTokens arguments ++ rest) := by
  cases arguments with
  | nil => exact separated
  | cons first others =>
    rw [argumentTokens, List.cons_append, List.append_assoc]
    have bounded : Bounded (restTokens others ++ rest) := by
      cases others with
      | nil => exact Bounded.mark _ _
      | cons next others => exact Bounded.mark _ _
    exact separated_tokens first bounded (separated_restTokens others separated)

theorem separated_restTokens (arguments : List MoveType) {rest : List (Token Atom Mark)} (separated : Separated rest) :
    Separated (restTokens arguments ++ rest) := by
  cases arguments with
  | nil => exact separated
  | cons next others =>
    rw [restTokens, List.cons_append, List.append_assoc]
    have bounded : Bounded (restTokens others ++ rest) := by
      cases others with
      | nil => exact Bounded.mark _ _
      | cons next others => exact Bounded.mark _ _
    exact separated_tokens next bounded (separated_restTokens others separated)

end

theorem separated (t : MoveType) : Separated (tokens t) := by
  have whole := separated_tokens t Bounded.nil trivial
  rwa [List.append_nil] at whole

/-! ### The loop -/

theorem Scan.flush_out (scan : Scan) : scan.flush.out = scan.out ++ write canonicalizeAtom (Tokens.flush scan.atom) ∧ scan.flush.atom = [] := by
  unfold Scan.flush Tokens.flush
  split
  · rename_i empty
    simp [empty]
  · simp

theorem mark_char {c : Char} {which : Mark} (kind : charKind c = .mark which) : which.char = c := by
  unfold charKind at kind
  split_ifs at kind with opens closes comma
  · cases kind
    exact opens.symm
  · cases kind
    exact closes.symm
  · cases kind
    exact comma.symm

theorem mark_outside (which : Mark) : ¬ Letter charKind which.char := by
  simp [Letter, Exchange.mark_kind]

theorem scan_eq (s : List Char) (scan : Scan) :
    (s.foldl Scan.step scan).flush.out = scan.out ++ write canonicalizeAtom (lex charKind scan.atom s) := by
  induction s generalizing scan with
  | nil => exact scan.flush_out.1
  | cons c rest ih =>
    obtain ⟨out, emptied⟩ := scan.flush_out
    rw [List.foldl_cons, ih, Scan.step, lex]
    cases kind : charKind c with
    | mark which => simp [out, emptied, mark_char kind]
    | blank => simp [out, emptied]
    | letter => simp

theorem canonicalizeMoveType_eq (s : List Char) :
    canonicalizeMoveType s = write canonicalizeAtom (lex charKind [] s) := scan_eq s ⟨[], []⟩

/-! ### Words -/

section Words

variable {word rest : List Char}

theorem splitPath_none (bare : ':' ∉ word) : splitPath word = none := by
  induction word with
  | nil => rfl
  | cons c word ih =>
    have other : ¬ (c = ':' ∧ word.head? = some ':') := by
      rintro ⟨rfl, -⟩
      exact bare List.mem_cons_self
    rw [splitPath, if_neg other, ih fun member => bare (List.mem_cons_of_mem _ member)]
    rfl

theorem canonicalizeAtom_bare (bare : ':' ∉ word) : canonicalizeAtom word = word := by
  rw [canonicalizeAtom, splitPath_none bare]

theorem canonicalizeAtom_colons (rest : List Char) : canonicalizeAtom (colons ++ rest) = colons ++ rest := by
  have split : splitPath (colons ++ rest) = some ([], rest) := by simp [colons, splitPath]
  rw [canonicalizeAtom, split]
  exact if_pos rfl

/-- What stands before the first `::` of a word is taken for an address where it can be one. -/
def address (word : List Char) : List Char :=
  if (stripHex word).all isAsciiHexdigit then ['0', 'x'] ++ padded (stripHex word) else word

theorem canonicalizeAtom_path (nonempty : word ≠ []) (bare : ':' ∉ word) (rest : List Char) :
    canonicalizeAtom (word ++ (colons ++ rest)) = address word ++ (colons ++ rest) := by
  rw [canonicalizeAtom, Exchange.splitPath_word bare, address]
  simp only [if_neg nonempty]
  split <;> rfl

end Words

def Proper (name : Identifier) : Prop := name.text.head?.any (fun c => !c.isDigit) = true

instance (name : Identifier) : Decidable (Proper name) := inferInstanceAs (Decidable (_ = _))

theorem Proper.cons {name : Identifier} (proper : Proper name) :
    ∃ first tail, name.text = first :: tail ∧ first.isDigit = false := by
  unfold Proper at proper
  cases text : name.text with
  | nil => simp [text] at proper
  | cons first tail => exact ⟨first, tail, rfl, by simpa [text] using proper⟩

def Atom.Proper : Atom → Prop
  | .path _ module name => ProtocolTypes.Proper module ∧ ProtocolTypes.Proper name
  | _ => True

theorem not_colon {word : List Char} (letters : ∀ c ∈ word, identifierChar c = true) : ':' ∉ word :=
  fun member => absurd (letters ':' member) (by decide)

theorem identifier_bare (name : Identifier) : ':' ∉ name.text := not_colon name.mem

theorem Proper.stripHex {name : Identifier} (proper : Proper name) : stripHex name.text = name.text := by
  obtain ⟨first, tail, text, letter⟩ := proper.cons
  rw [Exchange.stripHex, if_neg]
  intro marked
  rw [text] at marked
  cases tail with
  | nil => cases marked
  | cons second tail =>
    simp only [List.take_succ_cons, List.take_zero, List.cons.injEq] at marked
    rw [marked.1] at letter
    exact absurd letter (by decide)

end SuiOptions.ProtocolTypes
