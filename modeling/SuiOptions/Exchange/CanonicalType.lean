import SuiOptions.Lib.Execution
import SuiOptions.Lib.Tokens
import SuiOptions.Move.Types

/-! Canonical spellings of Move types: `canonicalize_move_type`.

The two tokens of a market are compared as texts, and so is the pair an order names
with the pair of its registry. Texts are lists of characters here.
-/

set_option autoImplicit false

namespace SuiOptions.Exchange

open Execution Move Text Tokens

/-! ### The source -/

inductive Mark where
  | opens
  | closes
  | comma
  deriving DecidableEq, Repr

def Mark.char : Mark → Char
  | .opens => '<'
  | .closes => '>'
  | .comma => ','

/-- `char::is_whitespace`, the Unicode property `White_Space`. -/
def isWhitespace (c : Char) : Bool :=
  (9 ≤ c.toNat ∧ c.toNat ≤ 13) ∨ c.toNat = 0x20 ∨ c.toNat = 0x85 ∨ c.toNat = 0xA0 ∨ c.toNat = 0x1680 ∨
    (0x2000 ≤ c.toNat ∧ c.toNat ≤ 0x200A) ∨ c.toNat = 0x2028 ∨ c.toNat = 0x2029 ∨ c.toNat = 0x202F ∨
    c.toNat = 0x205F ∨ c.toNat = 0x3000

def charKind (c : Char) : Kind Mark :=
  if c = '<' then .mark .opens
  else if c = '>' then .mark .closes
  else if c = ',' then .mark .comma
  else if isWhitespace c then .blank
  else .letter

def isAsciiHexdigit (c : Char) : Bool := ('0' ≤ c ∧ c ≤ '9') ∨ ('a' ≤ c ∧ c ≤ 'f') ∨ ('A' ≤ c ∧ c ≤ 'F')

def colons : List Char := [':', ':']

/-- `splitn(2, "::")`: the parts before and after the first `::`. -/
def splitPath : List Char → Option (List Char × List Char)
  | [] => none
  | c :: rest =>
    if c = ':' ∧ rest.head? = some ':' then some ([], rest.tail)
    else (splitPath rest).map fun parts => (c :: parts.1, parts.2)

/-- `strip_prefix("0x").unwrap_or(addr)` -/
def stripHex (addr : List Char) : List Char := if addr.take 2 = ['0', 'x'] then addr.drop 2 else addr

def canonicalizeAtom (atom : List Char) (prefixed : Bool) : Option (List Char) :=
  match splitPath atom with
  | none => none
  | some (addr, rest) =>
    let addrHex := stripHex addr
    -- `len` counts bytes, which are the characters of an address of hexadecimal digits
    if addrHex = [] ∨ 64 < addrHex.length ∨ addrHex.all isAsciiHexdigit = false then none
    else
      match splitPath rest with
      | none => none
      | some (module, name) =>
        -- a third part is refused
        if splitPath name = none ∧ module ≠ [] ∧ name ≠ [] then
          some ((if prefixed then ['0', 'x'] else []) ++ (List.replicate (64 - addrHex.length) '0' ++
            addrHex.map Char.toLower) ++ colons ++ module ++ colons ++ name)
        else none

structure ParseTypeError where
  text : List Char
  deriving DecidableEq, Repr

/-- The accumulators of the loop over the tokens. The depth has 32 bits in the source, which only a text of
`2 ^ 35` characters overflows. -/
structure Cursor where
  depth : Nat
  /-- A completed type sits immediately before the cursor. -/
  haveItem : Bool
  out : List Char

def Cursor.step (s : List Char) (cursor : Cursor) : Token (List Char) Mark → Except ParseTypeError Cursor
  | .word atom =>
    if cursor.haveItem then .error ⟨s⟩
    else
      match canonicalizeAtom atom (cursor.depth = 0) with
      | none => .error ⟨s⟩
      | some text => .ok { cursor with haveItem := true, out := cursor.out ++ text }
  | .mark .opens =>
    if cursor.haveItem = false then .error ⟨s⟩
    else .ok { depth := cursor.depth + 1, haveItem := false, out := cursor.out ++ [Mark.opens.char] }
  | .mark .closes =>
    if cursor.depth = 0 ∨ cursor.haveItem = false then .error ⟨s⟩
    else .ok { cursor with depth := cursor.depth - 1, out := cursor.out ++ [Mark.closes.char] }
  | .mark .comma =>
    if cursor.depth = 0 ∨ cursor.haveItem = false then .error ⟨s⟩
    else .ok { cursor with haveItem := false, out := cursor.out ++ [Mark.comma.char] }

def canonicalizeMoveType (s : List Char) : Except ParseTypeError (List Char) := do
  let cursor ← exec (Cursor.step s) ⟨0, false, []⟩ (lex charKind [] s)
  require (cursor.depth = 0 ∧ cursor.haveItem = true) ⟨s⟩
  pure cursor.out

/-! ### The grammar

A type is an atom with one list of arguments at most. The trees allow several lists,
one behind the other, and the strict ones are the types.
-/

/-- What an atom names. Its module ends where the second `::` stands, and there is no third. -/
structure Path where
  address : BitVec 256
  module : List Char
  name : List Char
  letters : ∀ c ∈ module ++ name, Letter charKind c
  nonempty : module ≠ [] ∧ name ≠ []
  parts : splitPath (module ++ colons ++ name) = some (module, name) ∧ splitPath name = none

def hexDigit (c : Char) : Nat :=
  if c.toNat < 58 then c.toNat - 48 else if c.toNat < 71 then c.toNat - 55 else c.toNat - 87

def hexValue (digits : List Char) : Nat := digits.foldl (fun value c => value * 16 + hexDigit c) 0

/-- The spellings of a path: its address by value, with leading zeros or without, in either
case, after `0x` or bare. -/
def Path.Spelling (path : Path) (atom : List Char) : Prop :=
  ∃ lead digits, (lead = [] ∨ lead = ['0', 'x']) ∧ digits ≠ [] ∧ digits.length ≤ 64 ∧
    digits.all isAsciiHexdigit = true ∧ hexValue digits = path.address.toNat ∧
    atom = lead ++ (digits ++ (colons ++ (path.module ++ colons ++ path.name)))

def Path.text (path : Path) : List Char := addressText path.address ++ (colons ++ (path.module ++ colons ++ path.name))

mutual

inductive Tag where
  | node (path : Path) (lists : Lists)

inductive Lists where
  | none
  | more (first : Tag) (rest : Args) (later : Lists)

inductive Args where
  | last
  | more (next : Tag) (rest : Args)

end

mutual

def Tag.tokens : Tag → List (Token Path Mark)
  | .node path lists => .word path :: lists.tokens

def Lists.tokens : Lists → List (Token Path Mark)
  | .none => []
  | .more first rest later => .mark .opens :: (first.tokens ++ (rest.tokens ++ .mark .closes :: later.tokens))

def Args.tokens : Args → List (Token Path Mark)
  | .last => []
  | .more next rest => .mark .comma :: (next.tokens ++ rest.tokens)

end

mutual

/-- `type := atom [ '<' type (',' type)* '>' ]` -/
def Tag.Strict : Tag → Prop
  | .node _ lists => lists.Strict

def Lists.Strict : Lists → Prop
  | .none => True
  | .more first rest later => first.Strict ∧ rest.Strict ∧ later = .none

def Args.Strict : Args → Prop
  | .last => True
  | .more next rest => next.Strict ∧ rest.Strict

end

inductive SpellsToken : Token Path Mark → Token (List Char) Mark → Prop
  | word {path : Path} {atom : List Char} (spelling : path.Spelling atom) : SpellsToken (.word path) (.word atom)
  | mark (which : Mark) : SpellsToken (.mark which) (.mark which)

/-- A text denotes a tree: it spells the tree's tokens, with blanks around them. -/
def Denotes (s : List Char) (tag : Tag) : Prop :=
  ∃ words, Spells charKind s words ∧ List.Forall₂ SpellsToken tag.tokens words

/-! ### Atoms -/

theorem splitPath_word {word rest : List Char} (bare : ':' ∉ word) : splitPath (word ++ (colons ++ rest)) = some (word, rest) := by
  induction word with
  | nil => simp [splitPath, colons]
  | cons c word ih =>
    have other : ¬ (c = ':' ∧ (word ++ (colons ++ rest)).head? = some ':') := by
      rintro ⟨rfl, -⟩
      exact bare List.mem_cons_self
    rw [List.cons_append, splitPath, if_neg other, ih fun member => bare (List.mem_cons_of_mem _ member)]
    rfl

/-- The parts and the `::` between them are the text. -/
theorem splitPath_eq {text first later : List Char} (split : splitPath text = some (first, later)) :
    text = first ++ (colons ++ later) := by
  induction text generalizing first with
  | nil => cases split
  | cons c rest ih =>
    unfold splitPath at split
    split at split
    · rename_i here
      obtain ⟨rfl, head⟩ := here
      cases split
      cases rest with
      | nil => cases head
      | cons d rest =>
        cases head
        rfl
    · obtain ⟨⟨front, back⟩, found, same⟩ := Option.map_eq_some_iff.mp split
      cases same
      rw [ih found]
      rfl

theorem hex_ascii : ∀ n < 128, isAsciiHexdigit (Char.ofNat n) = true → hexDigit (Char.ofNat n) < 16 ∧
    lowerHex (hexDigit (Char.ofNat n)) = (Char.ofNat n).toLower ∧ charKind (Char.ofNat n) = .letter ∧
      Char.ofNat n ≠ ':' ∧ Char.ofNat n ≠ 'x' := by
  decide +kernel

structure HexChar (c : Char) : Prop where
  small : hexDigit c < 16
  lower : lowerHex (hexDigit c) = c.toLower
  letter : Letter charKind c
  notColon : c ≠ ':'
  notX : c ≠ 'x'

theorem hexChar {c : Char} (hex : isAsciiHexdigit c = true) : HexChar c := by
  have ascii : c.toNat < 128 := by
    simp only [isAsciiHexdigit, decide_eq_true_eq, Char.le_def, UInt32.le_iff_toNat_le] at hex
    have top : ('9' : Char).val.toNat < 128 ∧ ('f' : Char).val.toNat < 128 ∧ ('F' : Char).val.toNat < 128 := by decide
    have here : c.toNat = c.val.toNat := rfl
    omega
  have known := hex_ascii c.toNat ascii
  rw [Char.ofNat_toNat] at known
  obtain ⟨small, lower, letter, colon, x⟩ := known hex
  exact ⟨small, lower, letter, colon, x⟩

theorem numeral_zero (width : Nat) : numeral 16 lowerHex width 0 = List.replicate width '0' := by
  induction width with
  | zero => rfl
  | succ width ih =>
    rw [List.replicate_succ', numeral, Nat.zero_div, ih]
    rfl

theorem numeral_hexValue {digits : List Char} {width : Nat} (hex : ∀ c ∈ digits, isAsciiHexdigit c = true)
    (fits : digits.length ≤ width) : numeral 16 lowerHex width (hexValue digits) =
      List.replicate (width - digits.length) '0' ++ digits.map Char.toLower := by
  induction digits using List.reverseRecOn generalizing width with
  | nil =>
    rw [List.length_nil, Nat.sub_zero, List.map_nil, List.append_nil]
    exact numeral_zero width
  | append_singleton digits c ih =>
    rw [List.length_append, List.length_singleton] at fits
    obtain ⟨width, rfl⟩ : ∃ fewer, width = fewer + 1 := ⟨width - 1, by omega⟩
    have digit := hexChar (hex c (by simp))
    have step : hexValue (digits ++ [c]) = hexValue digits * 16 + hexDigit c := by
      simp [hexValue, List.foldl_append]
    have small := digit.small
    have high : (hexValue digits * 16 + hexDigit c) / 16 = hexValue digits := by omega
    have low : (hexValue digits * 16 + hexDigit c) % 16 = hexDigit c := by omega
    have room : width + 1 - (digits ++ [c]).length = width - digits.length := by
      rw [List.length_append, List.length_singleton]
      omega
    rw [step, numeral, high, low, ih (fun d member => hex d (List.mem_append_left _ member)) (by omega), room,
      digit.lower, List.map_append, List.append_assoc]
    rfl

theorem hexValue_lt {digits : List Char} (hex : ∀ c ∈ digits, isAsciiHexdigit c = true) :
    hexValue digits < 16 ^ digits.length := by
  induction digits using List.reverseRecOn with
  | nil => simp [hexValue]
  | append_singleton digits c ih =>
    have small := (hexChar (hex c (by simp))).small
    have before := ih fun d member => hex d (List.mem_append_left _ member)
    have step : hexValue (digits ++ [c]) = hexValue digits * 16 + hexDigit c := by
      simp [hexValue, List.foldl_append]
    rw [step, List.length_append, List.length_singleton, Nat.pow_succ]
    omega

theorem stripHex_lead {lead digits : List Char} (marked : lead = [] ∨ lead = ['0', 'x'])
    (hex : ∀ c ∈ digits, isAsciiHexdigit c = true) : stripHex (lead ++ digits) = digits := by
  rcases marked with rfl | rfl
  · have bare : ¬ digits.take 2 = ['0', 'x'] := by
      intro taken
      have member : 'x' ∈ digits.take 2 := taken ▸ by simp
      exact (hexChar (hex 'x' (List.mem_of_mem_take member))).notX rfl
    rw [List.nil_append, stripHex, if_neg bare]
  · simp [stripHex]

theorem stripHex_cases (addr : List Char) : ∃ lead, (lead = [] ∨ lead = ['0', 'x']) ∧ addr = lead ++ stripHex addr := by
  unfold stripHex
  split
  · rename_i marked
    refine ⟨['0', 'x'], Or.inr rfl, ?_⟩
    rw [← marked, List.take_append_drop]
  · exact ⟨[], Or.inl rfl, rfl⟩

namespace Path

variable {path other : Path} {atom : List Char}

/-- How the source takes a spelling apart. -/
theorem Spelling.split (spelling : path.Spelling atom) :
    ∃ addr, splitPath atom = some (addr, path.module ++ colons ++ path.name) ∧ stripHex addr ≠ [] ∧
      (stripHex addr).length ≤ 64 ∧ (stripHex addr).all isAsciiHexdigit = true ∧
      hexValue (stripHex addr) = path.address.toNat := by
  obtain ⟨lead, digits, marked, nonempty, short, hex, value, rfl⟩ := spelling
  have digit := List.all_eq_true.mp hex
  have bare : ':' ∉ lead ++ digits := by
    intro member
    rcases List.mem_append.mp member with inLead | inDigits
    · rcases marked with rfl | rfl <;> simp at inLead
    · exact (hexChar (digit ':' inDigits)).notColon rfl
  refine ⟨lead ++ digits, ?_, ?_⟩
  · rw [← List.append_assoc]
    exact splitPath_word bare
  · rw [stripHex_lead marked digit]
    exact ⟨nonempty, short, hex, value⟩

theorem Spelling.unique (left : path.Spelling atom) (right : other.Spelling atom) : path = other := by
  obtain ⟨addr, split, -, -, -, value⟩ := left.split
  obtain ⟨addr', split', -, -, -, value'⟩ := right.split
  rw [split] at split'
  obtain ⟨rfl, rests⟩ := Prod.mk.inj (Option.some.inj split')
  have parts := path.parts.1
  rw [rests, other.parts.1] at parts
  obtain ⟨modules, names⟩ := Prod.mk.inj (Option.some.inj parts)
  have addresses : path.address = other.address := BitVec.eq_of_toNat_eq (value.symm.trans value')
  cases path
  cases other
  simp only at modules names addresses
  subst modules names addresses
  rfl

theorem addressText_hex (address : BitVec 256) : ∀ c ∈ addressText address, isAsciiHexdigit c = true := by
  have digits : ∀ d < 16, isAsciiHexdigit (lowerHex d) = true := by decide
  intro c member
  obtain ⟨d, small, rfl⟩ := mem_numeral (by decide) member
  exact digits d small

theorem hexValue_numeral {width value : Nat} (fits : value < 16 ^ width) : hexValue (numeral 16 lowerHex width value) = value := by
  have digit : ∀ d < 16, hexDigit (lowerHex d) = d := by decide
  induction width generalizing value with
  | zero =>
    rw [Nat.pow_zero] at fits
    obtain rfl : value = 0 := by omega
    rfl
  | succ width ih =>
    have high : value / 16 < 16 ^ width := by
      rw [Nat.pow_succ] at fits
      exact Nat.div_lt_of_lt_mul (by omega)
    have read := ih high
    simp only [hexValue] at read
    simp only [numeral, hexValue, List.foldl_append, List.foldl_cons, List.foldl_nil, read,
      digit _ (Nat.mod_lt value (by decide))]
    omega

theorem spelling_text (path : Path) {lead : List Char} (marked : lead = [] ∨ lead = ['0', 'x']) :
    path.Spelling (lead ++ path.text) := by
  have length : (addressText path.address).length = 64 := numeral_length ..
  refine ⟨lead, addressText path.address, marked, ?_, length.le, List.all_eq_true.mpr (addressText_hex _), ?_, rfl⟩
  · intro empty
    rw [empty] at length
    cases length
  · exact hexValue_numeral (lt_of_lt_of_eq path.address.isLt (by decide))

theorem text_letters (path : Path) : ∀ c ∈ path.text, Letter charKind c := by
  have colon : Letter charKind ':' := show charKind ':' = .letter by decide
  intro c member
  simp only [text, colons, List.mem_append, List.mem_cons, List.not_mem_nil, or_false, or_self] at member
  rcases member with address | rfl | (module | rfl) | name
  · exact (hexChar (addressText_hex _ c address)).letter
  · exact colon
  · exact path.letters c (List.mem_append_left _ module)
  · exact colon
  · exact path.letters c (List.mem_append_right _ name)

end Path

theorem canonicalizeAtom_iff {atom text : List Char} {prefixed : Bool} (letters : ∀ c ∈ atom, Letter charKind c) :
    canonicalizeAtom atom prefixed = some text ↔
      ∃ path : Path, path.Spelling atom ∧ text = (if prefixed then ['0', 'x'] else []) ++ path.text := by
  unfold canonicalizeAtom
  constructor
  · intro ran
    split at ran
    · -- no `::`, so no path
      cases ran
    rename_i addr rest split
    simp only at ran
    split at ran
    · cases ran
    rename_i digits
    simp only [not_or, Bool.not_eq_false, Nat.not_lt] at digits
    -- an address of one to 64 hexadecimal digits
    obtain ⟨nonempty, short, hex⟩ := digits
    split at ran
    · cases ran
    rename_i module name parts
    split at ran
    · rename_i whole
      -- exactly three parts, the last of which is not empty
      obtain ⟨last, named⟩ := whole
      cases ran
      have digit := List.all_eq_true.mp hex
      have value : hexValue (stripHex addr) < 2 ^ 256 := by
        calc hexValue (stripHex addr) < 16 ^ (stripHex addr).length := hexValue_lt digit
          _ ≤ 16 ^ 64 := Nat.pow_le_pow_right (by decide) short
          _ = 2 ^ 256 := by decide
      have restEq := splitPath_eq parts
      have atomEq := splitPath_eq split
      -- module and name are made of letters of the text
      have known : ∀ c ∈ module ++ name, Letter charKind c := by
        intro c member
        refine letters c ?_
        rw [atomEq, restEq]
        rcases List.mem_append.mp member with inModule | inName <;> simp [*]
      obtain ⟨lead, marked, addrEq⟩ := stripHex_cases addr
      rw [← List.append_assoc] at restEq
      refine ⟨⟨BitVec.ofNat 256 (hexValue (stripHex addr)), module, name, known, named, restEq ▸ parts, last⟩,
        ⟨lead, stripHex addr, marked, nonempty, short, hex, ?_, ?_⟩, ?_⟩
      · rw [BitVec.toNat_ofNat, Nat.mod_eq_of_lt value]
      · calc atom = addr ++ (colons ++ rest) := atomEq
          _ = (lead ++ stripHex addr) ++ (colons ++ rest) := by rw [← addrEq]
          _ = lead ++ (stripHex addr ++ (colons ++ (module ++ colons ++ name))) := by rw [List.append_assoc, restEq]
      · simp only [Path.text, addressText, BitVec.toNat_ofNat, Nat.mod_eq_of_lt value, numeral_hexValue digit short,
          List.append_assoc]
    · cases ran
  · rintro ⟨path, spelling, rfl⟩
    -- a spelled path is split where it was put together
    obtain ⟨addr, split, nonempty, short, hex, value⟩ := spelling.split
    have digits : ¬ (stripHex addr = [] ∨ 64 < (stripHex addr).length ∨ (stripHex addr).all isAsciiHexdigit = false) := by
      rw [hex]
      simp [nonempty, short]
    simp only [split, if_neg digits, path.parts.1]
    rw [if_pos ⟨path.parts.2, path.nonempty⟩]
    simp only [Path.text, addressText, ← value, numeral_hexValue (List.all_eq_true.mp hex) short, List.append_assoc]

/-! ### The loop -/

section Marks

variable {ω : Type}

/-- Where a token may stand: an item has to stand before the marks and may not before an atom. -/
def Allowed (depth : Nat) (item : Bool) : Token ω Mark → Prop
  | .word _ => item = false
  | .mark .opens => item = true
  | .mark _ => depth ≠ 0 ∧ item = true

def depthAfter (depth : Nat) : Token ω Mark → Nat
  | .mark .opens => depth + 1
  | .mark .closes => depth - 1
  | _ => depth

def completes : Token ω Mark → Bool
  | .word _ | .mark .closes => true
  | _ => false

def Balanced : Nat → Bool → List (Token ω Mark) → Prop
  | depth, item, [] => depth = 0 ∧ item = true
  | depth, item, token :: rest => Allowed depth item token ∧ Balanced (depthAfter depth token) (completes token) rest

end Marks

/-- What the loop writes for a token: `0x` stands in front of an atom outside all lists. -/
def piece (depth : Nat) : Token Path Mark → List Char
  | .word path => (if depth = 0 then ['0', 'x'] else []) ++ path.text
  | .mark which => [which.char]

def written : Nat → List (Token Path Mark) → List Char
  | _, [] => []
  | depth, token :: rest => piece depth token ++ written (depthAfter depth token) rest

def Lettered (words : List (Token (List Char) Mark)) : Prop := ∀ atom, .word atom ∈ words → ∀ c ∈ atom, Letter charKind c

theorem Lettered.tail {word : Token (List Char) Mark} {words : List (Token (List Char) Mark)}
    (lettered : Lettered (word :: words)) : Lettered words :=
  fun atom member => lettered atom (List.mem_cons_of_mem _ member)

theorem Lettered.of_spells {text : List Char} {words : List (Token (List Char) Mark)} (spells : Spells charKind text words) :
    Lettered words := by
  induction spells with
  | nil => exact fun atom member => absurd member List.not_mem_nil
  | blank blank spells ih => exact ih
  | mark mark spells ih =>
    intro atom member
    rcases List.mem_cons.mp member with same | later
    · cases same
    · exact ih atom later
  | word nonempty word ends spells ih =>
    intro atom member
    rcases List.mem_cons.mp member with same | later
    · cases same
      exact word
    · exact ih atom later

theorem Cursor.step_iff {s : List Char} {depth : Nat} {item : Bool} {out : List Char} {word : Token (List Char) Mark}
    {next : Cursor} (lettered : Lettered [word]) : Cursor.step s ⟨depth, item, out⟩ word = .ok next ↔
      ∃ token, SpellsToken token word ∧ Allowed depth item token ∧
        next = ⟨depthAfter depth token, completes token, out ++ piece depth token⟩ := by
  cases word with
  | word atom =>
    -- a word has one path that it spells
    have known : ∀ {text}, canonicalizeAtom atom (depth = 0) = some text ↔ _ :=
      canonicalizeAtom_iff (lettered atom (List.mem_singleton_self _))
    simp only [Cursor.step]
    constructor
    · intro moved
      split at moved
      · cases moved
      rename_i free
      split at moved
      · cases moved
      rename_i text became
      cases moved
      obtain ⟨path, spelling, rfl⟩ := known.mp became
      refine ⟨.word path, .word spelling, by simpa [Allowed] using free, ?_⟩
      simp [depthAfter, completes, piece]
    · rintro ⟨token, spelled, allowed, rfl⟩
      cases spelled with
      | word spelling =>
        have free : item = false := allowed
        rw [if_neg (by simp [free]), known.mpr ⟨_, spelling, rfl⟩]
        simp [depthAfter, completes, piece]
  | mark which =>
    -- a mark spells itself
    have only : (∃ token, SpellsToken token (.mark which) ∧ Allowed depth item token ∧
        next = ⟨depthAfter depth token, completes token, out ++ piece depth token⟩) ↔
        Allowed depth item (.mark which : Token Path Mark) ∧ next = ⟨depthAfter depth (.mark which : Token Path Mark),
          completes (.mark which : Token Path Mark), out ++ piece depth (.mark which)⟩ := by
      constructor
      · rintro ⟨token, spelled, allowed, same⟩
        cases spelled
        exact ⟨allowed, same⟩
      · rintro ⟨allowed, same⟩
        exact ⟨_, .mark which, allowed, same⟩
    rw [only]
    cases which with
    | opens =>
      cases item <;> simp [Cursor.step, Allowed, depthAfter, completes, piece, eq_comm]
    | closes =>
      by_cases outer : depth = 0 <;> cases item <;>
        simp [Cursor.step, Allowed, depthAfter, completes, piece, eq_comm, outer]
    | comma =>
      by_cases outer : depth = 0 <;> cases item <;>
        simp [Cursor.step, Allowed, depthAfter, completes, piece, eq_comm, outer]

/-- Runs of the loop that end where the source returns. -/
theorem exec_step_iff {s : List Char} {words : List (Token (List Char) Mark)} (lettered : Lettered words) {depth : Nat}
    {item : Bool} {out final : List Char} :
    exec (Cursor.step s) ⟨depth, item, out⟩ words = .ok ⟨0, true, final⟩ ↔
      ∃ tokens, List.Forall₂ SpellsToken tokens words ∧ Balanced depth item tokens ∧ final = out ++ written depth tokens := by
  induction words generalizing depth item out with
  | nil =>
    simp only [exec_nil, Except.ok.injEq, Cursor.mk.injEq, List.forall₂_nil_right_iff, exists_eq_left, Balanced, written,
      List.append_nil, and_assoc, eq_comm]
  | cons word words ih =>
    have single : Lettered [word] := fun atom member => lettered atom (by
      rw [List.mem_singleton.mp member]
      exact List.mem_cons_self)
    rw [exec_cons_ok]
    constructor
    · rintro ⟨next, moved, ran⟩
      obtain ⟨token, spelled, allowed, rfl⟩ := (Cursor.step_iff single).mp moved
      obtain ⟨tokens, later, balanced, rfl⟩ := (ih lettered.tail).mp ran
      exact ⟨token :: tokens, .cons spelled later, ⟨allowed, balanced⟩, by rw [written, List.append_assoc]⟩
    · rintro ⟨tokens, spelled, balanced, rfl⟩
      cases spelled with
      | cons first later =>
        refine ⟨_, (Cursor.step_iff single).mpr ⟨_, first, balanced.1, rfl⟩,
          (ih lettered.tail).mpr ⟨_, later, balanced.2, ?_⟩⟩
        rw [written, List.append_assoc]

/-- What the source returns, and when. -/
theorem canonicalizeMoveType_iff {s out : List Char} : canonicalizeMoveType s = .ok out ↔
    ∃ words tokens, Spells charKind s words ∧ List.Forall₂ SpellsToken tokens words ∧ Balanced 0 false tokens ∧
      out = written 0 tokens := by
  have cut : Spells charKind s (lex charKind [] s) := spells_iff.mpr rfl
  unfold canonicalizeMoveType
  constructor
  · intro ran
    obtain ⟨⟨depth, item, final⟩, looped, ran⟩ := bind_ok.mp ran
    obtain ⟨_, ended, ran⟩ := bind_ok.mp ran
    obtain ⟨rfl, rfl⟩ := require_ok.mp ended
    cases pure_ok.mp ran
    obtain ⟨tokens, spelled, balanced, rfl⟩ := (exec_step_iff (Lettered.of_spells cut)).mp looped
    exact ⟨_, tokens, cut, spelled, balanced, rfl⟩
  · rintro ⟨words, tokens, spells, spelled, balanced, rfl⟩
    obtain rfl := spells.lex
    refine bind_ok.mpr ⟨_, (exec_step_iff (Lettered.of_spells cut)).mpr ⟨tokens, spelled, balanced, rfl⟩, ?_⟩
    exact bind_ok.mpr ⟨(), require_of ⟨rfl, rfl⟩, rfl⟩

/-! ### The trees of a balanced text -/

def NotOpen (tokens : List (Token Path Mark)) : Prop := tokens.head? ≠ some (.mark .opens)

mutual

theorem Tag.balanced (tag : Tag) {depth : Nat} {rest : List (Token Path Mark)} :
    Balanced depth false (tag.tokens ++ rest) ↔ Balanced depth true rest := by
  cases tag with
  | node path lists =>
    rw [Tag.tokens, List.cons_append]
    exact (and_iff_right rfl).trans lists.balanced

theorem Lists.balanced (lists : Lists) {depth : Nat} {rest : List (Token Path Mark)} :
    Balanced depth true (lists.tokens ++ rest) ↔ Balanced depth true rest := by
  cases lists with
  | none => rfl
  | more first args later =>
    have inner : Balanced (depth + 1) false (first.tokens ++ (args.tokens ++ .mark .closes :: (later.tokens ++ rest))) ↔
        Balanced depth true rest := first.balanced.trans (args.balanced.trans later.balanced)
    simp only [Lists.tokens, List.cons_append, List.append_assoc]
    exact (and_iff_right rfl).trans inner

theorem Args.balanced (args : Args) {depth : Nat} {rest : List (Token Path Mark)} :
    Balanced (depth + 1) true (args.tokens ++ .mark .closes :: rest) ↔ Balanced depth true rest := by
  cases args with
  | last => exact and_iff_right ⟨Nat.succ_ne_zero depth, rfl⟩
  | more next others =>
    simp only [Args.tokens, List.cons_append, List.append_assoc]
    exact (and_iff_right ⟨Nat.succ_ne_zero depth, rfl⟩).trans (next.balanced.trans others.balanced)

end

/-- The longest item, lists or arguments at the head of a balanced text, for every text of a bounded length. -/
theorem parse_balanced (bound : Nat) : ∀ tokens : List (Token Path Mark), tokens.length < bound → ∀ depth,
    (Balanced depth false tokens → ∃ (tag : Tag) (rest : _), tokens = tag.tokens ++ rest ∧ Balanced depth true rest ∧ NotOpen rest) ∧
    (Balanced depth true tokens → ∃ (lists : Lists) (rest : _), tokens = lists.tokens ++ rest ∧ Balanced depth true rest ∧ NotOpen rest) ∧
    (Balanced (depth + 1) true tokens → NotOpen tokens →
      ∃ (args : Args) (rest : _), tokens = args.tokens ++ .mark .closes :: rest ∧ Balanced depth true rest) := by
  induction bound with
  | zero => exact fun tokens short => absurd short (Nat.not_lt_zero _)
  | succ bound ih =>
    intro tokens short depth
    refine ⟨fun balanced => ?_, fun balanced => ?_, fun balanced closed => ?_⟩
    · cases tokens with
      | nil => cases balanced.2
      | cons token later =>
        cases token with
        | word path =>
          obtain ⟨lists, rest, rfl, left, closed⟩ := (ih later (Nat.lt_of_succ_lt_succ short) depth).2.1 balanced.2
          exact ⟨.node path lists, rest, rfl, left, closed⟩
        | mark which => cases which <;> simp [Balanced, Allowed] at balanced
    · cases tokens with
      | nil => exact ⟨.none, [], rfl, balanced, by simp [NotOpen]⟩
      | cons token later =>
        by_cases here : token = .mark .opens
        · subst here
          have shorter : later.length < bound := Nat.lt_of_succ_lt_succ short
          obtain ⟨first, middle, rfl, inner, closed⟩ := (ih later shorter (depth + 1)).1 balanced.2
          rw [List.length_append] at shorter
          obtain ⟨args, behind, rfl, outer⟩ := (ih middle (by omega) depth).2.2 inner closed
          rw [List.length_append, List.length_cons] at shorter
          obtain ⟨others, rest, rfl, left, ended⟩ := (ih behind (by omega) depth).2.1 outer
          exact ⟨.more first args others, rest, by simp [Lists.tokens], left, ended⟩
        · exact ⟨.none, token :: later, rfl, balanced, fun head => here (Option.some.inj head)⟩
    · cases tokens with
      | nil => cases balanced.1
      | cons token later =>
        have shorter : later.length < bound := Nat.lt_of_succ_lt_succ short
        cases token with
        | word path => cases balanced.1
        | mark which =>
          cases which with
          | opens => exact absurd rfl closed
          | closes => exact ⟨.last, later, rfl, balanced.2⟩
          | comma =>
            obtain ⟨next, middle, rfl, inner, unclosed⟩ := (ih later shorter (depth + 1)).1 balanced.2
            rw [List.length_append] at shorter
            obtain ⟨args, rest, rfl, outer⟩ := (ih middle (by omega) depth).2.2 inner unclosed
            exact ⟨.more next args, rest, by simp [Args.tokens], outer⟩

theorem balanced_iff {tokens : List (Token Path Mark)} : Balanced 0 false tokens ↔ ∃ tag : Tag, tag.tokens = tokens := by
  constructor
  · intro balanced
    obtain ⟨tag, rest, rfl, ended, closed⟩ := (parse_balanced (tokens.length + 1) tokens (Nat.lt_succ_self _) 0).1 balanced
    cases rest with
    | nil => exact ⟨tag, (List.append_nil _).symm⟩
    | cons token rest =>
      -- outside all lists only the end may follow an item
      cases token with
      | word path => cases ended.1
      | mark which =>
        cases which with
        | opens => exact absurd rfl closed
        | closes => exact absurd rfl ended.1.1
        | comma => exact absurd rfl ended.1.1
  · rintro ⟨tag, rfl⟩
    rw [← List.append_nil tag.tokens]
    exact tag.balanced.mpr ⟨rfl, rfl⟩

theorem Args.notOpen (args : Args) (rest : List (Token Path Mark)) : NotOpen (args.tokens ++ .mark .closes :: rest) := by
  cases args <;> simp [NotOpen, Args.tokens]

mutual

theorem Tag.cancel (t u : Tag) {x y : List (Token Path Mark)} (left : NotOpen x) (right : NotOpen y)
    (same : t.tokens ++ x = u.tokens ++ y) : t = u ∧ x = y := by
  cases t with
  | node path lists =>
    cases u with
    | node other others =>
      simp only [Tag.tokens, List.cons_append, List.cons.injEq, Token.word.injEq] at same
      obtain ⟨rfl, same⟩ := same
      obtain ⟨rfl, rests⟩ := Lists.cancel lists others left right same
      exact ⟨rfl, rests⟩

theorem Lists.cancel (t u : Lists) {x y : List (Token Path Mark)} (left : NotOpen x) (right : NotOpen y)
    (same : t.tokens ++ x = u.tokens ++ y) : t = u ∧ x = y := by
  cases t with
  | none =>
    cases u with
    | none => exact ⟨rfl, same⟩
    | more first args later =>
      rw [Lists.tokens, List.nil_append] at same
      exact absurd (same ▸ rfl) left
  | more first args later =>
    cases u with
    | none =>
      rw [Lists.tokens, Lists.tokens, List.nil_append] at same
      exact absurd (same ▸ rfl) right
    | more other others after =>
      simp only [Lists.tokens, List.cons_append, List.append_assoc, List.cons.injEq, true_and] at same
      obtain ⟨rfl, behind⟩ := Tag.cancel first other (Args.notOpen _ _) (Args.notOpen _ _) same
      obtain ⟨rfl, outside⟩ := Args.cancel args others behind
      obtain ⟨rfl, rests⟩ := Lists.cancel later after left right outside
      exact ⟨rfl, rests⟩

theorem Args.cancel (t u : Args) {x y : List (Token Path Mark)}
    (same : t.tokens ++ .mark .closes :: x = u.tokens ++ .mark .closes :: y) : t = u ∧ x = y := by
  cases t with
  | last =>
    cases u with
    | last => exact ⟨rfl, (List.cons.inj same).2⟩
    | more next rest => simp [Args.tokens] at same
  | more next rest =>
    cases u with
    | last => simp [Args.tokens] at same
    | more other others =>
      simp only [Args.tokens, List.cons_append, List.append_assoc, List.cons.injEq, true_and] at same
      obtain ⟨rfl, behind⟩ := Tag.cancel next other (Args.notOpen _ _) (Args.notOpen _ _) same
      obtain ⟨rfl, rests⟩ := Args.cancel rest others behind
      exact ⟨rfl, rests⟩

end

theorem Tag.tokens_injective : Function.Injective Tag.tokens := by
  intro t u same
  have closed : NotOpen [] := by simp [NotOpen]
  exact (t.cancel u closed closed (by rw [same])).1

/-! ### The output -/

def plain : Token Path Mark → List Char
  | .word path => path.text
  | .mark which => [which.char]

theorem written_plain {tokens : List (Token Path Mark)} {depth : Nat} {item : Bool} (balanced : Balanced depth item tokens)
    (inside : depth = 0 → item = true) : written depth tokens = tokens.flatMap plain := by
  induction tokens generalizing depth item with
  | nil => rfl
  | cons token rest ih =>
    rw [written, List.flatMap_cons]
    cases token with
    | word path =>
      have deep : depth ≠ 0 := by
        intro outer
        have free : item = false := balanced.1
        rw [inside outer] at free
        cases free
      rw [piece, if_neg deep, List.nil_append, ih balanced.2 fun _ => rfl, plain]
    | mark which =>
      refine congrArg (plain (.mark which) ++ ·) (ih balanced.2 fun outer => ?_)
      cases which with
      | opens => cases outer
      | closes => rfl
      | comma => exact absurd outer balanced.1.1

theorem mark_kind (which : Mark) : charKind which.char = .mark which := by
  cases which <;> decide

theorem plain_ends {tokens : List (Token Path Mark)} {depth : Nat} (balanced : Balanced depth true tokens) :
    Ends (Letter charKind) (tokens.flatMap plain) := by
  cases tokens with
  | nil => exact Ends.nil _
  | cons token rest =>
    cases token with
    | word path => cases balanced.1
    | mark which =>
      have outside : ¬ Letter charKind which.char := by simp [Letter, mark_kind]
      exact Ends.cons outside _

theorem plain_spells {tokens : List (Token Path Mark)} {depth : Nat} {item : Bool} (balanced : Balanced depth item tokens) :
    Spells charKind (tokens.flatMap plain) (tokens.map (Token.map Path.text)) := by
  induction tokens generalizing depth item with
  | nil => exact .nil
  | cons token rest ih =>
    cases token with
    | word path =>
      have nonempty : path.text ≠ [] := by simp [Path.text, colons]
      exact .word nonempty path.text_letters (plain_ends balanced.2) (ih balanced.2)
    | mark which => exact .mark (mark_kind which) (ih balanced.2)

theorem spellsToken_text (token : Token Path Mark) : SpellsToken token (token.map Path.text) := by
  cases token with
  | word path =>
    have bare : path.Spelling ([] ++ path.text) := path.spelling_text (Or.inl rfl)
    rw [List.nil_append] at bare
    exact .word bare
  | mark which => exact .mark which

theorem written_spells {tokens : List (Token Path Mark)} (balanced : Balanced 0 false tokens) :
    ∃ words, Spells charKind (written 0 tokens) words ∧ List.Forall₂ SpellsToken tokens words := by
  cases tokens with
  | nil => cases balanced.2
  | cons token rest =>
    cases token with
    | mark which => cases which <;> simp [Balanced, Allowed] at balanced
    | word path =>
      refine ⟨.word (['0', 'x'] ++ path.text) :: rest.map (Token.map Path.text), ?_, ?_⟩
      · have letters : ∀ c ∈ ['0', 'x'] ++ path.text, Letter charKind c := by
          intro c member
          rcases List.mem_append.mp member with lead | inside
          · have zero : charKind '0' = .letter := by decide
            have x : charKind 'x' = .letter := by decide
            rcases List.mem_cons.mp lead with rfl | second
            · exact zero
            · rw [List.mem_singleton.mp second]
              exact x
          · exact path.text_letters c inside
        have nonempty : ['0', 'x'] ++ path.text ≠ [] := by simp
        rw [written, written_plain balanced.2 fun _ => rfl]
        exact .word nonempty letters (plain_ends balanced.2) (plain_spells balanced.2)
      · refine .cons (.word (path.spelling_text (Or.inr rfl))) ?_
        rw [List.forall₂_map_right_iff]
        exact List.forall₂_same.mpr fun token _ => spellsToken_text token

theorem spelled_unique {first second : List (Token Path Mark)} {words : List (Token (List Char) Mark)}
    (left : List.Forall₂ SpellsToken first words) (right : List.Forall₂ SpellsToken second words) : first = second := by
  induction left generalizing second with
  | nil =>
    cases right
    rfl
  | cons here later ih =>
    cases right with
    | cons there after =>
      rw [ih after]
      cases here with
      | mark which =>
        cases there
        rfl
      | word spelling =>
        cases there with
        | word other => rw [spelling.unique other]

theorem written_inj {first second : List (Token Path Mark)} (left : Balanced 0 false first) (right : Balanced 0 false second)
    (same : written 0 first = written 0 second) : first = second := by
  obtain ⟨words, spells, spelled⟩ := written_spells left
  obtain ⟨words', spells', spelled'⟩ := written_spells right
  rw [same] at spells
  obtain rfl := spells.unique spells'
  exact spelled_unique spelled spelled'

/-! ### Accepted texts -/

theorem denotes_iff {s out : List Char} : canonicalizeMoveType s = .ok out ↔
    ∃ tag, Denotes s tag ∧ out = written 0 tag.tokens := by
  rw [canonicalizeMoveType_iff]
  constructor
  · rintro ⟨words, tokens, spells, spelled, balanced, rfl⟩
    obtain ⟨tag, rfl⟩ := balanced_iff.mp balanced
    exact ⟨tag, ⟨words, spells, spelled⟩, rfl⟩
  · rintro ⟨tag, ⟨words, spells, spelled⟩, rfl⟩
    exact ⟨words, tag.tokens, spells, spelled, balanced_iff.mpr ⟨tag, rfl⟩, rfl⟩

theorem Denotes.unique {s : List Char} {t u : Tag} (left : Denotes s t) (right : Denotes s u) : t = u := by
  obtain ⟨words, spells, spelled⟩ := left
  obtain ⟨words', spells', spelled'⟩ := right
  obtain rfl := spells.unique spells'
  exact Tag.tokens_injective (spelled_unique spelled spelled')

/-- Two texts of trees have one canonical form exactly when the trees are the same. -/
theorem canonical_eq_iff {s other : List Char} {t u : Tag} (left : Denotes s t) (right : Denotes other u) :
    canonicalizeMoveType s = canonicalizeMoveType other ↔ t = u := by
  rw [denotes_iff.mpr ⟨t, left, rfl⟩, denotes_iff.mpr ⟨u, right, rfl⟩, Except.ok.injEq]
  constructor
  · intro same
    exact Tag.tokens_injective (written_inj (balanced_iff.mpr ⟨t, rfl⟩) (balanced_iff.mpr ⟨u, rfl⟩) same)
  · rintro rfl
    rfl

theorem canonical_stable {s out : List Char} (ran : canonicalizeMoveType s = .ok out) : canonicalizeMoveType out = .ok out := by
  obtain ⟨tag, -, rfl⟩ := denotes_iff.mp ran
  exact denotes_iff.mpr ⟨tag, written_spells (balanced_iff.mpr ⟨tag, rfl⟩), rfl⟩

/-- What a canonical spelling is for, at one text. -/
structure Canonical (s : List Char) : Prop where
  /-- Exactly the texts of types are accepted. -/
  accepts : (∃ out, canonicalizeMoveType s = .ok out) ↔ ∃ tag : Tag, tag.Strict ∧ Denotes s tag
  /-- The output is that of another text exactly when the two denote one type. -/
  same : ∀ other (t u : Tag), t.Strict → u.Strict → Denotes s t → Denotes other u →
    (canonicalizeMoveType s = canonicalizeMoveType other ↔ t = u)
  stable : ∀ out, canonicalizeMoveType s = .ok out → canonicalizeMoveType out = .ok out

/-- A text is treated as it should be unless one list of arguments in it stands behind another. -/
theorem canonical_iff (s : List Char) : Canonical s ↔ ¬ ∃ tag : Tag, Denotes s tag ∧ ¬ tag.Strict := by
  constructor
  · rintro canonical ⟨tag, denotes, loose⟩
    obtain ⟨other, strict, also⟩ := canonical.accepts.mp ⟨_, denotes_iff.mpr ⟨tag, denotes, rfl⟩⟩
    rw [denotes.unique also] at loose
    exact loose strict
  · intro single
    refine ⟨?_, fun other t u _ _ left right => canonical_eq_iff left right, fun out => canonical_stable⟩
    constructor
    · rintro ⟨out, ran⟩
      obtain ⟨tag, denotes, -⟩ := denotes_iff.mp ran
      exact ⟨tag, not_not.mp fun loose => single ⟨tag, denotes, loose⟩, denotes⟩
    · rintro ⟨tag, -, denotes⟩
      exact ⟨_, denotes_iff.mpr ⟨tag, denotes, rfl⟩⟩

namespace Doubled

theorem letters {text : List Char} (known : text.all (fun c => charKind c = .letter) = true) :
    ∀ c ∈ text, Letter charKind c :=
  fun c member => show charKind c = .letter from of_decide_eq_true (List.all_eq_true.mp known c member)

def first : Path := ⟨2, ['m'], ['A'], letters (by decide), by simp, by decide⟩

def second : Path := ⟨2, ['m'], ['B'], letters (by decide), by simp, by decide⟩

def third : Path := ⟨2, ['m'], ['C'], letters (by decide), by simp, by decide⟩

def tag : Tag := .node first (.more (.node second .none) .last (.more (.node third .none) .last .none))

def text : List Char := "0x2::m::A<0x2::m::B><0x2::m::C>".toList

theorem spelling {path : Path} (address : path.address = 2) :
    path.Spelling (['0', 'x', '2', ':', ':'] ++ (path.module ++ colons ++ path.name)) := by
  refine ⟨['0', 'x'], ['2'], Or.inr rfl, by simp, by decide, by decide, ?_, rfl⟩
  rw [address]
  rfl

theorem denotes_tag : Denotes text tag := by
  have words : lex charKind [] text = [.word "0x2::m::A".toList, .mark .opens, .word "0x2::m::B".toList, .mark .closes,
      .mark .opens, .word "0x2::m::C".toList, .mark .closes] := by decide +kernel
  refine ⟨_, spells_iff.mpr words, ?_⟩
  have one : SpellsToken (.word first) (.word "0x2::m::A".toList) := .word (spelling rfl)
  have two : SpellsToken (.word second) (.word "0x2::m::B".toList) := .word (spelling rfl)
  have three : SpellsToken (.word third) (.word "0x2::m::C".toList) := .word (spelling rfl)
  exact .cons one (.cons (.mark _) (.cons two (.cons (.mark _) (.cons (.mark _) (.cons three (.cons (.mark _) .nil))))))

/-- A text that is no type is accepted. -/
theorem second_list_accepted : ¬ Canonical text := by
  intro canonical
  obtain ⟨other, strict, denotes⟩ := canonical.accepts.mp ⟨_, denotes_iff.mpr ⟨tag, denotes_tag, rfl⟩⟩
  rw [← denotes_tag.unique denotes] at strict
  obtain ⟨-, -, last⟩ := strict
  cases last

end Doubled

end SuiOptions.Exchange
