import SuiOptions.Lib.Text

/-! Types of the Move virtual machine and their canonical names.

`std::type_name::with_defining_ids` renders a datatype as
`address::module::name<argument,argument>`: the address in 64 hexadecimal digits,
no blanks. Different types have different names.
-/

set_option autoImplicit false

namespace SuiOptions.Move

open Text

def identifierChar (c : Char) : Bool := c.isAlphanum || c = '_'

structure Identifier where
  text : List Char
  valid : text.all identifierChar = true
  deriving DecidableEq

theorem Identifier.mem (name : Identifier) : ∀ c ∈ name.text, identifierChar c = true := List.all_eq_true.mp name.valid

inductive Primitive where
  | bool | u8 | u16 | u32 | u64 | u128 | u256 | address | signer
  deriving DecidableEq, Repr

def Primitive.text : Primitive → List Char
  | .bool => ['b', 'o', 'o', 'l']
  | .u8 => ['u', '8']
  | .u16 => ['u', '1', '6']
  | .u32 => ['u', '3', '2']
  | .u64 => ['u', '6', '4']
  | .u128 => ['u', '1', '2', '8']
  | .u256 => ['u', '2', '5', '6']
  | .address => ['a', 'd', 'd', 'r', 'e', 's', 's']
  | .signer => ['s', 'i', 'g', 'n', 'e', 'r']

inductive MoveType where
  | primitive (which : Primitive)
  | vector (element : MoveType)
  | datatype (package : BitVec 256) (module name : Identifier) (arguments : List MoveType)

abbrev TypeName := List Char

def hexDigits : List Char := ['0', '1', '2', '3', '4', '5', '6', '7', '8', '9', 'a', 'b', 'c', 'd', 'e', 'f']

def lowerHex (digit : Nat) : Char := hexDigits.getD digit '0'

def addressText (package : BitVec 256) : List Char := numeral 16 lowerHex 64 package.toNat

def vectorText : List Char := ['v', 'e', 'c', 't', 'o', 'r']

/-- `address::module::name` -/
def pathText (package : BitVec 256) (module name : Identifier) : List Char :=
  addressText package ++ [':', ':'] ++ module.text ++ [':', ':'] ++ name.text

mutual

/-- `type_name::with_defining_ids` -/
def typeName : MoveType → TypeName
  | .primitive which => which.text
  | .vector element => vectorText ++ '<' :: (typeName element ++ ['>'])
  | .datatype package module name arguments => pathText package module name ++ argumentText arguments

def argumentText : List MoveType → List Char
  | [] => []
  | first :: rest => '<' :: (typeName first ++ restText rest)

def restText : List MoveType → List Char
  | [] => ['>']
  | next :: rest => ',' :: (typeName next ++ restText rest)

end

theorem lowerHex_identifier : ∀ d < 16, identifierChar (lowerHex d) = true := by decide

theorem addressText_mem (package : BitVec 256) : ∀ c ∈ addressText package, identifierChar c = true := by
  intro c member
  obtain ⟨d, small, rfl⟩ := mem_numeral (by decide) member
  exact lowerHex_identifier d small

theorem addressText_injective : Function.Injective addressText := by
  intro first second same
  have distinct : ∀ a < 16, ∀ b < 16, lowerHex a = lowerHex b → a = b := by decide
  exact BitVec.eq_of_toNat_eq (numeral_inj distinct first.isLt second.isLt same)

theorem Primitive.text_mem (which : Primitive) : ∀ c ∈ which.text, identifierChar c = true := by
  cases which <;> exact List.all_eq_true.mp (by decide)

theorem Primitive.text_injective : Function.Injective Primitive.text := by
  intro first second same
  cases first <;> cases second <;> first | rfl | exact absurd same (by decide)

/-- What follows a type: the end, the next argument or the end of the arguments. -/
def Stops (text : List Char) : Prop := ∀ c, text.head? = some c → c = ',' ∨ c = '>'

theorem Stops.ends {text : List Char} (stops : Stops text) : Ends (identifierChar · = true) text := by
  intro c head identifier
  rcases stops c head with rfl | rfl <;> exact absurd identifier (by decide)

theorem restText_stops (arguments : List MoveType) (text : List Char) : Stops (restText arguments ++ text) := by
  intro c head
  cases arguments with
  | nil => exact Or.inr (by simpa [restText] using head.symm)
  | cons next rest => exact Or.inl (by simpa [restText] using head.symm)

def firstWord : MoveType → List Char
  | .primitive which => which.text
  | .vector _ => vectorText
  | .datatype package _ _ _ => addressText package

def afterWord : MoveType → List Char
  | .primitive _ => []
  | .vector element => '<' :: (typeName element ++ ['>'])
  | .datatype _ module name arguments => [':', ':'] ++ (module.text ++ ([':', ':'] ++ (name.text ++ argumentText arguments)))

theorem typeName_eq (t : MoveType) : typeName t = firstWord t ++ afterWord t := by
  cases t with
  | primitive which => simp [typeName, firstWord, afterWord]
  | vector element => simp [typeName, firstWord, afterWord]
  | datatype package module name arguments => simp [typeName, firstWord, afterWord, pathText]

theorem firstWord_mem (t : MoveType) : ∀ c ∈ firstWord t, identifierChar c = true := by
  cases t with
  | primitive which => exact which.text_mem
  | vector element =>
    have word : ∀ c ∈ vectorText, identifierChar c = true :=
      List.all_eq_true.mp (by decide)
    exact word
  | datatype package module name arguments => exact addressText_mem package

theorem afterWord_ends (t : MoveType) {x : List Char} (stops : Stops x) :
    Ends (identifierChar · = true) (afterWord t ++ x) := by
  cases t with
  | primitive which => exact stops.ends
  | vector element => exact Ends.cons (by decide) _
  | datatype package module name arguments => exact Ends.cons (by decide) _

theorem argumentText_ends (arguments : List MoveType) {x : List Char} (stops : Stops x) :
    Ends (identifierChar · = true) (argumentText arguments ++ x) := by
  cases arguments with
  | nil => exact stops.ends
  | cons first rest => exact Ends.cons (by decide) _

theorem not_stops {c : Char} {x : List Char} (other : c ≠ ',' ∧ c ≠ '>') : ¬ Stops (c :: x) := by
  intro stops
  rcases stops c rfl with same | same
  · exact other.1 same
  · exact other.2 same

/-- The symbol between the first word and the rest of a name tells the kind of type. -/
def mark : MoveType → Option Char
  | .primitive _ => none
  | .vector _ => some '<'
  | .datatype .. => some ':'

theorem afterWord_head {t : MoveType} {c : Char} (marked : mark t = some c) : ∃ tail, afterWord t = c :: tail := by
  cases t with
  | primitive which => cases marked
  | vector element =>
    cases marked
    exact ⟨_, rfl⟩
  | datatype package module name arguments =>
    cases marked
    exact ⟨_, rfl⟩

theorem mark_separates {t : MoveType} {c : Char} (marked : mark t = some c) : c ≠ ',' ∧ c ≠ '>' := by
  cases t with
  | primitive which => cases marked
  | vector element =>
    cases marked
    decide
  | datatype package module name arguments =>
    cases marked
    decide

theorem stops_close (x : List Char) : Stops ('>' :: x) := by
  rintro _ ⟨⟩
  exact Or.inr rfl

theorem path_cancel {module other : Identifier} {name otherName : Identifier} {x y : List Char}
    (left : Ends (identifierChar · = true) x) (right : Ends (identifierChar · = true) y)
    (same : [':', ':'] ++ (module.text ++ ([':', ':'] ++ (name.text ++ x))) =
      [':', ':'] ++ (other.text ++ ([':', ':'] ++ (otherName.text ++ y)))) :
    module = other ∧ name = otherName ∧ x = y := by
  have colon : ∀ text, Ends (identifierChar · = true) ([':', ':'] ++ text) := fun text => Ends.cons (by decide) _
  obtain ⟨modules, rests⟩ := word_cancel module.mem other.mem (colon _) (colon _) (List.append_cancel_left same)
  obtain ⟨names, ends⟩ := word_cancel name.mem otherName.mem left right (List.append_cancel_left rests)
  cases module
  cases other
  cases name
  cases otherName
  simp only at modules names
  subst modules names
  exact ⟨rfl, rfl, ends⟩

theorem mark_eq {t u : MoveType} {x y : List Char} (left : Stops x) (right : Stops y)
    (same : afterWord t ++ x = afterWord u ++ y) : mark t = mark u := by
  have bare : ∀ {t : MoveType}, mark t = none → afterWord t = [] := by
    intro t unmarked
    cases t with
    | primitive which => rfl
    | vector element => cases unmarked
    | datatype package module name arguments => cases unmarked
  cases first : mark t with
  | none =>
    cases second : mark u with
    | none => rfl
    | some c =>
      obtain ⟨tail, head⟩ := afterWord_head second
      rw [bare first, head, List.nil_append] at same
      exact absurd (same ▸ left) (not_stops (mark_separates second))
  | some c =>
    obtain ⟨tail, head⟩ := afterWord_head first
    cases second : mark u with
    | none =>
      rw [bare second, head, List.nil_append] at same
      exact absurd (same ▸ right) (not_stops (mark_separates first))
    | some d =>
      obtain ⟨other, otherHead⟩ := afterWord_head second
      rw [head, otherHead] at same
      exact congrArg some (List.cons.inj same).1

mutual

theorem typeName_cancel (t u : MoveType) {x y : List Char} (left : Stops x) (right : Stops y)
    (same : typeName t ++ x = typeName u ++ y) : t = u ∧ x = y := by
  rw [typeName_eq, typeName_eq, List.append_assoc, List.append_assoc] at same
  obtain ⟨words, rests⟩ := word_cancel (firstWord_mem t) (firstWord_mem u) (afterWord_ends t left)
    (afterWord_ends u right) same
  have kinds := mark_eq left right rests
  cases t with
  | primitive first =>
    cases u with
    | primitive second =>
      obtain rfl := Primitive.text_injective words
      exact ⟨rfl, rests⟩
    | vector element => cases kinds
    | datatype package module name arguments => cases kinds
  | vector first =>
    cases u with
    | primitive second => cases kinds
    | vector second =>
      simp only [afterWord, List.cons_append, List.append_assoc, List.cons.injEq, true_and] at rests
      obtain ⟨rfl, ends⟩ := typeName_cancel first second (stops_close x) (stops_close y) rests
      exact ⟨rfl, (List.cons.inj ends).2⟩
    | datatype package module name arguments => simp [mark] at kinds
  | datatype package module name arguments =>
    cases u with
    | primitive second => cases kinds
    | vector element => simp [mark] at kinds
    | datatype otherPackage otherModule otherName others =>
      obtain rfl := addressText_injective words
      simp only [afterWord, List.append_assoc] at rests
      obtain ⟨rfl, rfl, tails⟩ := path_cancel (argumentText_ends arguments left) (argumentText_ends others right) rests
      obtain ⟨rfl, ends⟩ := argumentText_cancel arguments others left right tails
      exact ⟨rfl, ends⟩

theorem argumentText_cancel (ts us : List MoveType) {x y : List Char} (left : Stops x) (right : Stops y)
    (same : argumentText ts ++ x = argumentText us ++ y) : ts = us ∧ x = y := by
  cases ts with
  | nil =>
    cases us with
    | nil => exact ⟨rfl, same⟩
    | cons second us =>
      have opened : x = '<' :: (typeName second ++ restText us ++ y) := same
      rw [opened] at left
      exact absurd left (not_stops (by decide))
  | cons first ts =>
    cases us with
    | nil =>
      have opened : '<' :: (typeName first ++ restText ts ++ x) = y := same
      rw [← opened] at right
      exact absurd right (not_stops (by decide))
    | cons second us =>
      simp only [argumentText, List.cons_append, List.append_assoc, List.cons.injEq, true_and] at same
      obtain ⟨rfl, rests⟩ := typeName_cancel first second (restText_stops ts x) (restText_stops us y) same
      obtain ⟨rfl, ends⟩ := restText_cancel ts us rests
      exact ⟨rfl, ends⟩

theorem restText_cancel (ts us : List MoveType) {x y : List Char} (same : restText ts ++ x = restText us ++ y) :
    ts = us ∧ x = y := by
  cases ts with
  | nil =>
    cases us with
    | nil => exact ⟨rfl, (List.cons.inj same).2⟩
    | cons second us => exact absurd (List.cons.inj same).1 (by decide)
  | cons first ts =>
    cases us with
    | nil => exact absurd (List.cons.inj same).1 (by decide)
    | cons second us =>
      simp only [restText, List.cons_append, List.append_assoc, List.cons.injEq, true_and] at same
      obtain ⟨rfl, rests⟩ := typeName_cancel first second (restText_stops ts x) (restText_stops us y) same
      obtain ⟨rfl, ends⟩ := restText_cancel ts us rests
      exact ⟨rfl, ends⟩

end

theorem typeName_injective : Function.Injective typeName := by
  intro t u same
  have stops : Stops [] := nofun
  exact (typeName_cancel t u stops stops (by rw [same])).1

end SuiOptions.Move
