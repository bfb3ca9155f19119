import SuiOptions.Core.OptionCoin
import SuiOptions.Lib.Execution
import SuiOptions.ProtocolTypes.ChainForm

/-! A bucket's economics off the chain: `bucket_spec.rs`.

The option coin's type is written from a spec, and a spec read from any text. Reading
panics where the depth of the brackets would fall below zero, as arithmetic with overflow
checks does.
-/

set_option autoImplicit false

namespace SuiOptions.ProtocolTypes

open Execution Move Text Tokens
open Exchange (isAsciiHexdigit splitPath colons hexValue)
open SuiOptions.Core (maxSig stripZeros upperHex)

structure BucketSpec where
  /-- The underlying's type in chain form. -/
  asset : List Char
  /-- The settlement's type in chain form. -/
  settlement : List Char
  expiryMs : Nat
  sig : Nat
  exp : Nat
  isPut : Bool
  deriving DecidableEq, Repr

inductive SpecError where
  | zeroStrike
  | strikeNotRepresentable
  | expiryNotAligned
  | expiryOutOfRange
  deriving DecidableEq, Repr

def minuteMs : Nat := 60000

/-- `normalize_strike`; its loop is the contract's. -/
def normalizeStrike (strike strikeScale : Nat) : Except SpecError (Nat × Nat) :=
  if strike = 0 then .error .zeroStrike
  else if maxSig < (stripZeros strike strikeScale).1 then .error .strikeNotRepresentable
  else .ok (stripZeros strike strikeScale)

namespace BucketSpec

def new (asset settlement : List Char) (expiryMs strike strikeScale : Nat) (isPut : Bool) : Except SpecError BucketSpec := do
  let (sig, exp) ← normalizeStrike strike strikeScale
  pure
    { asset := chainFormMoveType asset
      settlement := chainFormMoveType settlement
      expiryMs, sig, exp, isPut }

def expiryMinutes (spec : BucketSpec) : Except SpecError Nat :=
  if spec.expiryMs % minuteMs ≠ 0 then .error .expiryNotAligned
  else if 2 ^ 32 ≤ spec.expiryMs / minuteMs then .error .expiryOutOfRange
  else .ok (spec.expiryMs / minuteMs)

end BucketSpec

/-! ### Writing -/

/-- `to_be_bytes` of an integer of so many bytes -/
def toBeBytes (width number : Nat) : List Nat := numeral 256 id width number

def packageText (package : List Char) : Option (List Char) :=
  (splitPath (canonicalizeMoveType (package ++ [':', ':', 'x', ':', ':', 'X']))).map Prod.fst

/-- `{pkg}::{module}::B{b:02X}` -/
def markerText (pkg : List Char) (byte : Nat) : List Char :=
  pkg ++ (colons ++ ((if byte < 0x80 then ['e', 'n', 'c', '0'] else ['e', 'n', 'c', '1']) ++
    (colons ++ ['B', upperHex (byte / 16), upperHex (byte % 16)])))

def rootText : Bool → List Char
  | false => ['O', 'p', 't', 'i', 'o', 'n', 'C', 'a', 'l', 'l']
  | true => ['O', 'p', 't', 'i', 'o', 'n', 'P', 'u', 't']

/-- `{pkg}::option_coin::` -/
def modulePrefix (pkg : List Char) : List Char :=
  pkg ++ (colons ++ (['o', 'p', 't', 'i', 'o', 'n', '_', 'c', 'o', 'i', 'n'] ++ colons))

def commas (parts : List (List Char)) : List Char := List.intercalate [','] parts

def optionCoinType (package : List Char) (spec : BucketSpec) : Except SpecError (List Char) := do
  let minutes ← spec.expiryMinutes
  require (spec.sig ≤ maxSig) .strikeNotRepresentable
  let pkg := (packageText package).getD package
  let bytes := toBeBytes 4 minutes ++ (toBeBytes 8 spec.sig).drop 3 ++ [spec.exp]
  let markers := bytes.map (markerText pkg)
  pure (modulePrefix pkg ++ (rootText spec.isPut ++ '<' ::
    (commas (canonicalizeMoveType spec.asset :: canonicalizeMoveType spec.settlement :: markers) ++ ['>'])))

/-! ### Reading -/

inductive Panic where
  | overflow
  deriving DecidableEq, Repr

structure Split where
  depth : Nat
  cur : List Char
  parts : List (List Char)
  deriving DecidableEq

def Split.step (split : Split) (c : Char) : Except Panic Split :=
  if c = '<' then .ok { split with depth := split.depth + 1, cur := split.cur ++ [c] }
  else if c = '>' then
    if split.depth = 0 then .error .overflow
    else .ok { split with depth := split.depth - 1, cur := split.cur ++ [c] }
  else if c = ',' ∧ split.depth = 0 then .ok { split with cur := [], parts := split.parts ++ [split.cur] }
  else .ok { split with cur := split.cur ++ [c] }

def splitArgs (args : List Char) : Except Panic (List (List Char)) := do
  let split ← exec Split.step ⟨0, [], []⟩ args
  pure (split.parts ++ [split.cur])

/-- `rsplit("::").next()`: what stands behind the last `::`. -/
def lastSegment (s : List Char) : List Char :=
  match splitPath s.reverse with
  | none => s
  | some (front, _) => front.reverse

/-- `u8::from_str_radix(hex, 16)`, which takes a sign `+` and any number of digits. -/
def u8FromHex (hex : List Char) : Option Nat :=
  let digits := if hex.head? = some '+' then hex.tail else hex
  if digits ≠ [] ∧ digits.all isAsciiHexdigit ∧ hexValue digits < 256 then some (hexValue digits) else none

def stripPrefix (front s : List Char) : Option (List Char) := if front <+: s then some (s.drop front.length) else none

def readMarker (marker : List Char) : Option Nat := do
  let hex ← stripPrefix ['B'] (lastSegment marker)
  u8FromHex hex

/-- `strip_suffix` of a character -/
def stripSuffix (last : Char) (s : List Char) : Option (List Char) := if s.getLast? = some last then some s.dropLast else none

/-- `split_once` at a character -/
def splitOnce (mark : Char) : List Char → Option (List Char × List Char)
  | [] => none
  | c :: rest =>
    if c = mark then some ([], rest)
    else (splitOnce mark rest).map fun parts => (c :: parts.1, parts.2)

def readRoot (pkg root : List Char) : Option Bool := do
  let name ← stripPrefix (modulePrefix pkg) root
  if name = rootText false then some false
  else if name = rootText true then some true
  else none

def readParts (isPut : Bool) : List (List Char) → Option BucketSpec
  | asset :: settlement :: markers => do
    guard (markers.length = 10)
    let bytes ← markers.mapM readMarker
    pure
      { asset := chainFormMoveType asset
        settlement := chainFormMoveType settlement
        expiryMs := value 256 (bytes.take 4) * minuteMs
        sig := value 256 ((bytes.drop 4).take 5)
        exp := value 256 (bytes.drop 9)
        isPut }
  | _ => none

def decodeOptionCoinType (package coinType : List Char) : Except Panic (Option BucketSpec) :=
  let found := do
    let pkg ← packageText package
    let body ← stripSuffix '>' (canonicalizeMoveType coinType)
    let (root, args) ← splitOnce '<' body
    let isPut ← readRoot pkg root
    pure (isPut, args)
  match found with
  | none => .ok none
  | some (isPut, args) => do
    let parts ← splitArgs args
    pure (readParts isPut parts)

end SuiOptions.ProtocolTypes
