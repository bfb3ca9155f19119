import SuiOptions.ProtocolTypes.BucketSpec

/-! How a text is taken apart: its root, its arguments and their markers. -/

set_option autoImplicit false

namespace SuiOptions.ProtocolTypes

open Execution Move Text Tokens
open Exchange (Mark charKind isAsciiHexdigit splitPath colons hexValue)
open SuiOptions.Core (upperHex)

/-! ### Brackets -/

def brackets (s : List Char) : List Mark :=
  s.filterMap fun c => match charKind c with
    | .mark which => some which
    | _ => none

/-- The depth behind some marks, of which no comma stands at depth zero. -/
def level : Nat → List Mark → Option Nat
  | depth, [] => some depth
  | depth, .opens :: rest => level (depth + 1) rest
  | depth, .closes :: rest => if depth = 0 then none else level (depth - 1) rest
  | depth, .comma :: rest => if depth = 0 then none else level depth rest

def Closed (s : List Char) : Prop := level 0 (brackets s) = some 0

@[simp] theorem brackets_append (first second : List Char) : brackets (first ++ second) = brackets first ++ brackets second :=
  List.filterMap_append ..

theorem level_append (depth : Nat) (first second : List Mark) :
    level depth (first ++ second) = (level depth first).bind fun deep => level deep second := by
  induction first generalizing depth with
  | nil => rfl
  | cons which rest ih =>
    cases which with
    | opens => exact ih (depth + 1)
    | closes =>
      simp only [List.cons_append, level]
      split
      · rfl
      · exact ih (depth - 1)
    | comma =>
      simp only [List.cons_append, level]
      split
      · rfl
      · exact ih depth

theorem step_cases (split : Split) (c : Char) :
    (c = '<' ∧ Split.step split c = .ok { split with depth := split.depth + 1, cur := split.cur ++ [c] }) ∨
    (c = '>' ∧ split.depth = 0 ∧ Split.step split c = .error .overflow) ∨
    (c = '>' ∧ split.depth ≠ 0 ∧ Split.step split c = .ok { split with depth := split.depth - 1, cur := split.cur ++ [c] }) ∨
    (c = ',' ∧ split.depth = 0 ∧ Split.step split c = .ok { split with cur := [], parts := split.parts ++ [split.cur] }) ∨
    (c = ',' ∧ split.depth ≠ 0 ∧ Split.step split c = .ok { split with cur := split.cur ++ [c] }) ∨
    (c ≠ '<' ∧ c ≠ '>' ∧ c ≠ ',' ∧ Split.step split c = .ok { split with cur := split.cur ++ [c] }) := by
  by_cases opens : c = '<'
  · exact Or.inl ⟨opens, by simp [Split.step, opens]⟩
  by_cases closes : c = '>'
  · by_cases flat : split.depth = 0
    · exact Or.inr (Or.inl ⟨closes, flat, by simp [Split.step, closes, flat]⟩)
    · exact Or.inr (Or.inr (Or.inl ⟨closes, flat, by simp [Split.step, closes, flat]⟩))
  by_cases comma : c = ','
  · by_cases flat : split.depth = 0
    · exact Or.inr (Or.inr (Or.inr (Or.inl ⟨comma, flat, by simp [Split.step, comma, flat]⟩)))
    · exact Or.inr (Or.inr (Or.inr (Or.inr (Or.inl ⟨comma, flat, by simp [Split.step, comma, flat]⟩))))
  · exact Or.inr (Or.inr (Or.inr (Or.inr (Or.inr ⟨opens, closes, comma, by simp [Split.step, opens, closes, comma]⟩))))

theorem brackets_opens : brackets ['<'] = [.opens] := by decide

theorem brackets_closes : brackets ['>'] = [.closes] := by decide

theorem brackets_comma : brackets [','] = [.comma] := by decide

theorem brackets_other {c : Char} (opens : c ≠ '<') (closes : c ≠ '>') (comma : c ≠ ',') : brackets [c] = [] := by
  unfold brackets charKind
  simp only [if_neg opens, if_neg closes, if_neg comma, List.filterMap_cons, List.filterMap_nil]
  cases Exchange.isWhitespace c <;> rfl

theorem exec_level {s : List Char} {depth deep : Nat} (known : level depth (brackets s) = some deep) (cur : List Char)
    (parts : List (List Char)) : exec Split.step ⟨depth, cur, parts⟩ s = .ok ⟨deep, cur ++ s, parts⟩ := by
  induction s generalizing depth cur with
  | nil =>
    cases known
    simp
  | cons c rest ih =>
    rw [← List.singleton_append, brackets_append, level_append] at known
    rw [exec_cons_ok]
    have shift : cur ++ c :: rest = cur ++ [c] ++ rest := by simp
    rw [shift]
    rcases step_cases ⟨depth, cur, parts⟩ c with ⟨rfl, stepped⟩ | ⟨rfl, flat, -⟩ | ⟨rfl, deeper, stepped⟩ | ⟨rfl, flat, -⟩ |
      ⟨rfl, deeper, stepped⟩ | ⟨opens, closes, comma, stepped⟩
    · rw [brackets_opens] at known
      exact ⟨_, stepped, ih known _⟩
    · rw [brackets_closes, level, if_pos flat] at known
      cases known
    · rw [brackets_closes, level, if_neg deeper] at known
      exact ⟨_, stepped, ih known _⟩
    · rw [brackets_comma, level, if_pos flat] at known
      cases known
    · rw [brackets_comma, level, if_neg deeper] at known
      exact ⟨_, stepped, ih known _⟩
    · rw [brackets_other opens closes comma] at known
      exact ⟨_, stepped, ih known _⟩

/-! ### Arguments -/

def joined (parts : List (List Char)) (cur : List Char) : List Char := parts.flatMap (· ++ [',']) ++ cur

theorem commas_joined (front : List (List Char)) (last : List Char) : commas (front ++ [last]) = joined front last := by
  induction front with
  | nil => simp [commas, joined]
  | cons first rest ih =>
    have more : commas (first :: (rest ++ [last])) = first ++ [','] ++ commas (rest ++ [last]) := by
      cases rest <;> simp [commas, List.intercalate]
    rw [List.cons_append, more, ih]
    simp [joined]

structure Reads (args : List Char) (split : Split) : Prop where
  text : args = joined split.parts split.cur
  closed : ∀ part ∈ split.parts, Closed part
  depth : level 0 (brackets split.cur) = some split.depth

theorem Reads.step {args : List Char} {split next : Split} {c : Char} (reads : Reads args split)
    (stepped : Split.step split c = .ok next) : Reads (args ++ [c]) next := by
  have grown : args ++ [c] = joined split.parts (split.cur ++ [c]) := by
    rw [reads.text, joined, joined, List.append_assoc]
  have deeper : ∀ {marks : List Mark}, brackets [c] = marks →
      level 0 (brackets (split.cur ++ [c])) = level split.depth marks := by
    rintro _ rfl
    rw [brackets_append, level_append, reads.depth]
    rfl
  rcases step_cases split c with ⟨rfl, known⟩ | ⟨rfl, flat, known⟩ | ⟨rfl, deep, known⟩ | ⟨rfl, flat, known⟩ |
    ⟨rfl, deep, known⟩ | ⟨opens, closes, comma, known⟩
  · cases known.symm.trans stepped
    exact ⟨grown, reads.closed, by rw [deeper brackets_opens, level, level]⟩
  · cases known.symm.trans stepped
  · cases known.symm.trans stepped
    exact ⟨grown, reads.closed, by rw [deeper brackets_closes, level, if_neg deep, level]⟩
  · cases known.symm.trans stepped
    refine ⟨?_, fun part member => ?_, by rw [flat]; rfl⟩
    · rw [reads.text]
      simp [joined]
    · rcases List.mem_append.mp member with old | new
      · exact reads.closed part old
      · rw [List.mem_singleton.mp new, Closed, reads.depth, flat]
  · cases known.symm.trans stepped
    exact ⟨grown, reads.closed, by rw [deeper brackets_comma, level, if_neg deep, level]⟩
  · cases known.symm.trans stepped
    exact ⟨grown, reads.closed, by rw [deeper (brackets_other opens closes comma), level]⟩

theorem reads_of_exec {args : List Char} {split : Split} (ran : exec Split.step ⟨0, [], []⟩ args = .ok split) :
    Reads args split := by
  induction args using List.reverseRecOn generalizing split with
  | nil =>
    cases ran
    exact ⟨rfl, nofun, rfl⟩
  | append_singleton args c ih =>
    obtain ⟨middle, before, after⟩ := (exec_append_ok _).mp ran
    obtain ⟨next, stepped, ended⟩ := (exec_cons_ok _).mp after
    cases ended
    exact (ih before).step stepped

theorem splitArgs_ok {args : List Char} {parts : List (List Char)} (ran : splitArgs args = .ok parts) :
    ∃ front last, parts = front ++ [last] ∧ args = commas parts ∧ (∀ part ∈ front, Closed part) ∧
      ∃ depth, level 0 (brackets last) = some depth := by
  obtain ⟨split, looped, ran⟩ := bind_ok.mp ran
  cases pure_ok.mp ran
  have reads := reads_of_exec looped
  exact ⟨split.parts, split.cur, rfl, by rw [commas_joined, reads.text], reads.closed, split.depth, reads.depth⟩

theorem exec_joined {front : List (List Char)} (closed : ∀ part ∈ front, Closed part) (parts : List (List Char)) :
    exec Split.step ⟨0, [], parts⟩ (front.flatMap (· ++ [','])) = .ok ⟨0, [], parts ++ front⟩ := by
  induction front generalizing parts with
  | nil => simp
  | cons first rest ih =>
    have inside := exec_level (closed first List.mem_cons_self) [] parts
    have comma : exec Split.step ⟨0, first, parts⟩ [','] = .ok ⟨0, [], parts ++ [first]⟩ := by
      rw [exec_cons_ok]
      exact ⟨_, by simp [Split.step], rfl⟩
    have later := ih (fun part member => closed part (List.mem_cons_of_mem _ member)) (parts ++ [first])
    rw [List.flatMap_cons, exec_append_ok]
    refine ⟨⟨0, [], parts ++ [first]⟩, ?_, by rw [later, List.append_assoc, List.singleton_append]⟩
    rw [exec_append_ok]
    exact ⟨_, inside, comma⟩

theorem splitArgs_commas {front : List (List Char)} {last : List Char} {depth : Nat} (closed : ∀ part ∈ front, Closed part)
    (ends : level 0 (brackets last) = some depth) : splitArgs (commas (front ++ [last])) = .ok (front ++ [last]) := by
  rw [commas_joined, joined, splitArgs, bind_ok]
  refine ⟨⟨depth, last, front⟩, ?_, rfl⟩
  rw [exec_append_ok]
  exact ⟨_, exec_joined closed [], exec_level ends [] front⟩

def NoLooseClose (depth : Nat) (args : List Char) : Prop :=
  ∀ front rest, args = front ++ '>' :: rest → front.count '>' < depth + front.count '<'

theorem noLooseClose_cons {depth : Nat} {c : Char} {args : List Char} : NoLooseClose depth (c :: args) ↔
    (c = '>' → 0 < depth) ∧ ∀ front rest, args = front ++ '>' :: rest →
      (c :: front).count '>' < depth + (c :: front).count '<' := by
  constructor
  · intro known
    refine ⟨?_, fun front rest same => known (c :: front) rest (by rw [same]; rfl)⟩
    rintro rfl
    exact known [] args rfl
  · rintro ⟨first, later⟩ front rest same
    cases front with
    | nil =>
      cases same
      exact first rfl
    | cons d front =>
      rw [List.cons_append, List.cons.injEq] at same
      obtain ⟨rfl, same⟩ := same
      exact later front rest same

/-- The loop panics exactly at a `>` that closes nothing. -/
theorem exec_ok_iff {args : List Char} {split : Split} :
    (∃ final, exec Split.step split args = .ok final) ↔ NoLooseClose split.depth args := by
  induction args generalizing split with
  | nil => simp [NoLooseClose]
  | cons c rest ih =>
    have moved : ∀ {next : Split}, Split.step split c = .ok next →
        ((∃ final, exec Split.step split (c :: rest) = .ok final) ↔ NoLooseClose next.depth rest) := by
      intro next stepped
      rw [← ih]
      simp only [exec_cons_ok, stepped, Except.ok.injEq, exists_eq_left']
    rw [noLooseClose_cons]
    rcases step_cases split c with ⟨rfl, known⟩ | ⟨rfl, flat, known⟩ | ⟨rfl, deep, known⟩ | ⟨rfl, flat, known⟩ |
      ⟨rfl, deep, known⟩ | ⟨opens, closes, comma, known⟩
    · rw [moved known]
      simp [NoLooseClose, Nat.add_assoc, Nat.add_comm 1]
    · simp [exec_cons_ok, known, flat]
    · rw [moved known]
      have shift : ∀ front : List Char, (front.count '>' < split.depth - 1 + front.count '<') ↔
          ('>' :: front).count '>' < split.depth + ('>' :: front).count '<' := by
        intro front
        rw [List.count_cons_self, List.count_cons_of_ne (by decide)]
        omega
      simp only [NoLooseClose, shift]
      exact (and_iff_right fun _ => Nat.pos_of_ne_zero deep).symm
    · rw [moved known]
      simp [NoLooseClose]
    · rw [moved known]
      simp [NoLooseClose]
    · rw [moved known]
      simp [NoLooseClose, List.count_cons_of_ne opens, List.count_cons_of_ne closes, closes]

theorem splitArgs_ok_iff {args : List Char} : (∃ parts, splitArgs args = .ok parts) ↔ NoLooseClose 0 args := by
  rw [← @exec_ok_iff args ⟨0, [], []⟩]
  constructor
  · rintro ⟨parts, ran⟩
    obtain ⟨split, looped, -⟩ := bind_ok.mp ran
    exact ⟨split, looped⟩
  · rintro ⟨split, looped⟩
    exact ⟨_, bind_ok.mpr ⟨split, looped, rfl⟩⟩

/-! ### The root -/

def shape (pkg : List Char) (isPut : Bool) (args : List Char) : List Char :=
  modulePrefix pkg ++ (rootText isPut ++ '<' :: (args ++ ['>']))

theorem splitOnce_iff {mark : Char} {s front rest : List Char} :
    splitOnce mark s = some (front, rest) ↔ s = front ++ mark :: rest ∧ mark ∉ front := by
  induction s generalizing front with
  | nil => simp [splitOnce]
  | cons c s ih =>
    rw [splitOnce]
    split
    · rename_i here
      subst here
      cases front with
      | nil => simp
      | cons d front =>
        simp only [Option.some.injEq, Prod.mk.injEq, List.cons_append, List.cons.injEq, List.mem_cons, not_or]
        exact iff_of_false (fun same => absurd same.1 nofun) fun known => known.2.1 known.1.1
    · rename_i other
      cases front with
      | nil => simp [other]
      | cons d front =>
        simp only [Option.map_eq_some_iff, Prod.mk.injEq, List.cons.injEq, Prod.exists, List.cons_append, List.mem_cons, not_or]
        constructor
        · rintro ⟨first, second, found, ⟨rfl, rfl⟩, rfl⟩
          obtain ⟨rfl, bare⟩ := ih.mp found
          exact ⟨⟨rfl, rfl⟩, fun same => other same.symm, bare⟩
        · rintro ⟨⟨rfl, rfl⟩, -, bare⟩
          exact ⟨front, rest, ih.mpr ⟨rfl, bare⟩, ⟨rfl, rfl⟩, rfl⟩

theorem stripSuffix_iff {last : Char} {s body : List Char} : stripSuffix last s = some body ↔ s = body ++ [last] := by
  unfold stripSuffix
  split
  · rename_i ends
    obtain ⟨front, rfl⟩ := List.getLast?_eq_some_iff.mp ends
    rw [List.dropLast_concat, Option.some.injEq, List.append_cancel_right_eq]
  · rename_i other
    constructor
    · nofun
    · rintro rfl
      exact absurd List.getLast?_concat other

theorem stripPrefix_iff {front s rest : List Char} : stripPrefix front s = some rest ↔ s = front ++ rest := by
  unfold stripPrefix
  split
  · rename_i begins
    obtain ⟨tail, rfl⟩ := begins
    rw [List.drop_left, Option.some.injEq, List.append_cancel_left_eq]
  · rename_i other
    constructor
    · nofun
    · rintro rfl
      exact absurd (List.prefix_append front rest) other

theorem readRoot_iff {pkg root : List Char} {isPut : Bool} :
    readRoot pkg root = some isPut ↔ root = modulePrefix pkg ++ rootText isPut := by
  have distinct : rootText true ≠ rootText false := by decide
  unfold readRoot
  cases found : stripPrefix (modulePrefix pkg) root with
  | none =>
    constructor
    · nofun
    · intro same
      rw [stripPrefix_iff.mpr same] at found
      cases found
  | some name =>
    rw [stripPrefix_iff.mp found, List.append_cancel_left_eq]
    simp only [Option.bind_eq_bind, Option.bind_some]
    split
    · rename_i call
      cases isPut <;> simp [call, distinct.symm]
    · rename_i call
      split
      · rename_i put
        cases isPut <;> simp [put, distinct]
      · rename_i put
        cases isPut <;> simp [call, put]

/-! ### Markers -/

theorem lastSegment_append {word : List Char} (bare : ':' ∉ word) (front : List Char) :
    lastSegment (front ++ (colons ++ word)) = word := by
  have reversed : (front ++ (colons ++ word)).reverse = word.reverse ++ (colons ++ front.reverse) := by simp [colons]
  rw [lastSegment, reversed, Exchange.splitPath_word (by simpa using bare)]
  exact List.reverse_reverse word

theorem readMarker_markerText (pkg : List Char) {byte : Nat} (small : byte < 256) : readMarker (markerText pkg byte) = some byte := by
  have table : ∀ byte < 256, u8FromHex [upperHex (byte / 16), upperHex (byte % 16)] = some byte ∧
      ':' ∉ ['B', upperHex (byte / 16), upperHex (byte % 16)] := by
    decide +kernel
  obtain ⟨known, bare⟩ := table byte small
  have last : lastSegment (markerText pkg byte) = ['B', upperHex (byte / 16), upperHex (byte % 16)] := by
    rw [markerText, ← List.append_assoc, ← List.append_assoc]
    exact lastSegment_append bare _
  have stripped : stripPrefix ['B'] ['B', upperHex (byte / 16), upperHex (byte % 16)] =
      some [upperHex (byte / 16), upperHex (byte % 16)] := stripPrefix_iff.mpr rfl
  rw [readMarker, last, stripped]
  exact known

theorem u8FromHex_small {hex : List Char} {byte : Nat} (known : u8FromHex hex = some byte) : byte < 256 := by
  simp only [u8FromHex, Option.ite_none_right_eq_some, Option.some.injEq] at known
  obtain ⟨⟨_, _, small⟩, same⟩ := known
  rwa [same] at small

theorem readMarker_small {marker : List Char} {byte : Nat} (known : readMarker marker = some byte) : byte < 256 := by
  obtain ⟨hex, _, read⟩ := Option.bind_eq_some_iff.mp known
  exact u8FromHex_small read

/-! ### The package -/

section Package

variable (a : SpelledAddress)

def pkgText : List Char := ['0', 'x'] ++ addressText a.package

theorem packageText_eq : packageText a.addr = some (pkgText a) := by
  have word : ∀ c ∈ a.addr ++ (colons ++ ['x', ':', ':', 'X']), Letter charKind c := by
    intro c member
    rcases List.mem_append.mp member with address | rest
    · exact identifier_letter (Or.inl (a.addr_mem c address))
    · have known := List.all_eq_true.mp
        (by decide : (colons ++ ['x', ':', ':', 'X']).all (fun d => identifierChar d || d = ':') = true) c rest
      exact identifier_letter (by simpa using known)
  have nonempty : a.addr ++ (colons ++ ['x', ':', ':', 'X']) ≠ [] := by simp [colons]
  have words : lex charKind [] (a.addr ++ (colons ++ ['x', ':', ':', 'X'])) =
      [.word (a.addr ++ (colons ++ ['x', ':', ':', 'X']))] := by
    have cut := @lex_letters _ _ charKind _ word [] []
    rwa [List.append_nil, List.nil_append, lex, flush, if_neg nonempty] at cut
  have whole : a.addr ++ [':', ':', 'x', ':', ':', 'X'] = a.addr ++ (colons ++ ['x', ':', ':', 'X']) := rfl
  rw [packageText, whole, canonicalizeMoveType_eq, words]
  simp only [write, spell_word, spell_nil, List.append_nil, canonicalizeAtom_path a.addr_nonempty a.addr_bare, a.address_addr]
  rw [Exchange.splitPath_word (not_colon (prefixed_mem _))]
  rfl

theorem pkgText_mem : ∀ c ∈ pkgText a, identifierChar c = true := prefixed_mem _

theorem root_plain (isPut : Bool) : '<' ∉ modulePrefix (pkgText a) ++ rootText isPut := by
  have plain : ∀ word : List Char, (∀ c ∈ word, identifierChar c = true) → '<' ∉ word :=
    fun word letters member => absurd (letters '<' member) (by decide)
  simp only [modulePrefix, List.mem_append, not_or]
  refine ⟨⟨plain _ (pkgText_mem a), by decide, by decide, by decide⟩, ?_⟩
  cases isPut <;> decide

variable {a}

theorem shape_split {t args : List Char} {isPut : Bool} : t = shape (pkgText a) isPut args ↔
    ∃ body root, stripSuffix '>' t = some body ∧ splitOnce '<' body = some (root, args) ∧
      readRoot (pkgText a) root = some isPut := by
  constructor
  · rintro rfl
    refine ⟨modulePrefix (pkgText a) ++ rootText isPut ++ '<' :: args, modulePrefix (pkgText a) ++ rootText isPut, ?_, ?_, ?_⟩
    · exact stripSuffix_iff.mpr (by simp [shape])
    · exact splitOnce_iff.mpr ⟨rfl, root_plain a isPut⟩
    · exact readRoot_iff.mpr rfl
  · rintro ⟨body, root, stripped, cut, read⟩
    obtain rfl := stripSuffix_iff.mp stripped
    obtain ⟨rfl, -⟩ := splitOnce_iff.mp cut
    obtain rfl := readRoot_iff.mp read
    simp [shape]

theorem decode_shape {s args : List Char} {isPut : Bool} (shaped : canonicalizeMoveType s = shape (pkgText a) isPut args) :
    decodeOptionCoinType a.addr s = (splitArgs args).map (readParts isPut) := by
  obtain ⟨body, root, stripped, cut, read⟩ := shape_split.mp shaped
  simp only [decodeOptionCoinType, packageText_eq, stripped, cut, read, Option.bind_eq_bind, Option.bind_some, Option.pure_def]
  cases splitArgs args <;> rfl

theorem decode_other {s : List Char} (other : ∀ isPut args, canonicalizeMoveType s ≠ shape (pkgText a) isPut args) :
    decodeOptionCoinType a.addr s = .ok none := by
  unfold decodeOptionCoinType
  rw [packageText_eq]
  simp only [Option.bind_eq_bind, Option.bind_some]
  cases stripped : stripSuffix '>' (canonicalizeMoveType s) with
  | none => rfl
  | some body =>
    cases cut : splitOnce '<' body with
    | none => simp [cut]
    | some parts =>
      cases read : readRoot (pkgText a) parts.1 with
      | none => simp [cut, read]
      | some isPut => exact absurd (shape_split.mpr ⟨body, parts.1, stripped, cut, read⟩) (other isPut parts.2)

end Package

end SuiOptions.ProtocolTypes
