import SuiOptions.ProtocolTypes.Settled

/-! Option coins written and read back. -/

set_option autoImplicit false

namespace SuiOptions.ProtocolTypes

open Execution Move Text Tokens
open Exchange (Mark charKind isAsciiHexdigit splitPath stripHex colons hexValue)
open SuiOptions.Core (maxSig termBytes markerName rootName optionCoinModule expectedType expectedTypeBytes upperHex pushBe)

/-! ### Types as arguments -/

@[simp] theorem marks_append {ω : Type} (first second : List (Token ω Mark)) :
    marks (first ++ second) = marks first ++ marks second := List.filterMap_append ..

@[simp] theorem marks_word {ω : Type} (text : ω) (rest : List (Token ω Mark)) : marks (.word text :: rest) = marks rest := rfl

@[simp] theorem marks_mark {ω : Type} (which : Mark) (rest : List (Token ω Mark)) :
    marks (.mark which :: rest) = which :: marks rest := rfl

mutual

theorem level_tokens (t : MoveType) (depth : Nat) : level depth (marks (tokens t)) = some depth := by
  cases t with
  | primitive which => rfl
  | vector element =>
    rw [tokens, marks_word, marks_mark, level, marks_append, level_append, level_tokens element (depth + 1)]
    rfl
  | datatype package module name arguments =>
    rw [tokens, marks_word]
    exact level_argumentTokens arguments depth

theorem level_argumentTokens (arguments : List MoveType) (depth : Nat) :
    level depth (marks (argumentTokens arguments)) = some depth := by
  cases arguments with
  | nil => rfl
  | cons first rest =>
    rw [argumentTokens, marks_mark, level, marks_append, level_append, level_tokens first (depth + 1)]
    exact level_restTokens rest depth

theorem level_restTokens (arguments : List MoveType) (depth : Nat) :
    level (depth + 1) (marks (restTokens arguments)) = some depth := by
  cases arguments with
  | nil => rfl
  | cons next rest =>
    rw [restTokens, marks_mark, level, if_neg (Nat.succ_ne_zero depth), marks_append, level_append,
      level_tokens next (depth + 1)]
    exact level_restTokens rest depth

end

/-- Whatever spells its words, a type is one argument. -/
theorem closed_write {f : Atom → List Char} {t : MoveType}
    (letters : ∀ a, .word a ∈ tokens t → ∀ c ∈ f a, Letter charKind c) : Closed (write f (tokens t)) := by
  rw [Closed, brackets_write letters]
  exact level_tokens t 0

theorem closed_canonicalText (t : MoveType) : Closed (canonicalText t) :=
  closed_write fun a _ => (a.text_letters true).2

theorem commas_cons (first : List Char) (rest : List (List Char)) :
    commas (first :: rest) = first ++ rest.flatMap (',' :: ·) := by
  induction rest generalizing first with
  | nil => simp [commas]
  | cons next rest ih =>
    have more : commas (first :: next :: rest) = first ++ [','] ++ commas (next :: rest) := by
      simp [commas, List.intercalate]
    rw [more, ih]
    simp

theorem write_restTokens_commas (arguments : List MoveType) :
    write Atom.prefixed (restTokens arguments) = (arguments.map canonicalText).flatMap (',' :: ·) ++ ['>'] := by
  induction arguments with
  | nil => rfl
  | cons next rest ih =>
    have text : write Atom.prefixed (tokens next) = canonicalText next := rfl
    rw [restTokens]
    unfold write at ih text ⊢
    rw [spell_mark, spell_append, ih, text]
    simp [Mark.char]

section Package

variable (a : SpelledAddress)

theorem canonicalText_marker (byte : Nat) : canonicalText (Core.marker a.package byte) = markerText (pkgText a) byte := by
  simp only [Core.marker, canonicalText, tokens, argumentTokens, write, spell_word, spell_nil, List.append_nil, Atom.text,
    if_true, path_text, markerText, pkgText, List.append_assoc]
  split <;> rfl

theorem canonicalText_expectedType (isPut : Bool) (underlying settlement : MoveType) (minutes sig exp : Nat) :
    canonicalText (expectedType a.package isPut underlying settlement minutes sig exp) = shape (pkgText a) isPut
      (commas (canonicalText underlying :: canonicalText settlement ::
        (termBytes minutes sig exp).map (markerText (pkgText a)))) := by
  have root : (rootName isPut).text = rootText isPut := by cases isPut <;> rfl
  have first : write Atom.prefixed (tokens underlying) = canonicalText underlying := rfl
  have markers : ((termBytes minutes sig exp).map (Core.marker a.package)).map canonicalText =
      (termBytes minutes sig exp).map (markerText (pkgText a)) := by
    rw [List.map_map]
    exact List.map_congr_left fun byte _ => canonicalText_marker a byte
  have rest := write_restTokens_commas (settlement :: (termBytes minutes sig exp).map (Core.marker a.package))
  rw [List.map_cons, markers] at rest
  rw [commas_cons, expectedType, Core.optionType, canonicalText, tokens, argumentTokens]
  unfold write at first rest ⊢
  rw [spell_word, spell_mark, spell_append, first, rest]
  simp [Atom.text, path_text, shape, modulePrefix, pkgText, root, optionCoinModule, Mark.char, colons]

end Package

/-! ### Bytes -/

theorem bytes_eq (minutes sig exp : Nat) :
    toBeBytes 4 minutes ++ (toBeBytes 8 sig).drop 3 ++ [exp] = termBytes minutes sig exp := by
  have low : (toBeBytes 8 sig).drop 3 = numeral 256 id 5 sig := numeral_drop 256 id 3 5 sig
  rw [termBytes, Core.pushBe_eq, Core.pushBe_eq, low]
  rfl

theorem termBytes_length (minutes sig exp : Nat) : (termBytes minutes sig exp).length = 10 := by
  simp [termBytes, Core.pushBe_eq]

structure Terms where
  minutes : Nat
  sig : Nat
  exp : Nat

def readTerms (bytes : List Nat) : Terms :=
  ⟨value 256 (bytes.take 4), value 256 ((bytes.drop 4).take 5), value 256 (bytes.drop 9)⟩

theorem readTerms_termBytes {minutes sig exp : Nat} (fits : Core.Encodable minutes sig exp) :
    readTerms (termBytes minutes sig exp) = ⟨minutes, sig, exp⟩ := by
  obtain ⟨minutesFit, sigFits, expFits⟩ := fits
  have first : (termBytes minutes sig exp).take 4 = numeral 256 id 4 minutes := by
    rw [termBytes, List.append_assoc, Core.pushBe_eq, List.take_append_of_le_length (by simp), List.take_of_length_le (by simp)]
  have second : ((termBytes minutes sig exp).drop 4).take 5 = numeral 256 id 5 sig := by
    rw [termBytes, List.append_assoc, Core.pushBe_eq, Core.pushBe_eq, List.drop_left' (by simp),
      List.take_append_of_le_length (by simp), List.take_of_length_le (by simp)]
  have third : (termBytes minutes sig exp).drop 9 = [exp] := by
    rw [termBytes, List.drop_left' (by simp [Core.pushBe_eq])]
  rw [readTerms, first, second, third, value_numeral (lt_of_lt_of_eq minutesFit (by decide)),
    value_numeral (lt_of_lt_of_eq sigFits (by decide))]
  simp [value]

theorem termBytes_readTerms {bytes : List Nat} (ten : bytes.length = 10) (small : ∀ byte ∈ bytes, byte < 256) :
    termBytes (readTerms bytes).minutes (readTerms bytes).sig (readTerms bytes).exp = bytes ∧
      Core.Encodable (readTerms bytes).minutes (readTerms bytes).sig (readTerms bytes).exp := by
  have cut : bytes = bytes.take 4 ++ (bytes.drop 4).take 5 ++ bytes.drop 9 := by
    have parted := List.take_append_drop 5 (bytes.drop 4)
    rw [List.drop_drop] at parted
    rw [List.append_assoc, parted, List.take_append_drop]
  have parts : (bytes.take 4).length = 4 ∧ ((bytes.drop 4).take 5).length = 5 ∧ (bytes.drop 9).length = 1 := by
    simp only [List.length_take, List.length_drop, ten]
    decide
  obtain ⟨four, five, one⟩ := parts
  have firstSmall : ∀ byte ∈ bytes.take 4, byte < 256 := fun byte member => small byte (List.mem_of_mem_take member)
  have secondSmall : ∀ byte ∈ (bytes.drop 4).take 5, byte < 256 :=
    fun byte member => small byte (List.mem_of_mem_drop (List.mem_of_mem_take member))
  have thirdSmall : ∀ byte ∈ bytes.drop 9, byte < 256 := fun byte member => small byte (List.mem_of_mem_drop member)
  have minutes := value_lt firstSmall
  have sig := value_lt secondSmall
  have exp := value_lt thirdSmall
  rw [four] at minutes
  rw [five] at sig
  rw [one] at exp
  refine ⟨?_, lt_of_lt_of_eq minutes (by decide), lt_of_lt_of_eq sig (by decide), lt_of_lt_of_eq exp (by decide)⟩
  have first := numeral_value firstSmall
  have second := numeral_value secondSmall
  rw [four] at first
  rw [five] at second
  obtain ⟨last, single⟩ := List.length_eq_one_iff.mp one
  have third : [(readTerms bytes).exp] = bytes.drop 9 := by
    simp [readTerms, single, value]
  conv_rhs => rw [cut, ← first, ← second, ← third]
  rw [termBytes, Core.pushBe_eq, Core.pushBe_eq]
  rfl

/-! ### Writing and reading -/

theorem mapM_eq_some {α β : Type} {f : α → Option β} {list : List α} {out : List β} :
    list.mapM f = some out ↔ list.map f = out.map some := by
  induction list generalizing out with
  | nil => cases out <;> simp
  | cons first rest ih =>
    rw [List.mapM_cons]
    simp only [Option.bind_eq_bind, Option.bind_eq_some_iff, Option.pure_def, Option.some.injEq]
    constructor
    · rintro ⟨y, read, others, more, rfl⟩
      rw [List.map_cons, List.map_cons, read, ih.mp more]
    · intro same
      cases out with
      | nil => cases same
      | cons y others =>
        obtain ⟨read, more⟩ := List.cons.inj same
        exact ⟨y, read, others, ih.mpr more, rfl⟩

theorem readMarkers (pkg : List Char) {bytes : List Nat} (small : ∀ byte ∈ bytes, byte < 256) :
    (bytes.map (markerText pkg)).mapM readMarker = some bytes := by
  rw [mapM_eq_some, List.map_map]
  exact List.map_congr_left fun byte member => readMarker_markerText pkg (small byte member)

theorem exists_readMarkers {markers : List (List Char)} :
    (∃ bytes, markers.mapM readMarker = some bytes) ↔ ∀ marker ∈ markers, (readMarker marker).isSome = true := by
  constructor
  · rintro ⟨bytes, read⟩ marker member
    have inside := List.mem_map_of_mem (f := readMarker) member
    rw [mapM_eq_some.mp read] at inside
    obtain ⟨byte, -, same⟩ := List.mem_map.mp inside
    rw [← same]
    rfl
  · intro readable
    refine ⟨markers.map fun marker => (readMarker marker).getD 0, mapM_eq_some.mpr ?_⟩
    rw [List.map_map]
    refine List.map_congr_left fun marker member => ?_
    obtain ⟨byte, same⟩ := Option.isSome_iff_exists.mp (readable marker member)
    simp [same]

theorem readMarkers_small {markers : List (List Char)} {bytes : List Nat} (read : markers.mapM readMarker = some bytes) :
    bytes.length = markers.length ∧ ∀ byte ∈ bytes, byte < 256 := by
  have same := mapM_eq_some.mp read
  constructor
  · simpa using (congrArg List.length same).symm
  · intro byte member
    have inside := List.mem_map_of_mem (f := some) member
    rw [← same] at inside
    obtain ⟨marker, -, known⟩ := List.mem_map.mp inside
    exact readMarker_small known

theorem markers_eq {pkg : List Char} {markers : List (List Char)} {bytes : List Nat}
    (read : markers.mapM readMarker = some bytes) (own : ∀ marker ∈ markers, ∃ byte < 256, marker = markerText pkg byte) :
    markers = bytes.map (markerText pkg) := by
  have written : markers.map some = markers.map (fun marker => (readMarker marker).map (markerText pkg)) := by
    refine List.map_congr_left fun marker member => ?_
    obtain ⟨byte, small, rfl⟩ := own marker member
    rw [readMarker_markerText pkg small]
    rfl
  apply List.map_injective_iff.mpr (Option.some_injective _)
  calc markers.map some = (markers.map readMarker).map (Option.map (markerText pkg)) := by rw [written, List.map_map]; rfl
    _ = (bytes.map some).map (Option.map (markerText pkg)) := by rw [mapM_eq_some.mp read]
    _ = (bytes.map (markerText pkg)).map some := by rw [List.map_map, List.map_map]; rfl

theorem expiryMinutes_ok {spec : BucketSpec} {minutes : Nat} :
    spec.expiryMinutes = .ok minutes ↔ spec.expiryMs = minutes * minuteMs ∧ minutes < 2 ^ 32 := by
  have positive : 0 < minuteMs := by decide
  unfold BucketSpec.expiryMinutes
  constructor
  · intro known
    split at known
    · cases known
    rename_i aligned
    split at known
    · cases known
    rename_i fits
    cases known
    exact ⟨(Nat.div_mul_cancel (Nat.dvd_of_mod_eq_zero (not_not.mp aligned))).symm, not_le.mp fits⟩
  · rintro ⟨same, fits⟩
    rw [same, Nat.mul_mod_left, Nat.mul_div_cancel _ positive, if_neg (not_not.mpr rfl), if_neg (not_le.mpr fits)]

section Codec

variable {a : SpelledAddress} {spec : BucketSpec}

theorem optionCoinType_ok {text : List Char} : optionCoinType a.addr spec = .ok text ↔
    ∃ minutes, spec.expiryMs = minutes * minuteMs ∧ minutes < 2 ^ 32 ∧ spec.sig ≤ maxSig ∧
      text = shape (pkgText a) spec.isPut (commas (canonicalizeMoveType spec.asset :: canonicalizeMoveType spec.settlement ::
        (termBytes minutes spec.sig spec.exp).map (markerText (pkgText a)))) := by
  unfold optionCoinType
  rw [bind_ok]
  constructor
  · rintro ⟨minutes, known, rest⟩
    obtain ⟨_, small, rest⟩ := bind_ok.mp rest
    obtain ⟨same, fits⟩ := expiryMinutes_ok.mp known
    refine ⟨minutes, same, fits, require_ok.mp small, ?_⟩
    rw [← pure_ok.mp rest, packageText_eq, Option.getD_some, bytes_eq, shape]
  · rintro ⟨minutes, same, fits, small, rfl⟩
    refine ⟨minutes, expiryMinutes_ok.mpr ⟨same, fits⟩, bind_ok.mpr ⟨(), require_of small, pure_ok.mpr ?_⟩⟩
    rw [packageText_eq, Option.getD_some, bytes_eq, shape]

theorem readParts_eq_some {isPut : Bool} {parts : List (List Char)} : readParts isPut parts = some spec ↔
    ∃ asset settlement markers bytes, parts = asset :: settlement :: markers ∧ markers.length = 10 ∧
      markers.mapM readMarker = some bytes ∧
      spec = ⟨chainFormMoveType asset, chainFormMoveType settlement, (readTerms bytes).minutes * minuteMs,
        (readTerms bytes).sig, (readTerms bytes).exp, isPut⟩ := by
  constructor
  · intro read
    match parts with
    | [] => cases read
    | [_] => cases read
    | asset :: settlement :: markers =>
      simp only [readParts, Option.bind_eq_bind, Option.bind_eq_some_iff, Option.guard_eq_some', Option.pure_def,
        Option.some.injEq] at read
      obtain ⟨_, ten, bytes, known, rfl⟩ := read
      exact ⟨asset, settlement, markers, bytes, rfl, ten, known, rfl⟩
  · rintro ⟨asset, settlement, markers, bytes, rfl, ten, known, rfl⟩
    simp only [readParts, Option.bind_eq_bind, Option.bind_eq_some_iff, Option.guard_eq_some', Option.pure_def]
    exact ⟨(), ten, bytes, known, rfl⟩

end Codec

/-! ### Texts that are read as they are meant -/

def Parts (args : List Char) (parts : List (List Char)) : Prop :=
  ∃ front last, parts = front ++ [last] ∧ args = commas parts ∧ (∀ part ∈ front, Closed part) ∧
    ∃ depth, level 0 (brackets last) = some depth

theorem splitArgs_iff {args : List Char} {parts : List (List Char)} : splitArgs args = .ok parts ↔ Parts args parts := by
  constructor
  · exact splitArgs_ok
  · rintro ⟨front, last, rfl, rfl, closed, depth, ends⟩
    exact splitArgs_commas closed ends

theorem parts_of_closed {parts : List (List Char)} (nonempty : parts ≠ []) (closed : ∀ part ∈ parts, Closed part) :
    Parts (commas parts) parts := by
  obtain ⟨front, last, rfl⟩ := parts.eq_nil_or_concat'.resolve_left nonempty
  exact ⟨front, last, rfl, rfl, fun part member => closed part (List.mem_append_left _ member), 0, closed last (by simp)⟩

theorem Parts.unique {args : List Char} {first second : List (List Char)} (left : Parts args first) (right : Parts args second) :
    first = second :=
  Except.ok.inj ((splitArgs_iff.mpr left).symm.trans (splitArgs_iff.mpr right))

theorem Parts.types_closed {args asset settlement : List Char} {markers : List (List Char)}
    (known : Parts args (asset :: settlement :: markers)) (nonempty : markers ≠ []) : Closed asset ∧ Closed settlement := by
  obtain ⟨front, last, cut, -, closed, -⟩ := known
  obtain ⟨others, final, rfl⟩ := markers.eq_nil_or_concat'.resolve_left nonempty
  have whole : (asset :: settlement :: others) ++ [final] = front ++ [last] := cut
  obtain ⟨rfl, -⟩ := List.append_inj' whole rfl
  exact ⟨closed asset (by simp), closed settlement (by simp)⟩

theorem shape_inj {pkg first second : List Char} {isPut : Bool} (same : shape pkg isPut first = shape pkg isPut second) :
    first = second := by
  simpa [shape] using same

theorem mem_commas {parts : List (List Char)} {part : List Char} (member : part ∈ parts) : ∀ c ∈ part, c ∈ commas parts := by
  intro c inside
  cases parts with
  | nil => cases member
  | cons first rest =>
    rw [commas_cons, List.mem_append]
    rcases List.mem_cons.mp member with rfl | later
    · exact Or.inl inside
    · exact Or.inr (List.mem_flatMap.mpr ⟨part, later, List.mem_cons_of_mem _ inside⟩)

/-- Every `>` among the arguments of an option coin's type closes a `<`, and where ten markers can be read behind two types,
they are the package's, and both types come back from their chain form. -/
def Honest (pkg text : List Char) : Prop :=
  ∀ isPut args, text = shape pkg isPut args → NoLooseClose 0 args ∧
    ∀ asset settlement markers, Parts args (asset :: settlement :: markers) → markers.length = 10 →
      (∀ marker ∈ markers, (readMarker marker).isSome = true) →
        (∀ marker ∈ markers, ∃ byte < 256, marker = markerText pkg byte) ∧ Kept asset ∧ Kept settlement

theorem markerText_closed (a : SpelledAddress) {byte : Nat} : Closed (markerText (pkgText a) byte) := by
  rw [← canonicalText_marker]
  exact closed_canonicalText _

theorem parts_markers (a : SpelledAddress) {asset settlement : List Char} (left : Closed asset) (right : Closed settlement)
    (bytes : List Nat) :
    Parts (commas (asset :: settlement :: bytes.map (markerText (pkgText a))))
      (asset :: settlement :: bytes.map (markerText (pkgText a))) := by
  apply parts_of_closed (List.cons_ne_nil _ _)
  intro part member
  rcases List.mem_cons.mp member with rfl | member
  · exact left
  rcases List.mem_cons.mp member with rfl | member
  · exact right
  · obtain ⟨byte, -, rfl⟩ := List.mem_map.mp member
    exact markerText_closed a

theorem plain_part {pkg args part : List Char} {s : List Char} {isPut : Bool} {parts : List (List Char)}
    (shaped : canonicalizeMoveType s = shape pkg isPut args) (known : Parts args parts) (member : part ∈ parts) : Plain part := by
  obtain ⟨front, last, _, rfl, _⟩ := known
  intro c inside
  apply canonicalize_plain s c
  rw [shaped, shape]
  simp [mem_commas member c inside]

section Codec

variable (a : SpelledAddress)

/-- A text that is read well is read as it is meant. -/
theorem honest_of_decode {input : List Char} {found : Option BucketSpec} (decoded : decodeOptionCoinType a.addr input = .ok found)
    (back : ∀ spec, found = some spec → optionCoinType a.addr spec = .ok (canonicalizeMoveType input)) :
    Honest (pkgText a) (canonicalizeMoveType input) := by
  intro isPut args shaped
  rw [decode_shape shaped] at decoded
  cases ran : splitArgs args with
  | error why =>
    rw [ran] at decoded
    cases decoded
  | ok parts =>
    rw [ran] at decoded
    cases decoded
    refine ⟨splitArgs_ok_iff.mp ⟨parts, ran⟩, ?_⟩
    intro asset settlement markers known ten readable
    obtain rfl := (splitArgs_iff.mp ran).unique known
    obtain ⟨bytes, read⟩ := exists_readMarkers.mpr readable
    have written := back _ (readParts_eq_some.mpr ⟨asset, settlement, markers, bytes, rfl, ten, read, rfl⟩)
    obtain ⟨minutes, -, -, -, text⟩ := optionCoinType_ok.mp written
    rw [shaped] at text
    have plain : ∀ part ∈ asset :: settlement :: markers, Plain part :=
      fun part member => plain_part shaped known member
    have assetPlain := plain asset (by simp)
    have settlementPlain := plain settlement (by simp)
    obtain ⟨assetClosed, settlementClosed⟩ := known.types_closed (List.ne_nil_of_length_eq_add_one ten)
    -- both lists are the parts of the same arguments
    have again := parts_markers a
      (show Closed (canonicalizeMoveType (chainFormMoveType asset)) by rwa [Closed, brackets_chained assetPlain])
      (show Closed (canonicalizeMoveType (chainFormMoveType settlement)) by rwa [Closed, brackets_chained settlementPlain])
      (termBytes minutes (readTerms bytes).sig (readTerms bytes).exp)
    rw [← shape_inj text] at again
    have same := known.unique again
    rw [List.cons.injEq, List.cons.injEq] at same
    obtain ⟨assets, settlements, bytesSame⟩ := same
    refine ⟨fun marker member => ?_, (kept_iff assetPlain).mp assets.symm, (kept_iff settlementPlain).mp settlements.symm⟩
    obtain ⟨length, small⟩ := readMarkers_small read
    obtain ⟨-, -, -, expFits⟩ := termBytes_readTerms (length.trans ten) small
    rw [bytesSame] at member
    obtain ⟨byte, inside, rfl⟩ := List.mem_map.mp member
    exact ⟨byte, Core.termBytes_small expFits byte inside, rfl⟩

theorem decode_of_honest {input : List Char} (honest : Honest (pkgText a) (canonicalizeMoveType input)) :
    ∃ found, decodeOptionCoinType a.addr input = .ok found ∧
      ∀ spec, found = some spec → optionCoinType a.addr spec = .ok (canonicalizeMoveType input) := by
  by_cases shaped : ∃ isPut args, canonicalizeMoveType input = shape (pkgText a) isPut args
  · obtain ⟨isPut, args, shaped⟩ := shaped
    obtain ⟨closes, types⟩ := honest isPut args shaped
    obtain ⟨parts, ran⟩ := splitArgs_ok_iff.mpr closes
    refine ⟨readParts isPut parts, by rw [decode_shape shaped, ran]; rfl, ?_⟩
    intro spec read
    obtain ⟨asset, settlement, markers, bytes, rfl, ten, known, rfl⟩ := readParts_eq_some.mp read
    have parted := splitArgs_iff.mp ran
    obtain ⟨length, small⟩ := readMarkers_small known
    obtain ⟨written, minutesFit, sigFits, -⟩ := termBytes_readTerms (length.trans ten) small
    obtain ⟨own, assetKept, settlementKept⟩ := types asset settlement markers parted ten (exists_readMarkers.mp ⟨bytes, known⟩)
    have plain : ∀ part ∈ asset :: settlement :: markers, Plain part :=
      fun part member => plain_part shaped parted member
    refine optionCoinType_ok.mpr ⟨_, rfl, minutesFit, ?_, ?_⟩
    · exact Nat.le_of_lt_succ (lt_of_lt_of_eq sigFits (by decide))
    · rw [written, ← markers_eq known own, (kept_iff (plain asset (by simp))).mpr assetKept,
        (kept_iff (plain settlement (by simp))).mpr settlementKept, shaped]
      obtain ⟨-, -, -, text, -⟩ := parted
      rw [← text]
  · refine ⟨none, decode_other fun isPut args same => shaped ⟨isPut, args, same⟩, nofun⟩

end Codec

/-! ### Specs that are read back -/

theorem mem_restTokens {arguments : List MoveType} {token : Token Atom Mark} (member : token ∈ restTokens arguments) :
    (∃ which, token = .mark which) ∨ ∃ t ∈ arguments, token ∈ tokens t := by
  induction arguments with
  | nil => exact Or.inl ⟨_, List.mem_singleton.mp member⟩
  | cons next rest ih =>
    rw [restTokens] at member
    rcases List.mem_cons.mp member with rfl | member
    · exact Or.inl ⟨_, rfl⟩
    rcases List.mem_append.mp member with here | later
    · exact Or.inr ⟨next, List.mem_cons_self, here⟩
    · rcases ih later with mark | ⟨t, inside, known⟩
      · exact Or.inl mark
      · exact Or.inr ⟨t, List.mem_cons_of_mem _ inside, known⟩

theorem properType_expectedType (package : BitVec 256) {underlying settlement : MoveType} (first : ProperType underlying)
    (second : ProperType settlement) (isPut : Bool) (minutes sig exp : Nat) :
    ProperType (expectedType package isPut underlying settlement minutes sig exp) := by
  have enc : ∀ byte, Proper (if byte < 128 then Core.enc0 else Core.enc1) := by
    intro byte
    split <;> decide
  have marker : ∀ byte, ProperType (Core.marker package byte) := by
    intro byte a member
    cases List.mem_singleton.mp member
    exact ⟨enc byte, rfl⟩
  intro a member
  rw [expectedType, Core.optionType, tokens, argumentTokens] at member
  simp only [List.mem_cons, reduceCtorEq, false_or, List.mem_append] at member
  rcases member with root | inside | rest
  · cases root
    refine ⟨by decide, ?_⟩
    cases isPut <;> decide
  · exact first a inside
  · rcases mem_restTokens rest with ⟨which, mark⟩ | ⟨t, inside, known⟩
    · cases mark
    · rcases List.mem_cons.mp inside with rfl | digit
      · exact second a known
      · obtain ⟨byte, -, rfl⟩ := List.mem_map.mp digit
        exact marker byte a known

theorem address_addressText (package : BitVec 256) : address (addressText package) = ['0', 'x'] ++ addressText package := by
  have table : ∀ d < 16, (lowerHex d).toLower = lowerHex d := by decide
  have hex := Exchange.Path.addressText_hex package
  have length : (addressText package).length = 64 := numeral_length ..
  have lower : (addressText package).map Char.toLower = addressText package := by
    refine (List.map_congr_left fun c member => ?_).trans (List.map_id _)
    obtain ⟨d, small, rfl⟩ := mem_numeral (by decide) member
    exact table d small
  have stripped : stripHex ([] ++ addressText package) = addressText package := Exchange.stripHex_lead (Or.inl rfl) hex
  rw [List.nil_append] at stripped
  rw [address, stripped, if_pos (List.all_eq_true.mpr hex), padded, length, lower, Nat.sub_self, List.replicate_zero,
    List.nil_append]

theorem canonicalizeAtom_stripped (a : Atom) : canonicalizeAtom a.stripped = a.prefixed ↔ a.Unmarked := by
  cases a with
  | primitive which => exact iff_of_true (canonicalizeAtom_bare (not_colon which.text_mem)) trivial
  | vector => exact iff_of_true (by decide) trivial
  | path package module name =>
    have nonempty : addressText package ≠ [] := by
      intro empty
      have length : (addressText package).length = 64 := numeral_length ..
      rw [empty] at length
      cases length
    rw [← stripped_iff, Atom.stripped, canonicalizeAtom_path nonempty (not_colon (addressText_mem package)),
      address_addressText]
    simp [Atom.text, path_text]

theorem stripped_canonicalize (t : MoveType) :
    canonicalizeMoveType (write Atom.stripped (tokens t)) = write (canonicalizeAtom ∘ Atom.stripped) (tokens t) := by
  rw [canonicalizeMoveType_eq]
  exact spell_lex canonicalizeAtom_nil (separated t) Exchange.mark_kind fun a _ => stripped_letters a

section RoundTrip

variable {t : MoveType}

theorem again_letters (a : Atom) : ∀ c ∈ (canonicalizeAtom ∘ Atom.stripped) a, Letter charKind c :=
  canonicalizeAtom_letters (stripped_letters a)

theorem closed_chained (proper : ProperType t) : Closed (canonicalizeMoveType (chainFormMoveType (canonicalText t))) := by
  rw [chain_canonicalText (canonicalText_canonical proper), stripped_canonicalize]
  exact closed_write fun a _ => again_letters a

/-- A text stands for a type in both directions exactly when it is the type's name and no identifier holds `0x`. -/
theorem chain_round_iff (proper : ProperType t) {chain : List Char} :
    canonicalizeMoveType chain = canonicalText t ∧ chainFormMoveType (canonicalText t) = chain ↔
      chain = typeName t ∧ UnmarkedType t := by
  rw [chain_canonicalText (canonicalText_canonical proper)]
  constructor
  · rintro ⟨canonical, rfl⟩
    rw [stripped_canonicalize] at canonical
    have words := (spell_eq_iff mark_outside (separated t) (fun a _ => again_letters a)
      (fun a _ => (a.text_letters true).2)).mp canonical
    have unmarked : UnmarkedType t := fun a member => (canonicalizeAtom_stripped a).mp (words a member)
    exact ⟨(write_stripped_iff t).mpr unmarked, unmarked⟩
  · rintro ⟨rfl, unmarked⟩
    exact ⟨typeName_canonical proper, (write_stripped_iff t).mpr unmarked⟩

end RoundTrip

section Specs

variable (a : SpelledAddress) {underlying settlement : MoveType} (first : ProperType underlying) (second : ProperType settlement)

include first second

theorem decode_expectedType (isPut : Bool) {minutes sig exp : Nat} (fits : Core.Encodable minutes sig exp) :
    decodeOptionCoinType a.addr (canonicalText (expectedType a.package isPut underlying settlement minutes sig exp)) =
      .ok (some ⟨chainFormMoveType (canonicalText underlying), chainFormMoveType (canonicalText settlement),
        minutes * minuteMs, sig, exp, isPut⟩) := by
  have canonical := canonicalText_canonical (properType_expectedType a.package first second isPut minutes sig exp)
  have shaped := canonical.trans (canonicalText_expectedType a isPut underlying settlement minutes sig exp)
  have parts := parts_markers a (closed_canonicalText underlying) (closed_canonicalText settlement) (termBytes minutes sig exp)
  have small : ∀ byte ∈ termBytes minutes sig exp, byte < 256 := Core.termBytes_small fits.2.2
  have read := readMarkers (pkgText a) small
  have terms := readTerms_termBytes fits
  rw [decode_shape shaped, splitArgs_iff.mpr parts]
  refine congrArg Except.ok (readParts_eq_some.mpr ⟨_, _, _, _, rfl, ?_, read, ?_⟩)
  · rw [List.length_map, termBytes_length]
  · rw [terms]

/-- A spec is read back, and its text spells the chain's type, exactly when the spec holds the names of its types and none
of their identifiers holds `0x`. -/
theorem round_trip_iff {spec : BucketSpec} {minutes : Nat} (expiry : spec.expiryMs = minutes * minuteMs)
    (fits : Core.Encodable minutes spec.sig spec.exp) :
    (∃ text, optionCoinType a.addr spec = .ok text ∧ decodeOptionCoinType a.addr text = .ok (some spec) ∧
      ∃ t, typeName t = expectedTypeBytes a.package spec.isPut underlying settlement minutes spec.sig spec.exp ∧
        text = canonicalText t) ↔
    (spec.asset = typeName underlying ∧ UnmarkedType underlying) ∧
      (spec.settlement = typeName settlement ∧ UnmarkedType settlement) := by
  have decoded := decode_expectedType a first second spec.isPut fits
  have expected := canonicalText_expectedType a spec.isPut underlying settlement minutes spec.sig spec.exp
  rw [← chain_round_iff first, ← chain_round_iff second]
  constructor
  · rintro ⟨text, written, back, t, named, rfl⟩
    rw [Core.expectedTypeBytes_eq] at named
    cases typeName_injective named
    rw [decoded] at back
    have known := Option.some.inj (Except.ok.inj back)
    have assets : chainFormMoveType (canonicalText underlying) = spec.asset := by rw [← known]
    have settlements : chainFormMoveType (canonicalText settlement) = spec.settlement := by rw [← known]
    obtain ⟨other, -, -, -, same⟩ := optionCoinType_ok.mp written
    rw [expected] at same
    have parts := parts_markers a (closed_canonicalText underlying) (closed_canonicalText settlement)
      (termBytes minutes spec.sig spec.exp)
    have again := parts_markers a (closed_chained first) (closed_chained second) (termBytes other spec.sig spec.exp)
    rw [assets, settlements, ← shape_inj same] at again
    have equal := parts.unique again
    rw [List.cons.injEq, List.cons.injEq] at equal
    exact ⟨⟨equal.1.symm, assets⟩, equal.2.1.symm, settlements⟩
  · rintro ⟨⟨canonical, chain⟩, otherCanonical, otherChain⟩
    refine ⟨_, optionCoinType_ok.mpr ⟨minutes, expiry, fits.1, ?_, rfl⟩, ?_⟩
    · exact Nat.le_of_lt_succ (lt_of_lt_of_eq fits.2.1 (by decide))
    rw [canonical, otherCanonical, ← expected, decoded, chain, otherChain, ← expiry]
    exact ⟨rfl, _, (Core.expectedTypeBytes_eq a.package spec.isPut underlying settlement minutes spec.sig spec.exp).symm, rfl⟩

end Specs

theorem new_ok {u s : List Char} {expiryMs strike strikeScale : Nat} {isPut : Bool} {spec : BucketSpec}
    (made : BucketSpec.new u s expiryMs strike strikeScale isPut = .ok spec) :
    Core.normalizeStrike strike strikeScale = .ok (spec.sig, spec.exp) ∧ spec.asset = chainFormMoveType u ∧
      spec.settlement = chainFormMoveType s ∧ spec.expiryMs = expiryMs ∧ spec.isPut = isPut := by
  obtain ⟨⟨sig, exp⟩, normal, rest⟩ := bind_ok.mp made
  cases pure_ok.mp rest
  unfold normalizeStrike at normal
  split at normal
  · cases normal
  rename_i positive
  split at normal
  · cases normal
  rename_i fits
  refine ⟨Core.normalizeStrike_ok.mpr ⟨Nat.pos_of_ne_zero positive, ?_, (Except.ok.inj normal).symm⟩, rfl, rfl, rfl, rfl⟩
  rw [← Except.ok.inj normal]
  exact not_lt.mp fits

/-- A spec made from renderings of two types is read back from its text, and the text spells the type that the chain
expects, exactly when both renderings are settled. Reading any text returns, and what it returns is written as the text's
canonical form, exactly when the text is honest. -/
theorem option_coin_codec_iff (a : SpelledAddress) :
    (∀ {underlying settlement : MoveType} {u s : List Char}, ProperType underlying → ProperType settlement →
      ∀ (r : Rendering underlying u) (q : Rendering settlement s) {minutes strike strikeScale : Nat} {isPut : Bool}
        {spec : BucketSpec}, minutes < 2 ^ 32 → strikeScale < 2 ^ 8 →
        BucketSpec.new u s (minutes * minuteMs) strike strikeScale isPut = .ok spec →
        ((Core.normalizeStrike strike strikeScale = .ok (spec.sig, spec.exp) ∧
            ∃ text, optionCoinType a.addr spec = .ok text ∧ decodeOptionCoinType a.addr text = .ok (some spec) ∧
              ∃ t, typeName t = expectedTypeBytes a.package isPut underlying settlement minutes spec.sig spec.exp ∧
                text = canonicalText t) ↔
          r.Settled ∧ q.Settled)) ∧
    ∀ input, (∃ found, decodeOptionCoinType a.addr input = .ok found ∧
        ∀ spec, found = some spec → optionCoinType a.addr spec = .ok (canonicalizeMoveType input)) ↔
      Honest (pkgText a) (canonicalizeMoveType input) := by
  constructor
  · intro underlying settlement u s first second r q minutes strike strikeScale isPut spec minutesFit scaleFits made
    obtain ⟨normal, asset, settles, expiry, side⟩ := new_ok made
    obtain ⟨-, small, stripped⟩ := Core.normalizeStrike_ok.mp normal
    have shorter := Core.stripZeros_exp_le strike strikeScale
    rw [← stripped] at shorter
    have fits : Core.Encodable minutes spec.sig spec.exp := by
      refine ⟨minutesFit, ?_, lt_of_le_of_lt shorter scaleFits⟩
      exact lt_of_lt_of_eq (Nat.lt_succ_of_le small) (by decide)
    have round := round_trip_iff a first second expiry fits
    rw [and_iff_right normal, ← side, round, asset, settles, r.settled_iff first, q.settled_iff second]
    exact ⟨fun known => ⟨known.1.1, known.2.1⟩, fun known => ⟨⟨known.1, known.1.unmarked⟩, known.2, known.2.unmarked⟩⟩
  · intro input
    constructor
    · rintro ⟨found, decoded, back⟩
      exact honest_of_decode a decoded back
    · exact decode_of_honest a

namespace Sample

def package : SpelledAddress := ⟨true, ['2'], by decide, by decide, by decide⟩

/-- `0x2::option_coin::OptionCall<>>` -/
def looseText : List Char := ['0', 'x', '2', ':', ':', 'o', 'p', 't', 'i', 'o', 'n', '_', 'c', 'o', 'i', 'n', ':', ':',
  'O', 'p', 't', 'i', 'o', 'n', 'C', 'a', 'l', 'l', '<', '>', '>']

/-- `0x2::option_coin::OptionCall<u8,u8,B+0,B0,B0,B0,B0,B0,B0,B0,B0,B0>` -/
def foreignText : List Char := ['0', 'x', '2', ':', ':', 'o', 'p', 't', 'i', 'o', 'n', '_', 'c', 'o', 'i', 'n', ':', ':',
  'O', 'p', 't', 'i', 'o', 'n', 'C', 'a', 'l', 'l', '<', 'u', '8', ',', 'u', '8', ',', 'B', '+', '0', ',', 'B', '0', ',',
  'B', '0', ',', 'B', '0', ',', 'B', '0', ',', 'B', '0', ',', 'B', '0', ',', 'B', '0', ',', 'B', '0', ',', 'B', '0', '>']

/-- `0x02::coin:: Coin< u8 >` on both sides, with a strike of 25.71. -/
def spec : BucketSpec where
  asset := chainFormMoveType spacedText
  settlement := chainFormMoveType spacedText
  expiryMs := 100000000 * minuteMs
  sig := 2571
  exp := 2
  isPut := false

theorem spaced_settled : spaced.Settled := by
  intro p member
  simp only [spaced, List.mem_cons, Token.word.injEq, Written.path.injEq, reduceCtorEq, List.not_mem_nil,
    or_false] at member
  subst member
  exact ⟨fun after => absurd after (by decide), fun _ _ hex => absurd hex (by decide), by decide, by decide⟩

end Sample

theorem option_coin_codec_coin :
    Core.normalizeStrike 257100 4 = .ok (2571, 2) ∧
      ∃ text, optionCoinType Sample.package.addr Sample.spec = .ok text ∧
        decodeOptionCoinType Sample.package.addr text = .ok (some Sample.spec) ∧
        ∃ t, typeName t = expectedTypeBytes Sample.package.package false Sample.coin Sample.coin 100000000 2571 2 ∧
          text = canonicalText t :=
  ((option_coin_codec_iff Sample.package).1 Sample.coin_proper Sample.coin_proper Sample.spaced Sample.spaced
    (show 100000000 < 2 ^ 32 by decide) (show 4 < 2 ^ 8 by decide)
    (show BucketSpec.new Sample.spacedText Sample.spacedText (100000000 * minuteMs) 257100 4 false = .ok Sample.spec from
      rfl)).mpr
    ⟨Sample.spaced_settled, Sample.spaced_settled⟩

/-- Reading panics at a `>` that closes nothing, and takes names that are no markers of the package for markers. -/
theorem option_coin_codec_foreign :
    decodeOptionCoinType Sample.package.addr Sample.looseText = .error .overflow ∧
      decodeOptionCoinType Sample.package.addr Sample.foreignText = .ok (some ⟨['u', '8'], ['u', '8'], 0, 0, 0, false⟩) ∧
      optionCoinType Sample.package.addr ⟨['u', '8'], ['u', '8'], 0, 0, 0, false⟩ ≠
        .ok (canonicalizeMoveType Sample.foreignText) := by
  exact ⟨by decide +kernel, by decide +kernel, by decide +kernel⟩

end SuiOptions.ProtocolTypes
