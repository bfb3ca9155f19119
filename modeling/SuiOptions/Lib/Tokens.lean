import SuiOptions.Lib.Text

/-! Texts cut into words and marks.

Every symbol is a mark of its own, a blank or a letter. A word is a longest run of
letters; blanks end it and are dropped.
-/

set_option autoImplicit false

namespace Tokens

open Text

inductive Kind (μ : Type) where
  | mark (which : μ)
  | blank
  | letter
  deriving DecidableEq

inductive Token (ω μ : Type) where
  | word (text : ω)
  | mark (which : μ)
  deriving DecidableEq, Repr

def Token.map {ω ω' μ : Type} (f : ω → ω') : Token ω μ → Token ω' μ
  | .word text => .word (f text)
  | .mark which => .mark which

variable {α μ : Type}

def flush (pending : List α) : List (Token (List α) μ) := if pending = [] then [] else [.word pending]

def lex (kind : α → Kind μ) : List α → List α → List (Token (List α) μ)
  | pending, [] => flush pending
  | pending, symbol :: rest =>
    match kind symbol with
    | .mark which => flush pending ++ .mark which :: lex kind [] rest
    | .blank => flush pending ++ lex kind [] rest
    | .letter => lex kind (pending ++ [symbol]) rest

def Letter (kind : α → Kind μ) (symbol : α) : Prop := kind symbol = .letter

/-- A text spells tokens: blanks may stand anywhere between them, and a word goes on for as
long as there are letters. -/
inductive Spells (kind : α → Kind μ) : List α → List (Token (List α) μ) → Prop
  | nil : Spells kind [] []
  | blank {symbol : α} {text : List α} {tokens : List (Token (List α) μ)} (blank : kind symbol = .blank)
      (spells : Spells kind text tokens) : Spells kind (symbol :: text) tokens
  | mark {symbol : α} {which : μ} {text : List α} {tokens : List (Token (List α) μ)} (mark : kind symbol = .mark which)
      (spells : Spells kind text tokens) : Spells kind (symbol :: text) (.mark which :: tokens)
  | word {letters text : List α} {tokens : List (Token (List α) μ)} (nonempty : letters ≠ [])
      (word : ∀ symbol ∈ letters, Letter kind symbol) (ends : Ends (Letter kind) text)
      (spells : Spells kind text tokens) : Spells kind (letters ++ text) (.word letters :: tokens)

variable {kind : α → Kind μ}

theorem lex_letters {letters : List α} (word : ∀ symbol ∈ letters, Letter kind symbol) (pending text : List α) :
    lex kind pending (letters ++ text) = lex kind (pending ++ letters) text := by
  induction letters generalizing pending with
  | nil => simp
  | cons symbol rest ih =>
    have letter : kind symbol = .letter := word symbol List.mem_cons_self
    simp only [List.cons_append, lex, letter]
    rw [ih fun other member => word other (List.mem_cons_of_mem _ member), List.append_assoc]
    rfl

theorem lex_ends {pending text : List α} (ends : Ends (Letter kind) text) :
    lex kind pending text = flush pending ++ lex kind [] text := by
  cases text with
  | nil => simp [lex, flush]
  | cons symbol rest =>
    have other := ends symbol rfl
    unfold Letter at other
    cases shape : kind symbol with
    | mark which => simp [lex, shape, flush]
    | blank => simp [lex, shape, flush]
    | letter => exact absurd shape other

theorem Spells.lex {text : List α} {tokens : List (Token (List α) μ)} (spells : Spells kind text tokens) :
    lex kind [] text = tokens := by
  induction spells with
  | nil => rfl
  | blank blank spells ih => simp [Tokens.lex, blank, flush, ih]
  | mark mark spells ih => simp [Tokens.lex, mark, flush, ih]
  | word nonempty word ends spells ih =>
    rw [lex_letters word, lex_ends ends, ih, List.nil_append]
    simp [flush, nonempty]

theorem spells_pending {pending : List α} (word : ∀ symbol ∈ pending, Letter kind symbol) (text : List α) :
    Spells kind (pending ++ text) (lex kind pending text) := by
  have flushed : ∀ {pending rest : List α} {tokens : List (Token (List α) μ)},
      (∀ symbol ∈ pending, Letter kind symbol) → Ends (Letter kind) rest → Spells kind rest tokens →
        Spells kind (pending ++ rest) (flush pending ++ tokens) := by
    intro pending rest tokens letters ends spells
    unfold flush
    split
    · rename_i empty
      subst empty
      exact spells
    · rename_i nonempty
      exact .word nonempty letters ends spells
  have outside : ∀ {symbol : α} (rest : List α), kind symbol ≠ .letter → Ends (Letter kind) (symbol :: rest) :=
    fun {symbol} rest other => Ends.cons (show ¬ Letter kind symbol from other) rest
  have fresh : ∀ symbol ∈ ([] : List α), Letter kind symbol := nofun
  induction text generalizing pending with
  | nil =>
    have ended : Spells kind (pending ++ []) (flush pending ++ []) := flushed word (Ends.nil _) .nil
    rwa [List.append_nil (flush pending)] at ended
  | cons symbol rest ih =>
    cases shape : kind symbol with
    | mark which =>
      simp only [Tokens.lex, shape]
      exact flushed word (outside rest (by simp [shape])) (.mark shape (ih fresh))
    | blank =>
      simp only [Tokens.lex, shape]
      exact flushed word (outside rest (by simp [shape])) (.blank shape (ih fresh))
    | letter =>
      simp only [Tokens.lex, shape]
      have letters : ∀ other ∈ pending ++ [symbol], Letter kind other := by
        intro other member
        rcases List.mem_append.mp member with before | here
        · exact word other before
        · rw [List.mem_singleton.mp here]
          exact shape
      have longer := ih letters
      rwa [List.append_assoc] at longer

theorem spells_iff {text : List α} {tokens : List (Token (List α) μ)} :
    Spells kind text tokens ↔ lex kind [] text = tokens := by
  constructor
  · exact Spells.lex
  · rintro rfl
    exact spells_pending (show ∀ symbol ∈ ([] : List α), Letter kind symbol from nofun) text

theorem Spells.unique {text : List α} {first second : List (Token (List α) μ)} (left : Spells kind text first)
    (right : Spells kind text second) : first = second := left.lex.symm.trans right.lex

/-! ### Tokens written without blanks -/

section Spelling

variable {ω : Type} {sign : μ → α} {f g : ω → List α}

def spell (sign : μ → α) (f : ω → List α) (tokens : List (Token ω μ)) : List α :=
  tokens.flatMap fun
    | .word text => f text
    | .mark which => [sign which]

@[simp] theorem spell_nil : spell sign f [] = [] := rfl

@[simp] theorem spell_word (text : ω) (rest : List (Token ω μ)) :
    spell sign f (.word text :: rest) = f text ++ spell sign f rest := rfl

@[simp] theorem spell_mark (which : μ) (rest : List (Token ω μ)) :
    spell sign f (.mark which :: rest) = sign which :: spell sign f rest := rfl

@[simp] theorem spell_append (first second : List (Token ω μ)) :
    spell sign f (first ++ second) = spell sign f first ++ spell sign f second := List.flatMap_append

theorem spell_map {ω' : Type} (h : ω' → ω) (tokens : List (Token ω' μ)) :
    spell sign f (tokens.map (Token.map h)) = spell sign (f ∘ h) tokens := by
  induction tokens with
  | nil => rfl
  | cons token rest ih =>
    cases token with
    | word text => simp [Token.map, ih]
    | mark which => simp [Token.map, ih]

theorem spell_congr {tokens : List (Token ω μ)} (same : ∀ text, .word text ∈ tokens → f text = g text) :
    spell sign f tokens = spell sign g tokens := by
  apply List.flatMap_congr
  intro token member
  cases token with
  | word text => exact same text member
  | mark which => rfl

def Bounded (tokens : List (Token ω μ)) : Prop := ∀ text, tokens.head? ≠ some (.word text)

def Separated : List (Token ω μ) → Prop
  | [] => True
  | .word _ :: rest => Bounded rest ∧ Separated rest
  | .mark _ :: rest => Separated rest

theorem Bounded.nil : Bounded ([] : List (Token ω μ)) := nofun

theorem Bounded.mark (which : μ) (rest : List (Token ω μ)) : Bounded (.mark which :: rest : List (Token ω μ)) := nofun

theorem Separated.map {ω' : Type} {h : ω' → ω} {tokens : List (Token ω' μ)} :
    Separated (tokens.map (Token.map h)) ↔ Separated tokens := by
  induction tokens with
  | nil => rfl
  | cons token rest ih =>
    cases token with
    | mark which => exact ih
    | word text =>
      refine and_congr ?_ ih
      cases rest with
      | nil => exact iff_of_true nofun nofun
      | cons next rest => cases next <;> simp [Bounded, Token.map]

theorem Bounded.ends {alphabet : α → Prop} (outside : ∀ which, ¬ alphabet (sign which)) {tokens : List (Token ω μ)}
    (bounded : Bounded tokens) : Ends alphabet (spell sign f tokens) := by
  cases tokens with
  | nil => exact Ends.nil _
  | cons token rest =>
    cases token with
    | word text => exact absurd rfl (bounded text)
    | mark which => exact Ends.cons (outside which) _

/-- Separated words without marks can be told apart. -/
theorem spell_eq_iff {alphabet : α → Prop} (outside : ∀ which, ¬ alphabet (sign which)) {tokens : List (Token ω μ)}
    (separated : Separated tokens) (left : ∀ text, .word text ∈ tokens → ∀ symbol ∈ f text, alphabet symbol)
    (right : ∀ text, .word text ∈ tokens → ∀ symbol ∈ g text, alphabet symbol) :
    spell sign f tokens = spell sign g tokens ↔ ∀ text, .word text ∈ tokens → f text = g text := by
  refine ⟨?_, spell_congr⟩
  intro same
  induction tokens with
  | nil => exact fun text member => absurd member List.not_mem_nil
  | cons token rest ih =>
    have later := fun separated => ih separated (fun text member => left text (List.mem_cons_of_mem _ member))
      (fun text member => right text (List.mem_cons_of_mem _ member))
    cases token with
    | mark which =>
      rw [spell_mark, spell_mark] at same
      intro text member
      rcases List.mem_cons.mp member with here | there
      · cases here
      · exact later separated (List.cons.inj same).2 text there
    | word text =>
      rw [spell_word, spell_word] at same
      obtain ⟨words, rests⟩ := word_cancel (left text List.mem_cons_self) (right text List.mem_cons_self)
        (separated.1.ends outside) (separated.1.ends outside) same
      intro other member
      rcases List.mem_cons.mp member with here | there
      · cases here
        exact words
      · exact later separated.2 rests other there

theorem Separated.spells {tokens : List (Token ω μ)} (separated : Separated tokens) (kinds : ∀ which, kind (sign which) = .mark which)
    (words : ∀ text, .word text ∈ tokens → f text ≠ [] ∧ ∀ symbol ∈ f text, Letter kind symbol) :
    Spells kind (spell sign f tokens) (tokens.map (Token.map f)) := by
  have outside : ∀ which, ¬ Letter kind (sign which) := by
    intro which letter
    rw [Letter, kinds] at letter
    cases letter
  induction tokens with
  | nil => exact .nil
  | cons token rest ih =>
    have later := fun separated => ih separated fun text member => words text (List.mem_cons_of_mem _ member)
    cases token with
    | mark which => exact .mark (kinds which) (later separated)
    | word text =>
      obtain ⟨nonempty, letters⟩ := words text List.mem_cons_self
      exact .word nonempty letters (separated.1.ends outside) (later separated.2)

/-- The words of a text are those it was written from, but for empty ones. -/
theorem spell_lex {g : List α → List α} (empty : g [] = []) {tokens : List (Token ω μ)} (separated : Separated tokens)
    (kinds : ∀ which, kind (sign which) = .mark which)
    (words : ∀ text, .word text ∈ tokens → ∀ symbol ∈ f text, Letter kind symbol) :
    spell sign g (lex kind [] (spell sign f tokens)) = spell sign (g ∘ f) tokens := by
  have outside : ∀ which, ¬ Letter kind (sign which) := by
    intro which letter
    rw [Letter, kinds] at letter
    cases letter
  induction tokens with
  | nil => rfl
  | cons token rest ih =>
    have later := fun separated => ih separated fun text member => words text (List.mem_cons_of_mem _ member)
    cases token with
    | mark which => simp [lex, kinds, flush, later separated]
    | word text =>
      have flushed : spell sign g (flush (f text) : List (Token (List α) μ)) = g (f text) := by
        unfold flush
        split
        · rename_i none
          rw [none, empty]
          rfl
        · simp
      rw [spell_word, spell_word, lex_letters (words text List.mem_cons_self), List.nil_append,
        lex_ends (separated.1.ends outside), spell_append, flushed, later separated.2]
      rfl

/-- A text without blanks is the text of its tokens, and a mark stands between any two of its words. -/
theorem lex_plain (signs : ∀ {symbol which}, kind symbol = .mark which → sign which = symbol) {text : List α}
    (plain : ∀ symbol ∈ text, kind symbol ≠ .blank) (pending : List α) :
    spell sign id (lex kind pending text) = pending ++ text ∧ Separated (lex kind pending text) := by
  have flushed : spell sign id (flush pending : List (Token (List α) μ)) = pending := by
    unfold flush
    split
    · rename_i none
      rw [none]
      rfl
    · simp
  induction text generalizing pending with
  | nil =>
    refine ⟨by rw [lex, flushed, List.append_nil], ?_⟩
    unfold lex flush
    split
    · trivial
    · exact ⟨Bounded.nil, trivial⟩
  | cons symbol rest ih =>
    have later := ih fun other member => plain other (List.mem_cons_of_mem _ member)
    have here := plain symbol List.mem_cons_self
    rw [lex]
    cases shape : kind symbol with
    | blank => exact absurd shape here
    | letter =>
      have longer : spell sign id (flush (pending ++ [symbol]) : List (Token (List α) μ)) = pending ++ [symbol] := by
        simp [flush]
      simpa using later (pending ++ [symbol]) longer
    | mark which =>
      obtain ⟨text, separated⟩ := later [] rfl
      refine ⟨by simp [flushed, text, signs shape], ?_⟩
      simp only
      unfold flush
      split
      · exact separated
      · exact ⟨Bounded.mark _ _, separated⟩

end Spelling

end Tokens
