import FilterQuery.Proofs.Predicate

/-!
# Phrases and how they are read

A phrase is a row of words with one space between neighbours. Read as part of a condition, a phrase
is what it was, a row with one keyword in it is split there, and a text in parentheses is a part of
its own. Main statements: what a row of operands says, and what one operand says, is made of what
its members say.
-/

namespace FilterQuery

open Predicate

/-- Letters without white space, quotes or parentheses that are no keyword in any letter case. -/
def IsWord (letters : List Char) : Prop :=
  letters ≠ [] ∧ (∀ c ∈ letters, Token.isMark c = false) ∧
    letters.map Char.toUpper ≠ Combinator.and.keyword ∧
    letters.map Char.toUpper ≠ Combinator.or.keyword

instance (letters : List Char) : Decidable (IsWord letters) :=
  decidable_of_iff (letters ≠ [] ∧ (letters.all fun c => !Token.isMark c) ∧
    letters.map Char.toUpper ≠ Combinator.and.keyword ∧
    letters.map Char.toUpper ≠ Combinator.or.keyword) (by simp [IsWord])

/-- No word of a phrase splits a row. -/
theorem IsWord.not_keyword {letters : List Char} (h : IsWord letters) (k : Combinator) :
    (Part.word letters).isKeyword k = false := by
  cases k with
  | and => simp [Part.isKeyword, h.2.2.1]
  | or => simp [Part.isKeyword, h.2.2.2]

def IsPhrase (text : String) : Prop :=
  ∃ words : List (List Char), words ≠ [] ∧ (∀ word ∈ words, IsWord word) ∧
    text.toList = List.intercalate [' '] words

namespace IsPhrase

theorem word {text : String} (h : IsWord text.toList) : IsPhrase text :=
  ⟨[text.toList], by simp, by simpa using h, by simp⟩

/-- More words behind a phrase. -/
theorem extend {text more : String} (h : IsPhrase text) (words : List (List Char))
    (all : ∀ word ∈ words, IsWord word) (he : more.toList = words.flatMap (' ' :: ·)) :
    IsPhrase (text ++ more) := by
  obtain ⟨front, hne, all', hf⟩ := h
  refine ⟨front ++ words, by simp [hne], ?_, ?_⟩
  · intro word hm
    rcases List.mem_append.mp hm with hm | hm
    · exact all' word hm
    · exact all word hm
  · cases front with
    | nil => exact absurd rfl hne
    | cons word front =>
      rw [String.toList_append, hf, he, List.cons_append, intercalate_space, intercalate_space]
      simp

/-- Placeholders and the commas behind them are words of a phrase. -/
theorem placeholders (n : Nat) :
    IsPhrase (String.intercalate ", " (List.replicate (n + 1) "?")) := by
  refine ⟨List.replicate n ['?', ','] ++ [['?']], by simp, ?_, ?_⟩
  · intro word hm
    rcases List.mem_append.mp hm with hm | hm
    · rw [(List.mem_replicate.mp hm).2]
      decide
    · rw [List.mem_singleton.mp hm]
      decide
  · induction n with
    | zero => rfl
    | succ n ih =>
      have hne : List.replicate n ['?', ','] ++ [['?']] ≠ [] := by simp
      have right : List.intercalate [' '] (List.replicate (n + 1) ['?', ','] ++ [['?']]) =
          ['?', ',', ' '] ++ List.intercalate [' '] (List.replicate n ['?', ','] ++ [['?']]) := by
        rw [List.replicate_succ, List.cons_append, List.intercalate_cons_of_ne_nil hne]
        rfl
      rw [right, ← ih, List.replicate_succ, List.replicate_succ, String.intercalate_cons_cons]
      simp

end IsPhrase

/-- A text that is read as the given parts, wherever it stands. -/
structure Spells (cs : List Char) (parts : List Part) : Prop where
  nonempty : parts ≠ []
  text : Part.textOf parts = cs
  taken : ∃ row, (Token.list cs).mapM Token.mark? = some row ∧ Nests Predicate.enclose row parts

namespace Spells

theorem word {letters : List Char} (h : IsWord letters) : Spells letters [.word letters] where
  nonempty := by simp
  text := by simp [Part.text]
  taken := by
    have hs : Token.list letters = [.word letters] := by
      simp [Token.list, Token.listAfter_letters h.2.1, Token.ofLetters, h.1]
    rw [hs]
    exact ⟨[.item (.word letters)], rfl, .item _⟩

/-- Two texts with a space between them are read as the parts of both. -/
theorem append {s t : List Char} {front back : List Part} (hs : Spells s front)
    (ht : Spells t back) : Spells (s ++ ' ' :: t) (front ++ back) where
  nonempty := by simp [hs.nonempty]
  text := by rw [Part.textOf_append hs.nonempty ht.nonempty, hs.text, ht.text]
  taken := by
    obtain ⟨row, read, nests⟩ := hs.taken
    obtain ⟨row', read', nests'⟩ := ht.taken
    have hm : Token.ofMark ' ' = [] := by decide
    refine ⟨row ++ row', ?_, nests.append nests'⟩
    rw [Token.list_mark (by decide), hm]
    simp [read, read']

/-- A text in parentheses is read as one part, with what it says by itself inside. -/
theorem enclose {s : List Char} {parts : List Part} (h : Spells s parts) :
    Spells ('(' :: s ++ [')']) [.parenthesis s (ofParts? parts)] where
  nonempty := by simp
  text := by simp [Part.text]
  taken := by
    obtain ⟨row, read, nests⟩ := h.taken
    have ho : Token.list ('(' :: (s ++ [')'])) = .opening :: Token.list (s ++ [')']) := by
      simpa [Token.ofMark, Token.list, Token.listAfter, Token.ofLetters, Token.isQuote] using
        Token.list_mark (c := '(') (by decide) [] (s ++ [')'])
    have hc : Token.list (s ++ [')']) = Token.list s ++ [.closing] := by
      simpa [Token.ofMark, Token.list, Token.listAfter, Token.ofLetters, Token.isQuote] using
        Token.list_mark (c := ')') (by decide) s []
    have inside : Predicate.enclose parts = .parenthesis s (ofParts? parts) := by
      rw [Predicate.enclose, h.text]
    refine ⟨.opening :: row ++ [.closing], ?_, inside ▸ nests.parenthesis⟩
    simp [ho, hc, read, Token.mark?]

/-- A text that is read as some parts says what these parts say. -/
theorem ofText? {text : String} {parts : List Part} (h : Spells text.toList parts) :
    Predicate.ofText? text = ofParts? parts := by
  obtain ⟨row, read, nests⟩ := h.taken
  simp [Predicate.ofText?, read, Nests.iff_read?.mp nests]

end Spells

/-- A phrase is read as its words. -/
theorem IsPhrase.spells {text : String} (h : IsPhrase text) :
    ∃ words : List (List Char), words ≠ [] ∧ (∀ word ∈ words, IsWord word) ∧
      Spells text.toList (words.map .word) := by
  obtain ⟨words, hw, all, he⟩ := h
  refine ⟨words, hw, all, ?_⟩
  rw [he]
  clear he
  induction words with
  | nil => exact absurd rfl hw
  | cons word words ih =>
    simp only [List.mem_cons, forall_eq_or_imp] at all
    by_cases h : words = []
    · subst h
      simpa using Spells.word all.1
    · have hs := (Spells.word all.1).append (ih h all.2)
      simpa [List.intercalate_cons_of_ne_nil h] using hs

namespace Predicate

theorem level?_of_free {k : Combinator} {parts : List Part} (read : List Part → Option Predicate)
    (h : ∀ part ∈ parts, part.isKeyword k = false) : level? k read parts = read parts := by
  simp [level?, List.splitOnP_eq_singleton h, chain?]

/-- A row is split at its first keyword, and what is behind it is split further. -/
theorem level?_join {k : Combinator} {front back : List Part} {sep : Part}
    (read : List Part → Option Predicate) (hs : sep.isKeyword k)
    (hf : ∀ part ∈ front, part.isKeyword k = false) {p q : Predicate} (hp : read front = some p)
    (hq : level? k read back = some q) :
    level? k read (front ++ sep :: back) = some (.join k p q) := by
  have hne : (back.splitOnP (Part.isKeyword k)).map read ≠ [] := by
    simp [List.splitOnP_ne_nil]
  obtain ⟨first, rest, he⟩ := List.exists_cons_of_ne_nil hne
  simp only [level?, List.splitOnP_append_cons_of_forall_mem hf sep hs, List.map_cons, hp, he,
    chain?]
  simp only [level?, he] at hq
  simp [hq]

/-- How a row is read whose connectives are all of one kind. -/
def ofRow? : Combinator → List Part → Option Predicate
  | .and => operand?
  | .or => level? .and operand?

theorem ofRow?_of_free (k : Combinator) {parts : List Part}
    (h : ∀ k : Combinator, ∀ part ∈ parts, part.isKeyword k = false) :
    ofRow? k parts = operand? parts := by
  cases k with
  | and => rfl
  | or => exact level?_of_free operand? (h .and)

end Predicate

end FilterQuery
