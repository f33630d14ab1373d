import Slick.Proofs.Decimal.Text
import Slick.Proofs.Line.Partition

/-!
# Lines of spaced pieces

A line is written as pieces with single spaces between them. A piece is the spelling of one lexeme,
except that a minus sign stands right in front of the numeral it belongs to. A space continues no
lexeme, so such a line is read as the lexemes of its pieces, and it neither holds a line feed nor
ends with a carriage return. Main statement: `Line.Reads.tiled`.
-/

namespace Slick

namespace Lexeme

variable {keywords : Keywords} {l : Lexeme}

/-- A lexeme that ends at the end of a line also ends in front of a space. -/
theorem Ends.before_space {rest : List Char} (h : l.Ends keywords [])
    (hrest : ∀ c ∈ rest.head?, c = ' ') : l.Ends keywords rest := by
  have hhead : ∀ {P : Char → Prop}, P ' ' → ∀ c ∈ rest.head?, P c := by
    intro P hspace c hc
    rw [hrest c hc]
    exact hspace
  cases h with
  | numeral hne hwhole _ _ =>
    refine .numeral hne hwhole (hhead rfl) ?_
    rintro d more rfl
    exact absurd (hrest '.' rfl) (by decide)
  | fraction hne hwhole hpart hdigits _ =>
    exact .fraction hne hwhole hpart hdigits (hhead rfl)
  | text hdenotes => exact .text hdenotes
  | word hword _ => exact .word hword (hhead (by decide))
  | symbol hsymbol _ _ =>
    exact .symbol hsymbol (fun _ => hhead (by decide)) fun _ => hhead (by decide)

/-- The spelling is read as the lexeme, and it may stand at the end of a line. -/
structure Written (keywords : Keywords) (l : Lexeme) : Prop where
  ends : l.Ends keywords []
  newline : '\n' ∉ l.text.toList
  last : l.text.toList.getLast? ≠ some '\r'

/-- A class of characters that has no line breaks makes spellings without them. -/
theorem Ends.written (test : Char → Bool) (h : l.Ends keywords [])
    (htext : ∀ c ∈ l.text.toList, test c = true) (hnewline : test '\n' = false)
    (hreturn : test '\r' = false) : l.Written keywords := by
  refine ⟨h, fun hmem => ?_, fun hlast => ?_⟩
  · exact absurd (htext _ hmem) (by simp [hnewline])
  · exact absurd (htext _ (List.mem_of_getLast? hlast)) (by simp [hreturn])

private theorem written_symbol {spelling : List Char} {kind : Kind}
    (h : (spelling, kind) ∈ Symbol.table) :
    (Symbol.lexeme spelling kind).Written keywords := by
  have hplain : (Symbol.table.all fun entry =>
      entry.1.all fun c => c != '\n' && c != '\r') = true := by
    decide
  refine Ends.written (fun c => c != '\n' && c != '\r') (.symbol h (by simp) (by simp)) ?_ rfl rfl
  rw [Symbol.lexeme, String.toList_ofList]
  exact List.all_eq_true.mp (List.all_eq_true.mp hplain _ h)

/-- A word is written as it is spelled. -/
theorem written_word {word : List Char} (h : Word.IsWord word) :
    (Word.lexeme keywords word).Written keywords := by
  refine Ends.written Word.isPart (.word h (by simp)) ?_ (by decide) (by decide)
  rw [Word.lexeme_text, String.toList_ofList]
  exact h.2

/-- The digits of a numeral, with a fraction or without one. -/
theorem written_numeral {whole fraction : List Char} (hne : whole ≠ [])
    (hwhole : ∀ c ∈ whole, c.isDigit = true) (hfraction : ∀ c ∈ fraction, c.isDigit = true) :
    (Lexeme.mk .number (String.ofList (whole ++ Decimal.fractionText fraction))
      (.decimal (.ofNumeral whole fraction))).Written keywords := by
  cases fraction with
  | nil =>
    rw [Decimal.fractionText, List.append_nil]
    refine Ends.written Char.isDigit (.numeral hne hwhole (by simp) (by simp)) ?_ rfl rfl
    rw [String.toList_ofList]
    exact hwhole
  | cons d more =>
    rw [Decimal.fractionText_of_ne_nil (by simp)]
    refine Ends.written (fun c => c.isDigit || c == '.')
      (.fraction hne hwhole (by simp) hfraction (by simp)) ?_ rfl rfl
    rw [String.toList_ofList, List.forall_mem_append, List.forall_mem_cons]
    exact ⟨fun c hc => by simp [hwhole c hc], by simp, fun c hc => by simp [hfraction c hc]⟩

/-- A text is written between quotes, without line feeds. -/
theorem written_text (s : String) :
    (Lexeme.mk .text (Value.quotedText s) (.text s)).Written keywords := by
  have hends : Ends keywords ⟨.text, Value.quotedText s, .text (String.ofList s.toList)⟩ [] :=
    .text (TextLiteral.denotes_encode s.toList)
  rw [String.ofList_toList] at hends
  refine ⟨hends, ?_, ?_⟩
  · have hchar : ∀ c, '\n' ∉ TextLiteral.encodeChar c := by
      intro c
      unfold TextLiteral.encodeChar
      repeat' split
      all_goals simp_all [eq_comm]
    simp [Value.quotedText, TextLiteral.encode, hchar]
  · rw [Value.quotedText, String.toList_ofList, TextLiteral.encode, ← List.cons_append,
      List.getLast?_concat]
    decide

/-- Names and operators are written as they are spelled. -/
theorem Scanned.written (h : l.Scanned keywords) (hkind : l.kind ≠ .number ∧ l.kind ≠ .text) :
    l.Written keywords := by
  cases h with
  | numeral | fraction | text => simp at hkind
  | word hword => exact written_word hword
  | symbol hsymbol => exact written_symbol hsymbol

end Lexeme

namespace Line

variable {keywords : Keywords} {pieces more : List String} {lexemes others : List Lexeme}

/-- The pieces are the spellings of the lexemes, a sign together with its numeral. -/
inductive Reads (keywords : Keywords) : List String → List Lexeme → Prop where
  | nil : Reads keywords [] []
  | lexeme {l : Lexeme} {pieces : List String} {lexemes : List Lexeme} :
    l.Written keywords → Reads keywords pieces lexemes →
    Reads keywords (l.text :: pieces) (l :: lexemes)
  | negative {l : Lexeme} {pieces : List String} {lexemes : List Lexeme} :
    l.kind = .number → l.Written keywords → Reads keywords pieces lexemes →
    Reads keywords (("-" ++ l.text) :: pieces) (Symbol.lexeme ['-'] .minus :: l :: lexemes)

/-- Pieces behind pieces are read as their lexemes one behind another. -/
theorem Reads.append (h : Reads keywords pieces lexemes) (hmore : Reads keywords more others) :
    Reads keywords (pieces ++ more) (lexemes ++ others) := by
  induction h with
  | nil => exact hmore
  | lexeme hl _ ih => exact .lexeme hl ih
  | negative hkind hl _ ih => exact .negative hkind hl ih

/-- A symbol in front of some pieces is read as its lexeme. -/
theorem Reads.symbol {spelling : List Char} {kind : Kind} (h : (spelling, kind) ∈ Symbol.table)
    (hmore : Reads keywords pieces lexemes) :
    Reads keywords (String.ofList spelling :: pieces) (Symbol.lexeme spelling kind :: lexemes) :=
  .lexeme (Lexeme.written_symbol h) hmore

/-- The pieces, each with a space in front of it. -/
def spaced (pieces : List String) : List Char :=
  pieces.flatMap fun piece => ' ' :: piece.toList

/-- Pieces joined by spaces are the first piece, and a space in front of each of the others. -/
theorem toList_intercalate_space (piece : String) (pieces : List String) :
    (" ".intercalate (piece :: pieces)).toList = piece.toList ++ spaced pieces := by
  induction pieces generalizing piece with
  | nil => simp [spaced]
  | cons next pieces ih =>
    rw [String.intercalate_cons_cons, String.toList_append, String.toList_append, ih]
    simp [spaced]

/-- What stands behind a piece starts with a space. -/
theorem head_spaced (pieces : List String) : ∀ c ∈ (spaced pieces).head?, c = ' ' := by
  cases pieces <;> simp [spaced]

/-- A numeral starts with a digit, which makes nothing else of the minus sign in front of it. -/
theorem ends_minus {l : Lexeme} {rest : List Char} (hkind : l.kind = .number)
    (hl : l.Ends keywords []) :
    (Symbol.lexeme ['-'] .minus).Ends keywords (l.text.toList ++ rest) := by
  have hdigit : ∀ c ∈ (l.text.toList ++ rest).head?, c.isDigit = true := by
    obtain ⟨-, whole, hne, hwhole, htext⟩ := hl.longest.number hkind
    obtain ⟨d, digits, rfl⟩ := List.exists_cons_of_ne_nil hne
    rcases htext with ⟨htext, -⟩ | ⟨part, -, -, htext⟩ <;> simp [htext, hwhole d]
  refine .symbol (by decide) (fun _ c hc => ?_) (by simp)
  have hc := hdigit c hc
  constructor
  · rintro rfl
    cases hc
  · rintro rfl
    cases hc

/-- **Spaced pieces are read as their lexemes**, wherever they stand. -/
theorem Reads.tiled (h : Reads keywords pieces lexemes) (line column : Nat) :
    ∃ tokens : List Token, tokens.map Token.toLexeme = lexemes ∧
      Tiled keywords line column (spaced pieces) tokens := by
  induction h generalizing column with
  | nil => exact ⟨[], rfl, .finished (.inl rfl)⟩
  | @lexeme l pieces lexemes hl _ ih =>
    obtain ⟨tokens, hlexemes, htiled⟩ := ih (column + 1 + l.text.length)
    refine ⟨l.place line (column + 1) :: tokens, by simp [hlexemes], ?_⟩
    exact .blank (.inl rfl) (.token (hl.ends.before_space (head_spaced pieces)) htiled)
  | @negative l pieces lexemes hkind hl _ ih =>
    obtain ⟨tokens, hlexemes, htiled⟩ := ih (column + 1 + 1 + l.text.length)
    have hnumber := Tiled.token (hl.ends.before_space (head_spaced pieces)) htiled
    have hminus := Tiled.blank (.inl rfl) (.token (ends_minus hkind hl.ends) hnumber)
    refine ⟨(Symbol.lexeme ['-'] .minus).place line (column + 1) ::
      l.place line (column + 1 + 1) :: tokens, by simp [hlexemes], ?_⟩
    simpa [spaced, Symbol.lexeme] using hminus

/-- Spaced pieces hold no line feed. -/
theorem Reads.newline_notMem (h : Reads keywords pieces lexemes) : '\n' ∉ spaced pieces := by
  induction h with
  | nil => simp [spaced]
  | lexeme hl _ ih => simpa [spaced] using ⟨hl.newline, by simpa [spaced] using ih⟩
  | negative _ hl _ ih => simpa [spaced] using ⟨hl.newline, by simpa [spaced] using ih⟩

/-- Two texts that do not end with a character do not end with it together. -/
theorem getLast?_append_ne {front back : List Char} {c : Char} (hfront : front.getLast? ≠ some c)
    (hback : back.getLast? ≠ some c) : (front ++ back).getLast? ≠ some c := by
  rw [List.getLast?_append, ne_eq, Option.or_eq_some_iff]
  rintro (hlast | ⟨-, hlast⟩)
  · exact hback hlast
  · exact hfront hlast

/-- Spaced pieces do not end with a carriage return. -/
theorem Reads.last_ne_return (h : Reads keywords pieces lexemes) :
    (spaced pieces).getLast? ≠ some '\r' := by
  induction h with
  | nil => simp [spaced]
  | @lexeme l pieces lexemes hl _ ih =>
    have hspaced : spaced (l.text :: pieces) = [' '] ++ (l.text.toList ++ spaced pieces) := rfl
    rw [hspaced]
    exact getLast?_append_ne (by decide) (getLast?_append_ne hl.last ih)
  | @negative l pieces lexemes _ hl _ ih =>
    have hspaced : spaced (("-" ++ l.text) :: pieces) =
        [' ', '-'] ++ (l.text.toList ++ spaced pieces) := by
      simp [spaced]
    rw [hspaced]
    exact getLast?_append_ne (by decide) (getLast?_append_ne hl.last ih)

end Line

end Slick
