import Slick.Proofs.Display.Injective
import Slick.Proofs.Expr.Lexemes
import Slick.Proofs.Expr.Shape
import Slick.Proofs.Grammar.Origin
import Slick.Proofs.Line.Pieces

/-!
# Expressions as source text

An expression without choices is written on one line: its names, operators, brackets and literals in
their order, with commas between elements and fields. The literals are written as values are shown,
so a negative number has its sign right in front of it. Main statement: `Expr.pieces_read`, by which
the pieces of a normal expression are the spellings of its lexemes.
-/

namespace Slick

mutual

/-- The pieces in which an expression is written on one line. -/
def Expr.pieces : Expr → List String
  | .conditional condition thenBranch elseBranch _ =>
    "if" :: (condition.pieces ++ "then" :: (thenBranch.pieces ++ "else" :: elseBranch.pieces))
  | .binary left operator right _ => left.pieces ++ operator.text :: right.pieces
  | .grouping inner _ => "(" :: (inner.pieces ++ [")"])
  | .literal value _ => [value.toText]
  | .reference name _ => [name.text]
  | .call callee arguments _ => callee.pieces ++ Expr.argumentPieces arguments
  | .list elements _ => "[" :: (Expr.elementPieces elements ++ ["]"])
  | .record fields _ => "\x7b" :: (Expr.fieldPieces fields ++ ["\x7d"])
  | .update target fields _ =>
    "\x7b" :: (target.pieces ++ "|" :: (Expr.fieldPieces fields ++ ["\x7d"]))
  | .function parameters body _ => "ƒ" :: (parameters.map (·.text) ++ "→" :: body.pieces)
  | .get object name _ => object.pieces ++ [".", name.text]
  -- A choice needs lines of its own.
  | .select _ _ _ | .unknown _ => []

/-- The pieces of the arguments of a call, side by side. -/
def Expr.argumentPieces : List Expr → List String
  | [] => []
  | argument :: rest => argument.pieces ++ Expr.argumentPieces rest

/-- The pieces of the elements of a list, with commas between them. -/
def Expr.elementPieces : List Expr → List String
  | [] => []
  | [element] => element.pieces
  | element :: next :: rest => element.pieces ++ "," :: Expr.elementPieces (next :: rest)

/-- The pieces of the fields of a record, with commas between them. -/
def Expr.fieldPieces : List (String × Expr) → List String
  | [] => []
  | [(key, value)] => key :: ":" :: value.pieces
  | (key, value) :: next :: rest =>
    key :: ":" :: (value.pieces ++ "," :: Expr.fieldPieces (next :: rest))

end

/-- The text of the number has no exponent. -/
def Decimal.Positional : Decimal → Prop
  | finite _ coefficient exponent => needsExponent coefficient exponent = false
  | _ => True

/-- The expression itself is no choice, nor a number whose text has an exponent. -/
def Expr.FitsLine : Expr → Prop
  | .select _ _ _ => False
  | .literal (.decimal d) _ => d.Positional
  | _ => True

/-- The expression can be written on one line, and so can all expressions in it. -/
inductive Expr.OneLine : Expr → Prop where
  | intro {e : Expr} : e.FitsLine → (∀ child ∈ e.children, OneLine child) → OneLine e

/-- The parts of an expression on one line stand on that line. -/
theorem Expr.OneLine.child {e child : Expr} (h : e.OneLine) (hchild : child ∈ e.children) :
    child.OneLine := by
  cases h with
  | intro _ hchildren => exact hchildren child hchild

private theorem Expr.OneLine.fitsLine {e : Expr} (h : e.OneLine) : e.FitsLine := by
  cases h with
  | intro hfits _ => exact hfits

namespace Decimal

/-- A negative number whose text has no exponent is not a zero: only a number far behind the point
vanishes when it is rounded. -/
theorem ne_zero_of_negate {coefficient coefficient' : Nat} {exponent exponent' : Int}
    (h : negate .standard (finite false coefficient exponent) =
      .ok (finite true coefficient' exponent'))
    (htext : needsExponent coefficient' exponent' = false) : coefficient' ≠ 0 := by
  by_cases hne : coefficient = 0
  · simp only [negate, hne, fit, if_pos, ne_eq, not_true, decide_false, Bool.false_and] at h
    cases h
  · simp only [negate, ne_eq, hne, not_false_eq_true, decide_true, Bool.not_false,
      Bool.and_true] at h
    rcases fit_cases Context.standard_sound hne h with hsame | hzero | ⟨c, x, hsame, hc, -⟩
    · cases hsame
      exact hne
    · cases hzero
      exact absurd htext (by decide)
    · cases hsame
      exact hc

/-- A number without a sign and without an exponent is written as a numeral. -/
theorem written_positional {coefficient : Nat} {exponent : Int}
    (h : needsExponent coefficient exponent = false) (keywords : Keywords) :
    (Lexeme.mk .number (finite false coefficient exponent).toText
      (.decimal (finite false coefficient exponent))).Written keywords := by
  obtain ⟨whole, fraction, hshape⟩ := magnitudeText_shape coefficient exponent
  have hvalue : ofNumeral whole fraction = finite false coefficient exponent := by
    have := hshape.places h
    rw [ofNumeral, hshape.value]
    congr 1
    omega
  have htext : (finite false coefficient exponent).toText =
      String.ofList (whole ++ fractionText fraction) := by
    rw [toText, chars, signText, if_neg (by decide), List.nil_append, hshape.text, exponentPart,
      if_neg (by simp [h]), List.append_nil]
  rw [htext, ← hvalue]
  exact Lexeme.written_numeral hshape.whole_ne hshape.whole_digits hshape.fraction_digits

end Decimal

variable {keywords : Keywords}

/-- A number whose text has no exponent is written as a numeral, with its sign in front. -/
theorem Decimal.reads {d : Decimal} (h : (Value.decimal d).IsLiteral) (htext : d.Positional) :
    Line.Reads keywords [d.toText] (Value.decimal d).lexemes := by
  obtain ⟨coefficient, exponent, rfl | hnegate⟩ := h
  · exact .lexeme (written_positional htext keywords) .nil
  obtain ⟨negative, c, x, rfl⟩ := finite_of_fit hnegate
  cases negative with
  | false => exact .lexeme (written_positional htext keywords) .nil
  | true =>
    obtain ⟨c, rfl⟩ := Nat.exists_eq_succ_of_ne_zero (ne_zero_of_negate hnegate htext)
    have hsign : (finite true (c + 1) x).toText = "-" ++ (finite false (c + 1) x).toText := by
      rw [← String.toList_inj]
      simp [toText, chars, signText]
    rw [hsign]
    exact .negative rfl (written_positional htext keywords) .nil

/-- A literal is written as its value is shown. -/
theorem Value.reads {value : Value} {location : Location} (h : value.IsLiteral)
    (hline : (Expr.literal value location).FitsLine) :
    Line.Reads keywords [value.toText] value.lexemes := by
  cases value with
  | decimal d => exact Decimal.reads h hline
  | text s => exact .lexeme (Lexeme.written_text s) .nil
  | bool b =>
    have hword : Word.IsWord (boolText b).toList := by
      cases b <;> decide
    have hlexeme : Word.lexeme keywords (boolText b).toList = ⟨.keyword, boolText b, .bool b⟩ := by
      cases b <;> rfl
    have hwritten : (Word.lexeme keywords (boolText b).toList).Written keywords :=
      Lexeme.written_word hword
    rw [hlexeme] at hwritten
    exact .lexeme hwritten .nil
  | nothing | int _ | list _ | record _ => exact h.elim

/-- A word that is no name of a type and not reserved is a name. -/
theorem Word.lexeme_eq_name {word : List Char} (h : (lexeme keywords word).kind = .ident) :
    lexeme keywords word = .name (String.ofList word) := by
  revert h
  simp only [lexeme]
  repeat' split
  all_goals simp [Lexeme.name]

/-- A key is written as a name. -/
theorem IsKey.written {key : String} (h : IsKey (Lexeme.Scanned keywords) key) :
    (Lexeme.name key).Written keywords := by
  obtain ⟨l, hscanned, hkind, rfl⟩ := h
  have hwritten := hscanned.written (by simp [hkind])
  cases hscanned with
  | numeral | fraction | text => cases hkind
  | word hword =>
    rw [Word.lexeme_eq_name hkind] at hwritten ⊢
    exact hwritten
  | symbol hsymbol => exact absurd hkind (Lexeme.symbol_not_name _ hsymbol).1

/-- The words of a conditional are reserved. -/
theorem Lexeme.written_reserved {word : String} (h : word ∈ ["if", "then", "else"]) :
    (Lexeme.word word).Written Keywords.standard := by
  have hword : Word.IsWord word.toList := by
    fin_cases h <;> decide
  have hlexeme : Word.lexeme Keywords.standard word.toList = .word word := by
    fin_cases h <;> rfl
  rw [← hlexeme]
  exact written_word hword

namespace Expr

private theorem madeOf_of_mem {known : Lexeme → Prop} {es : List Expr} (h : AllMadeOf known es) :
    ∀ e ∈ es, e.MadeOf known := by
  induction es with
  | nil => simp
  | cons e es ih =>
    rw [AllMadeOf] at h
    rw [List.forall_mem_cons]
    exact ⟨h.1, ih h.2⟩

private theorem madeOf_of_mem_fields {known : Lexeme → Prop} {fields : List (String × Expr)}
    (h : FieldsMadeOf known fields) :
    ∀ field ∈ fields, IsKey known field.1 ∧ field.2.MadeOf known := by
  induction fields with
  | nil => simp
  | cons field fields ih =>
    obtain ⟨key, value⟩ := field
    rw [FieldsMadeOf] at h
    rw [List.forall_mem_cons]
    exact ⟨⟨h.1, h.2.1⟩, ih h.2.2⟩

/-- The expression is written as the spellings of its lexemes. -/
def Readable (e : Expr) : Prop := Line.Reads Keywords.standard e.pieces e.lexemes

/-- The pieces of arguments are read as their lexemes. -/
theorem arguments_read {es : List Expr} (h : ∀ e ∈ es, e.Readable) :
    Line.Reads Keywords.standard (argumentPieces es) (argumentLexemes es) := by
  induction es with
  | nil =>
    rw [argumentPieces, argumentLexemes]
    exact .nil
  | cons e es ih =>
    rw [List.forall_mem_cons] at h
    rw [argumentPieces, argumentLexemes]
    exact h.1.append (ih h.2)

/-- The pieces of list elements are read as their lexemes. -/
theorem elements_read {es : List Expr} (h : ∀ e ∈ es, e.Readable) :
    Line.Reads Keywords.standard (elementPieces es) (elementLexemes es) := by
  induction es with
  | nil =>
    rw [elementPieces, elementLexemes]
    exact .nil
  | cons e es ih =>
    rw [List.forall_mem_cons] at h
    cases es with
    | nil =>
      rw [elementPieces, elementLexemes]
      exact h.1
    | cons next es =>
      rw [elementPieces, elementLexemes]
      exact h.1.append (.symbol (by decide) (ih h.2))

/-- The pieces of fields are read as their lexemes. -/
theorem fields_read {fields : List (String × Expr)}
    (hkeys : ∀ field ∈ fields, IsKey (Lexeme.Scanned Keywords.standard) field.1)
    (h : ∀ field ∈ fields, field.2.Readable) :
    Line.Reads Keywords.standard (fieldPieces fields) (fieldLexemes fields) := by
  induction fields with
  | nil =>
    rw [fieldPieces, fieldLexemes]
    exact .nil
  | cons field fields ih =>
    obtain ⟨key, value⟩ := field
    rw [List.forall_mem_cons] at hkeys h
    have hkey : (Lexeme.name key).Written Keywords.standard := hkeys.1.written
    cases fields with
    | nil =>
      rw [fieldPieces, fieldLexemes]
      exact .lexeme hkey (.symbol (by decide) h.1)
    | cons next fields =>
      rw [fieldPieces, fieldLexemes]
      refine .lexeme hkey (.symbol (by decide) (h.1.append (.symbol (by decide) ?_)))
      exact ih hkeys.2 h.2

private theorem names_read {names : List Token}
    (h : ∀ name ∈ names, name.IsName (Lexeme.Scanned keywords)) :
    Line.Reads keywords (names.map (·.text)) (names.map Token.toLexeme) := by
  induction names with
  | nil => exact .nil
  | cons name names ih =>
    rw [List.forall_mem_cons] at h
    obtain ⟨⟨hscanned, hkind⟩, hnames⟩ := h
    exact .lexeme (hscanned.written (by simp [hkind])) (ih hnames)

/-- **The pieces of a normal expression are the spellings of its lexemes.** -/
theorem pieces_read {e : Expr} (h : e.Normal)
    (hmade : e.MadeOf (Lexeme.Scanned Keywords.standard)) (hline : e.OneLine) : e.Readable := by
  induction h with
  | @intro e htidy _ ih =>
    have hinner : ∀ child ∈ e.children, child.MadeOf (Lexeme.Scanned Keywords.standard) →
        child.Readable :=
      fun child hchild hmade => ih child hchild hmade (hline.child hchild)
    cases e with
    | conditional c t e location =>
      obtain ⟨hc, ht, he⟩ := hmade
      rw [Readable, pieces, lexemes]
      refine .lexeme (Lexeme.written_reserved (by decide)) (.append ?_
        (.lexeme (Lexeme.written_reserved (by decide)) (.append ?_
          (.lexeme (Lexeme.written_reserved (by decide)) ?_))))
      · exact hinner c (by simp [children]) hc
      · exact hinner t (by simp [children]) ht
      · exact hinner e (by simp [children]) he
    | binary left operator right location =>
      obtain ⟨hleft, hright, hscanned, level, hlevel⟩ := hmade
      have hoperator := hscanned.written (level.plain_operator hlevel).2
      rw [Readable, pieces, lexemes]
      refine .append (hinner left (by simp [children]) hleft) (.lexeme hoperator ?_)
      exact hinner right (by simp [children]) hright
    | grouping inner location =>
      rw [Readable, pieces, lexemes]
      refine .symbol (by decide) (.append ?_ (.symbol (by decide) .nil))
      exact hinner inner (by simp [children]) hmade
    | literal value location => exact Value.reads htidy hline.fitsLine
    | reference name location =>
      obtain ⟨hscanned, hkind⟩ := hmade
      have hname := hscanned.written (by rcases hkind with hkind | hkind <;> simp [hkind])
      exact .lexeme hname .nil
    | call callee arguments location =>
      obtain ⟨hcallee, harguments⟩ := hmade
      rw [Readable, pieces, lexemes]
      refine .append (hinner callee (by simp [children]) hcallee) (arguments_read ?_)
      intro argument hargument
      exact hinner argument (by simp [children, hargument]) (madeOf_of_mem harguments _ hargument)
    | list elements location =>
      rw [Readable, pieces, lexemes]
      refine .symbol (by decide) (.append (elements_read ?_) (.symbol (by decide) .nil))
      intro element helement
      exact hinner element helement (madeOf_of_mem hmade element helement)
    | record fields location =>
      have hfields := madeOf_of_mem_fields hmade
      rw [Readable, pieces, lexemes]
      refine .symbol (by decide) (.append (fields_read ?_ ?_) (.symbol (by decide) .nil))
      · exact fun field hfield => (hfields field hfield).1
      · intro field hfield
        exact hinner field.2 (List.mem_map_of_mem hfield) (hfields field hfield).2
    | update target fields location =>
      obtain ⟨htarget, hmade⟩ := hmade
      have hfields := madeOf_of_mem_fields hmade
      rw [Readable, pieces, lexemes]
      refine .symbol (by decide) (.append (hinner target (by simp [children]) htarget)
        (.symbol (by decide) (.append (fields_read ?_ ?_) (.symbol (by decide) .nil))))
      · exact fun field hfield => (hfields field hfield).1
      · intro field hfield
        exact hinner field.2 (List.mem_cons_of_mem _ (List.mem_map_of_mem hfield))
          (hfields field hfield).2
    | function parameters body location =>
      obtain ⟨hparameters, hbody⟩ := hmade
      rw [Readable, pieces, lexemes]
      refine .symbol (by decide) (.append (names_read hparameters) (.symbol (by decide) ?_))
      exact hinner body (by simp [children]) hbody
    | get object name location =>
      obtain ⟨hobject, hscanned, hkind⟩ := hmade
      rw [Readable, pieces, lexemes]
      refine .append (hinner object (by simp [children]) hobject) (.symbol (by decide) ?_)
      exact .lexeme (hscanned.written (by simp [hkind])) .nil
    | select scrutinee arms location => exact hline.fitsLine.elim
    | unknown reason => exact htidy.elim

end Expr

end Slick
