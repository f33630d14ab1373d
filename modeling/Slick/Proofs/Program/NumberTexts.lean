import Slick.Proofs.Grammar.Spans
import Slick.Proofs.Program.Printing

/-!
# The texts of numbers in sources

A number in a program is shown with an exponent or without one. Without an exponent its text is a
numeral with its sign, which is read back as the same number. With an exponent it is no literal: the
letter `E` is a name behind a number, so the number is called with it, and the digits of the
exponent are added or subtracted. Main statement: `Program.number_texts`.
-/

namespace Slick

open Grammar Layout

namespace Decimal

variable {negative : Bool} {coefficient : Nat} {exponent : Int}

private theorem needsExponent_iff : needsExponent coefficient exponent = true ↔
    0 < exponent ∨ (digitCount coefficient : Int) + exponent - 1 < -6 := by
  simp [needsExponent]

/-- The characters of the text of a number. -/
theorem mem_chars {c : Char} (h : c ∈ chars (finite negative coefficient exponent)) :
    c.isDigit = true ∨ c ∈ ['-', '.', '+'] ∨
      (c = 'E' ∧ needsExponent coefficient exponent = true) := by
  obtain ⟨whole, fraction, hshape⟩ := magnitudeText_shape coefficient exponent
  rw [chars, hshape.text, List.mem_append, List.mem_append, List.mem_append] at h
  rcases h with hsign | hwhole | hfraction | hexponent
  · unfold signText at hsign
    split at hsign <;> simp_all
  · exact .inl (hshape.whole_digits c hwhole)
  · cases fraction with
    | nil => cases hfraction
    | cons d more =>
      rcases List.mem_cons.mp hfraction with rfl | hdigit
      · exact .inr (.inl (by decide))
      · exact .inl (hshape.fraction_digits c hdigit)
  · unfold exponentPart at hexponent
    split at hexponent
    · next hneeds =>
      simp only [exponentText, List.mem_cons] at hexponent
      rcases hexponent with rfl | hsign | hdigit
      · exact .inr (.inr ⟨rfl, hneeds⟩)
      · split at hsign <;> simp [hsign]
      · exact .inl (isDigit_of_mem_digits hdigit)
    · cases hexponent

/-- The letter of the exponent is in the text exactly if there is an exponent. -/
theorem mem_toText_iff : 'E' ∈ (finite negative coefficient exponent).toText.toList ↔
    needsExponent coefficient exponent = true := by
  rw [toText, String.toList_ofList]
  constructor
  · intro h
    rcases mem_chars h with hdigit | hsign | ⟨-, hneeds⟩
    · cases hdigit
    · exact absurd hsign (by decide)
    · exact hneeds
  · intro h
    rw [chars, magnitudeText]
    simp [h, exponentText]

/-- The text of a number has no line breaks. -/
theorem chars_plain : ∀ c ∈ chars (finite negative coefficient exponent), c ≠ '\n' ∧ c ≠ '\r' := by
  intro c hc
  rcases mem_chars hc with hdigit | hsign | ⟨rfl, -⟩
  · constructor
    · rintro rfl
      cases hdigit
    · rintro rfl
      cases hdigit
  · constructor
    · rintro rfl
      exact absurd hsign (by decide)
    · rintro rfl
      exact absurd hsign (by decide)
  · decide

end Decimal

namespace Lexeme

variable {keywords : Keywords}

/-- A numeral ends in front of what is neither a digit nor a point. -/
theorem ends_numeral {whole fraction rest : List Char} (hne : whole ≠ [])
    (hwhole : ∀ c ∈ whole, c.isDigit = true) (hfraction : ∀ c ∈ fraction, c.isDigit = true)
    (hrest : ∀ c ∈ rest.head?, c.isDigit = false ∧ c ≠ '.') :
    Ends keywords ⟨.number, String.ofList (whole ++ Decimal.fractionText fraction),
      .decimal (.ofNumeral whole fraction)⟩ rest := by
  have hdigit : ∀ c ∈ rest.head?, c.isDigit = false := fun c hc => (hrest c hc).1
  cases fraction with
  | nil =>
    rw [Decimal.fractionText, List.append_nil]
    refine .numeral hne hwhole hdigit ?_
    rintro d more rfl
    exact absurd rfl (hrest '.' rfl).2
  | cons d more =>
    rw [Decimal.fractionText_of_ne_nil (by simp)]
    exact .fraction hne hwhole (by simp) hfraction hdigit

end Lexeme

/-- A letter that is not reserved is a name, of a type if it is a capital. -/
theorem Word.lexeme_letter {keywords : Keywords} {c : Char} (h : String.ofList [c] ∉ keywords) :
    lexeme keywords [c] = ⟨if isCapitalized [c] then .uident else .ident, String.ofList [c],
      .text (String.ofList [c])⟩ := by
  have hlong : ∀ word : String, word.length ≠ 1 → String.ofList [c] ≠ word := by
    rintro _ hlength rfl
    exact hlength (by simp)
  simp only [lexeme, if_neg (hlong "fn" (by decide)), if_neg (hlong "True" (by decide)),
    if_neg (hlong "False" (by decide)), if_neg h]
  split <;> rfl

namespace Program

variable {keywords : Keywords}

/-- A line that gives the name `x` to what the text is read as. -/
theorem parse_named {text : List Char} {body : List Token} {e : Expr} (hx : "x" ∉ keywords)
    (hplain : ∀ c ∈ text, c ≠ '\n' ∧ c ≠ '\r')
    (htiled : Line.Tiled keywords 1 4 (' ' :: text) body)
    {path : Option String} (hspells : Spells path Apart body (.expression e)) :
    Program.parse keywords ("x : " ++ String.ofList text) path =
      .ok ⟨[.binding ((Lexeme.name "x").place 1 1) e ⟨⟨1, 1⟩, path⟩], path⟩ := by
  have hsource : ("x : " ++ String.ofList text).toList = ['x', ' ', ':', ' '] ++ text := by simp
  have hbreak : ∀ c ∈ ['x', ' ', ':', ' '] ++ text, c ≠ '\n' ∧ c ≠ '\r' := by
    rw [List.forall_mem_append]
    exact ⟨by simp, hplain⟩
  have hlines : Text.lines (['x', ' ', ':', ' '] ++ text) = [] ++ [['x', ' ', ':', ' '] ++ text] :=
    Text.lines_of_newline_notMem fun hmem => (hbreak _ hmem).1 rfl
  have htrim : Text.trimReturns (['x', ' ', ':', ' '] ++ text) = ['x', ' ', ':', ' '] ++ text :=
    Text.trimReturns_of_last fun hlast => (hbreak _ (List.mem_of_getLast? hlast)).2 rfl
  have hname : (Lexeme.name "x").Ends keywords (' ' :: ':' :: ' ' :: text) := by
    have hletter := Word.lexeme_letter (c := 'x') hx
    have hends : (Word.lexeme keywords ['x']).Ends keywords (' ' :: ':' :: ' ' :: text) :=
      .word (by decide) (by simp; decide)
    rwa [hletter] at hends
  have hcolon : (Symbol.lexeme [':'] .colon).Ends keywords (' ' :: text) :=
    .symbol (by decide) (by simp) (by simp)
  have hscan : Line.scan keywords path 1 (['x', ' ', ':', ' '] ++ text) =
      .ok ((Lexeme.name "x").place 1 1 :: (Symbol.lexeme [':'] .colon).place 1 3 :: body) :=
    (Line.Tiled.token hname (.blank (.inl rfl) (.token hcolon htiled))).scanAt_eq
  have hstmt : SpellsStmt path Apart
      ((Lexeme.name "x").place 1 1 :: (Symbol.lexeme [':'] .colon).place 1 3 :: body)
      (.binding ((Lexeme.name "x").place 1 1) e ⟨⟨1, 1⟩, path⟩) :=
    .binding rfl rfl (.inline hspells)
  obtain ⟨added, hadd, hprogram⟩ := addLine_of_spells rfl hscan hstmt
  rw [← htrim] at hadd
  refine parse_eq_ok_iff.mpr ⟨[] ++ added, {}, ?_, ?_, rfl⟩
  · rw [hsource, hlines]
    exact .step .start hadd
  · simpa [dedents] using hprogram

/-- A literal to which the name `x` is given is read as its value. -/
theorem parse_literal {l : Lexeme} (hl : l.Written keywords)
    (hkind : l.kind = .number ∨ l.kind = .text ∨ l.isTruth = true)
    (hreturn : '\r' ∉ l.text.toList) (hx : "x" ∉ keywords) (path : Option String) :
    Program.parse keywords ("x : " ++ l.text) path =
      .ok ⟨[.binding ((Lexeme.name "x").place 1 1) (.literal l.value ⟨⟨1, 5⟩, path⟩)
        ⟨⟨1, 1⟩, path⟩], path⟩ := by
  have hplain : ∀ c ∈ l.text.toList, c ≠ '\n' ∧ c ≠ '\r' := by
    intro c hc
    constructor
    · rintro rfl
      exact hl.newline hc
    · rintro rfl
      exact hreturn hc
  have htiled : Line.Tiled keywords 1 4 (' ' :: (l.text.toList ++ [])) [l.place 1 5] :=
    .blank (.inl rfl) (.token hl.ends (.finished (.inl rfl)))
  rw [List.append_nil] at htiled
  have hspells : Spells path Apart [l.place 1 5] (phraseAt 8 (.literal l.value ⟨⟨1, 5⟩, path⟩)) :=
    .literal hkind
  have hparse := parse_named hx hplain htiled (hspells.of_rank_le (Nat.zero_le 8))
  rwa [String.ofList_toList] at hparse

/-- The text of a number without an exponent is read as the number. -/
theorem parse_positional {negative : Bool} {coefficient : Nat} {exponent : Int}
    (h : (Value.decimal (.finite negative coefficient exponent)).IsLiteral)
    (htext : Decimal.needsExponent coefficient exponent = false) (hx : "x" ∉ keywords)
    (path : Option String) :
    ∃ location, Program.parse keywords
        ("x : " ++ (Decimal.finite negative coefficient exponent).toText) path =
      .ok ⟨[.binding ((Lexeme.name "x").place 1 1)
        (.literal (.decimal (.finite negative coefficient exponent)) location) ⟨⟨1, 1⟩, path⟩],
        path⟩ := by
  obtain ⟨body, hlexemes, htiled⟩ := (Decimal.reads h htext).tiled 1 4
  have hspaced : Line.spaced [(Decimal.finite negative coefficient exponent).toText] =
      ' ' :: Decimal.chars (.finite negative coefficient exponent) := by
    simp [Line.spaced, Decimal.toText]
  have hliteral : Spelled 8
      (.literal (.decimal (.finite negative coefficient exponent)) ⟨⟨0, 0⟩, none⟩) :=
    literal_spelled h
  obtain ⟨e, hspells, hsame⟩ := hliteral.expression path hlexemes
  rw [hspaced] at htiled
  have hparse := parse_named hx Decimal.chars_plain htiled hspells
  cases e <;> simp only [Expr.unplaced, Expr.moved, reduceCtorEq] at hsame
  next value location =>
  obtain ⟨rfl, -⟩ := Expr.literal.inj hsame
  exact ⟨location, hparse⟩

end Program

/-- A sum or difference whose left side is the call of a number with the name `E`. -/
def Expr.CallsNumberWithE : Expr → Prop
  | .binary (.call (.literal (.decimal _) _) [.reference name _] _) operator _ _ =>
    name.text = "E" ∧ (operator.kind = .plus ∨ operator.kind = .minus)
  | _ => False

namespace Decimal

/-- The numeral in front of an exponent: the digits of the coefficient with a point behind the
first of them. -/
def mantissa (coefficient : Nat) : Lexeme :=
  ⟨.number,
    String.ofList ((digits coefficient).take 1 ++ fractionText ((digits coefficient).drop 1)),
    .decimal (.ofNumeral ((digits coefficient).take 1) ((digits coefficient).drop 1))⟩

/-- The sign of an exponent. -/
def powerSign (power : Int) : Lexeme :=
  if power < 0 then Symbol.lexeme ['-'] .minus else Symbol.lexeme ['+'] .plus

/-- The digits of an exponent. -/
def powerNumeral (power : Int) : Lexeme :=
  ⟨.number, String.ofList (digits power.natAbs), .decimal (.ofNumeral (digits power.natAbs) [])⟩

private theorem mantissa_ends {keywords : Keywords} {coefficient : Nat} {rest : List Char}
    (hrest : ∀ c ∈ rest.head?, c.isDigit = false ∧ c ≠ '.') :
    (mantissa coefficient).Ends keywords rest := by
  refine Lexeme.ends_numeral ?_ (fun c hc => ?_) (fun c hc => ?_) hrest
  · rw [Ne, List.take_eq_nil_iff, not_or]
    exact ⟨by decide, digits_ne_nil coefficient⟩
  · exact isDigit_of_mem_digits (List.mem_of_mem_take hc)
  · exact isDigit_of_mem_digits (List.mem_of_mem_drop hc)

/-- The digits in front of an exponent have a negative: there are never too many of them in front of
the point. -/
theorem exists_negate_mantissa (coefficient : Nat) :
    ∃ d, (mantissa coefficient).value.negate = .ok (.decimal d) := by
  have hvalue : ofDigits ((digits coefficient).take 1 ++ (digits coefficient).drop 1) =
      coefficient := by rw [List.take_append_drop, ofDigits_digits]
  obtain ⟨d, hd⟩ : ∃ d, negate .standard
      (.ofNumeral ((digits coefficient).take 1) ((digits coefficient).drop 1)) = .ok d := by
    rw [ofNumeral, hvalue]
    refine exists_fit (by decide) _ ?_
    have hmax : Context.standard.maxExponent = 999999 := rfl
    have hpos := digitCount_pos coefficient
    rw [List.length_drop, ← digitCount]
    omega
  exact ⟨d, by rw [mantissa, Value.negate, hd]⟩

/-- The text of a number with an exponent in its pieces. -/
theorem magnitudeText_pieces {coefficient : Nat} {exponent : Int}
    (h : needsExponent coefficient exponent = true) :
    magnitudeText coefficient exponent =
      (mantissa coefficient).text.toList ++ ("E".toList ++
        ((powerSign ((digits coefficient).length + exponent - 1)).text.toList ++
          ((powerNumeral ((digits coefficient).length + exponent - 1)).text.toList ++ []))) := by
  rw [magnitudeText, if_pos h, pointed_split (by decide), exponentText, powerSign]
  split <;> simp [mantissa, powerNumeral, Symbol.lexeme]

/-- **A number with an exponent is cut** into a numeral, the name `E`, a sign and a numeral. -/
theorem magnitudeText_tiled {keywords : Keywords} {coefficient : Nat} {exponent : Int}
    (h : needsExponent coefficient exponent = true) (hE : "E" ∉ keywords) (line column : Nat) :
    ∃ number name operator power : Token,
      number.toLexeme = mantissa coefficient ∧ name.toLexeme = ⟨.uident, "E", .text "E"⟩ ∧
      (operator.kind = .plus ∨ operator.kind = .minus) ∧ power.kind = .number ∧
      Line.Tiled keywords line column (magnitudeText coefficient exponent)
        [number, name, operator, power] := by
  rw [magnitudeText_pieces h]
  generalize ((digits coefficient).length : Int) + exponent - 1 = power
  have hnumeral : (powerNumeral power).Ends keywords [] :=
    .numeral (digits_ne_nil _) (fun _ => isDigit_of_mem_digits) (by simp) (by simp)
  have hsign : (powerSign power).Ends keywords ((powerNumeral power).text.toList ++ []) ∧
      ((powerSign power).kind = .plus ∨ (powerSign power).kind = .minus) ∧
      ∀ c ∈ ((powerSign power).text.toList ++ ((powerNumeral power).text.toList ++ [])).head?,
        Word.isPart c = false := by
    unfold powerSign
    split
    · exact ⟨Line.ends_minus rfl hnumeral, .inr rfl, by simp [Symbol.lexeme]; decide⟩
    · exact ⟨.symbol (by decide) (by simp) (by simp), .inl rfl, by simp [Symbol.lexeme]; decide⟩
  obtain ⟨hsignEnds, hkind, hpart⟩ := hsign
  have hname : (Word.lexeme keywords ['E']).Ends keywords
      ((powerSign power).text.toList ++ ((powerNumeral power).text.toList ++ [])) :=
    .word (by decide) hpart
  rw [Word.lexeme_letter hE] at hname
  have hnumber : (mantissa coefficient).Ends keywords ("E".toList ++
      ((powerSign power).text.toList ++ ((powerNumeral power).text.toList ++ []))) :=
    mantissa_ends (by simp)
  exact ⟨_, _, _, _, rfl, rfl, hkind, rfl, .token hnumber (.token hname (.token hsignEnds
    (.token hnumeral (.finished (.inl rfl)))))⟩

end Decimal

/-- A number with the name `E` behind it, a sign and a number spell a sum or a difference. -/
theorem Grammar.spells_exponential {front : List Token} {start name operator power : Token}
    {d : Decimal} {location : Location}
    (hfront : Spells path Apart front (.primary (.literal (.decimal d) location)))
    (hstart : front.head? = some start) (hname : name.toLexeme = ⟨.uident, "E", .text "E"⟩)
    (hoperator : operator.kind = .plus ∨ operator.kind = .minus) (hpower : power.kind = .number) :
    ∃ e, Spells path Apart (front ++ [name, operator, power]) (.expression e) ∧
      e.CallsNumberWithE := by
  have hkind : name.kind = .uident := by rw [hname]
  have harguments : Spells path Apart ([name] ++ [])
      (.arguments [.reference name (name.location path)]) :=
    .argument (.object (.reference (.inr hkind))) (by simp [hkind]) .noArguments
  have hcall : Spells path Apart (front ++ [name])
      (.call (.call (.literal (.decimal d) location) [.reference name (name.location path)]
        (start.location path))) :=
    .call (.object hfront) hstart harguments (by simp)
  have hright :
    Spells path Apart [power] (.level .product (.literal power.value (power.location path))) :=
    .operand (.callee (.object (.literal (.inl hpower))))
  have hadditive : Level.sum.isOperator operator = true := by
    rcases hoperator with hplus | hminus
    · simp [Level.isOperator, hplus, Kind.isAdditive]
    · simp [Level.isOperator, hminus, Kind.isAdditive]
  have hsum : Spells path Apart ((front ++ [name]) ++ operator :: [power]) (phraseAt 4
      (.binary (.call (.literal (.decimal d) location) [.reference name (name.location path)]
        (start.location path)) operator (.literal power.value (power.location path))
        (operator.location path))) :=
    .operation (.operand (.operand hcall)) hadditive hright
  have hwhole := hsum.of_rank_le (Nat.zero_le 4)
  rw [List.append_assoc] at hwhole
  exact ⟨_, hwhole, by rw [hname], hoperator⟩

namespace Program

variable {keywords : Keywords}

/-- The text of a number with an exponent is read as a call with the name `E`. -/
theorem parse_exponential {negative : Bool} {coefficient : Nat} {exponent : Int}
    (h : Decimal.needsExponent coefficient exponent = true) (hx : "x" ∉ keywords)
    (hE : "E" ∉ keywords) (path : Option String) :
    ∃ e, Program.parse keywords
        ("x : " ++ (Decimal.finite negative coefficient exponent).toText) path =
      .ok ⟨[.binding ((Lexeme.name "x").place 1 1) e ⟨⟨1, 1⟩, path⟩], path⟩ ∧
        e.CallsNumberWithE := by
  cases negative with
  | false =>
    obtain ⟨number, name, operator, power, hnumber, hname, hoperator, hpower, htiled⟩ :=
      Decimal.magnitudeText_tiled h hE 1 5
    have hliteral :
      Spells path Apart [number] (.primary (.literal number.value (number.location path))) :=
      .literal (.inl (by rw [hnumber]; rfl))
    rw [hnumber] at hliteral
    obtain ⟨e, hspells, hcalls⟩ := spells_exponential hliteral rfl hname hoperator hpower
    have hchars : Decimal.chars (.finite false coefficient exponent) =
        Decimal.magnitudeText coefficient exponent := rfl
    rw [← hchars] at htiled
    exact ⟨e, parse_named hx Decimal.chars_plain (.blank (.inl rfl) htiled) hspells, hcalls⟩
  | true =>
    obtain ⟨number, name, operator, power, hnumber, hname, hoperator, hpower, htiled⟩ :=
      Decimal.magnitudeText_tiled h hE 1 6
    obtain ⟨d, hnegate⟩ := Decimal.exists_negate_mantissa coefficient
    have hminus : (Symbol.lexeme ['-'] .minus).Ends keywords
        (Decimal.magnitudeText coefficient exponent) := by
      rw [Decimal.magnitudeText_pieces h]
      exact Line.ends_minus rfl (Decimal.mantissa_ends (by simp))
    have hsigned : Line.Tiled keywords 1 5 (Decimal.chars (.finite true coefficient exponent))
        [(Symbol.lexeme ['-'] .minus).place 1 5, number, name, operator, power] :=
      .token hminus htiled
    have hliteral : Spells path Apart [(Symbol.lexeme ['-'] .minus).place 1 5, number]
        (.primary (.literal (.decimal d) ⟨⟨1, 5⟩, path⟩)) :=
      .negative rfl (by rw [hnumber]; rfl) (by rw [hnumber, hnegate])
    obtain ⟨e, hspells, hcalls⟩ := spells_exponential hliteral rfl hname hoperator hpower
    exact ⟨e, parse_named hx Decimal.chars_plain (.blank (.inl rfl) hsigned) hspells, hcalls⟩

end Program

/-- A number that is made of known lexemes is a numeral, or what a minus sign makes of one. -/
theorem Value.MadeOf.isLiteral {keywords : Keywords} {d : Decimal}
    (h : (Value.decimal d).MadeOf (Lexeme.Known keywords)) : (Value.decimal d).IsLiteral := by
  obtain ⟨lexeme, hknown, ⟨hkind, hvalue⟩ | ⟨hkind, hnegate⟩⟩ := h
  · rcases hkind with hkind | hkind | htruth
    · obtain ⟨whole, fraction, -, -, -, hnumeral⟩ := hknown.numeral hkind
      rw [hnumeral] at hvalue
      obtain rfl := Value.decimal.inj hvalue
      exact ⟨_, _, .inl rfl⟩
    · obtain ⟨s, htext⟩ := hknown.text_value hkind
      rw [htext] at hvalue
      cases hvalue
    · obtain ⟨-, b, hbool⟩ := Lexeme.isTruth_iff.mp htruth
      rw [hbool] at hvalue
      cases hvalue
  · obtain ⟨whole, fraction, -, -, -, hnumeral⟩ := hknown.numeral hkind
    rw [hnumeral, Value.negate] at hnegate
    split at hnegate
    · next d' hd' =>
      cases hnegate
      exact ⟨_, _, .inr hd'⟩
    · cases hnegate

private theorem Value.IsLiteral.exists_finite {d : Decimal} (h : (Value.decimal d).IsLiteral) :
    ∃ negative coefficient exponent, d = .finite negative coefficient exponent := by
  obtain ⟨coefficient, exponent, rfl | hnegate⟩ := h
  · exact ⟨false, coefficient, exponent, rfl⟩
  · exact Decimal.finite_of_fit hnegate

namespace Program

variable {keywords : Keywords} {source : String} {path : Option String} {program : Program}

/-- The numbers in a program that is read are numerals, or what minus signs make of them. -/
theorem isLiteral_of_reached {d : Decimal} {location : Location}
    (h : Program.parse keywords source path = .ok program)
    (hd : .expr (.literal (.decimal d) location) ∈
      (program.statements.map Node.stmt).flatMap Node.reached) :
    (Value.decimal d).IsLiteral := by
  obtain ⟨body, final, hreaches, hspells, -⟩ := parse_eq_ok_iff.mp h
  obtain ⟨used, hused, hspelled, -⟩ := hspells.spread.reached _ hd
  have hknown : ∀ token ∈ used, token.toLexeme.Known keywords := by
    intro token htoken
    refine tokenize_known hreaches.tokenize_eq token ?_
    rw [close_eq_dedents, ← List.append_assoc]
    exact List.mem_append_left _ (hused.subset htoken)
  exact Value.MadeOf.isLiteral (Spells.madeOf hspelled hknown)

/-- **The text of a number is read back exactly or not as a number at all.** A number that occurs in
a program is finite, and its text has an exponent exactly if its exponent is positive or its leading
digit stands more than six places behind the point. Without an exponent, the text is read as a
literal of the same sign, coefficient and exponent. With an exponent it is read as a sum or a
difference, in which a number is called with the name `E`. -/
theorem number_texts {d : Decimal} {location : Location}
    (h : Program.parse keywords source path = .ok program)
    (hd : .expr (.literal (.decimal d) location) ∈
      (program.statements.map Node.stmt).flatMap Node.reached) :
    ∃ negative coefficient exponent, d = .finite negative coefficient exponent ∧
      ('E' ∈ (Value.decimal d).toText.toList ↔
        0 < exponent ∨ (Decimal.digitCount coefficient : Int) + exponent - 1 < -6) ∧
      ∀ keywords' : Keywords, "x" ∉ keywords' → ∀ path',
        ('E' ∉ (Value.decimal d).toText.toList → ∃ location',
          Program.parse keywords' ("x : " ++ (Value.decimal d).toText) path' =
            .ok ⟨[.binding ((Lexeme.name "x").place 1 1) (.literal (.decimal d) location')
              ⟨⟨1, 1⟩, path'⟩], path'⟩) ∧
        ('E' ∈ (Value.decimal d).toText.toList → "E" ∉ keywords' → ∃ e,
          Program.parse keywords' ("x : " ++ (Value.decimal d).toText) path' =
            .ok ⟨[.binding ((Lexeme.name "x").place 1 1) e ⟨⟨1, 1⟩, path'⟩], path'⟩ ∧
          e.CallsNumberWithE) := by
  have hliteral := isLiteral_of_reached h hd
  obtain ⟨negative, coefficient, exponent, rfl⟩ := hliteral.exists_finite
  have htext : (Value.decimal (.finite negative coefficient exponent)).toText =
      (Decimal.finite negative coefficient exponent).toText := by rw [Value.toText]
  rw [htext, Decimal.mem_toText_iff]
  refine ⟨negative, coefficient, exponent, rfl, Decimal.needsExponent_iff, fun keywords' hx path' =>
    ⟨fun hnone => ?_, fun hneeds hE => parse_exponential hneeds hx hE path'⟩⟩
  exact parse_positional hliteral (Bool.not_eq_true _ ▸ hnone) hx path'

/-- The tokens of a list of two numbers, of which the second is shown with an exponent. -/
def twoNumbers : List Token :=
  [⟨⟨.ident, "a", .text "a"⟩, ⟨1, 1⟩⟩, ⟨⟨.colon, ":", .nothing⟩, ⟨1, 3⟩⟩,
    ⟨⟨.lbracket, "[", .nothing⟩, ⟨1, 5⟩⟩, ⟨⟨.minus, "-", .nothing⟩, ⟨1, 6⟩⟩,
    ⟨⟨.number, "1.50", .decimal (.finite false 150 (-2))⟩, ⟨1, 7⟩⟩,
    ⟨⟨.comma, ",", .nothing⟩, ⟨1, 11⟩⟩,
    ⟨⟨.number, "0.0000001", .decimal (.finite false 1 (-7))⟩, ⟨1, 13⟩⟩,
    ⟨⟨.rbracket, "]", .nothing⟩, ⟨1, 22⟩⟩, ⟨.newline, ⟨1, 23⟩⟩, ⟨.eof, ⟨2, 1⟩⟩]

/-- The numbers of the list. -/
def twoLiterals : List Expr :=
  [.literal (.decimal (.finite true 150 (-2))) ⟨⟨1, 6⟩, none⟩,
    .literal (.decimal (.finite false 1 (-7))) ⟨⟨1, 13⟩, none⟩]

private theorem parse_twoNumbers : Program.parse Keywords.standard "a : [-1.50, 0.0000001]" none =
    .ok ⟨[.binding ⟨⟨.ident, "a", .text "a"⟩, ⟨1, 1⟩⟩ (.list twoLiterals ⟨⟨1, 5⟩, none⟩)
      ⟨⟨1, 1⟩, none⟩], none⟩ := by
  have htokens : tokenize Keywords.standard "a : [-1.50, 0.0000001]" none = .ok twoNumbers := rfl
  rw [Program.parse, htokens]
  rfl

private theorem reached_twoLiterals {name : Token} {listPlace place : Location} {e : Expr}
    (h : e ∈ twoLiterals) :
    .expr e ∈ ([Stmt.binding name (.list twoLiterals listPlace) place].map Node.stmt).flatMap
      Node.reached := by
  simp only [twoLiterals, List.mem_cons, List.not_mem_nil, or_false] at h
  simp [Node.reached_eq, Node.children, Expr.children, twoLiterals, h]

/-- Of two numbers in a list the first is read back from its text, and the text of the second is
read as a difference. -/
theorem number_texts_twoNumbers :
    (∃ location, Program.parse Keywords.standard "x : -1.50" none =
      .ok ⟨[.binding ((Lexeme.name "x").place 1 1)
        (.literal (.decimal (.finite true 150 (-2))) location) ⟨⟨1, 1⟩, none⟩], none⟩) ∧
    ∃ e, Program.parse Keywords.standard "x : 1E-7" none =
      .ok ⟨[.binding ((Lexeme.name "x").place 1 1) e ⟨⟨1, 1⟩, none⟩], none⟩ ∧
        e.CallsNumberWithE := by
  have hfirst : (Value.decimal (.finite true 150 (-2))).toText = "-1.50" := by decide +kernel
  have hsecond : (Value.decimal (.finite false 1 (-7))).toText = "1E-7" := by decide +kernel
  obtain ⟨-, -, -, -, -, hread⟩ := number_texts parse_twoNumbers
    (reached_twoLiterals (List.mem_cons_self : _ ∈ twoLiterals))
  obtain ⟨-, -, -, -, -, hread'⟩ := number_texts parse_twoNumbers
    (reached_twoLiterals (List.mem_cons_of_mem _ List.mem_cons_self : _ ∈ twoLiterals))
  rw [hfirst] at hread
  rw [hsecond] at hread'
  exact ⟨(hread Keywords.standard (by decide) none).1 (by decide),
    (hread' Keywords.standard (by decide) none).2 (by decide) (by decide)⟩

end Program

end Slick
