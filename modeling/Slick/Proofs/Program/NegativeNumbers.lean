import Slick.Proofs.Decimal.Accuracy
import Slick.Proofs.Program.NumberTexts

/-!
# Negative numbers in sources

A minus sign in front of a numeral makes a negative literal. The numeral alone is read exactly,
however long it is, while the negative is rounded to the precision of the standard context. Less
than a million digits keep it within the exponents of that context. Main statement:
`Program.negative_numbers`.
-/

namespace Slick

open Grammar

namespace Decimal

variable {whole fraction : List Char}

/-- A numeral with its digits in front of the point and behind it. -/
def numeral (whole fraction : List Char) : Lexeme :=
  ⟨.number, String.ofList (whole ++ fractionText fraction), .decimal (.ofNumeral whole fraction)⟩

/-- The negative of a numeral of less than a million digits is rounded correctly to 28 digits. -/
theorem negate_numeral (hwhole : whole ≠ []) (hdigits : ∀ c ∈ whole ++ fraction, c.isDigit = true)
    (hlength : (whole ++ fraction).length ≤ 999999) :
    ∃ v, negate .standard (ofNumeral whole fraction) = .ok v ∧
      RoundedNegative 28 (ofDigits (whole ++ fraction)) (-fraction.length) v := by
  have hpos : 0 < whole.length := List.length_pos_iff.mpr hwhole
  rw [List.length_append] at hlength
  have hcount : digitCount (ofDigits (whole ++ fraction)) ≤ whole.length + fraction.length := by
    rw [← List.length_append]
    exact (digitCount_le_iff (by rw [List.length_append]; omega)).mpr (ofDigits_lt hdigits)
  have hleast : Context.standard.least = -1000026 := rfl
  have hmost : Context.standard.maxExponent = 999999 := rfl
  exact negate_rounded Context.standard_sound (by omega) (by omega)

/-- Digits with a point are written as one numeral. -/
theorem written_numeral {keywords : Keywords} (hwhole : whole ≠ [])
    (hdigits : ∀ c ∈ whole ++ fraction, c.isDigit = true) :
    (numeral whole fraction).Written keywords := by
  rw [List.forall_mem_append] at hdigits
  exact Lexeme.written_numeral hwhole hdigits.1 hdigits.2

/-- A numeral has no line breaks, also behind a minus sign. -/
theorem numeral_plain (hdigits : ∀ c ∈ whole ++ fraction, c.isDigit = true) :
    ∀ c ∈ '-' :: (whole ++ fractionText fraction), c ≠ '\n' ∧ c ≠ '\r' := by
  have hdigit : ∀ c : Char, c.isDigit = true → c ≠ '\n' ∧ c ≠ '\r' := by
    intro c hc
    constructor
    · rintro rfl
      cases hc
    · rintro rfl
      cases hc
  rw [List.forall_mem_append] at hdigits
  rw [List.forall_mem_cons, List.forall_mem_append]
  refine ⟨by decide, fun c hc => hdigit c (hdigits.1 c hc), fun c hc => ?_⟩
  cases fraction with
  | nil => cases hc
  | cons d more =>
    rw [fractionText_of_ne_nil (by simp)] at hc
    rcases List.mem_cons.mp hc with rfl | hc
    · decide
    · exact hdigit c (hdigits.2 c hc)

end Decimal

namespace Expr

variable {minus number : Token} {d v : Decimal}

/-- A minus sign and a number are read as one literal. -/
theorem primary_negative (hminus : minus.kind = .minus) (hnumber : number.kind = .number)
    (hvalue : number.value = .decimal d) (hnegate : d.negate .standard = .ok v)
    (expr : Parser Expr) (ctx : Parser.Context) (rest : List Token) :
    primary expr ctx (minus :: number :: rest) =
      .ok (.literal (.decimal v) (minus.location ctx.path)) rest := by
  have hliteral : ¬(minus.kind = .number ∨ minus.kind = .text ∨ minus.isTruth = true) := by
    simp [hminus, Lexeme.isTruth]
  have hnegative : number.value.negate = .ok (.decimal v) := by
    rw [hvalue, Value.negate, hnegate]
  rw [primary, Parser.peek_bind_cons, Parser.peekSecond_bind_cons, if_neg hliteral,
    if_pos ⟨hminus, hnumber⟩, Parser.advance_bind_cons, Parser.advance_bind_cons, negated,
    hnegative]
  rfl

/-- A number on its own is read as it is. -/
theorem primary_number (hnumber : number.kind = .number) (hvalue : number.value = .decimal d)
    (expr : Parser Expr) (ctx : Parser.Context) (rest : List Token) :
    primary expr ctx (number :: rest) =
      .ok (.literal (.decimal d) (number.location ctx.path)) rest := by
  rw [primary, Parser.peek_bind_cons, Parser.peekSecond_bind_cons, if_pos (.inl hnumber), ← hvalue]
  rfl

end Expr

namespace Program

variable {keywords : Keywords} {whole fraction : List Char}

/-- A numeral to which the name `x` is given is read exactly. -/
theorem parse_numeral (hwhole : whole ≠ []) (hdigits : ∀ c ∈ whole ++ fraction, c.isDigit = true)
    (hx : "x" ∉ keywords) (path : Option String) :
    Program.parse keywords ("x : " ++ String.ofList (whole ++ Decimal.fractionText fraction)) path =
      .ok ⟨[.binding ((Lexeme.name "x").place 1 1)
        (.literal (.decimal (.ofNumeral whole fraction)) ⟨⟨1, 5⟩, path⟩)
        ⟨⟨1, 1⟩, path⟩], path⟩ := by
  have hreturn : '\r' ∉ (Decimal.numeral whole fraction).text.toList := by
    rw [Decimal.numeral, String.toList_ofList]
    intro hmem
    exact (Decimal.numeral_plain hdigits '\r' (List.mem_cons_of_mem _ hmem)).2 rfl
  exact parse_literal (Decimal.written_numeral hwhole hdigits) (.inl rfl) hreturn hx path

/-- A minus sign and a numeral, to which the name `x` is given, are read as the negative of the
numeral. -/
theorem parse_negative {v : Decimal} (hwhole : whole ≠ [])
    (hdigits : ∀ c ∈ whole ++ fraction, c.isDigit = true)
    (hnegate : Decimal.negate .standard (.ofNumeral whole fraction) = .ok v) (hx : "x" ∉ keywords)
    (path : Option String) :
    Program.parse keywords
        ("x : " ++ String.ofList ('-' :: (whole ++ Decimal.fractionText fraction))) path =
      .ok ⟨[.binding ((Lexeme.name "x").place 1 1) (.literal (.decimal v) ⟨⟨1, 5⟩, path⟩)
        ⟨⟨1, 1⟩, path⟩], path⟩ := by
  have hends : (Decimal.numeral whole fraction).Ends keywords [] :=
    (Decimal.written_numeral hwhole hdigits).ends
  have hminus : (Symbol.lexeme ['-'] .minus).Ends keywords
      ((Decimal.numeral whole fraction).text.toList ++ []) := Line.ends_minus rfl hends
  have htiled : Line.Tiled keywords 1 4
      (' ' :: ((Symbol.lexeme ['-'] .minus).text.toList ++
        ((Decimal.numeral whole fraction).text.toList ++ [])))
      [(Symbol.lexeme ['-'] .minus).place 1 5, (Decimal.numeral whole fraction).place 1 6] :=
    .blank (.inl rfl) (.token hminus (.token hends (.finished (.inl rfl))))
  rw [List.append_nil, Decimal.numeral, Symbol.lexeme, String.toList_ofList, String.toList_ofList]
    at htiled
  have hspells : Spells path Apart
      [(Symbol.lexeme ['-'] .minus).place 1 5, (Decimal.numeral whole fraction).place 1 6]
      (phraseAt 8 (.literal (.decimal v) ⟨⟨1, 5⟩, path⟩)) :=
    .negative rfl rfl (by rw [Lexeme.toLexeme_place, Decimal.numeral, Value.negate, hnegate])
  exact parse_named hx (Decimal.numeral_plain hdigits) htiled
    (hspells.of_rank_le (Nat.zero_le 8))

/-- **Negative literals are rounded correctly, and exact up to 28 digits.** A numeral with fewer
than a million digits stands for its whole part and its fraction, that is for `c · 10 ^ x`, where
`c` has the digits of the numeral and `-x` counts those behind the point. Without a sign it is read
as exactly that, and behind a minus sign as the negative rounded to 28 digits, wherever the two
tokens stand and from the source text on. -/
theorem negative_numbers (hwhole : whole ≠ [])
    (hdigits : ∀ c ∈ whole ++ fraction, c.isDigit = true)
    (hlength : (whole ++ fraction).length ≤ 999999) :
    ∃ v, Decimal.RoundedNegative 28 (Decimal.ofDigits (whole ++ fraction)) (-fraction.length) v ∧
      (Decimal.ofNumeral whole fraction).value? =
        some ((Decimal.ofDigits (whole ++ fraction) : ℚ) * 10 ^ (-fraction.length : ℤ)) ∧
      (Decimal.ofNumeral whole fraction).value? =
        some ((Decimal.ofDigits whole : ℚ) + Decimal.ofDigits fraction / 10 ^ fraction.length) ∧
      (∀ (expr : Parser Expr) (ctx : Parser.Context) (minus number : Token) (rest : List Token),
        minus.kind = .minus → number.kind = .number →
        number.value = .decimal (.ofNumeral whole fraction) →
        Expr.primary expr ctx (minus :: number :: rest) =
            .ok (.literal (.decimal v) (minus.location ctx.path)) rest ∧
          Expr.primary expr ctx (number :: rest) =
            .ok (.literal (.decimal (.ofNumeral whole fraction)) (number.location ctx.path))
              rest) ∧
      ∀ keywords : Keywords, "x" ∉ keywords → ∀ path,
        Program.parse keywords
            ("x : " ++ String.ofList ('-' :: (whole ++ Decimal.fractionText fraction))) path =
          .ok ⟨[.binding ((Lexeme.name "x").place 1 1) (.literal (.decimal v) ⟨⟨1, 5⟩, path⟩)
            ⟨⟨1, 1⟩, path⟩], path⟩ ∧
        Program.parse keywords
            ("x : " ++ String.ofList (whole ++ Decimal.fractionText fraction)) path =
          .ok ⟨[.binding ((Lexeme.name "x").place 1 1)
            (.literal (.decimal (.ofNumeral whole fraction)) ⟨⟨1, 5⟩, path⟩)
            ⟨⟨1, 1⟩, path⟩], path⟩ := by
  obtain ⟨v, hnegate, hrounded⟩ := Decimal.negate_numeral hwhole hdigits hlength
  refine ⟨v, hrounded, rfl, Decimal.value?_ofNumeral whole fraction, ?_, ?_⟩
  · intro expr ctx minus number rest hminus hnumber hvalue
    exact ⟨Expr.primary_negative hminus hnumber hvalue hnegate expr ctx rest,
      Expr.primary_number hnumber hvalue expr ctx rest⟩
  · intro keywords hx path
    exact ⟨parse_negative hwhole hdigits hnegate hx path, parse_numeral hwhole hdigits hx path⟩

/-- Twenty-eight nines in front of the point and a five behind it are a tie, and rounding carries
into one more digit. -/
theorem negative_numbers_carry :
    Decimal.RoundedNegative 28 99999999999999999999999999995 (-1)
        (.finite true 1000000000000000000000000000 1) ∧
      Program.parse Keywords.standard "x : -9999999999999999999999999999.5" none =
        .ok ⟨[.binding ((Lexeme.name "x").place 1 1)
          (.literal (.decimal (.finite true 1000000000000000000000000000 1)) ⟨⟨1, 5⟩, none⟩)
          ⟨⟨1, 1⟩, none⟩], none⟩ := by
  have hwhole : "9999999999999999999999999999".toList ≠ [] := by decide
  have hdigits : ∀ c ∈ "9999999999999999999999999999".toList ++ ['5'], c.isDigit = true :=
    List.all_eq_true.mp (by decide)
  have hlength : ("9999999999999999999999999999".toList ++ ['5']).length ≤ 999999 := by decide
  obtain ⟨v, hrounded, -, -, -, hparse⟩ := negative_numbers hwhole hdigits hlength
  have hnegate : Decimal.negate .standard
      (.ofNumeral "9999999999999999999999999999".toList ['5']) =
        .ok (.finite true 1000000000000000000000000000 1) := by decide +kernel
  have hsource := parse_negative hwhole hdigits hnegate (by decide : "x" ∉ Keywords.standard) none
  have hsame := (hparse Keywords.standard (by decide) none).1.symm.trans hsource
  obtain rfl : v = .finite true 1000000000000000000000000000 1 := by simpa using hsame
  exact ⟨hrounded, hsource⟩

end Program

end Slick
