import Slick.Display
import Slick.Proofs.Decimal.Text
import Slick.Proofs.TypeExpr.Text

/-!
# What the labels of a tree say

The leaves of a display tree show literals, names and types as texts. For what a program is made of
the texts say everything: a literal is told by its first character to be a number, a text or a
truth value, and its text determines it; a subtype is cut at the first blank of its label. Main
statements: `Value.toText_injective` and `Stmt.subtypeLabel_injective`.
-/

namespace Slick

/-- Finite numbers, texts and truth values. -/
inductive Value.IsSimple : Value → Prop where
  | decimal (negative : Bool) (coefficient : Nat) (exponent : Int) :
    IsSimple (.decimal (.finite negative coefficient exponent))
  | text (s : String) : IsSimple (.text s)
  | bool (b : Bool) : IsSimple (.bool b)

/-- What fits a context is a finite number. -/
theorem Decimal.finite_of_fit {ctx : Context} {negative : Bool} {coefficient : Nat}
    {exponent : Int} {d : Decimal} (h : fit ctx negative coefficient exponent = .ok d) :
    ∃ negative' coefficient' exponent', d = finite negative' coefficient' exponent' := by
  simp only [fit] at h
  repeat' split at h
  all_goals first
    | cases h
      exact ⟨_, _, _, rfl⟩
    | cases h

namespace Value

variable {keywords : Keywords}

/-- Values that are made of known lexemes are simple. -/
theorem MadeOf.isSimple {value : Value} (h : value.MadeOf (Lexeme.Known keywords)) :
    value.IsSimple := by
  obtain ⟨lexeme, hknown, ⟨hkind, rfl⟩ | ⟨hkind, hnegate⟩⟩ := h
  · rcases hkind with hkind | hkind | htruth
    · obtain ⟨whole, fraction, -, -, -, hvalue⟩ := hknown.numeral hkind
      rw [hvalue]
      exact .decimal false _ _
    · obtain ⟨s, hvalue⟩ := hknown.text_value hkind
      rw [hvalue]
      exact .text s
    · obtain ⟨-, b, hvalue⟩ := Lexeme.isTruth_iff.mp htruth
      rw [hvalue]
      exact .bool b
  · obtain ⟨whole, fraction, -, -, -, hvalue⟩ := hknown.numeral hkind
    rw [hvalue, negate] at hnegate
    split at hnegate
    · next negative hfit =>
      cases hnegate
      obtain ⟨n, c, x, rfl⟩ := Decimal.finite_of_fit hfit
      exact .decimal n c x
    · cases hnegate

/-- A number starts with a digit or a minus sign. -/
theorem head_decimal (negative : Bool) (coefficient : Nat) (exponent : Int) :
    ∃ c ∈ (toText (.decimal (.finite negative coefficient exponent))).toList.head?,
      c = '-' ∨ c.isDigit = true := by
  rw [toText, Decimal.toText, String.toList_ofList, Decimal.chars]
  cases negative with
  | true => exact ⟨'-', by simp [Decimal.signText], .inl rfl⟩
  | false =>
    obtain ⟨c, hc, hdigit⟩ := Decimal.head_magnitudeText coefficient exponent
    exact ⟨c, by simpa [Decimal.signText] using hc, .inr hdigit⟩

private theorem head_text (s : String) : (toText (.text s)).toList.head? = some '\'' := by
  simp [toText, quotedText, TextLiteral.encode]

private theorem head_bool (b : Bool) :
    ∃ c ∈ (toText (.bool b)).toList.head?, c = 'T' ∨ c = 'F' := by
  cases b with
  | true => exact ⟨'T', rfl, .inl rfl⟩
  | false => exact ⟨'F', rfl, .inr rfl⟩

private theorem decimal_ne_text (negative : Bool) (coefficient : Nat) (exponent : Int)
    (s : String) :
    toText (.decimal (.finite negative coefficient exponent)) ≠ toText (.text s) := by
  intro h
  obtain ⟨c, hc, hfirst⟩ := head_decimal negative coefficient exponent
  rw [h, head_text, Option.mem_some_iff] at hc
  subst hc
  rcases hfirst with hfirst | hfirst <;> cases hfirst

private theorem decimal_ne_bool (negative : Bool) (coefficient : Nat) (exponent : Int) (b : Bool) :
    toText (.decimal (.finite negative coefficient exponent)) ≠ toText (.bool b) := by
  intro h
  obtain ⟨c, hc, hfirst⟩ := head_decimal negative coefficient exponent
  obtain ⟨d, hd, hletter⟩ := head_bool b
  rw [h] at hc
  obtain rfl := Option.mem_unique hc hd
  rcases hletter with rfl | rfl <;> rcases hfirst with hfirst | hfirst <;> cases hfirst

private theorem text_ne_bool (s : String) (b : Bool) : toText (.text s) ≠ toText (.bool b) := by
  intro h
  obtain ⟨d, hd, hletter⟩ := head_bool b
  rw [← h, head_text, Option.mem_some_iff] at hd
  subst hd
  rcases hletter with hletter | hletter <;> cases hletter

/-- A text is determined by its literal. -/
theorem quotedText_injective {s s' : String} (h : quotedText s = quotedText s') : s = s' := by
  have hchars := String.ofList_inj.mp h
  simp only [TextLiteral.encode, List.cons.injEq, true_and] at hchars
  have hread := congrArg TextLiteral.body hchars
  rw [TextLiteral.body_encode, TextLiteral.body_encode] at hread
  exact String.toList_inj.mp (TextLiteral.Body.closed.inj hread).1

/-- **A simple value is determined by its text.** -/
theorem toText_injective {value value' : Value} (hvalue : value.IsSimple)
    (hvalue' : value'.IsSimple) (h : value.toText = value'.toText) : value = value' := by
  cases hvalue with
  | decimal n c x =>
    cases hvalue' with
    | decimal n' c' x' => rw [Decimal.chars_injective (String.ofList_inj.mp h)]
    | text s => exact absurd h (decimal_ne_text n c x s)
    | bool b => exact absurd h (decimal_ne_bool n c x b)
  | text s =>
    cases hvalue' with
    | decimal n c x => exact absurd h.symm (decimal_ne_text n c x s)
    | text s' => rw [quotedText_injective h]
    | bool b => exact absurd h (text_ne_bool s b)
  | bool b =>
    cases hvalue' with
    | decimal n c x => exact absurd h.symm (decimal_ne_bool n c x b)
    | text s => exact absurd h.symm (text_ne_bool s b)
    | bool b' => cases b <;> cases b' <;> first | rfl | exact absurd h (by decide)

end Value

variable {keywords : Keywords}

/-- Names are determined by their spelling. -/
theorem Token.toLexeme_of_text {token token' : Token}
    (hknown : Lexeme.Known keywords token.toLexeme)
    (hknown' : Lexeme.Known keywords token'.toLexeme)
    (hkind : token.kind = .ident ∨ token.kind = .uident)
    (hkind' : token'.kind = .ident ∨ token'.kind = .uident) (h : token.text = token'.text) :
    token.toLexeme = token'.toLexeme := by
  refine hknown.eq_of_text hknown' ?_ ?_ h
  · rcases hkind with hkind | hkind <;> rw [hkind] <;> exact ⟨rfl, nofun, nofun⟩
  · rcases hkind' with hkind | hkind <;> rw [hkind] <;> exact ⟨rfl, nofun, nofun⟩

/-- The payload in the label of a subtype, behind a blank. -/
def Stmt.payloadText : Option TypeExpr → List Char
  | none => []
  | some type => ' ' :: type.toText.toList

private theorem Stmt.toList_subtypeLabel (subtype : String × Option TypeExpr) :
    (subtypeLabel subtype).toList = subtype.1.toList ++ payloadText subtype.2 := by
  obtain ⟨name, payload⟩ := subtype
  cases payload with
  | none => simp [subtypeLabel, payloadText]
  | some type => simp [subtypeLabel, payloadText]

private theorem Stmt.head_payloadText (payload : Option TypeExpr) :
    ∀ c ∈ (payloadText payload).head?, Word.isPart c = false := by
  intro c hc
  cases payload with
  | none => simp [payloadText] at hc
  | some type =>
    obtain rfl : ' ' = c := by simpa [payloadText] using hc
    exact Word.isPart_blank

/-- **The label of a subtype determines its name and its payload.** -/
theorem Stmt.subtypeLabel_injective {subtype subtype' : String × Option TypeExpr}
    (hmade : SubtypeMadeOf (Lexeme.Known keywords) subtype)
    (hmade' : SubtypeMadeOf (Lexeme.Known keywords) subtype')
    (h : subtypeLabel subtype = subtypeLabel subtype') : subtype = subtype' := by
  obtain ⟨⟨lexeme, hknown, hkind, hname⟩, hpayload⟩ := hmade
  obtain ⟨⟨lexeme', hknown', hkind', hname'⟩, hpayload'⟩ := hmade'
  have hchars := congrArg String.toList h
  rw [toList_subtypeLabel, toList_subtypeLabel] at hchars
  have hword := hknown.isWord (.inr hkind)
  have hword' := hknown'.isWord (.inr hkind')
  rw [hname] at hword
  rw [hname'] at hword'
  obtain ⟨hsame, hmore⟩ := Text.run_unique hword.2 hword'.2 (head_payloadText subtype.2)
    (head_payloadText subtype'.2) hchars
  obtain ⟨name, payload⟩ := subtype
  obtain ⟨name', payload'⟩ := subtype'
  obtain rfl : name = name' := String.toList_inj.mp hsame
  cases payload with
  | none =>
    cases payload' with
    | none => rfl
    | some type' => cases hmore
  | some type =>
    cases payload' with
    | none => cases hmore
    | some type' =>
      have htext := String.toList_inj.mp (List.cons.inj hmore).2
      rw [TypeExpr.toText_injective (hpayload type rfl) (hpayload' type' rfl) htext]

end Slick
