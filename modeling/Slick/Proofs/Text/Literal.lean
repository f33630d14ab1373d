import Mathlib.Tactic.Common
import Slick.TextLiteral

/-!
# What a text literal denotes

Between its quotes a text literal holds plain characters and known escapes, and each stands for one
character of the text. What is read behind an opening quote is told by that alone: the literal is
closed at the first quote that is not escaped, it runs to the end of the line, or it meets a
backslash without a known escape.
-/

namespace Slick.TextLiteral

/-- The characters, as they are written between quotes, denote the text. -/
inductive Denotes : List Char → List Char → Prop where
  | nil : Denotes [] []
  | plain {c : Char} {written value : List Char} :
    c ≠ '\'' → c ≠ '\\' → Denotes written value → Denotes (c :: written) (c :: value)
  | escape {letter meant : Char} {written value : List Char} :
    unescape? letter = some meant → Denotes written value →
    Denotes ('\\' :: letter :: written) (meant :: value)

/-- Every text is denoted by the characters that it is written with. -/
theorem denotes_encode (text : List Char) : Denotes (text.flatMap encodeChar) text := by
  induction text with
  | nil => exact .nil
  | cons c text ih =>
    rw [List.flatMap_cons, encodeChar]
    split
    · next hc => subst hc; exact .escape rfl ih
    split
    · next hc => subst hc; exact .escape rfl ih
    split
    · next hc => subst hc; exact .escape rfl ih
    split
    · next hc => subst hc; exact .escape rfl ih
    · next hslash hquote _ _ => exact .plain hquote hslash ih

/-- Written characters are read one after another in front of what follows them. -/
theorem Denotes.body_append {written value : List Char} (h : Denotes written value)
    (rest : List Char) :
    body (written ++ rest) =
      match body rest with
      | .closed value' written' behind => .closed (value ++ value') (written ++ written') behind
      | .unterminated => .unterminated
      | .badEscape offset => .badEscape (written.length + offset) := by
  induction h with
  | nil =>
    rw [List.nil_append]
    cases body rest <;> simp
  | plain hquote hslash _ ih =>
    rw [List.cons_append, body_plain hquote hslash, ih]
    cases body rest with
    | closed | unterminated => rfl
    | badEscape offset =>
      simp only [Body.push, List.length_cons, List.length_nil, Body.badEscape.injEq]
      omega
  | escape hletter _ ih =>
    rw [List.cons_append, List.cons_append, body_escape hletter, ih]
    cases body rest with
    | closed | unterminated => rfl
    | badEscape offset =>
      simp only [Body.push, List.length_cons, List.length_nil, Body.badEscape.injEq]
      omega

/-- Written characters go on up to the end, to a quote, or to a backslash without a known escape. -/
theorem exists_denotes (text : List Char) :
    ∃ written value rest, text = written ++ rest ∧ Denotes written value ∧
      (rest = [] ∨ (∃ behind, rest = '\'' :: behind) ∨
        ∃ behind, rest = '\\' :: behind ∧ ∀ letter ∈ behind.head?, unescape? letter = none) := by
  fun_induction body text with
  | case1 => exact ⟨[], [], [], rfl, .nil, .inl rfl⟩
  | case2 behind => exact ⟨[], [], _, rfl, .nil, .inr (.inl ⟨behind, rfl⟩)⟩
  | case3 => exact ⟨[], [], _, rfl, .nil, .inr (.inr ⟨[], rfl, by simp⟩)⟩
  | case4 letter more hletter =>
    exact ⟨[], [], _, rfl, .nil, .inr (.inr ⟨letter :: more, rfl, by simpa using hletter⟩)⟩
  | case5 letter more meant hletter _ ih =>
    obtain ⟨written, value, rest, rfl, hdenotes, hstop⟩ := ih
    exact ⟨'\\' :: letter :: written, meant :: value, rest, rfl, .escape hletter hdenotes, hstop⟩
  | case6 c more hquote hslash ih =>
    obtain ⟨written, value, rest, rfl, hdenotes, hstop⟩ := ih
    exact ⟨c :: written, c :: value, rest, rfl, .plain hquote hslash hdenotes, hstop⟩

/-- What is read behind an opening quote: the written characters in front of the place where the
reading stops, and the reason why it stops there. -/
theorem body_cases (text : List Char) :
    ∃ written value, Denotes written value ∧
      (text = written ∧ body text = .unterminated ∨
        (∃ behind, text = written ++ '\'' :: behind ∧
          body text = .closed value written behind) ∨
        ∃ behind, text = written ++ '\\' :: behind ∧
          (∀ letter ∈ behind.head?, unescape? letter = none) ∧
          body text = .badEscape written.length) := by
  obtain ⟨written, value, rest, rfl, hdenotes, hstop⟩ := exists_denotes text
  refine ⟨written, value, hdenotes, ?_⟩
  rw [hdenotes.body_append]
  rcases hstop with rfl | ⟨behind, rfl⟩ | ⟨behind, rfl, hnone⟩
  · exact .inl ⟨List.append_nil _, rfl⟩
  · exact .inr (.inl ⟨behind, rfl, by simp⟩)
  · have hbad : body ('\\' :: behind) = .badEscape 0 := by
      rw [body.eq_def]
      cases behind with
      | nil => rfl
      | cons letter more => simp [hnone letter (by simp)]
    exact .inr (.inr ⟨behind, rfl, hnone, by rw [hbad]; rfl⟩)

/-- What an escape stands for is written with that escape. -/
theorem encodeChar_of_unescape? {letter meant : Char} (h : unescape? letter = some meant) :
    encodeChar meant = ['\\', letter] := by
  unfold unescape? at h
  repeat' split at h
  all_goals cases h
  all_goals subst_vars
  all_goals rfl

/-- A text is written with the characters that denote it, unless a tab or a line feed stands among
them as it is. -/
theorem Denotes.encode_eq_iff {written value : List Char} (h : Denotes written value) :
    value.flatMap encodeChar = written ↔ '\t' ∉ written ∧ '\n' ∉ written := by
  induction h with
  | nil => simp
  | @plain c written value hquote hslash _ ih =>
    by_cases hbreak : c = '\n' ∨ c = '\t'
    · have hescaped : (encodeChar c).head? = some '\\' := by
        rcases hbreak with rfl | rfl <;> rfl
      have hne : (c :: value).flatMap encodeChar ≠ c :: written := by
        intro heq
        have hhead := congrArg List.head? heq
        rw [List.flatMap_cons, List.head?_append, hescaped] at hhead
        exact hslash (Option.some.inj hhead).symm
      refine iff_of_false hne ?_
      rcases hbreak with rfl | rfl <;> simp
    · rw [not_or] at hbreak
      have hplain : encodeChar c = [c] := by simp [encodeChar, hquote, hslash, hbreak]
      rw [List.flatMap_cons, hplain, List.singleton_append, List.cons.injEq, ih]
      simp [Ne.symm hbreak.1, Ne.symm hbreak.2]
  | @escape letter meant written value hletter _ ih =>
    have htab : letter ≠ '\t' := by
      rintro rfl
      cases hletter
    have hnewline : letter ≠ '\n' := by
      rintro rfl
      cases hletter
    rw [List.flatMap_cons, encodeChar_of_unescape? hletter]
    simp [ih, Ne.symm htab, Ne.symm hnewline]

end Slick.TextLiteral
