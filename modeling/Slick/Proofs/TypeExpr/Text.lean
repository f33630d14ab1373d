import Slick.Proofs.Grammar.Origin
import Slick.Proofs.Text.Runs
import Slick.Proofs.Token.Scanned

/-!
# The text of a type determines it

In the text of a type every name is a word, an argument stands behind a blank, and an argument with
arguments of its own stands in parentheses. So the text can be cut into its names in one way only.
Main statements: `argumentsText_unique` and `toText_injective`.
-/

namespace Slick

/-- A space ends a word. -/
theorem Word.isPart_blank : isPart ' ' = false := by decide +kernel

private theorem Word.isPart_opener : isPart '(' = false := by decide +kernel

private theorem Word.isPart_closer : isPart ')' = false := by decide +kernel

namespace TypeExpr

variable {keywords : Keywords}

/-- Type names are words. -/
theorem isWord_of_isTypeText {name : String} (h : IsTypeText (Lexeme.Known keywords) name) :
    Word.IsWord name.toList := by
  obtain ⟨lexeme, hknown, hkind, rfl⟩ := h
  exact hknown.isWord hkind.symm

/-- A type without arguments is written as its name. -/
theorem argumentsText_cons_name (name : String) (types : List TypeExpr) :
    (argumentsText (mk name [] :: types)).toList =
      ' ' :: (name.toList ++ (argumentsText types).toList) := by
  simp [argumentsText, argumentText]

/-- A type with arguments is written in parentheses. -/
theorem argumentsText_cons_type (name : String) {inner : List TypeExpr} (hinner : inner ≠ [])
    (types : List TypeExpr) :
    (argumentsText (mk name inner :: types)).toList =
      ' ' :: '(' :: (name.toList ++ ((argumentsText inner).toList ++
        ')' :: (argumentsText types).toList)) := by
  simp [argumentsText, argumentText, hinner]

/-- Arguments are written with the characters of words, spaces and parentheses. -/
theorem mem_argumentsText : (types : List TypeExpr) → AllMadeOf (Lexeme.Known keywords) types →
    ∀ c ∈ (argumentsText types).toList, Word.isPart c = true ∨ c ∈ [' ', '(', ')']
  | [], _ => by simp [argumentsText]
  | mk name inner :: types, h => by
    obtain ⟨⟨hname, hinner⟩, htypes⟩ := h
    have hword := (isWord_of_isTypeText hname).2
    have hargs := mem_argumentsText inner hinner
    have hrest := mem_argumentsText types htypes
    by_cases hnil : inner = []
    · subst hnil
      simp only [argumentsText_cons_name, List.forall_mem_cons, List.forall_mem_append]
      exact ⟨by simp, fun c hc => .inl (hword c hc), hrest⟩
    · simp only [argumentsText_cons_type _ hnil, List.forall_mem_cons, List.forall_mem_append]
      exact ⟨by simp, by simp, fun c hc => .inl (hword c hc), hargs, by simp, hrest⟩

private theorem mem_toText {type : TypeExpr} (h : type.MadeOf (Lexeme.Known keywords)) :
    ∀ c ∈ type.toText.toList, Word.isPart c = true ∨ c ∈ [' ', '(', ')'] := by
  obtain ⟨name, types⟩ := type
  rw [toText, String.toList_append, List.forall_mem_append]
  exact ⟨fun c hc => .inl ((isWord_of_isTypeText h.1).2 c hc), mem_argumentsText types h.2⟩

/-- The text of a type has no line breaks. -/
theorem toText_plain {type : TypeExpr} (h : type.MadeOf (Lexeme.Known keywords)) :
    '\n' ∉ type.toText.toList ∧ '\r' ∉ type.toText.toList := by
  have habsent : ∀ c : Char, Word.isPart c = false → c ∉ [' ', '(', ')'] →
      c ∉ type.toText.toList := by
    intro c hpart hmark hmem
    rcases mem_toText h c hmem with hmem | hmem
    · rw [hpart] at hmem
      cases hmem
    · exact hmark hmem
  exact ⟨habsent '\n' (by decide) (by decide), habsent '\r' (by decide) (by decide)⟩

/-- What follows a type: a closing parenthesis, or nothing. -/
def Ends (rest : List Char) : Prop := ∀ c ∈ rest.head?, c = ')'

/-- A parenthesis ends a type. -/
theorem ends_closer (rest : List Char) : Ends (')' :: rest) := by simp [Ends]

/-- A name ends in front of arguments and of what follows them. -/
theorem head_argumentsText {rest : List Char} (hrest : Ends rest) (types : List TypeExpr) :
    ∀ c ∈ ((argumentsText types).toList ++ rest).head?, Word.isPart c = false := by
  intro c hc
  cases types with
  | nil =>
    rw [hrest c (by simpa [argumentsText] using hc)]
    exact Word.isPart_closer
  | cons type types =>
    obtain rfl : ' ' = c := by simpa [argumentsText] using hc
    exact Word.isPart_blank

/-- Arguments do not end where others go on. -/
theorem argumentsText_ne_rest {rest : List Char} (hrest : Ends rest) (type : TypeExpr)
    (types : List TypeExpr) (more : List Char) :
    rest ≠ (argumentsText (type :: types)).toList ++ more := by
  intro h
  have hhead := hrest ' ' (by simp [h, argumentsText])
  exact absurd hhead (by decide)

/-- A name is not a parenthesis. -/
theorem ne_opener_of_isWord {name : String} (h : Word.IsWord name.toList) {rest more : List Char} :
    name.toList ++ rest ≠ '(' :: more := by
  obtain ⟨⟨c, hc, -⟩, hparts⟩ := h
  intro hopener
  have hfirst : c = '(' := by
    have := congrArg List.head? hopener
    simpa [Option.mem_def.mp hc] using this
  have hpart := hparts c (List.mem_of_mem_head? hc)
  rw [hfirst, Word.isPart_opener] at hpart
  cases hpart

/-- Arguments are cut off from what follows them in one way. -/
theorem argumentsText_unique : (types types' : List TypeExpr) →
    AllMadeOf (Lexeme.Known keywords) types → AllMadeOf (Lexeme.Known keywords) types' →
    (rest rest' : List Char) → Ends rest → Ends rest' →
    (argumentsText types).toList ++ rest = (argumentsText types').toList ++ rest' →
    types = types' ∧ rest = rest'
  | [], [], _, _, _, _, _, _, h => ⟨rfl, by simpa [argumentsText] using h⟩
  | [], type :: types, _, _, rest, _, hrest, _, h =>
    absurd (by simpa [argumentsText] using h) (argumentsText_ne_rest hrest type types _)
  | type :: types, [], _, _, _, rest', _, hrest', h =>
    absurd (by simpa [argumentsText] using h.symm) (argumentsText_ne_rest hrest' type types _)
  | mk name inner :: types, mk name' inner' :: types', hmade, hmade', rest, rest', hrest, hrest',
      h => by
    obtain ⟨⟨hname, hinner⟩, htypes⟩ := hmade
    obtain ⟨⟨hname', hinner'⟩, htypes'⟩ := hmade'
    have hword := isWord_of_isTypeText hname
    have hword' := isWord_of_isTypeText hname'
    by_cases hnil : inner = [] <;> by_cases hnil' : inner' = []
    · subst hnil hnil'
      simp only [argumentsText_cons_name, List.cons_append, List.append_assoc,
        List.cons.injEq, true_and] at h
      obtain ⟨hsame, hmore⟩ := Text.run_unique hword.2 hword'.2 (head_argumentsText hrest types)
        (head_argumentsText hrest' types') h
      obtain ⟨rfl, rfl⟩ := argumentsText_unique types types' htypes htypes' rest rest' hrest hrest'
        hmore
      rw [String.toList_inj.mp hsame]
      exact ⟨rfl, rfl⟩
    · subst hnil
      simp only [argumentsText_cons_name, argumentsText_cons_type name' hnil', List.cons_append,
        List.append_assoc, List.cons.injEq, true_and] at h
      exact absurd h (ne_opener_of_isWord hword)
    · subst hnil'
      simp only [argumentsText_cons_name, argumentsText_cons_type name hnil, List.cons_append,
        List.append_assoc, List.cons.injEq, true_and] at h
      exact absurd h.symm (ne_opener_of_isWord hword')
    · simp only [argumentsText_cons_type name hnil, argumentsText_cons_type name' hnil',
        List.cons_append, List.append_assoc, List.cons.injEq, true_and] at h
      obtain ⟨hsame, hmore⟩ := Text.run_unique hword.2 hword'.2
        (head_argumentsText (ends_closer _) inner) (head_argumentsText (ends_closer _) inner') h
      obtain ⟨rfl, hbehind⟩ := argumentsText_unique inner inner' hinner hinner' _ _
        (ends_closer _) (ends_closer _) hmore
      obtain ⟨rfl, rfl⟩ := argumentsText_unique types types' htypes htypes' rest rest' hrest hrest'
        (List.cons.inj hbehind).2
      rw [String.toList_inj.mp hsame]
      exact ⟨rfl, rfl⟩

/-- **The text of a type determines it.** -/
theorem toText_injective {type type' : TypeExpr} (hmade : type.MadeOf (Lexeme.Known keywords))
    (hmade' : type'.MadeOf (Lexeme.Known keywords)) (h : type.toText = type'.toText) :
    type = type' := by
  obtain ⟨name, types⟩ := type
  obtain ⟨name', types'⟩ := type'
  have hnone : Ends [] := by simp [Ends]
  have hchars := congrArg String.toList h
  simp only [toText, String.toList_append] at hchars
  obtain ⟨hsame, hmore⟩ := Text.run_unique (isWord_of_isTypeText hmade.1).2
    (isWord_of_isTypeText hmade'.1).2
    (by simpa using head_argumentsText hnone types) (by simpa using head_argumentsText hnone types')
    hchars
  obtain ⟨rfl, -⟩ := argumentsText_unique types types' hmade.2 hmade'.2 [] [] hnone hnone
    (by simpa using hmore)
  rw [String.toList_inj.mp hsame]

end TypeExpr

end Slick
