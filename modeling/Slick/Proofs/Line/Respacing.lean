import Slick.Proofs.Layout.Padding

/-!
# Lines with other blanks

A lexeme that is found in a line also ends in front of a blank and at the end of a line, whatever
stood behind it. So the lexemes of a line, written out once more with at least one blank between
them, are read one by one as what they were. Main statement: `Line.scan_respaced`.
-/

namespace Slick

variable {path : Option String}

/-- A lexeme that ends somewhere ends at the end of a line and in front of blanks. -/
theorem Lexeme.Ends.before_blanks {keywords : Keywords} {l : Lexeme} {rest text : List Char}
    (h : l.Ends keywords rest) (htext : ∀ c ∈ text.head?, Line.isIndent c = true) :
    l.Ends keywords text := by
  have hend : l.Ends keywords [] := h.of_prefix List.nil_prefix
  cases text with
  | nil => exact hend
  | cons c more => exact hend.append_blank (Line.isIndent_iff.mp (htext c rfl)) more

namespace Line

variable {keywords : Keywords} {line column : Nat} {text text' : List Char} {tokens : List Token}

/-- The spellings one after another, with blanks between them, at least one each time, and any
number of blanks behind the last one. -/
inductive Separated : List String → List Char → Prop where
  | last {spelling : String} {trail : List Char} :
    (∀ c ∈ trail, isIndent c = true) → Separated [spelling] (spelling.toList ++ trail)
  | cons {spelling : String} {spellings : List String} {gap text : List Char} :
    gap ≠ [] → (∀ c ∈ gap, isIndent c = true) → Separated spellings text →
    Separated (spelling :: spellings) (spelling.toList ++ (gap ++ text))

/-- A line of the spellings with blanks in front of them, between them and behind them. -/
def Respaced (spellings : List String) (text : List Char) : Prop :=
  ∃ lead body, text = lead ++ body ∧ (∀ c ∈ lead, isIndent c = true) ∧ Separated spellings body

/-- Blanks may stand in front of a text. -/
theorem Tiled.after_blanks {blanks : List Char} (hblanks : ∀ c ∈ blanks, isIndent c = true)
    (h : Tiled keywords line (column + blanks.length) text tokens) :
    Tiled keywords line column (blanks ++ text) tokens := by
  have hbehind : scanAt keywords none line (column + blanks.length) text = .ok tokens := h.scanAt_eq
  rw [← scanAt_blanks keywords line column hblanks] at hbehind
  exact scanAt_eq_ok_iff.mp hbehind

private theorem head_isIndent {blanks : List Char} (hne : blanks ≠ [])
    (hblanks : ∀ c ∈ blanks, isIndent c = true) (text : List Char) :
    ∀ c ∈ (blanks ++ text).head?, isIndent c = true := by
  obtain ⟨d, more, rfl⟩ := List.exists_cons_of_ne_nil hne
  rintro c hc
  obtain rfl : d = c := by simpa using hc
  exact hblanks d List.mem_cons_self

/-- Lexemes with blanks between them are read one by one. -/
theorem Separated.tiled {spellings : List String} (h : Separated spellings text)
    {lexemes : List Lexeme} (hspelled : lexemes.map (·.text) = spellings)
    (hends : ∀ l ∈ lexemes, l.Ends keywords []) (line column : Nat) :
    ∃ tokens : List Token, tokens.map Token.toLexeme = lexemes ∧
      Tiled keywords line column text tokens := by
  induction h generalizing lexemes column with
  | @last spelling trail htrail =>
    obtain ⟨l, rfl, rfl⟩ := List.map_eq_singleton_iff.mp hspelled
    refine ⟨[l.place line column], rfl, .token ?_ (IsPadding.tiled (.inl htrail))⟩
    refine (hends l List.mem_cons_self).before_blanks fun c hc => ?_
    exact htrail c (List.mem_of_mem_head? hc)
  | @cons spelling spellings gap text hne hgap _ ih =>
    obtain ⟨l, more, rfl, rfl, hmore⟩ := List.map_eq_cons_iff.mp hspelled
    rw [List.forall_mem_cons] at hends
    obtain ⟨tokens, hlexemes, htiled⟩ := ih hmore hends.2 (column + l.text.length + gap.length)
    refine ⟨l.place line column :: tokens, by simp [hlexemes], .token ?_ (htiled.after_blanks hgap)⟩
    exact hends.1.before_blanks (head_isIndent hne hgap text)

/-- **Respacing a line does not change its tokens.** A line that is made of the spellings of the
tokens of another line, with blanks between them, is read as the same lexemes in the same order, and
it leaves the same number of brackets open. -/
theorem scan_respaced (h : scan keywords path line text = .ok tokens)
    (hrespaced : Respaced (tokens.map (·.text)) text') (line' : Nat) :
    ∃ tokens', scan keywords path line' text' = .ok tokens' ∧
      tokens'.map Token.toLexeme = tokens.map Token.toLexeme ∧
      ∀ depth, depthAfter depth tokens' = depthAfter depth tokens := by
  obtain ⟨lead, body, rfl, hlead, hbody⟩ := hrespaced
  have hends : ∀ l ∈ tokens.map Token.toLexeme, l.Ends keywords [] := by
    intro l hl
    obtain ⟨token, htoken, rfl⟩ := List.mem_map.mp hl
    obtain ⟨-, _, _, hfound⟩ := lead_of_mem_scan h token htoken
    have hends := Lead.ends_of_ofText hfound
    exact hends.of_prefix List.nil_prefix
  have hspelled : (tokens.map Token.toLexeme).map (·.text) = tokens.map (·.text) := by
    rw [List.map_map]
    rfl
  obtain ⟨tokens', hlexemes, htiled⟩ := hbody.tiled hspelled hends line' (1 + lead.length)
  refine ⟨tokens', (htiled.after_blanks hlead).scanAt_eq, hlexemes, fun depth => ?_⟩
  have hkinds : tokens'.map (·.kind) = tokens.map (·.kind) := by
    simpa [Function.comp_def] using congrArg (List.map Lexeme.kind) hlexemes
  rw [depthAfter_eq_foldl_kinds, depthAfter_eq_foldl_kinds, hkinds]

/-- Lexemes that stand close together: a numeral in front of a point, a name right behind it, an
arrow and a bracket. -/
def closeTogether : List Token :=
  [Lexeme.place ⟨.number, "1", .decimal (.ofNumeral ['1'] [])⟩ 1 1,
    (Symbol.lexeme ['.'] .dot).place 1 2, Lexeme.place ⟨.ident, "x", .text "x"⟩ 1 3,
    (Symbol.lexeme ['-', '>'] .arrow).place 1 4, (Symbol.lexeme ['['] .lbracket).place 1 6]

/-- The comment behind them holds a quote. -/
theorem scan_closeTogether :
    scan Keywords.standard none 1 "1.x->[--'".toList = .ok closeTogether := by
  rfl

private theorem respaced_closeTogether :
    Respaced (closeTogether.map (·.text)) " 1\t. x  -> [\t".toList := by
  have hspace : ∀ c ∈ [' '], isIndent c = true := by simp [isIndent]
  have hspaces : ∀ c ∈ [' ', ' '], isIndent c = true := by simp [isIndent]
  have htab : ∀ c ∈ ['\t'], isIndent c = true := by simp [isIndent]
  refine ⟨[' '], "1".toList ++ (['\t'] ++ (".".toList ++ ([' '] ++ ("x".toList ++ ([' ', ' '] ++
    ("->".toList ++ ([' '] ++ ("[".toList ++ ['\t'])))))))), rfl, hspace, ?_⟩
  refine .cons (by simp) htab (.cons (by simp) hspace (.cons (by simp) hspaces ?_))
  exact .cons (by simp) hspace (.last htab)

/-- A line without blanks between its tokens is scanned alike with blanks of every kind. -/
theorem scan_respaced_closeTogether :
    scan Keywords.standard none 1 "1.x->[--'".toList = .ok closeTogether ∧
      Respaced (closeTogether.map (·.text)) " 1\t. x  -> [\t".toList ∧
      ∃ tokens, scan Keywords.standard none 7 " 1\t. x  -> [\t".toList = .ok tokens ∧
        tokens.map Token.toLexeme = closeTogether.map Token.toLexeme ∧
        ∀ depth, depthAfter depth tokens = depthAfter depth closeTogether :=
  ⟨scan_closeTogether, respaced_closeTogether,
    scan_respaced scan_closeTogether respaced_closeTogether 7⟩

end Line

end Slick
