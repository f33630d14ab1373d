import Slick.Proofs.Grammar.Parts
import Slick.Proofs.Grammar.ProgramSoundness
import Slick.Proofs.Layout.Invariant

/-!
# Brackets in a source that is read

The layout counts open brackets without looking at their kinds, and forgives a closing bracket too
many. The reader matches brackets by kind and knows nothing of the count. In every source that is
read as a program the two agree: the count is exact at each bracket, and the places where the
layout looks at indentation are those outside of all brackets. Since the arms of a choice need an
indented block, no choice stands in brackets, although the grammar as such allows it there. Main
statement: `Program.parse_brackets`.
-/

namespace Slick

open Grammar Layout

variable {path : Option String}

/-- No block is opened or closed between a bracket and the one that closes it. -/
def Unbroken (tokens : List Token) : Prop :=
  ∀ before opener inner closer after, tokens = before ++ opener :: (inner ++ closer :: after) →
    opener.kind.closer? = some closer.kind → Balanced inner →
    ∀ token ∈ inner, token.kind ≠ .indent ∧ token.kind ≠ .dedent

/-- Wherever the layout comes to a closing bracket, it has counted an open one. -/
def CountsBrackets (keywords : Keywords) (path : Option String) (lines : List (List Char)) : Prop :=
  ∀ first line rest before layout scanned front closer back, lines = first ++ line :: rest →
    Reaches keywords path first before layout →
    Line.scan keywords path (first.length + 1) (Text.trimReturns line) = .ok scanned →
    scanned = front ++ closer :: back → closer.kind.isCloser = true →
    0 < Line.depthAfter layout.depth front

/-- No choice occurs in an expression in brackets, nor in one of the parts of such an expression. -/
def Expr.ChoicesOutside (e : Expr) : Prop :=
  ∀ outer choice, e.Part outer → outer.isBracketed = true → outer.Part choice →
    choice.isChoice = false

/-- Between matching brackets at least one bracket is open, so the layout adds no marks there. -/
theorem Layout.LaidOut.unbroken {width : Nat → Nat} {tokens : List Token}
    (h : LaidOut width tokens) : Unbroken tokens := by
  intro before opener inner closer after htokens hkinds hinner token htoken
  obtain ⟨hopener, -, -, hcloser⟩ := Kind.isOpener_of_closer? hkinds
  obtain ⟨front, back, rfl⟩ := List.append_of_mem htoken
  have hsplit : tokens = (before ++ opener :: front) ++ token :: (back ++ closer :: after) := by
    simp [htokens]
  have hdepth : 0 < Line.depthAfter 0 (before ++ opener :: front) := by
    have hup : Line.depthStep (Line.depthAfter 0 before) opener.kind =
        Line.depthAfter 0 before + 1 := by
      simp [Line.depthStep, hopener]
    have habove := (hinner.le_depthAfter rfl (Line.depthAfter 0 before + 1)).1
    rw [depthAfter_append, depthAfter_cons, hup]
    omega
  -- A mark here would not be in the last run of marks, for the closing bracket is still to come.
  have hlater : ∃ token ∈ back ++ closer :: after, token.kind ≠ .dedent ∧ token.kind ≠ .eof := by
    refine ⟨closer, by simp, ?_, ?_⟩ <;>
      · intro hkind
        rw [hkind] at hcloser
        cases hcloser
  refine ⟨fun hindent => ?_, fun hdedent => ?_⟩
  · have hzero := h.outside _ _ _ hsplit (.inl hindent)
    omega
  · have hzero := h.outside _ _ _ hsplit (.inr ⟨hdedent, hlater⟩)
    omega

/-- On balanced tokens the layout counts each closing bracket down from an open one. -/
theorem Grammar.Balanced.countsBrackets {keywords : Keywords} {source : String}
    {tokens : List Token} (h : Balanced tokens)
    (htokens : tokenize keywords source path = .ok tokens) :
    CountsBrackets keywords path (Text.lines source.toList) := by
  intro first line rest before layout scanned front closer back hlines hreaches hscan hscanned
    hcloser
  have hinvariant : Invariant (lineWidth first) before layout :=
    hreaches.invariant (List.prefix_refl first)
  obtain ⟨more, hmore, rfl⟩ := hreaches.tokenize_split htokens hlines
  obtain ⟨added, next, behind, hadd, -, rfl⟩ := addLines_cons hmore
  rcases addLine_cases hadd with ⟨hnone, -, -⟩ | ⟨marks, scanned', hadds, rfl⟩
  · rw [hscan, hscanned] at hnone
    simp at hnone
  · obtain rfl : scanned = scanned' := by simpa [hscan] using hadds.scan
    have hmarks := (hinvariant.marked hadds).1.isLayout
    generalize marks.map (·.place (first.length + 1) 1) = marked at h hmarks
    have hdepth : Line.depthAfter 0 (before ++ (marked ++ front)) =
        Line.depthAfter layout.depth front := by
      rw [depthAfter_append, hinvariant.depth, depthAfter_append, depthAfter_marks hmarks]
    generalize Lexeme.newline.place _ _ = newline at h
    have hsplit : before ++ (marked ++ (scanned ++ [newline]) ++ behind) =
        (before ++ (marked ++ front)) ++ closer :: (back ++ newline :: behind) := by
      simp [hscanned]
    rw [← hdepth]
    exact (h.le_depthAfter hsplit 0).2 closer (by simp) hcloser

/-- Where the brackets are balanced, none is open behind the last line. -/
theorem Layout.Invariant.depth_of_balanced {width : Nat → Nat} {body : List Token}
    {final : Layout} {lineCount : Nat} (h : Invariant width body final)
    (hbalanced : Balanced (body ++ final.close lineCount)) : final.depth = 0 := by
  obtain ⟨dedents, eof, hclose, heof, hdedents, -⟩ := close_eq final lineCount
  have hmarks : ∀ token ∈ final.close lineCount, token.kind.isLayout = true := by
    intro token htoken
    rw [hclose] at htoken
    rcases List.mem_append.mp htoken with hdedent | hlast
    · rw [hdedents token hdedent]
      rfl
    · obtain rfl : token = eof := by simpa using hlast
      rw [heof]
      rfl
  calc final.depth = Line.depthAfter 0 body := h.depth.symm
    _ = Line.depthAfter 0 (body ++ final.close lineCount) := by
      rw [depthAfter_append, depthAfter_marks hmarks]
    _ = 0 := hbalanced.depthAfter_eq 0

/-- A program spelled by tokens in which no pair of brackets is broken has no choice in brackets. -/
theorem Grammar.SpellsProgram.choicesOutside {apart : List Token → List Token → Prop}
    {used rest : List Token} {stmts : List Stmt} (h : SpellsProgram path apart used stmts)
    (hunbroken : Unbroken (used ++ rest)) {name : Token} {e : Expr} {location : Location}
    (hbinding : .binding name e location ∈ stmts) : e.ChoicesOutside := by
  intro outer choice houter hbracketed hpart
  obtain ⟨body, ⟨front, back, hused⟩, hbody⟩ := h.binding hbinding
  by_contra hchoice
  rw [Bool.not_eq_false] at hchoice
  obtain ⟨before, opener, inner, closer, after, rfl, hkinds, hinner, token, htoken, hindent⟩ :=
    hbody.indent_in_brackets (List.mem_singleton_self e) houter hbracketed hpart hchoice
  have hsplit : used ++ rest =
      (front ++ before) ++ opener :: (inner ++ closer :: (after ++ (back ++ rest))) := by
    simp [← hused]
  exact (hunbroken _ _ _ _ _ hsplit hkinds hinner token htoken).1 hindent

/-- Where only the last token may end the source, nothing stands behind the end. -/
theorem eq_nil_of_end {used more body : List Token} {eof last : Token}
    (h : used ++ eof :: more = body ++ [last]) (heof : eof.kind = .eof)
    (hbody : ∀ token ∈ body, token.kind ≠ .eof) : more = [] := by
  rcases List.eq_nil_or_concat more with hnil | ⟨front, final, rfl⟩
  · exact hnil
  · have hsame : (used ++ eof :: front) ++ [final] = body ++ [last] := by simpa using h
    obtain ⟨rfl, -⟩ := List.append_inj' hsame rfl
    exact absurd heof (hbody eof (by simp))

/-- How the brackets of a source, the count of the layout and the program that is read agree. -/
structure BracketsAgree (keywords : Keywords) (path : Option String) (source : String)
    (tokens : List Token) (program : Program) : Prop where
  /-- Brackets are properly nested and closed by brackets of their kind. -/
  balanced : Balanced tokens
  /-- No bracket is counted as open behind the last line. -/
  closed : ∃ body final, Reaches keywords path (Text.lines source.toList) body final ∧
    tokens = body ++ final.close (Text.lines source.toList).length ∧ final.depth = 0
  counts : CountsBrackets keywords path (Text.lines source.toList)
  unbroken : Unbroken tokens
  choices : ∀ name e location, .binding name e location ∈ program.statements → e.ChoicesOutside

/-- **The layout and the reader agree on brackets.** If a source is read as a program, its brackets
are properly nested and matched by kind, the layout counts them without ever closing one too many
and ends with none open, no block is opened or closed between a bracket and the one that closes it,
and so no choice occurs in the program below an expression in brackets. -/
theorem Program.parse_brackets {keywords : Keywords} {source : String} {path : Option String}
    {program : Program} (h : Program.parse keywords source path = .ok program) :
    ∃ tokens, tokenize keywords source path = .ok tokens ∧
      BracketsAgree keywords path source tokens program := by
  unfold Program.parse at h
  split at h
  · cases h
  · next tokens htokens =>
    obtain ⟨body, final, hreaches, hbody⟩ := tokenize_reaches htokens
    have hinvariant := hreaches.invariant (List.prefix_refl _)
    have hlaidOut := hinvariant.laidOut (Text.lines source.toList).length
    rw [← hbody] at hlaidOut
    obtain ⟨front, last, hfront, hlast, hnoEnd, -⟩ := hlaidOut.end_last
    have hgetLast : tokens.getLast? = some last := by simp [hfront]
    obtain ⟨used, eof, more, hused, heof, -, -, hspells⟩ := ofTokens_reads hgetLast hlast h
    obtain rfl : more = [] := eq_nil_of_end (hused.symm.trans hfront) heof hnoEnd
    have hbalanced : Balanced tokens := by
      rw [hused]
      exact hspells.balanced.append (Balanced.nil.cons heof rfl)
    have hunbroken := hlaidOut.unbroken
    refine ⟨tokens, htokens, hbalanced, ⟨body, final, hreaches, hbody, ?_⟩,
      hbalanced.countsBrackets htokens, hunbroken, fun name e location hbinding => ?_⟩
    · rw [hbody] at hbalanced
      exact hinvariant.depth_of_balanced hbalanced
    · rw [hused] at hunbroken
      exact hspells.choicesOutside hunbroken hbinding

/-- The tokens of a choice with a list over two lines in its arm. -/
def listInArm : List Token :=
  [⟨⟨.ident, "x", .text "x"⟩, ⟨1, 1⟩⟩, ⟨⟨.colon, ":", .nothing⟩, ⟨1, 3⟩⟩,
    ⟨⟨.keyword, "case", .text "case"⟩, ⟨1, 5⟩⟩, ⟨⟨.ident, "y", .text "y"⟩, ⟨1, 10⟩⟩,
    ⟨⟨.keyword, "of", .text "of"⟩, ⟨1, 12⟩⟩, ⟨.newline, ⟨1, 14⟩⟩, ⟨.indent, ⟨2, 1⟩⟩,
    ⟨⟨.uident, "A", .text "A"⟩, ⟨2, 3⟩⟩, ⟨⟨.arrow, "->", .nothing⟩, ⟨2, 5⟩⟩,
    ⟨⟨.lbracket, "[", .nothing⟩, ⟨2, 8⟩⟩, ⟨⟨.ident, "b", .text "b"⟩, ⟨2, 9⟩⟩,
    ⟨⟨.comma, ",", .nothing⟩, ⟨2, 10⟩⟩, ⟨.newline, ⟨2, 11⟩⟩, ⟨⟨.ident, "c", .text "c"⟩, ⟨3, 2⟩⟩,
    ⟨⟨.rbracket, "]", .nothing⟩, ⟨3, 3⟩⟩, ⟨.newline, ⟨3, 4⟩⟩, ⟨.dedent, ⟨3, 1⟩⟩, ⟨.eof, ⟨4, 1⟩⟩]

/-- The source is read from its tokens. -/
theorem parse_listInArm : Program.parse Keywords.standard "x : case y of\n  A -> [b,\n c]" none =
    Program.ofTokens listInArm none := by
  have htokens : tokenize Keywords.standard "x : case y of\n  A -> [b,\n c]" none = .ok listInArm :=
    rfl
  rw [Program.parse, htokens]

/-- A list in an arm is read, and its brackets agree with the layout around them. -/
theorem Program.parse_brackets_listInArm : ∃ program,
    Program.parse Keywords.standard "x : case y of\n  A -> [b,\n c]" none = .ok program ∧
      ∃ tokens, tokenize Keywords.standard "x : case y of\n  A -> [b,\n c]" none = .ok tokens ∧
        BracketsAgree Keywords.standard none "x : case y of\n  A -> [b,\n c]" tokens program :=
  ⟨_, parse_listInArm.trans rfl, Program.parse_brackets (parse_listInArm.trans
    (show Program.ofTokens listInArm none = .ok _ from rfl))⟩

-- The reader alone would take a choice in parentheses, but no source has a block there.
example : (Program.ofTokens
    [⟨⟨.ident, "x", .text "x"⟩, ⟨1, 1⟩⟩, ⟨⟨.colon, ":", .nothing⟩, ⟨1, 3⟩⟩,
      ⟨⟨.lparen, "(", .nothing⟩, ⟨1, 5⟩⟩, ⟨⟨.keyword, "case", .text "case"⟩, ⟨1, 6⟩⟩,
      ⟨⟨.ident, "y", .text "y"⟩, ⟨1, 11⟩⟩, ⟨⟨.keyword, "of", .text "of"⟩, ⟨1, 13⟩⟩,
      ⟨.newline, ⟨1, 15⟩⟩, ⟨.indent, ⟨2, 1⟩⟩, ⟨⟨.uident, "A", .text "A"⟩, ⟨2, 3⟩⟩,
      ⟨⟨.arrow, "->", .nothing⟩, ⟨2, 5⟩⟩, ⟨⟨.ident, "b", .text "b"⟩, ⟨2, 8⟩⟩,
      ⟨.newline, ⟨2, 9⟩⟩, ⟨.dedent, ⟨3, 1⟩⟩, ⟨⟨.rparen, ")", .nothing⟩, ⟨3, 1⟩⟩,
      ⟨.newline, ⟨3, 2⟩⟩, ⟨.eof, ⟨4, 1⟩⟩] none).isOk = true := rfl

end Slick
