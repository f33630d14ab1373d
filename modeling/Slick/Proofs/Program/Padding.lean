import Slick.Proofs.Grammar.Places
import Slick.Proofs.Layout.Padding
import Slick.Proofs.Program.Reading

/-!
# Programs with blanks and comments

Blank lines, comments, blanks behind the tokens of a line and carriage returns at its end leave a
source the same tokens in the same columns, and so the same program up to lines and the same tree.
Main statement: `Program.parse_padded`.
-/

namespace Slick

open Grammar Layout

variable {path : Option String}

/-- Tokens that are the same up to lines agree up to lines. -/
theorem TokensAgree.of_unlined {tokens tokens' : List Token}
    (h : tokens.map Token.unlined = tokens'.map Token.unlined) :
    TokensAgree Position.columnOnly Position.columnOnly tokens tokens' := by
  rw [← List.forall₂_eq_eq_eq, List.forall₂_map_left_iff, List.forall₂_map_right_iff] at h
  refine h.imp fun token token' hunlined => ?_
  have hlexeme : token.unlined.toLexeme = token'.unlined.toLexeme := by rw [hunlined]
  have hplace : token.unlined.toPosition = token'.unlined.toPosition := by rw [hunlined]
  simp only [Token.unlined] at hlexeme
  refine ⟨hlexeme, fun hplain => ?_⟩
  have hkind : token.kind ≠ .newline := by
    intro hnewline
    rw [hnewline] at hplain
    cases hplain
  simp only [Token.unlined, ← hlexeme, if_neg hkind] at hplace
  exact hplace

namespace Program

variable {keywords : Keywords} {s s' : String}

/-- Sources with the same tokens up to lines are read as the same program up to lines. -/
theorem parse_of_unlined
    (h : Line.unlined (tokenize keywords s path) = Line.unlined (tokenize keywords s' path)) :
    (Program.parse keywords s path).toOption.map (Program.moved Position.columnOnly) =
      (Program.parse keywords s' path).toOption.map (Program.moved Position.columnOnly) := by
  unfold Program.parse
  cases htokens : tokenize keywords s path with
  | error flaw =>
    rw [htokens] at h
    cases htokens' : tokenize keywords s' path with
    | error flaw' => rfl
    | ok tokens' =>
      rw [htokens'] at h
      cases h
  | ok tokens =>
    rw [htokens] at h
    cases htokens' : tokenize keywords s' path with
    | error flaw' =>
      rw [htokens'] at h
      cases h
    | ok tokens' =>
      rw [htokens', Line.unlined, Line.unlined, Except.ok.injEq] at h
      obtain ⟨last, hlast, heof⟩ := tokenize_getLast htokens
      exact ofTokens_agree rfl hlast heof (TokensAgree.of_unlined h)

/-- Sources that are read as the same program up to places have the same tree. -/
theorem tree_of_moved {m m' : Move} {path : Option String}
    (h : (Program.parse keywords s path).toOption.map (Program.moved m) =
      (Program.parse keywords s' path).toOption.map (Program.moved m')) :
    (Source.tree keywords s path).toOption = (Source.tree keywords s' path).toOption := by
  have htree : ∀ (source : String) (move : Move),
      (Source.tree keywords source path).toOption =
        ((Program.parse keywords source path).toOption.map (Program.moved move)).bind
          fun program => program.display.toOption := by
    intro source move
    unfold Source.tree
    cases Program.parse keywords source path with
    | error failure => rfl
    | ok program =>
      simp only [Except.toOption, Option.map_some, Option.bind_some, Program.display_moved]
      cases program.display <;> rfl
  rw [htree s m, htree s' m', h]

/-- **Blanks, comments and carriage returns are invisible.** A source has exactly the same tokens,
or the same flaw, with a carriage return in front of every line feed. With blanks and comments
behind its tokens and on further lines, it has the same tokens up to lines and the columns of line
ends, or the same flaw up to its line; it is read or not as before, as the same program up to lines,
and it has the same tree. -/
theorem parse_padded (keywords : Keywords) (path : Option String) :
    (∀ s : String,
      tokenize keywords (String.ofList (Text.withReturns s.toList)) path =
        tokenize keywords s path) ∧
    ∀ s s' : String, Text.Padded keywords (Text.lines s.toList) (Text.lines s'.toList) →
      Line.unlined (tokenize keywords s path) = Line.unlined (tokenize keywords s' path) ∧
        (Program.parse keywords s path).toOption.map (Program.moved Position.columnOnly) =
          (Program.parse keywords s' path).toOption.map (Program.moved Position.columnOnly) ∧
        (Source.tree keywords s path).toOption = (Source.tree keywords s' path).toOption := by
  refine ⟨fun s => ?_, fun s s' h => ?_⟩
  · rw [tokenize, tokenize, String.toList_ofList]
    exact addLines_congr (Text.trimReturns_lines_withReturns s.toList) {} 0
  · have htokens : Line.unlined (tokenize keywords s path) =
        Line.unlined (tokenize keywords s' path) :=
      addLines_padded h {} 0 0
    have hprograms := parse_of_unlined htokens
    exact ⟨htokens, hprograms, tree_of_moved hprograms⟩

/-- A choice with a list over two lines in its arm, and the same with comments and blanks: in front,
behind the tokens of two lines, between the lines and at the end. -/
theorem padded_choice : Text.Padded Keywords.standard
    (Text.lines "x : case y of\r\n  A -> [b,\n c]".toList)
    (Text.lines "-- a\nx : case y of\t\r\n\t\t\n  A -> [b, -- c\n c]\n".toList) := by
  have hlines : Text.lines "x : case y of\r\n  A -> [b,\n c]".toList =
      ["x : case y of".toList ++ List.replicate 1 '\r',
        "  A -> [b,".toList ++ List.replicate 0 '\r', " c]".toList] := rfl
  have hlines' : Text.lines "-- a\nx : case y of\t\r\n\t\t\n  A -> [b, -- c\n c]\n".toList =
      [[] ++ "-- a".toList, "x : case y of".toList ++ (['\t'] ++ List.replicate 1 '\r'),
        ['\t', '\t'] ++ [], "  A -> [b,".toList ++ (" -- c".toList ++ List.replicate 0 '\r'),
        " c]".toList, [] ++ []] := rfl
  have hblanks : Line.IsPadding ['\t'] := .inl (by simp [Line.isIndent])
  have hcomment : Line.IsPadding " -- c".toList := .inr ⟨[' ', 'c'], rfl⟩
  rw [hlines, hlines']
  refine .inserted (by simp) (.inr ⟨[' ', 'a'], rfl⟩) (.appended rfl rfl hblanks ?_)
  refine .inserted (by simp [Line.isIndent]) (.inl rfl) (.appended rfl rfl hcomment ?_)
  exact .same (.inserted (by simp) (.inl rfl) .nil)

/-- A choice with a list over two lines has the same tree with comments and blank lines in it. -/
theorem parse_padded_choice :
    Line.unlined (tokenize Keywords.standard "x : case y of\r\n  A -> [b,\n c]" none) =
        Line.unlined (tokenize Keywords.standard
          "-- a\nx : case y of\t\r\n\t\t\n  A -> [b, -- c\n c]\n" none) ∧
      (Source.tree Keywords.standard "x : case y of\r\n  A -> [b,\n c]" none).toOption =
        (Source.tree Keywords.standard
          "-- a\nx : case y of\t\r\n\t\t\n  A -> [b, -- c\n c]\n" none).toOption := by
  obtain ⟨htokens, -, htree⟩ := (parse_padded Keywords.standard none).2 _ _ padded_choice
  exact ⟨htokens, htree⟩

end Program

end Slick
