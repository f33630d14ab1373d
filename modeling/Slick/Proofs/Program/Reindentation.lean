import Slick.Proofs.Grammar.Places
import Slick.Proofs.Layout.Reindentation
import Slick.Source

/-!
# Programs with other indentation

The reader of programs sees the order of indents only, through the marks of the layout, and columns
not at all. So a source with other leading blanks is read as the same program up to columns, and
has the same tree. Main statement: `Program.parse_reindented`.
-/

namespace Slick

open Grammar Layout

variable {path : Option String}

/-- Both sources are read, as the same program up to columns, or none of them is. -/
inductive SamePrograms : Except Failure Program → Except Failure Program → Prop where
  | ok {p p' : Program} :
    p.path = p'.path →
    p.statements.map (Stmt.moved Position.lineOnly) =
      p'.statements.map (Stmt.moved Position.lineOnly) →
    SamePrograms (.ok p) (.ok p')
  | error {failure failure' : Failure} : SamePrograms (.error failure) (.error failure')

/-- Tokens that are the same up to places agree. -/
theorem TokensAgree.of_map_eq {m m' : Position → Position} {tokens tokens' : List Token}
    (h : tokens.map (Token.moved m) = tokens'.map (Token.moved m')) :
    TokensAgree m m' tokens tokens' := by
  rw [← List.forall₂_eq_eq_eq, List.forall₂_map_left_iff, List.forall₂_map_right_iff] at h
  refine h.imp fun token token' hmoved => ⟨?_, fun _ => ?_⟩
  · simpa using congrArg Token.toLexeme hmoved
  · simpa using congrArg Token.toPosition hmoved

/-- Tokens that are the same up to columns are read as the same program up to columns. -/
theorem SameTokens.ofTokens {tokens tokens' : List Token} {last : Token}
    (h : tokens.map (Token.moved Position.lineOnly) =
      tokens'.map (Token.moved Position.lineOnly))
    (hlast : tokens.getLast? = some last) (heof : last.kind = .eof) (path : Option String) :
    SamePrograms (Program.ofTokens tokens path) (Program.ofTokens tokens' path) := by
  have hsame := ofTokens_agree (rfl : path = path) hlast heof (TokensAgree.of_map_eq h)
  generalize Program.ofTokens tokens path = result at hsame ⊢
  generalize Program.ofTokens tokens' path = result' at hsame ⊢
  cases result with
  | ok p =>
    cases result' with
    | ok p' =>
      obtain ⟨hstatements, hpath⟩ := Program.mk.inj (Option.some.inj hsame)
      exact .ok hpath hstatements
    | error failure' => cases hsame
  | error failure =>
    cases result' with
    | ok p' => cases hsame
    | error failure' => exact .error

namespace Program

variable {keywords : Keywords} {s s' : String}

/-- Sources with the same tokens up to columns are read as the same program up to columns. -/
theorem parse_of_sameTokens
    (h : SameTokens (tokenize keywords s path) (tokenize keywords s' path)) :
    SamePrograms (Program.parse keywords s path) (Program.parse keywords s' path) := by
  unfold Program.parse
  cases htokens : tokenize keywords s path with
  | error flaw =>
    rw [htokens] at h
    generalize tokenize keywords s' path = result at h ⊢
    cases h with
    | error => exact .error
  | ok tokens =>
    rw [htokens] at h
    generalize tokenize keywords s' path = result at h ⊢
    cases h with
    | ok hsame =>
      obtain ⟨last, hlast, heof⟩ := tokenize_getLast htokens
      exact SameTokens.ofTokens hsame hlast heof path

/-- The tree of a program shows no columns. -/
theorem display_of_same {p p' : Program}
    (h : p.statements.map (Stmt.moved Position.lineOnly) =
      p'.statements.map (Stmt.moved Position.lineOnly)) : p.display = p'.display := by
  rw [Program.display, Program.display, ← Stmt.displayAll_moved Position.lineOnly p.statements, h,
    Stmt.displayAll_moved]

/-- Sources that are read as the same program up to columns have the same tree. -/
theorem tree_of_samePrograms {path : Option String} {tree : Tree}
    (h : SamePrograms (Program.parse keywords s path) (Program.parse keywords s' path)) :
    Source.tree keywords s path = .ok tree ↔ Source.tree keywords s' path = .ok tree := by
  rw [Source.tree_eq_ok_iff, Source.tree_eq_ok_iff]
  generalize Program.parse keywords s path = result at h ⊢
  generalize Program.parse keywords s' path = result' at h ⊢
  cases h with
  | ok _ hsame => simp [display_of_same hsame]
  | error => simp

/-- **Only the order of indents matters.** Replace the leading blanks of the lines of a source,
those of width `w` outside brackets by blanks of width `f w`, where `f` is strictly increasing and
keeps zero, and those inside brackets by any blanks. Then the tokens are the same up to columns, or
both sources fail on the same line for the same cause. Both are read or none is, as the same program
up to columns, and they have the same tree. -/
theorem parse_reindented {f : Nat → Nat} (hf : StrictMono f) (hzero : f 0 = 0)
    (h : Text.Reindented keywords f (some 0) (Text.lines s.toList) (Text.lines s'.toList))
    (path : Option String) :
    SameTokens (tokenize keywords s path) (tokenize keywords s' path) ∧
      SamePrograms (Program.parse keywords s path) (Program.parse keywords s' path) ∧
      ∀ tree, Source.tree keywords s path = .ok tree ↔ Source.tree keywords s' path = .ok tree := by
  have hstart : Text.Reindented keywords f (some (Layout.depth {})) (Text.lines s.toList)
      (Text.lines s'.toList) := h
  have htokens : SameTokens (tokenize keywords s path) (tokenize keywords s' path) :=
    addLines_reindented hf hzero 0 hstart
  have hprograms := parse_of_sameTokens htokens
  exact ⟨htokens, hprograms, fun tree => tree_of_samePrograms hprograms⟩

/-- A choice with a list over two lines in its arm: the arm by two spaces, or by a tab, which is
twice as wide, and the list inside the brackets as it likes. -/
theorem reindented_tab : Text.Reindented Keywords.standard (2 * ·) (some 0)
    (Text.lines "x : case y of\n  A -> [b,\n c]".toList)
    (Text.lines "x : case y of\n\tA -> [b,\nc]".toList) := by
  have hlines : Text.lines "x : case y of\n  A -> [b,\n c]".toList =
      ["x : case y of".toList, "  A -> [b,".toList, " c]".toList] := rfl
  have hlines' : Text.lines "x : case y of\n\tA -> [b,\nc]".toList =
      ["x : case y of".toList, "\tA -> [b,".toList, "c]".toList] := rfl
  have hfirst : Line.bracketsBehind Keywords.standard 0 "x : case y of".toList = some 0 := rfl
  have hsecond : Line.bracketsBehind Keywords.standard 0 "  A -> [b,".toList = some 1 := rfl
  rw [hlines, hlines', Text.Reindented, Text.Reindented, Text.Reindented, Text.Reindented,
    Option.bind_some, hfirst, Option.bind_some, hsecond]
  exact ⟨rfl, fun _ => rfl, rfl, fun _ => rfl, rfl, by simp, trivial⟩

/-- A choice indented by a tab is the same as one indented by two spaces. -/
theorem parse_reindented_tab :
    Text.Reindented Keywords.standard (2 * ·) (some 0)
        (Text.lines "x : case y of\n  A -> [b,\n c]".toList)
        (Text.lines "x : case y of\n\tA -> [b,\nc]".toList) ∧
      SameTokens (tokenize Keywords.standard "x : case y of\n  A -> [b,\n c]" none)
        (tokenize Keywords.standard "x : case y of\n\tA -> [b,\nc]" none) ∧
      SamePrograms (Program.parse Keywords.standard "x : case y of\n  A -> [b,\n c]" none)
        (Program.parse Keywords.standard "x : case y of\n\tA -> [b,\nc]" none) := by
  have hdouble : StrictMono fun width : Nat => 2 * width := by
    intro width width' hlt
    simp only
    omega
  obtain ⟨htokens, hprograms, -⟩ := parse_reindented hdouble rfl reindented_tab none
  exact ⟨reindented_tab, htokens, hprograms⟩

end Program

end Slick
