import Mathlib.Data.List.Pairwise
import Slick.Proofs.Display.Operators
import Slick.Proofs.Grammar.Spellings
import Slick.Proofs.Layout.Spellings
import Slick.Proofs.Program.Reindentation

/-!
# Programs in ASCII and in Unicode

A source says the same with signs in the places of some of its tokens in ASCII: it has the same
tokens up to columns and these spellings, it is read as the same program up to columns and the
tokens of operators, or not at all, and its tree differs in the labels of operators only. Main
statement: `Program.parse_respelled`.
-/

namespace Slick

open Grammar Layout Slick.Tree

variable {path : Option String}

/-- Two tokens are one if they stand at one place, unless one of them is a mark of the layout. -/
def Token.ToldApart (token token' : Token) : Prop :=
  token.kind.isLayout = false → token'.kind.isLayout = false →
    token.toPosition = token'.toPosition → token = token'

instance : Std.Symm Token.ToldApart where
  symm _ _ h := fun hplain hplain' hplace => (h hplain' hplain hplace.symm).symm

private theorem Token.InOrder.toldApart {early late : Token} (h : early.InOrder late) :
    early.ToldApart late := by
  intro hplain hplain' hplace
  have hbefore := h hplain hplain'
  rw [Position.Before, hplace] at hbefore
  omega

/-- The tokens of a source are told apart by their places. -/
theorem Layout.toldApart {keywords : Keywords} {source : String} {tokens : List Token}
    (h : tokenize keywords source path = .ok tokens) :
    ∀ token ∈ tokens, ∀ token' ∈ tokens, token.ToldApart token' := by
  obtain ⟨body, final, hreaches, rfl⟩ := tokenize_reaches h
  have hordered : (body ++ final.close (Text.lines source.toList).length).Pairwise
      Token.InOrder := by
    rw [close_eq_dedents, ← List.append_assoc, List.pairwise_append]
    refine ⟨hreaches.inOrder_closed _, List.pairwise_singleton _ _, fun early _ late hlate => ?_⟩
    rw [List.mem_singleton.mp hlate]
    exact inOrder_of_isLayout (.inr rfl)
  have hpairs := hordered.imp Token.InOrder.toldApart
  exact fun token htoken token' htoken' =>
    hpairs.forall_of_forall (fun _ _ _ _ _ => rfl) htoken htoken'

/-- A token of a source is respelled as a token of its kind. -/
theorem Layout.respells_of_mem {keywords : Keywords} {source : String} {tokens : List Token}
    (h : tokenize keywords source path = .ok tokens) (chosen : Token → Bool) :
    ∀ token ∈ tokens, token.Respells (token.respelled chosen) := by
  intro token htoken
  rcases token.respelled_cases chosen with hsame | ⟨sign, hsign, hsame⟩
  · rw [hsame]
    exact ⟨rfl, rfl, rfl, fun _ => rfl⟩
  · have hkind := (of_sign? h token htoken sign hsign).2
    rw [hsame]
    exact ⟨rfl, rfl, rfl, fun hplain => absurd hkind hplain⟩

/-- No two tokens of a source become the same. -/
theorem Layout.injOn_respelled {keywords : Keywords} {source : String} {tokens : List Token}
    (h : tokenize keywords source path = .ok tokens) (chosen : Token → Bool) :
    Set.InjOn (Token.respelled chosen) {token | token ∈ tokens} := by
  have hplainKind : ∀ kind ∈ Symbol.signKinds, kind.isLayout = false := by decide
  intro token htoken token' htoken' hsame
  have hkind : token.kind = token'.kind := by
    rw [← Token.kind_respelled chosen token, hsame, Token.kind_respelled]
  by_cases htwo : token.kind ∈ Symbol.signKinds
  · have hplace : token.toPosition = token'.toPosition := by
      rw [← Token.toPosition_respelled chosen token, hsame, Token.toPosition_respelled]
    have hplain := hplainKind _ htwo
    exact toldApart h token htoken token' htoken' hplain (hkind ▸ hplain) hplace
  · rw [← (respells_of_mem h chosen token htoken).plain htwo, hsame,
      (respells_of_mem h chosen token' htoken').plain (hkind ▸ htwo)]

/-- The chosen spellings leave operators as they are, in ASCII or in Unicode. -/
theorem Token.keepsOperators_respelled (chosen : Token → Bool) :
    Token.KeepsOperators (Token.respelled chosen) := by
  intro token
  unfold Token.respelled
  split
  · exact Symbol.inUnicode_inUnicode token.text
  · rfl

/-- The tree of a source, with its operators in Unicode, is that of the program that is read. -/
theorem Source.tree_inUnicode (keywords : Keywords) (source : String) (path : Option String) :
    (Source.tree keywords source path).toOption.map operatorsInUnicode =
      (Program.parse keywords source path).toOption.bind fun program =>
        (program.display.map operatorsInUnicode).toOption := by
  unfold Source.tree
  cases Program.parse keywords source path with
  | error failure => rfl
  | ok program =>
    simp only [Except.toOption, Option.bind_some]
    cases program.display <;> rfl

namespace Program

variable {keywords : Keywords} {source : String} {tokens : List Token}

/-- A source with other spellings is read as the program with other tokens for its operators, up to
columns. -/
theorem parse_of_respelled {source' : String} {tokens' : List Token} {chosen : Token → Bool}
    (h : tokenize keywords source path = .ok tokens)
    (h' : tokenize keywords source' path = .ok tokens')
    (hsame : tokens'.map (Token.moved Position.lineOnly) =
      tokens.map fun token => (token.respelled chosen).moved Position.lineOnly) :
    (Program.parse keywords source' path).toOption.map (Program.moved Position.lineOnly) =
      (Program.parse keywords source path).toOption.map fun program =>
        (program.withOperators (Token.respelled chosen)).moved Position.lineOnly := by
  obtain ⟨last, hlast, heof⟩ := tokenize_getLast h
  have hlast' : (tokens.map (Token.respelled chosen)).getLast? =
      some (last.respelled chosen) := by
    rw [List.getLast?_map, hlast, Option.map_some]
  have hagree : TokensAgree Position.lineOnly Position.lineOnly
      (tokens.map (Token.respelled chosen)) tokens' := by
    apply TokensAgree.of_map_eq
    rw [List.map_map, hsame]
    rfl
  have heof' : (last.respelled chosen).kind = .eof := (last.kind_respelled chosen).trans heof
  have hread := ofTokens_respelled hlast heof (respells_of_mem h chosen) (injOn_respelled h chosen)
    path
  rw [parse_of_tokenize h, parse_of_tokenize h', 
    ← ofTokens_agree (rfl : path = path) hlast' heof' hagree, hread, Option.map_map]
  rfl

/-- Programs that are the same up to columns and the spelling of operators have trees that are the
same up to the labels of operators. -/
theorem tree_of_respelled {source' : String} {path : Option String} {f : Token → Token}
    (hf : Token.KeepsOperators f)
    (h : (Program.parse keywords source' path).toOption.map (Program.moved Position.lineOnly) =
      (Program.parse keywords source path).toOption.map fun program =>
        (program.withOperators f).moved Position.lineOnly) :
    (Source.tree keywords source' path).toOption.map operatorsInUnicode =
      (Source.tree keywords source path).toOption.map operatorsInUnicode := by
  have hshown : ∀ program : Program,
      ((program.withOperators f).moved Position.lineOnly).display.map operatorsInUnicode =
        program.display.map operatorsInUnicode := by
    intro program
    rw [Program.display_moved, program.display_withOperators hf]
  have hmoved : (Program.parse keywords source' path).toOption.bind
        (fun program => (program.display.map operatorsInUnicode).toOption) =
      ((Program.parse keywords source' path).toOption.map (Program.moved Position.lineOnly)).bind
        fun program => (program.display.map operatorsInUnicode).toOption := by
    rw [Option.bind_map]
    simp only [Function.comp_def, Program.display_moved]
  rw [Source.tree_inUnicode, Source.tree_inUnicode, hmoved, h, Option.bind_map]
  simp only [Function.comp_def, hshown]

/-- **ASCII and Unicode say the same.** Choose some tokens of a source, and put the signs of those
that are spelled `fn`, `->`, `!=`, `<=` or `>=` in their places. The result has the same tokens,
with the same kinds, values and lines, and with the same lexemes but for the replaced ones. Both
sources are read or none is, as the same program up to columns and the replaced operators, and their
trees differ in the labels of the leaves under `operator` only. -/
theorem parse_respelled (h : tokenize keywords source path = .ok tokens) (chosen : Token → Bool) :
    ∃ tokens', tokenize keywords (Source.respelled chosen tokens source) path = .ok tokens' ∧
      (tokens'.map (Token.moved Position.lineOnly) =
        tokens.map fun token => (token.respelled chosen).moved Position.lineOnly) ∧
      ((Program.parse keywords (Source.respelled chosen tokens source) path).toOption.map
          (Program.moved Position.lineOnly) =
        (Program.parse keywords source path).toOption.map fun program =>
          (program.withOperators (Token.respelled chosen)).moved Position.lineOnly) ∧
      (Source.tree keywords (Source.respelled chosen tokens source) path).toOption.map
          operatorsInUnicode =
        (Source.tree keywords source path).toOption.map operatorsInUnicode := by
  obtain ⟨tokens', htokens', hsame⟩ := tokenize_respelled h chosen
  have hprograms := parse_of_respelled h htokens' hsame
  have htrees := tree_of_respelled (Token.keepsOperators_respelled chosen) hprograms
  exact ⟨tokens', htokens', hsame, hprograms, htrees⟩

/-- A function without blanks around its symbols, with a comment right behind it. -/
def atMost : List Token :=
  [Lexeme.place ⟨.ident, "f", .text "f"⟩ 1 1, (Symbol.lexeme [':'] .colon).place 1 3,
    Lexeme.place ⟨.fn, "fn", .nothing⟩ 1 5, Lexeme.place ⟨.ident, "x", .text "x"⟩ 1 8,
    (Symbol.lexeme ['-', '>'] .arrow).place 1 9, Lexeme.place ⟨.ident, "x", .text "x"⟩ 1 11,
    (Symbol.lexeme ['<', '='] .le).place 1 12, Lexeme.place ⟨.ident, "y", .text "y"⟩ 1 14,
    Lexeme.newline.place 1 19, Lexeme.eof.place 2 1]

private theorem tokenize_atMost :
    tokenize Keywords.standard "f : fn x->x<=y--<=" none = .ok atMost := by
  rfl

/-- Of the three tokens that have a sign two are replaced, and the comment stays. -/
theorem respelled_atMost :
    Source.respelled (fun token => token.kind != .arrow) atMost "f : fn x->x<=y--<=" =
      "f : ƒ x->x≤y--<=" := by
  decide +kernel

/-- A function with its signs in Unicode has the same tree, up to operators. -/
theorem parse_respelled_atMost :
    tokenize Keywords.standard "f : fn x->x<=y--<=" none = .ok atMost ∧
      (∃ tokens, tokenize Keywords.standard "f : ƒ x->x≤y--<=" none = .ok tokens ∧
        tokens.map (·.kind) = atMost.map (·.kind)) ∧
      (Source.tree Keywords.standard "f : ƒ x->x≤y--<=" none).toOption.map operatorsInUnicode =
        (Source.tree Keywords.standard "f : fn x->x<=y--<=" none).toOption.map
          operatorsInUnicode := by
  obtain ⟨tokens, htokens, hsame, -, htrees⟩ :=
    parse_respelled tokenize_atMost fun token => token.kind != .arrow
  rw [respelled_atMost] at htokens htrees
  refine ⟨tokenize_atMost, ⟨tokens, htokens, ?_⟩, htrees⟩
  simpa [Function.comp_def] using congrArg (List.map fun token : Token => token.kind) hsame

end Program

end Slick
