import Slick.Proofs.Grammar.Concatenation
import Slick.Proofs.Grammar.Places
import Slick.Proofs.Layout.Concatenation
import Slick.Proofs.Program.Reading

/-!
# Programs compose

Join two sources that are read by a line feed, and the joint source is read. Its declarations are
those of the first source and, moved down, those of the second. Main statement:
`Program.parse_append`.
-/

namespace Slick

open Grammar Layout

/-- There is one line more than there are line feeds. -/
theorem Text.length_lines (text : List Char) : (lines text).length = text.count '\n' + 1 := by
  induction text with
  | nil => rfl
  | cons c rest ih =>
    simp only [lines]
    split
    · next hc =>
      rw [hc, List.length_cons, ih, List.count_cons_self]
    · next hc =>
      rw [List.count_cons_of_ne hc, ← ih]
      cases hlines : lines rest with
      | nil => exact absurd hlines (lines_ne_nil rest)
      | cons line more => rfl

/-- It does not matter where the open blocks are closed. -/
theorem Layout.dedents_agree (m m' : Move) (layout : Layout) (number number' : Nat) :
    TokensAgree m m' (layout.dedents number) (layout.dedents number') := by
  unfold dedents
  induction layout.levels with
  | nil => exact .nil
  | cons width levels ih => exact .cons ⟨rfl, fun hplain => by cases hplain⟩ ih

/-- Tokens agree with themselves at other places. -/
theorem TokensAgree.moved (m : Move) (tokens : List Token) :
    TokensAgree m .none tokens (tokens.map (Token.moved m)) := by
  induction tokens with
  | nil => exact .nil
  | cons token tokens ih => exact .cons ⟨rfl, fun _ => rfl⟩ ih

/-- The tokens of a source, its blocks closed, are those of whole lines. -/
theorem Layout.Reaches.endsWhole {keywords : Keywords} {lines : List (List Char)}
    {body : List Token} {final : Layout} (h : Reaches keywords path lines body final)
    (number : Nat) :
    EndsWhole (body ++ final.dedents number) := by
  intro last hlast
  rw [List.getLast?_append] at hlast
  cases hdedents : (final.dedents number).getLast? with
  | none =>
    rw [hdedents, Option.none_or] at hlast
    exact .inl ((h.invariant (List.prefix_refl _)).last last hlast)
  | some dedent =>
    rw [hdedents, Option.some_or, Option.mem_some_iff] at hlast
    obtain ⟨-, -, rfl⟩ := List.mem_map.mp (List.mem_of_getLast? hdedents)
    exact .inr (hlast ▸ rfl)

namespace Program

variable {keywords : Keywords} {s t : String} {path : Option String} {p q : Program}

/-- The declarations of the second source are read further down, behind those of the first. -/
theorem parse_join (hs : Program.parse keywords s path = .ok p)
    (ht : Program.parse keywords t path = .ok q) :
    Program.parse keywords (s ++ "\n" ++ t) path =
      .ok ⟨p.statements ++
        q.statements.map (Stmt.moved (Position.down (s.toList.count '\n' + 1))), path⟩ := by
  obtain ⟨body, layout, hreaches, hspells, -⟩ := parse_eq_ok_iff.mp hs
  obtain ⟨body', layout', hreaches', hspells', -⟩ := parse_eq_ok_iff.mp ht
  have hlines : Text.lines (s ++ "\n" ++ t).toList =
      Text.lines s.toList ++ Text.lines t.toList := by
    rw [← Text.lines_append_newline]
    simp
  have hhead : ∀ token ∈ body'.head?, token.kind ≠ .indent := by
    intro token htoken
    exact hspells'.head_ne_indent token (by simp [Option.mem_def.mp htoken])
  obtain ⟨joined, last, number, hjoined, htokens⟩ := hreaches.append_lines
    (depth_eq_zero hreaches hspells) hreaches' hhead (Text.lines (s ++ "\n" ++ t).toList).length
  -- In the first part only the marks that close blocks have moved.
  have hfirst : SpellsProgram path Apart (body ++ layout.dedents number) p.statements := by
    have hagree : TokensAgree .none .none
        (body ++ layout.dedents (Text.lines s.toList).length) (body ++ layout.dedents number) := by
      have hbody := TokensAgree.moved .none body
      rw [Token.map_moved_none] at hbody
      exact List.rel_append hbody (layout.dedents_agree _ _ _ _)
    obtain ⟨stmts, hstmts, hsame⟩ := hspells.carried rfl hagree
    rw [Stmt.map_moved_none, Stmt.map_moved_none] at hsame
    rwa [hsame]
  have hsecond : SpellsProgram path Apart
      (body'.map (Token.moved (Position.down (Text.lines s.toList).length)) ++
        layout'.dedents (Text.lines (s ++ "\n" ++ t).toList).length)
      (q.statements.map (Stmt.moved (Position.down (s.toList.count '\n' + 1)))) := by
    have hpath : Move.path (Position.down (Text.lines s.toList).length) path =
      Move.none.path path := rfl
    obtain ⟨stmts, hstmts, hsame⟩ := hspells'.carried hpath (List.rel_append
      (TokensAgree.moved (Position.down (Text.lines s.toList).length) body')
      (layout'.dedents_agree _ _ _ (Text.lines (s ++ "\n" ++ t).toList).length))
    rw [Stmt.map_moved_none] at hsame
    rwa [← Text.length_lines, hsame]
  refine parse_eq_ok_iff.mpr ⟨joined, last, by rwa [hlines], ?_, rfl⟩
  rw [htokens]
  exact hfirst.append (hreaches.endsWhole number) hsecond

/-- **Programs compose.** If two sources are read, so is the source that joins them by a line feed.
It holds the declarations of the first source and then those of the second, as many lines further
down as the first source has. The tree of the joint source has the children of the two trees. -/
theorem parse_append (hs : Program.parse keywords s path = .ok p)
    (ht : Program.parse keywords t path = .ok q) :
    Program.parse keywords (s ++ "\n" ++ t) path =
        .ok ⟨p.statements ++
          q.statements.map (Stmt.moved (Position.down (s.toList.count '\n' + 1))), path⟩ ∧
      ∃ tree tree' joined, Source.tree keywords s path = .ok tree ∧
        Source.tree keywords t path = .ok tree' ∧
        Source.tree keywords (s ++ "\n" ++ t) path = .ok joined ∧
        joined.children = tree.children ++ tree'.children := by
  have hjoin := parse_join hs ht
  refine ⟨hjoin, _, _, _, tree_of_parse hs, tree_of_parse ht, tree_of_parse hjoin, ?_⟩
  have hmoved : ∀ stmt ∈ q.statements.map (Stmt.moved (Position.down (s.toList.count '\n' + 1))),
      stmt.MadeOf (Lexeme.Known keywords) :=
    fun stmt hstmt => madeOf_of_parse hjoin stmt (List.mem_append_right _ hstmt)
  have hsame := Stmt.displayAll_moved (Position.down (s.toList.count '\n' + 1)) q.statements
  rw [Stmt.displayAll_eq_shown hmoved, Stmt.displayAll_eq_shown (madeOf_of_parse ht)] at hsame
  rw [Tree.children_branch, Tree.children_branch, Tree.children_branch, List.map_append,
    Except.ok.inj hsame]

/-- A choice with a list over two lines in its arm may stand behind itself, although its block is
still open where its last line ends. -/
theorem parse_append_twice : ∃ p,
    Program.parse Keywords.standard "x : case y of\n  A -> [b,\n c]" none = .ok p ∧
      Program.parse Keywords.standard
          ("x : case y of\n  A -> [b,\n c]" ++ "\n" ++ "x : case y of\n  A -> [b,\n c]") none =
        .ok ⟨p.statements ++ p.statements.map (Stmt.moved (Position.down 3)), none⟩ := by
  obtain ⟨p, hp⟩ : ∃ p, Program.ofTokens listInArm none = .ok p := ⟨_, rfl⟩
  have hparse := parse_listInArm.trans hp
  exact ⟨p, hparse, (parse_append hparse hparse).1⟩

end Program

end Slick
