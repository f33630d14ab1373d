import Slick.Proofs.Display.Shown
import Slick.Proofs.Grammar.ProgramCompleteness
import Slick.Proofs.Program.Brackets
import Slick.Proofs.Token.Scanned
import Slick.Source

/-!
# Sources that are read

A source is read exactly if the layout runs over its lines and what it leaves behind, with the open
blocks closed, spells a program. Such a program is made of the lexemes of the source, and so it has
a display tree. Main statements: `Program.parse_eq_ok_iff` and `Program.tree_of_parse`.
-/

namespace Slick

open Grammar Layout

namespace Program

variable {keywords : Keywords} {source : String} {path : Option String} {program : Program}

/-- A source with tokens is read from them. -/
theorem parse_of_tokenize {tokens : List Token} (h : tokenize keywords source path = .ok tokens) :
    Program.parse keywords source path = Program.ofTokens tokens path := by
  rw [Program.parse, h]

/-- A source is read as a program exactly if its tokens, up to the end, spell the program. -/
theorem parse_eq_ok_iff :
    Program.parse keywords source path = .ok program ↔
      ∃ body final, Reaches keywords path (Text.lines source.toList) body final ∧
        SpellsProgram path Apart (body ++ final.dedents (Text.lines source.toList).length)
          program.statements ∧ program.path = path := by
  constructor
  · intro h
    unfold Program.parse at h
    split at h
    · cases h
    next tokens htokens =>
    obtain ⟨body, final, hreaches, rfl⟩ := tokenize_reaches htokens
    have hlaidOut := (hreaches.invariant (List.prefix_refl _)).laidOut
      (Text.lines source.toList).length
    obtain ⟨front, last, hfront, hlast, hnoEnd, -⟩ := hlaidOut.end_last
    have hgetLast : (front ++ [last]).getLast? = some last := by simp
    rw [← hfront] at hgetLast
    obtain ⟨used, eof, more, hused, heof, -, hpath, hspells⟩ := ofTokens_reads hgetLast hlast h
    obtain rfl : more = [] := eq_nil_of_end (hused.symm.trans hfront) heof hnoEnd
    rw [close_eq_dedents, ← List.append_assoc] at hused
    obtain ⟨rfl, -⟩ := List.append_inj' hused rfl
    exact ⟨body, final, hreaches, hspells, hpath⟩
  · rintro ⟨body, final, hreaches, hspells, rfl⟩
    rw [Program.parse, hreaches.tokenize_eq, close_eq_dedents, ← List.append_assoc]
    exact hspells.ofTokens rfl

/-- No bracket is open behind the last line of a source that is read. -/
theorem depth_eq_zero {body : List Token} {final : Layout} {stmts : List Stmt}
    (hreaches : Reaches keywords path (Text.lines source.toList) body final)
    (hspells :
      SpellsProgram path Apart (body ++ final.dedents (Text.lines source.toList).length) stmts) :
    final.depth = 0 := by
  have hbalanced : Balanced (body ++ final.close (Text.lines source.toList).length) := by
    rw [close_eq_dedents, ← List.append_assoc]
    exact hspells.balanced.append (Balanced.nil.cons rfl rfl)
  exact (hreaches.invariant (List.prefix_refl _)).depth_of_balanced hbalanced

/-- A program that is read is made of the lexemes of its source. -/
theorem madeOf_of_parse (h : Program.parse keywords source path = .ok program) :
    ∀ stmt ∈ program.statements, stmt.MadeOf (Lexeme.Known keywords) := by
  obtain ⟨body, final, hreaches, hspells, -⟩ := parse_eq_ok_iff.mp h
  refine hspells.madeOf fun token htoken => tokenize_known hreaches.tokenize_eq token ?_
  rw [close_eq_dedents, ← List.append_assoc]
  exact List.mem_append_left _ htoken

/-- A program that is read has a tree. -/
theorem display_of_parse (h : Program.parse keywords source path = .ok program) :
    program.display = .ok (.branch "Program" (program.statements.map Stmt.shown)) := by
  rw [Program.display, Stmt.displayAll_eq_shown (madeOf_of_parse h)]
  rfl

/-- A source that is read has a tree. -/
theorem tree_of_parse (h : Program.parse keywords source path = .ok program) :
    Source.tree keywords source path =
      .ok (.branch "Program" (program.statements.map Stmt.shown)) :=
  Source.tree_eq_ok_iff.mpr ⟨program, h, display_of_parse h⟩

end Program

end Slick
