import Slick.Proofs.Decimal.Negation
import Slick.Proofs.Program.Forward
import Slick.Proofs.Program.Paths
import Slick.Proofs.Token.Scanned

/-!
# Sources are read or refused

A source whose numerals are not too long is read as a program or refused at a place; nothing else
can happen to it. The path of the source takes no part in the decision. Main statement:
`Program.parse_verdict`.
-/

namespace Slick

/-- Every numeral of the source has at most `limit` digits. The path of the source does not matter
to its tokens. -/
def Source.NumeralsWithin (limit : Nat) (keywords : Keywords) (source : String) : Prop :=
  ∀ tokens, tokenize keywords source none = .ok tokens → ∀ token ∈ tokens, token.kind = .number →
    (token.text.toList.filter Char.isDigit).length ≤ limit

/-- A numeral of less than a million digits has a negative. -/
theorem Lexeme.Known.exists_negate {keywords : Keywords} {l : Lexeme} (h : l.Known keywords)
    (hkind : l.kind = .number) (hlength : (l.text.toList.filter Char.isDigit).length ≤ 999999) :
    ∃ negative, l.value.negate = .ok negative := by
  obtain ⟨whole, fraction, hwhole, hdigits, htext, hvalue⟩ := h.numeral hkind
  rw [htext] at hlength
  obtain ⟨d, hd⟩ := Decimal.exists_negate hwhole hdigits hlength
  refine ⟨.decimal d, ?_⟩
  rw [hvalue, Value.negate, hd]

namespace Program

/-- Tokens that end with the end of the source are read or refused. -/
theorem ofTokens_verdict {tokens : List Token} {last : Token} (hlast : tokens.getLast? = some last)
    (heof : last.kind = .eof) (hnegatable : Negatable tokens) (path : Option String) :
    (∃ program, ofTokens tokens path = .ok program) ∨
      ∃ flaw, ofTokens tokens path = .error (.refused flaw) := by
  have hend : (⟨last, path⟩ : Parser.Context).last.kind = .eof := heof
  have hforward := form_forward hend hnegatable
  simp only [ofTokens, hlast]
  cases hread : form ⟨last, path⟩ tokens with
  | ok program rest => exact .inl ⟨program, rfl⟩
  | fail failure rest =>
    rw [hread] at hforward
    cases hforward with
    | @refused flaw rest hrest => exact .inr ⟨flaw, rfl⟩

/-- A source whose numerals have less than a million digits each is read as one program under all
paths, or refused for one flaw under all paths. -/
theorem parse_verdict {keywords : Keywords} {source : String}
    (h : Source.NumeralsWithin 999999 keywords source) :
    (∃ program : Program, ∀ path,
        Program.parse keywords source path = .ok (program.moved (.into path))) ∨
      ∃ flaw : Flaw, ∀ path,
        Program.parse keywords source path = .error (.refused (flaw.moved (.into path))) := by
  have hverdict : (∃ program, Program.parse keywords source none = .ok program) ∨
      ∃ flaw, Program.parse keywords source none = .error (.refused flaw) := by
    cases htokens : tokenize keywords source none with
    | error flaw =>
      refine .inr ⟨flaw, ?_⟩
      rw [Program.parse, htokens]
    | ok tokens =>
      obtain ⟨last, hlast, heof⟩ := Layout.tokenize_getLast htokens
      have hnegatable : Negatable tokens := by
        intro token htoken hkind
        exact (Layout.tokenize_known htokens token htoken).exists_negate hkind
          (h tokens htokens token htoken hkind)
      simp only [Program.parse, htokens]
      exact ofTokens_verdict hlast heof hnegatable none
  rcases hverdict with ⟨program, hparse⟩ | ⟨flaw, hparse⟩
  · refine .inl ⟨program, fun path => ?_⟩
    rw [parse_path keywords source none path, hparse]
    rfl
  · refine .inr ⟨flaw, fun path => ?_⟩
    rw [parse_path keywords source none path, hparse]
    rfl

end Program

end Slick
