import Slick.Token

/-!
# Symbols

The symbols of the language with their kinds. Several kinds have an ASCII spelling beside
their Unicode one. No symbol stands behind a shorter one that it starts with, so the first
match is the longest.
-/

namespace Slick.Symbol

/-- The spellings with their kinds, longer ones first. -/
def table : List (List Char × Kind) :=
  [(['-', '>'], .arrow), (['!', '='], .ne), (['<', '='], .le), (['>', '='], .ge),
    (['→'], .arrow), (['ƒ'], .fn), (['≠'], .ne), (['≤'], .le), (['≥'], .ge),
    (['='], .eq), (['<'], .lt), (['>'], .gt), (['+'], .plus), (['-'], .minus), (['*'], .star),
    (['/'], .slash), (['&'], .amp), ([':'], .colon), ([','], .comma), (['.'], .dot),
    (['|'], .pipe), (['('], .lparen), ([')'], .rparen), (['['], .lbracket), ([']'], .rbracket),
    (['{'], .lbrace), (['}'], .rbrace)]

/-- The symbol that a text starts with. -/
def find? (text : List Char) : Option (List Char × Kind) :=
  table.find? fun entry => entry.1.isPrefixOf text

/-- A symbol as a lexeme. -/
def lexeme (spelling : List Char) (kind : Kind) : Lexeme :=
  ⟨kind, String.ofList spelling, .nothing⟩

/-- No entry is hidden by a shorter one before it. -/
theorem table_longest_first :
    table.Pairwise fun early late => ¬(early.1 <+: late.1 ∧ early.1 ≠ late.1) := by
  decide

/-- Every symbol has a character. -/
theorem spelling_ne_nil : ∀ entry ∈ table, entry.1 ≠ [] := by
  decide

end Slick.Symbol
