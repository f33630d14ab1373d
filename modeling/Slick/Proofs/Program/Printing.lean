import Slick.Proofs.Expr.Pieces
import Slick.Proofs.Grammar.Rendering
import Slick.Proofs.Program.Concatenation

/-!
# Declarations are read back

Declarations are written one to a line, as the name, a colon and the pieces of the initializer with
single spaces between them. Such a line is read as the lexemes of the declaration, it stands at the
left margin and leaves no bracket open, so the lines do not disturb each other. Main statement:
`Program.parse_written`.
-/

namespace Slick

open Grammar Layout

variable {path : Option String}

namespace Text

/-- Lines that are joined by line feeds are the lines of the joint text. -/
theorem lines_intercalate {lines : List String} (hne : lines ≠ [])
    (h : ∀ line ∈ lines, '\n' ∉ line.toList) :
    Text.lines ("\n".intercalate lines).toList = lines.map String.toList := by
  induction lines with
  | nil => exact absurd rfl hne
  | cons line lines ih =>
    rw [List.forall_mem_cons] at h
    cases lines with
    | nil =>
      rw [String.intercalate_singleton, lines_of_newline_notMem h.1]
      rfl
    | cons next lines =>
      have hsplit : ("\n".intercalate (line :: next :: lines)).toList =
          line.toList ++ '\n' :: ("\n".intercalate (next :: lines)).toList := by
        rw [String.intercalate_cons_cons]
        simp
      rw [hsplit, lines_append_newline, lines_of_newline_notMem h.1, ih (by simp) h.2]
      rfl

end Text

namespace Stmt

/-- A declaration on one line: the name, a colon and the initializer, with spaces between all
pieces. -/
def line : Stmt → String
  | .binding name initializer _ => " ".intercalate (name.text :: ":" :: initializer.pieces)
  | .customType _ _ _ | .unknown _ => ""

/-- A declaration that is written on one line. It gives a name to a normal expression without
choices; its names, keys, operators and values are those that sources have, and no number needs an
exponent. -/
def Writable : Stmt → Prop
  | .binding name initializer _ =>
    name.IsName (Lexeme.Scanned Keywords.standard) ∧ initializer.Normal ∧
      initializer.MadeOf (Lexeme.Scanned Keywords.standard) ∧ initializer.OneLine
  | .customType _ _ _ | .unknown _ => False

variable {name : Token} {initializer : Expr} {location : Location}

private theorem toList_line : (binding name initializer location).line.toList =
    name.text.toList ++ Line.spaced (":" :: initializer.pieces) :=
  Line.toList_intercalate_space name.text (":" :: initializer.pieces)

/-- What stands behind the name on the line of a declaration. -/
theorem Writable.reads (h : (binding name initializer location).Writable) :
    name.toLexeme.Written Keywords.standard ∧
      Line.Reads Keywords.standard (":" :: initializer.pieces)
        (Symbol.lexeme [':'] .colon :: initializer.lexemes) := by
  obtain ⟨⟨hscanned, hkind⟩, hnormal, hmade, hline⟩ := h
  refine ⟨hscanned.written (by simp [hkind]), .symbol (by decide) ?_⟩
  exact Expr.pieces_read hnormal hmade hline

/-- The line of a declaration is a single line at the left margin. -/
theorem Writable.line_plain {stmt : Stmt} (h : stmt.Writable) :
    '\n' ∉ stmt.line.toList ∧ Text.trimReturns stmt.line.toList = stmt.line.toList ∧
      Line.indentWidth stmt.line.toList = 0 := by
  cases stmt with
  | customType | unknown => exact h.elim
  | binding name initializer location =>
    obtain ⟨hname, hreads⟩ := h.reads
    rw [toList_line]
    refine ⟨?_, ?_, ?_⟩
    · rw [List.mem_append, not_or]
      exact ⟨hname.newline, hreads.newline_notMem⟩
    · exact Text.trimReturns_of_last (Line.getLast?_append_ne hname.last hreads.last_ne_return)
    · exact hname.ends.indentWidth_append _

/-- The line of a declaration is read as tokens that spell the declaration up to places. -/
theorem Writable.scan_line {stmt : Stmt} (h : stmt.Writable) (path : Option String)
    (number : Nat) :
    ∃ tokens stmt', Line.scan Keywords.standard path number stmt.line.toList = .ok tokens ∧
      SpellsStmt path Apart tokens stmt' ∧ stmt'.unplaced = stmt.unplaced := by
  cases stmt with
  | customType | unknown => exact h.elim
  | binding name initializer location =>
    obtain ⟨hname, hreads⟩ := h.reads
    obtain ⟨tokens, hlexemes, htiled⟩ := hreads.tiled number (1 + name.text.length)
    obtain ⟨colon, body, rfl, hcolon, hbody⟩ := List.map_eq_cons_iff.mp hlexemes
    obtain ⟨e, hspells, hsame⟩ := (normal_spelled h.2.1).expression path hbody
    have hline : Line.Tiled Keywords.standard number 1
        (name.text.toList ++ Line.spaced (":" :: initializer.pieces))
        (name.toLexeme.place number 1 :: colon :: body) :=
      .token (hname.ends.before_space (Line.head_spaced _)) htiled
    have hstmt : SpellsStmt path Apart (name.toLexeme.place number 1 :: colon :: body)
        (.binding (name.toLexeme.place number 1) e ⟨⟨number, 1⟩, path⟩) :=
      .binding h.1.2 (by rw [hcolon]; rfl) (.inline hspells)
    refine ⟨_, _, ?_, hstmt, ?_⟩
    · rw [toList_line]
      exact hline.scanAt_eq
    · simp only [unplaced, moved]
      rw [← Expr.unplaced, hsame]
      rfl

end Stmt

/-- Declarations, each on a line of its own. -/
def Source.ofDeclarations (declarations : List Stmt) : String :=
  "\n".intercalate (declarations.map Stmt.line)

namespace Program

variable {declarations : List Stmt}

/-- A line at the left margin that spells a declaration adds its tokens and nothing else, and leaves
the layout as it was. -/
theorem addLine_of_spells {keywords : Keywords} {number : Nat} {line : List Char}
    {tokens : List Token} {stmt : Stmt} (hwidth : Line.indentWidth line = 0)
    (hscan : Line.scan keywords path number line = .ok tokens)
    (hspells : SpellsStmt path Apart tokens stmt) :
    ∃ added, addLine keywords path {} number line = .ok (added, {}) ∧
      SpellsProgram path Apart added [stmt] := by
  have hdepth : Line.depthAfter 0 tokens = 0 := hspells.balanced.depthAfter_eq 0
  have hne : tokens ≠ [] := by
    obtain ⟨token, more, rfl, -⟩ := hspells.exists_cons
    simp
  have hadds : Adds keywords path {} number line [] tokens {} :=
    ⟨hscan, hne, hdepth.symm, fun hopen => absurd rfl hopen, fun _ => by rw [hwidth]; rfl⟩
  refine ⟨_, hadds.addLine, ?_⟩
  have hnewline : Newlines [Lexeme.newline.place number (line.length + 1)] := by
    simp [Newlines, Lexeme.newline]
  have hapart : Apart tokens ([Lexeme.newline.place number (line.length + 1)] ++ []) := by
    refine .inr fun token htoken => ?_
    obtain rfl : _ = token := by simpa using htoken
    exact extendsExpression_eq_false (by simp [Lexeme.newline])
  exact ⟨[], _, rfl, by simp [Newlines], .cons hspells hnewline hapart .nil⟩

/-- The line of a declaration is read as the declaration up to places. -/
theorem addLine_line {stmt : Stmt} (h : stmt.Writable) (path : Option String) (number : Nat) :
    ∃ tokens stmt', addLine Keywords.standard path {} number (Text.trimReturns stmt.line.toList) =
        .ok (tokens, {}) ∧
      SpellsProgram path Apart tokens [stmt'] ∧ stmt'.unplaced = stmt.unplaced := by
  obtain ⟨-, htrim, hwidth⟩ := h.line_plain
  obtain ⟨tokens, stmt', hscan, hspells, hsame⟩ := h.scan_line path number
  obtain ⟨added, hadd, hprogram⟩ := addLine_of_spells hwidth hscan hspells
  exact ⟨added, stmt', by rw [htrim]; exact hadd, hprogram, hsame⟩

/-- Lines of declarations are tokens that spell them one after another. -/
theorem reaches_lines (h : ∀ stmt ∈ declarations, stmt.Writable) (path : Option String) :
    ∃ body stmts,
      Reaches Keywords.standard path (declarations.map fun stmt => stmt.line.toList) body {} ∧
        SpellsProgram path Apart body stmts ∧
        stmts.map Stmt.unplaced = declarations.map Stmt.unplaced := by
  induction declarations using List.reverseRecOn with
  | nil => exact ⟨[], [], .start, ⟨[], [], rfl, by simp [Newlines], .nil⟩, rfl⟩
  | append_singleton declarations stmt ih =>
    rw [List.forall_mem_append, List.forall_mem_singleton] at h
    obtain ⟨body, stmts, hreaches, hspells, hsame⟩ := ih h.1
    obtain ⟨tokens, stmt', hadd, hspells', hsame'⟩ := addLine_line h.2 path
      ((declarations.map fun stmt => stmt.line.toList).length + 1)
    have hends : EndsWhole body := by simpa [dedents] using hreaches.endsWhole 0
    refine ⟨body ++ tokens, stmts ++ [stmt'], ?_, hspells.append hends hspells', ?_⟩
    · rw [List.map_append]
      exact .step hreaches hadd
    · rw [List.map_append, List.map_append, hsame, List.map_singleton, hsame', List.map_singleton]

/-- **Declarations are read back.** Declarations that are written one to a line are read as they
are, up to places. -/
theorem parse_written (hne : declarations ≠ []) (h : ∀ stmt ∈ declarations, stmt.Writable)
    (path : Option String) :
    ∃ program, Program.parse Keywords.standard (Source.ofDeclarations declarations) path =
        .ok program ∧ program.path = path ∧
      program.statements.map Stmt.unplaced = declarations.map Stmt.unplaced := by
  obtain ⟨body, stmts, hreaches, hspells, hsame⟩ := reaches_lines h path
  have hlines : Text.lines (Source.ofDeclarations declarations).toList =
      declarations.map fun stmt => stmt.line.toList := by
    rw [Source.ofDeclarations, Text.lines_intercalate (by simpa using hne), List.map_map]
    · rfl
    · intro line hline
      obtain ⟨stmt, hstmt, rfl⟩ := List.mem_map.mp hline
      exact (h stmt hstmt).line_plain.1
  rw [← hlines] at hreaches
  refine ⟨⟨stmts, path⟩, parse_eq_ok_iff.mpr ⟨body, {}, hreaches, ?_, rfl⟩, rfl, hsame⟩
  simpa [dedents] using hspells

end Program

/-- The declaration `x : if f [ -1.5 , 'it\'s' ] then { r | k : a . b } else ƒ p → p - -2`. -/
def mixedDeclaration : Stmt := .binding (name "x") initializer origin
where
  origin : Location := ⟨⟨0, 0⟩, none⟩
  name (text : String) : Token := ⟨Word.lexeme Keywords.standard text.toList, origin.toPosition⟩
  reference (text : String) : Expr := .reference (name text) origin
  initializer : Expr :=
    .conditional
      (.call (reference "f")
        [.list [.literal (.decimal (.finite true 15 (-1))) origin, .literal (.text "it's") origin]
          origin] origin)
      (.update (reference "r") [("k", .get (reference "a") (name "b") origin)] origin)
      (.function [name "p"]
        (.binary (reference "p") ⟨Symbol.lexeme ['-'] .minus, origin.toPosition⟩
          (.literal (.decimal (.finite true 2 0)) origin) origin) origin) origin

-- A negative number has its sign right in front of it, also behind a minus sign.
example : mixedDeclaration.line =
    "x : if f [ -1.5 , 'it\\'s' ] then \x7b r | k : a . b \x7d else ƒ p → p - -2" := by
  decide +kernel

namespace mixedDeclaration

private theorem name_isName (text : String) (h : text ∈ ["x", "f", "r", "k", "a", "b", "p"]) :
    (name text).IsName (Lexeme.Scanned Keywords.standard) := by
  have hword : Word.IsWord text.toList := by
    fin_cases h <;> decide
  refine ⟨.word hword, ?_⟩
  fin_cases h <;> rfl

private theorem initializer_normal : initializer.Normal := by
  have reference_normal : ∀ text ∈ ["x", "f", "r", "k", "a", "b", "p"], (reference text).Normal :=
    fun text htext => .intro (.inl (name_isName text htext).2) (by simp [reference, Expr.children])
  have literal_normal : ∀ value : Value, value.IsLiteral → (Expr.literal value origin).Normal :=
    fun value hvalue => .intro hvalue (by simp [Expr.children])
  have hnumbers : (Value.decimal (.finite true 15 (-1))).IsLiteral ∧
      (Value.decimal (.finite true 2 0)).IsLiteral := ⟨⟨15, -1, .inr rfl⟩, ⟨2, 0, .inr rfl⟩⟩
  have hminus : (⟨Symbol.lexeme ['-'] .minus, origin.toPosition⟩ : Token).kind.isAdditive = true :=
    rfl
  refine .intro trivial ?_
  simp only [initializer, Expr.children, List.forall_mem_cons, List.not_mem_nil, false_implies,
    implies_true, and_true]
  refine ⟨.intro ?_ ?_, .intro ?_ ?_, .intro ?_ ?_⟩
  · simp [Expr.Tidy, Expr.rank, Expr.startsNegative, reference]
  · simp only [Expr.children, List.forall_mem_cons, List.not_mem_nil, false_implies, implies_true,
      and_true]
    refine ⟨reference_normal _ (by decide), .intro trivial ?_⟩
    simpa [Expr.children] using ⟨literal_normal _ hnumbers.1, literal_normal (.text _) trivial⟩
  · simp [Expr.Tidy]
  · simp only [Expr.children, List.map_cons, List.map_nil, List.forall_mem_cons, List.not_mem_nil,
      false_implies, implies_true, and_true]
    refine ⟨reference_normal _ (by decide), .intro ⟨?_, (name_isName _ (by decide)).2⟩ ?_⟩
    · simp [Expr.rank, reference]
    · simpa [Expr.children] using reference_normal "a" (by decide)
  · simpa [Expr.Tidy, Names] using (name_isName "p" (by decide)).2
  · simp only [Expr.children, List.forall_mem_cons, List.not_mem_nil, false_implies, implies_true,
      and_true]
    refine .intro ⟨.sum, hminus, ?_, ?_⟩ ?_
    · simp [Expr.rank, reference, Level.leftRank, Level.rank]
    · simp [Expr.rank, Level.rank]
    · simpa [Expr.children] using ⟨reference_normal "p" (by decide), literal_normal _ hnumbers.2⟩

private theorem initializer_madeOf : initializer.MadeOf (Lexeme.Scanned Keywords.standard) := by
  have reference_madeOf : ∀ text ∈ ["x", "f", "r", "k", "a", "b", "p"],
      (reference text).MadeOf (Lexeme.Scanned Keywords.standard) :=
    fun text htext => ⟨(name_isName text htext).1, .inl (name_isName text htext).2⟩
  have hkey : IsKey (Lexeme.Scanned Keywords.standard) "k" :=
    ⟨_, (name_isName "k" (by decide)).1, rfl, rfl⟩
  have hfraction : (Value.decimal (.finite true 15 (-1))).MadeOf
      (Lexeme.Scanned Keywords.standard) :=
    ⟨_, @Lexeme.Scanned.fraction _ ['1'] ['5'] (by simp) (by simp) (by simp) (by simp),
      .inr ⟨rfl, rfl⟩⟩
  have hnumber : (Value.decimal (.finite true 2 0)).MadeOf (Lexeme.Scanned Keywords.standard) :=
    ⟨_, @Lexeme.Scanned.numeral _ ['2'] (by simp) (by simp), .inr ⟨rfl, rfl⟩⟩
  have htext : (Value.text "it's").MadeOf (Lexeme.Scanned Keywords.standard) :=
    ⟨_, @Lexeme.Scanned.text _ "it's".toList "it\\'s".toList, .inl ⟨.inr (.inl rfl), rfl⟩⟩
  refine ⟨⟨reference_madeOf _ (by decide), ⟨hfraction, htext, trivial⟩, trivial⟩,
    ⟨reference_madeOf _ (by decide), hkey, ⟨?_, name_isName _ (by decide)⟩, trivial⟩, ?_, ?_⟩
  · exact reference_madeOf _ (by decide)
  · simpa using name_isName "p" (by decide)
  · exact ⟨reference_madeOf _ (by decide), hnumber, .symbol (by decide), .sum, rfl⟩

private theorem initializer_oneLine : initializer.OneLine := by
  have reference_oneLine : ∀ text, (reference text).OneLine :=
    fun text => .intro trivial (by simp [reference, Expr.children])
  have literal_oneLine : ∀ value, (Expr.literal value origin).FitsLine →
      (Expr.literal value origin).OneLine :=
    fun value hvalue => .intro hvalue (by simp [Expr.children])
  refine .intro trivial ?_
  simp only [initializer, Expr.children, List.forall_mem_cons, List.not_mem_nil, false_implies,
    implies_true, and_true]
  refine ⟨.intro trivial ?_, .intro trivial ?_, .intro trivial ?_⟩
  · simp only [Expr.children, List.forall_mem_cons, List.not_mem_nil, false_implies, implies_true,
      and_true]
    refine ⟨reference_oneLine "f", .intro trivial ?_⟩
    simpa [Expr.children] using ⟨literal_oneLine _ rfl, literal_oneLine (.text _) trivial⟩
  · simp only [Expr.children, List.map_cons, List.map_nil, List.forall_mem_cons, List.not_mem_nil,
      false_implies, implies_true, and_true]
    refine ⟨reference_oneLine "r", .intro trivial ?_⟩
    simpa [Expr.children] using reference_oneLine "a"
  · simp only [Expr.children, List.forall_mem_cons, List.not_mem_nil, false_implies, implies_true,
      and_true]
    refine .intro trivial ?_
    simpa [Expr.children] using ⟨reference_oneLine "p", literal_oneLine _ rfl⟩

private theorem writable : mixedDeclaration.Writable :=
  ⟨name_isName _ (by decide), initializer_normal, initializer_madeOf, initializer_oneLine⟩

end mixedDeclaration

/-- A declaration with most forms of expressions in it is read back, also behind itself. -/
theorem Program.parse_written_mixed :
    (∀ stmt ∈ [mixedDeclaration, mixedDeclaration], stmt.Writable) ∧
      ∃ program, Program.parse Keywords.standard
          (Source.ofDeclarations [mixedDeclaration, mixedDeclaration]) (some "a.slick") =
          .ok program ∧ program.path = some "a.slick" ∧
        program.statements.map Stmt.unplaced =
          [mixedDeclaration, mixedDeclaration].map Stmt.unplaced := by
  have hall : ∀ stmt ∈ [mixedDeclaration, mixedDeclaration], stmt.Writable := by
    simpa using mixedDeclaration.writable
  exact ⟨hall, Program.parse_written (by simp) hall (some "a.slick")⟩

end Slick
