import Mathlib.Data.List.Infix
import Slick.Proofs.Grammar.Spans
import Slick.Proofs.Program.ErrorPlaces
import Slick.Proofs.Program.Reading

/-!
# Places of nodes

The tokens of a source stand in it one behind another, and each is written at its place. So the
nodes of a program that is read are placed in its source: at the first of their tokens, or, for
operations, at the operator, with the children of a node behind one another. Main statement:
`Program.located`.
-/

namespace Slick

variable {path : Option String}

/-- The first place comes before the second in the source. -/
def Position.Before (early late : Position) : Prop :=
  early.line < late.line ∨ early.line = late.line ∧ early.column < late.column

/-- The first token stands before the second, unless one of them is a mark of the layout. -/
def Token.InOrder (early late : Token) : Prop :=
  early.kind.isLayout = false → late.kind.isLayout = false →
    early.toPosition.Before late.toPosition

/-- The lines have the token at its place. -/
def Token.WrittenIn (lines : List (List Char)) (token : Token) : Prop :=
  ∃ index line, lines[index]? = some line ∧ token.line = index + 1 ∧ 1 ≤ token.column ∧
    token.text ≠ "" ∧ token.text.toList <+: line.drop (token.column - 1)

/-- The source of the first node starts before that of the second. -/
def Node.StartsBefore (early late : Node) : Prop :=
  ∃ location ∈ early.start?, ∃ location' ∈ late.start?,
    location.toPosition.Before location'.toPosition

/-- A token that is written in some lines is written in more lines. -/
theorem Token.WrittenIn.append {lines : List (List Char)} {token : Token}
    (h : token.WrittenIn lines) (more : List (List Char)) : token.WrittenIn (lines ++ more) := by
  obtain ⟨index, line, hindex, hplace⟩ := h
  have hlt : index < lines.length := (List.getElem?_eq_some_iff.mp hindex).1
  exact ⟨index, line, by rw [List.getElem?_append_left hlt, hindex], hplace⟩

namespace Line

variable {keywords : Keywords} {number : Nat} {text : List Char} {tokens : List Token}

/-- The tokens of a line stand behind one another. -/
theorem inOrder_of_scan (h : scan keywords path number text = .ok tokens) :
    tokens.Pairwise Token.InOrder := by
  have hpartitioned := (scanAt_eq_ok_iff.mp h).partitioned
  refine hpartitioned.ordered.imp_of_mem fun {early late} hearly hlate hstop _ _ => .inr ?_
  obtain ⟨hline, -, hne, -⟩ := hpartitioned.slice early hearly
  obtain ⟨hline', -, -, -⟩ := hpartitioned.slice late hlate
  have hpos : 0 < early.text.length := by
    rw [Nat.pos_iff_ne_zero]
    simpa using hne
  rw [Token.stop] at hstop
  exact ⟨hline.trans hline'.symm, by omega⟩

end Line

namespace Layout

variable {keywords : Keywords} {lines : List (List Char)} {before : List Token} {layout : Layout}

/-- Marks of the layout take no part in the order of tokens. -/
theorem inOrder_of_isLayout {early late : Token}
    (h : early.kind.isLayout = true ∨ late.kind.isLayout = true) : early.InOrder late := by
  intro hearly hlate
  rw [hearly, hlate] at h
  exact absurd h (by decide)

/-- The tokens that a line adds stand behind one another. -/
theorem Adds.inOrder {next : Layout} {number : Nat} {line : List Char} {marks : List Lexeme}
    {scanned : List Token} (h : Adds keywords path layout number line marks scanned next) :
    (marks.map (·.place number 1) ++
      (scanned ++ [Lexeme.newline.place number (line.length + 1)])).Pairwise Token.InOrder := by
  have hmarks : ∀ mark ∈ marks.map (·.place number 1), mark.kind.isLayout = true := by
    intro mark hmark
    obtain ⟨lexeme, hlexeme, rfl⟩ := List.mem_map.mp hmark
    exact h.marks_isLayout lexeme hlexeme
  rw [List.pairwise_append, List.pairwise_append]
  refine ⟨?_, ⟨Line.inOrder_of_scan h.scan, List.pairwise_singleton _ _, ?_⟩, ?_⟩
  · exact List.pairwise_of_forall_mem_list fun mark hmark _ _ =>
      inOrder_of_isLayout (.inl (hmarks mark hmark))
  · intro token _ newline hnewline
    rw [List.mem_singleton.mp hnewline]
    exact inOrder_of_isLayout (.inr rfl)
  · exact fun mark hmark token _ => inOrder_of_isLayout (.inl (hmarks mark hmark))

/-- The tokens of a run stand behind one another. -/
theorem Reaches.inOrder (h : Reaches keywords path lines before layout) :
    before.Pairwise Token.InOrder := by
  induction h with
  | start => exact .nil
  | @step lines line before tokens layout next hreaches hadd ih =>
    rcases addLine_cases hadd with ⟨-, rfl, -⟩ | ⟨marks, scanned, hadds, rfl⟩
    · rwa [List.append_nil]
    rw [List.pairwise_append]
    refine ⟨ih, hadds.inOrder, fun early hearly late hlate _ _ => .inl ?_⟩
    have hline := hreaches.line_le early hearly
    have hnumber : late.line = lines.length + 1 := hadds.line_eq late hlate
    omega

/-- The tokens of a run that are no marks are written in its lines. -/
theorem Reaches.written (h : Reaches keywords path lines before layout) :
    ∀ token ∈ before, token.kind.isLayout = false → token.WrittenIn lines := by
  induction h with
  | start => simp
  | @step lines line before tokens layout next _ hadd ih =>
    rw [List.forall_mem_append]
    refine ⟨fun token htoken hplain => (ih token htoken hplain).append [line], ?_⟩
    rcases addLine_cases hadd with ⟨-, rfl, -⟩ | ⟨marks, scanned, hadds, rfl⟩
    · simp
    rw [List.forall_mem_append, List.forall_mem_append, List.forall_mem_singleton]
    refine ⟨?_, ?_, fun hplain => by cases hplain⟩
    · intro token htoken hplain
      obtain ⟨mark, hmark, rfl⟩ := List.mem_map.mp htoken
      rw [Lexeme.toLexeme_place, hadds.marks_isLayout mark hmark] at hplain
      cases hplain
    · intro token htoken _
      have hpartitioned := (Line.scanAt_eq_ok_iff.mp hadds.scan).partitioned
      obtain ⟨hline, hcolumn, hne, hslice⟩ := hpartitioned.slice token htoken
      obtain ⟨count, hreturns⟩ := Text.exists_trimReturns_append line
      have hkept : Text.trimReturns line <+: line := ⟨_, hreturns.symm⟩
      exact ⟨lines.length, line, by simp, hline, hcolumn, hne, hslice.trans (hkept.drop _)⟩

private theorem isLayout_of_mem_dedents {lineCount : Nat} :
    ∀ token ∈ layout.dedents lineCount, token.kind.isLayout = true := by
  intro token htoken
  obtain ⟨_, -, rfl⟩ := List.mem_map.mp htoken
  rfl

/-- The tokens of a run stand behind one another, those that close its blocks included. -/
theorem Reaches.inOrder_closed (h : Reaches keywords path lines before layout) (lineCount : Nat) :
    (before ++ layout.dedents lineCount).Pairwise Token.InOrder := by
  rw [List.pairwise_append]
  have hdedent : ∀ token ∈ layout.dedents lineCount, token.kind.isLayout = true :=
    isLayout_of_mem_dedents
  refine ⟨h.inOrder, ?_, fun _ _ late hlate => inOrder_of_isLayout (.inr (hdedent late hlate))⟩
  exact List.pairwise_of_forall_mem_list fun early hearly _ _ =>
    inOrder_of_isLayout (.inl (hdedent early hearly))

private theorem Reaches.written_closed (h : Reaches keywords path lines before layout)
    (lineCount : Nat) :
    ∀ token ∈ before ++ layout.dedents lineCount, token.kind.isLayout = false →
      token.WrittenIn lines := by
  rw [List.forall_mem_append]
  refine ⟨h.written, fun token htoken hplain => ?_⟩
  rw [isLayout_of_mem_dedents token htoken] at hplain
  cases hplain

end Layout

/-- Nodes that are spread over tokens start where their tokens do, one behind another. -/
theorem Grammar.Spread.startsBefore {apart : List Token → List Token → Prop} {tokens : List Token}
    {nodes : List Node} (h : Spread path apart tokens nodes)
    (hordered : tokens.Pairwise Token.InOrder) :
    nodes.Pairwise Node.StartsBefore := by
  induction h with
  | nil => exact .nil
  | @cons gap used rest node nodes hnode _ hnodes _ ih =>
    obtain ⟨-, hbehind, -⟩ := List.pairwise_append.mp hordered
    obtain ⟨-, hrest, hcross⟩ := List.pairwise_append.mp hbehind
    refine .cons (fun later hlater => ?_) (ih hrest)
    obtain ⟨first, hfirst, -, hstart, -⟩ := hnode.placed.first
    obtain ⟨first', hfirst', hplain', hstart'⟩ := hnodes.start_mem later hlater
    have hbefore := hcross first (List.mem_of_mem_head? hfirst) first' hfirst'
    exact ⟨_, hstart, _, hstart', hbefore (hnode.head_plain first hfirst) hplain'⟩

/-- Where a node of a program stands in the lines of its source, which have the path and the given
tokens: it has a location with that path, it is spelled by some of the tokens that stand together
and by which it is placed, those tokens are written in the lines, and the children of the node start
one behind another. -/
def Node.Located (path : Option String) (lines : List (List Char)) (tokens : List Token)
    (node : Node) : Prop :=
  (∃ location ∈ node.location?, location.path = path) ∧
  ∃ used, used <:+: tokens ∧ node.SpelledBy path Grammar.Apart used ∧ node.PlacedBy path used ∧
    (∀ first ∈ used.head?, first.WrittenIn lines) ∧
    (∀ operator ∈ node.operator?, operator.WrittenIn lines) ∧
    node.children.Pairwise Node.StartsBefore

/-- A node that tokens place has a location with the path of their source. -/
theorem Node.PlacedBy.exists_location {path : Option String} {tokens : List Token} {node : Node}
    (h : node.PlacedBy path tokens) : ∃ location ∈ node.location?, location.path = path := by
  cases hoperator : node.operator? with
  | none =>
    obtain ⟨first, -, -, -, hlocation⟩ := h.first
    exact ⟨_, hlocation hoperator, rfl⟩
  | some operator =>
    obtain ⟨-, -, hlocation⟩ := h.operator operator hoperator
    exact ⟨_, hlocation, rfl⟩

/-- **Locations point at the source.** A program that is read has the given path. Its declarations
start one behind another, and each of its nodes is located: its location has the given path and is
that of the first token that the node is read from, or, for an operation, of the operator, and this
token is written there in the source. -/
theorem Program.located {keywords : Keywords} {source : String} {path : Option String}
    {program : Program} (h : Program.parse keywords source path = .ok program) :
    program.path = path ∧ ∃ tokens, tokenize keywords source path = .ok tokens ∧
      (program.statements.map Node.stmt).Pairwise Node.StartsBefore ∧
      ∀ node ∈ (program.statements.map Node.stmt).flatMap Node.reached,
        node.Located path (Text.lines source.toList) tokens := by
  obtain ⟨body, final, hreaches, hspells, hpath⟩ := parse_eq_ok_iff.mp h
  have hordered := hreaches.inOrder_closed (Text.lines source.toList).length
  have hwritten := hreaches.written_closed (Text.lines source.toList).length
  have hspread := hspells.spread
  refine ⟨hpath, _, hreaches.tokenize_eq, hspread.startsBefore hordered, fun node hnode => ?_⟩
  obtain ⟨used, hused, hspelled, hchildren⟩ := hspread.reached node hnode
  have hplaced := hspelled.placed
  have htokens : used <:+: body ++ final.close (Text.lines source.toList).length := by
    rw [Layout.close_eq_dedents, ← List.append_assoc]
    exact hused.trans (List.prefix_append _ _).isInfix
  refine ⟨hplaced.exists_location, used, htokens, hspelled, hplaced, fun first hfirst => ?_,
    fun operator hoperator => ?_, ?_⟩
  · have hmem := hused.subset (List.mem_of_mem_head? hfirst)
    exact hwritten first hmem (hspelled.head_plain first hfirst)
  · obtain ⟨hmem, hplain, -⟩ := hplaced.operator operator hoperator
    exact hwritten operator (hused.subset hmem) hplain
  · exact hchildren.startsBefore (hordered.sublist hused.sublist)

/-- The tokens of a difference between a call and a negative number, in a block. -/
def differenceInBlock : List Token :=
  [⟨⟨.ident, "x", .text "x"⟩, ⟨1, 1⟩⟩, ⟨⟨.colon, ":", .nothing⟩, ⟨1, 3⟩⟩, ⟨.newline, ⟨1, 4⟩⟩,
    ⟨.indent, ⟨2, 1⟩⟩, ⟨⟨.ident, "f", .text "f"⟩, ⟨2, 2⟩⟩, ⟨⟨.dot, ".", .nothing⟩, ⟨2, 3⟩⟩,
    ⟨⟨.ident, "g", .text "g"⟩, ⟨2, 4⟩⟩, ⟨⟨.number, "1", .decimal (.finite false 1 0)⟩, ⟨2, 6⟩⟩,
    ⟨⟨.minus, "-", .nothing⟩, ⟨2, 8⟩⟩, ⟨⟨.minus, "-", .nothing⟩, ⟨2, 10⟩⟩,
    ⟨⟨.number, "2", .decimal (.finite false 2 0)⟩, ⟨2, 11⟩⟩, ⟨.newline, ⟨2, 12⟩⟩,
    ⟨.dedent, ⟨2, 1⟩⟩, ⟨.eof, ⟨3, 1⟩⟩]

private theorem parse_differenceInBlock :
    Program.parse Keywords.standard "x :\r\n\tf.g 1 - -2" (some "a.slick") =
      .ok ⟨[.binding ⟨⟨.ident, "x", .text "x"⟩, ⟨1, 1⟩⟩
        (.binary
          (.call
            (.get (.reference ⟨⟨.ident, "f", .text "f"⟩, ⟨2, 2⟩⟩ ⟨⟨2, 2⟩, "a.slick"⟩)
              ⟨⟨.ident, "g", .text "g"⟩, ⟨2, 4⟩⟩ ⟨⟨2, 2⟩, "a.slick"⟩)
            [.literal (.decimal (.finite false 1 0)) ⟨⟨2, 6⟩, "a.slick"⟩] ⟨⟨2, 2⟩, "a.slick"⟩)
          ⟨⟨.minus, "-", .nothing⟩, ⟨2, 8⟩⟩
          (.literal (.decimal (.finite true 2 0)) ⟨⟨2, 10⟩, "a.slick"⟩) ⟨⟨2, 8⟩, "a.slick"⟩)
        ⟨⟨1, 1⟩, "a.slick"⟩], some "a.slick"⟩ := by
  have htokens : tokenize Keywords.standard "x :\r\n\tf.g 1 - -2" (some "a.slick") =
      .ok differenceInBlock :=
    rfl
  rw [Program.parse, htokens]
  rfl

/-- The nodes of a program with a block, a carriage return and a tab are located. -/
theorem Program.located_differenceInBlock : ∃ program,
    Program.parse Keywords.standard "x :\r\n\tf.g 1 - -2" (some "a.slick") = .ok program ∧
      program.path = some "a.slick" ∧
      ∃ tokens, tokenize Keywords.standard "x :\r\n\tf.g 1 - -2" (some "a.slick") = .ok tokens ∧
        (program.statements.map Node.stmt).Pairwise Node.StartsBefore ∧
        ∀ node ∈ (program.statements.map Node.stmt).flatMap Node.reached,
          node.Located (some "a.slick") (Text.lines "x :\r\n\tf.g 1 - -2".toList) tokens :=
  ⟨_, parse_differenceInBlock, Program.located parse_differenceInBlock⟩

end Slick
