import Slick.Line

/-!
# Tokens of a source text

The tokens of the lines are joined, each line that has tokens is closed by a mark, and
changes of indentation become marks of their own. Indentation counts only where no bracket
is open, and lines without tokens count for nothing.
-/

namespace Slick

/-- The state of the layout between two lines. -/
structure Layout where
  /-- The widths of the open levels, innermost first. The outermost level has width zero and is
  not listed. -/
  levels : List Nat := []
  /-- The number of open brackets. -/
  depth : Nat := 0
  deriving DecidableEq, Repr

namespace Layout

/-- The width of the innermost open level. -/
def innermost (levels : List Nat) : Nat := levels.headD 0

/-- The marks in front of a line of the given width, and the levels that are open in it. A wider
line opens a level. A narrower one closes every level wider than itself and has to meet the
width of the next one. -/
def enter (levels : List Nat) (width : Nat) : Option (List Lexeme × List Nat) :=
  if innermost levels < width then some ([.indent], width :: levels)
  else
    let closed := levels.takeWhile (width < ·)
    let kept := levels.dropWhile (width < ·)
    if innermost kept = width then some (closed.map fun _ => .dedent, kept) else none

/-- The tokens that a line adds, and the layout behind it. -/
def addLine (keywords : Keywords) (path : Option String) (layout : Layout) (number : Nat)
    (line : List Char) : Except Flaw (List Token × Layout) :=
  match Line.scan keywords path number line with
  | .error flaw => .error flaw
  | .ok [] => .ok ([], layout)
  | .ok tokens =>
    let ended := tokens ++ [Lexeme.newline.place number (line.length + 1)]
    let depth := Line.depthAfter layout.depth tokens
    if layout.depth = 0 then
      match enter layout.levels (Line.indentWidth line) with
      | none => .error ⟨⟨⟨number, Line.indentWidth line + 1⟩, path⟩, .inconsistentIndentation⟩
      | some (marks, levels) => .ok (marks.map (·.place number 1) ++ ended, ⟨levels, depth⟩)
    else .ok (ended, ⟨layout.levels, depth⟩)

/-- The marks behind the last line: one for each open level, and the end of the source. -/
def close (layout : Layout) (lineCount : Nat) : List Token :=
  layout.levels.map (fun _ => Lexeme.dedent.place lineCount 1) ++
    [Lexeme.eof.place (lineCount + 1) 1]

/-- The tokens of the remaining lines, of which the first has the number behind `done`. -/
def addLines (keywords : Keywords) (path : Option String) (layout : Layout) (done : Nat) :
    List (List Char) → Except Flaw (List Token)
  | [] => .ok (layout.close done)
  | line :: rest =>
    match layout.addLine keywords path (done + 1) (Text.trimReturns line) with
    | .error flaw => .error flaw
    | .ok (tokens, layout) => (layout.addLines keywords path (done + 1) rest).map (tokens ++ ·)

end Layout

/-- The tokens of a source text. -/
def tokenize (keywords : Keywords) (source : String) (path : Option String) :
    Except Flaw (List Token) :=
  Layout.addLines keywords path {} 0 (Text.lines source.toList)

/-- Lines without tokens leave the layout as it is. -/
theorem Layout.addLine_of_scan_nil {keywords : Keywords} {path : Option String} {layout : Layout}
    {number : Nat} {line : List Char} (h : Line.scan keywords path number line = .ok []) :
    layout.addLine keywords path number line = .ok ([], layout) := by
  simp [addLine, h]

/-- In a line that may stand where it does, the innermost level has the width of the line. -/
theorem Layout.innermost_of_enter {levels levels' : List Nat} {width : Nat} {marks : List Lexeme}
    (h : enter levels width = some (marks, levels')) : innermost levels' = width := by
  simp only [enter] at h
  split at h
  · simp only [Option.some.injEq, Prod.mk.injEq] at h
    obtain ⟨_, rfl⟩ := h
    rfl
  · split at h
    · next hwidth =>
      simp only [Option.some.injEq, Prod.mk.injEq] at h
      obtain ⟨_, rfl⟩ := h
      exact hwidth
    · simp at h

end Slick
