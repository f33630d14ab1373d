import Mathlib.Data.List.TakeWhile
import Slick.Proofs.Layout.Invariant
import Slick.Proofs.Line.Places

/-!
# The layout of one source behind another

A source whose first tokens do not open a block may stand behind another one that leaves no bracket
open. Its first line with tokens closes the blocks that are still open, just as the end of the
first source would do, and all other tokens are the same, further down. Main statement:
`Reaches.append_lines`.
-/

namespace Slick

variable {path : Option String}

/-- The place some lines further down. -/
def Position.down (lines : Nat) (place : Position) : Position :=
  ⟨place.line + lines, place.column⟩

namespace Line

/-- A line holds the same tokens further down. -/
theorem scan_down {keywords : Keywords} {number : Nat} {line : List Char} {tokens : List Token}
    (h : scan keywords path number line = .ok tokens) (lines : Nat) :
    scan keywords path (number + lines) line =
      .ok (tokens.map (Token.moved (Position.down lines))) := by
  have hscan : scan keywords path (number + lines) line =
      movedResult (Position.down lines) (scan keywords path number line) :=
    scan_moved keywords (Position.down lines) rfl (fun _ => rfl) line
  rw [hscan, h]
  rfl

end Line

namespace Layout

variable {keywords : Keywords}

/-- A line adds the same further down. -/
theorem Adds.down {layout next : Layout} {number : Nat} {line : List Char} {marks : List Lexeme}
    {scanned : List Token} (h : Adds keywords path layout number line marks scanned next)
    (lines : Nat) :
    Adds keywords path layout (number + lines) line marks
      (scanned.map (Token.moved (Position.down lines))) next where
  scan := Line.scan_down h.scan lines
  nonempty := by simpa using h.nonempty
  depth := by rw [Line.depthAfter_moved, h.depth]
  inside := h.inside
  outside := h.outside

/-- A line answers the same further down. -/
theorem addLine_down {layout next : Layout} {number : Nat} {line : List Char}
    {tokens : List Token} (h : layout.addLine keywords path number line = .ok (tokens, next))
    (lines : Nat) :
    layout.addLine keywords path (number + lines) line =
      .ok (tokens.map (Token.moved (Position.down lines)), next) := by
  rcases addLine_cases h with ⟨hscan, rfl, rfl⟩ | ⟨marks, scanned, hadds, rfl⟩
  · exact addLine_of_scan_nil (Line.scan_down hscan lines)
  · rw [(hadds.down lines).addLine, List.map_append, List.map_append, List.map_map]
    rfl

/-- A line without indentation closes all open levels. -/
theorem enter_zero {levels : List Nat} (h : Widening levels) :
    enter levels 0 = some (levels.map fun _ => .dedent, []) := by
  have hclosed : levels.takeWhile (0 < ·) = levels :=
    List.takeWhile_eq_self_iff.mpr fun width hwidth => by simpa using h.pos width hwidth
  have hkept : levels.dropWhile (0 < ·) = [] :=
    List.dropWhile_eq_nil_iff.mpr fun width hwidth => by simpa using h.pos width hwidth
  simp [enter, hclosed, hkept, innermost]

/-- Where no level is open, a line that opens none is not indented. -/
theorem enter_nil {levels : List Nat} {width : Nat} {marks : List Lexeme}
    (h : enter [] width = some (marks, levels))
    (hmarks : ∀ mark ∈ marks.head?, mark.kind ≠ .indent) :
    width = 0 ∧ marks = [] ∧ levels = [] := by
  rcases enter_cases h with ⟨-, rfl, -⟩ | ⟨closed, hlevels, hwidth, rfl⟩
  · exact absurd rfl (hmarks .indent (by simp))
  · obtain ⟨rfl, rfl⟩ := List.append_eq_nil_iff.mp hlevels.symm
    exact ⟨hwidth.symm, rfl, rfl⟩

/-- A line that opens no block at the start of a source closes the open blocks behind another
source. -/
theorem Adds.close_blocks {layout next : Layout} {number : Nat} {line : List Char}
    {marks : List Lexeme} {scanned : List Token}
    (h : Adds keywords path {} number line marks scanned next)
    (hmarks : ∀ mark ∈ marks.head?, mark.kind ≠ .indent) (hwidening : Widening layout.levels)
    (hdepth : layout.depth = 0) :
    marks = [] ∧
      Adds keywords path layout number line (layout.levels.map fun _ => .dedent) scanned next := by
  obtain ⟨hwidth, rfl, hlevels⟩ := enter_nil (h.outside rfl) hmarks
  refine ⟨rfl, h.scan, h.nonempty, by rw [hdepth, h.depth], fun hopen => absurd hdepth hopen, ?_⟩
  intro _
  rw [hwidth, hlevels]
  exact enter_zero hwidening

/-- The run over the lines of a source behind another one. As long as there have been no tokens,
the layout is still that of the first source. -/
theorem Reaches.append_run {first second : List (List Char)} {before body : List Token}
    {layout final : Layout} (hfirst : Reaches keywords path first before layout)
    (hdepth : layout.depth = 0) (hsecond : Reaches keywords path second body final)
    (hhead : ∀ token ∈ body.head?, token.kind ≠ .indent) :
    (body = [] ∧ final = {} ∧ Reaches keywords path (first ++ second) before layout) ∨
      ∃ number, Reaches keywords path (first ++ second)
        (before ++ (layout.dedents number ++
          body.map (Token.moved (Position.down first.length)))) final := by
  induction hsecond with
  | start => exact .inl ⟨rfl, rfl, by simpa using hfirst⟩
  | @step lines line body tokens inner next _ hadd ih =>
    have hnumber : (first ++ lines).length + 1 = lines.length + 1 + first.length := by
      rw [List.length_append]
      omega
    have hearlier : ∀ token ∈ body.head?, token.kind ≠ .indent := by
      intro token htoken
      exact hhead token (by simp [Option.mem_def.mp htoken])
    rcases ih hearlier with ⟨rfl, rfl, hreaches⟩ | ⟨number, hreaches⟩
    · rw [← List.append_assoc]
      rcases addLine_cases hadd with ⟨hscan, rfl, rfl⟩ | ⟨marks, scanned, hadds, rfl⟩
      · have hline : layout.addLine keywords path (lines.length + 1 + first.length)
            (Text.trimReturns line) = .ok ([], layout) :=
          addLine_of_scan_nil (Line.scan_down hscan first.length)
        rw [← hnumber] at hline
        exact .inl ⟨rfl, rfl, by simpa using Reaches.step hreaches hline⟩
      -- The first tokens of the second source come here, and the blocks of the first are closed.
      · have hmarks : ∀ mark ∈ marks.head?, mark.kind ≠ .indent := by
          intro mark hmark
          refine hhead (mark.place (lines.length + 1) 1) ?_
          simp [Option.mem_def.mp hmark]
        have hwidening := (hfirst.invariant (List.prefix_refl _)).widening
        obtain ⟨rfl, hcloses⟩ := hadds.close_blocks hmarks hwidening hdepth
        have hline := (hcloses.down first.length).addLine
        rw [← hnumber] at hline
        refine .inr ⟨(first ++ lines).length + 1, ?_⟩
        have hended : (Lexeme.newline.place (lines.length + 1)
            ((Text.trimReturns line).length + 1)).moved (Position.down first.length) =
            Lexeme.newline.place ((first ++ lines).length + 1)
              ((Text.trimReturns line).length + 1) := by
          rw [hnumber]
          rfl
        simpa [dedents, hended] using Reaches.step hreaches hline
    · have hline := addLine_down hadd first.length
      rw [← hnumber] at hline
      exact .inr ⟨number, by simpa using Reaches.step hreaches hline⟩

/-- **One source behind another.** The tokens of the two sources are joined by the marks that close
the open blocks of the first. -/
theorem Reaches.append_lines {first second : List (List Char)} {before body : List Token}
    {layout final : Layout} (hfirst : Reaches keywords path first before layout)
    (hdepth : layout.depth = 0) (hsecond : Reaches keywords path second body final)
    (hhead : ∀ token ∈ body.head?, token.kind ≠ .indent) (lineCount : Nat) :
    ∃ joined last number, Reaches keywords path (first ++ second) joined last ∧
      joined ++ last.dedents lineCount = before ++ layout.dedents number ++
        (body.map (Token.moved (Position.down first.length)) ++ final.dedents lineCount) := by
  rcases hfirst.append_run hdepth hsecond hhead with ⟨rfl, rfl, hreaches⟩ | ⟨number, hreaches⟩
  · exact ⟨before, layout, lineCount, hreaches, by simp [dedents]⟩
  · exact ⟨_, final, number, hreaches, by simp⟩

end Layout

end Slick
