import Mathlib.Data.List.TakeWhile
import Mathlib.Order.Monotone.Basic
import Slick.Proofs.Layout.Run
import Slick.Proofs.Line.Places

/-!
# Only the order of indents matters

Give the lines of a source other leading blanks, so that the widths outside brackets are replaced by
widths in the same order. Two runs of the layout, over the old lines and over the new ones, go side
by side: their open levels correspond, they find the same lexemes on the same lines, and they fail
on the same line for the same cause. Main statement: `Layout.addLines_reindented`.
-/

namespace Slick

variable {path : Option String}

/-- The place with its column left out. -/
def Position.lineOnly (place : Position) : Position := ⟨place.line, 0⟩

/-- Both readings give the same lexemes on the same lines, or both fail on the same line for the
same cause. -/
inductive SameTokens : Except Flaw (List Token) → Except Flaw (List Token) → Prop where
  | ok {tokens tokens' : List Token} :
    tokens.map (Token.moved Position.lineOnly) = tokens'.map (Token.moved Position.lineOnly) →
    SameTokens (.ok tokens) (.ok tokens')
  | error {flaw flaw' : Flaw} :
    flaw.line = flaw'.line → flaw.cause = flaw'.cause → SameTokens (.error flaw) (.error flaw')

/-- The same tokens in front keep two readings the same. -/
theorem SameTokens.map_append {result result' : Except Flaw (List Token)}
    {tokens tokens' : List Token} (h : SameTokens result result')
    (htokens : tokens.map (Token.moved Position.lineOnly) =
      tokens'.map (Token.moved Position.lineOnly)) :
    SameTokens (result.map (tokens ++ ·)) (result'.map (tokens' ++ ·)) := by
  cases h with
  | ok hmore =>
    refine .ok ?_
    rw [List.map_append, List.map_append, htokens, hmore]
  | error hline hcause => exact .error hline hcause

namespace Line

/-- The blanks that count as indentation. -/
def isIndent (c : Char) : Bool := c == ' ' || c == '\t'

/-- The text behind the leading blanks. -/
def behindBlanks (line : List Char) : List Char := line.dropWhile isIndent

/-- The number of open brackets behind a line, unless the line has a flaw. -/
def bracketsBehind (keywords : Keywords) (depth : Nat) (line : List Char) : Option Nat :=
  match scan keywords none 1 (Text.trimReturns line) with
  | .ok tokens => some (depthAfter depth tokens)
  | .error _ => none

/-- Leading blanks are read one by one. -/
theorem scanAt_blanks (keywords : Keywords) (line column : Nat) {blanks : List Char}
    (hblanks : ∀ c ∈ blanks, isIndent c = true) (text : List Char) :
    scanAt keywords path line column (blanks ++ text) =
      scanAt keywords path line (column + blanks.length) text := by
  induction blanks generalizing column with
  | nil => rfl
  | cons c blanks ih =>
    rw [List.forall_mem_cons] at hblanks
    have hc : c = ' ' ∨ c = '\t' := by simpa [isIndent] using hblanks.1
    have hlead : Lead.ofText keywords (c :: (blanks ++ text)) = .blank (blanks ++ text) := by
      rw [Lead.ofText, if_pos hc]
    rw [List.cons_append, scanAt_eq, hlead]
    simp only
    rw [ih _ hblanks.2, List.length_cons]
    congr 1
    omega

/-- Carriage returns are dropped behind the leading blanks. -/
theorem trimReturns_blanks {blanks : List Char} (hblanks : ∀ c ∈ blanks, isIndent c = true)
    (text : List Char) : Text.trimReturns (blanks ++ text) = blanks ++ Text.trimReturns text := by
  induction blanks with
  | nil => rfl
  | cons c blanks ih =>
    rw [List.forall_mem_cons] at hblanks
    have hc : c ≠ '\r' := by
      rintro rfl
      exact absurd hblanks.1 (by decide)
    rw [List.cons_append, List.cons_append, Text.trimReturns, ih hblanks.2]
    cases blanks ++ Text.trimReturns text with
    | nil => simp [hc]
    | cons d more => rfl

/-- A line has the same width without the carriage returns at its end. -/
theorem indentWidth_trimReturns (line : List Char) :
    indentWidth (Text.trimReturns line) = indentWidth line := by
  induction line with
  | nil => rfl
  | cons c rest ih =>
    rw [Text.trimReturns, indentWidth]
    cases htrim : Text.trimReturns rest with
    | nil =>
      rw [htrim, indentWidth] at ih
      by_cases hc : c = '\r'
      · simp [hc, indentWidth]
      · simp [hc, indentWidth, ← ih]
    | cons d more =>
      rw [htrim] at ih
      rw [indentWidth, ih]

/-- What a line holds is what it holds behind its leading blanks, moved to its place. -/
theorem scan_eq_moved (keywords : Keywords) (path : Option String) (number : Nat)
    (line : List Char) :
    ∃ shift, scan keywords path number (Text.trimReturns line) =
      movedResult ⟨fun place => ⟨number, place.column + shift⟩, fun _ => path⟩
        (scanAt keywords none 0 0 (Text.trimReturns (behindBlanks line))) := by
  have hblanks : ∀ c ∈ line.takeWhile isIndent, isIndent c = true :=
    fun c hc => List.mem_takeWhile_imp hc
  have hline : Text.trimReturns line =
      line.takeWhile isIndent ++ Text.trimReturns (behindBlanks line) := by
    rw [← trimReturns_blanks hblanks, behindBlanks, List.takeWhile_append_dropWhile]
  refine ⟨1 + (line.takeWhile isIndent).length, ?_⟩
  rw [scan, hline, scanAt_blanks keywords number 1 hblanks,
    ← scanAt_moved keywords _ rfl (fun _ => rfl), Nat.zero_add]

end Line

/-- The second list holds the lines of the first with other leading blanks. A line of width `w` that
starts outside brackets becomes a line of width `f w`; `depth` is the number of brackets that are
open in front of the lines, as far as it is known. -/
def Text.Reindented (keywords : Keywords) (f : Nat → Nat) :
    (depth : Option Nat) → List (List Char) → List (List Char) → Prop
  | _, [], [] => True
  | depth, line :: lines, line' :: lines' =>
    Line.behindBlanks line = Line.behindBlanks line' ∧
      (depth = some 0 → Line.indentWidth line' = f (Line.indentWidth line)) ∧
        Text.Reindented keywords f (depth.bind (Line.bracketsBehind keywords · line)) lines lines'
  | _, _, _ => False

namespace Layout

/-- The layout with other widths. -/
def widthsMapped (f : Nat → Nat) (layout : Layout) : Layout :=
  ⟨layout.levels.map f, layout.depth⟩

private theorem close_widthsMapped (f : Nat → Nat) (layout : Layout) (lineCount : Nat) :
    (layout.widthsMapped f).close lineCount = layout.close lineCount := by
  simp only [close, widthsMapped, List.map_map, Function.comp_def]

section

variable {f : Nat → Nat} (hf : StrictMono f) (hzero : f 0 = 0)

include hzero in
private theorem innermost_map (levels : List Nat) :
    innermost (levels.map f) = f (innermost levels) := by
  cases levels with
  | nil => exact hzero.symm
  | cons => rfl

include hf hzero in
/-- Widths in the same order open and close the same levels. -/
theorem enter_map (levels : List Nat) (width : Nat) :
    enter (levels.map f) (f width) = (enter levels width).map (Prod.map id (List.map f)) := by
  have hwider : (fun level => decide (f width < level)) ∘ f = fun level => decide (width < level) :=
    funext fun level => by simp [hf.lt_iff_lt]
  simp only [enter, innermost_map hzero, hf.lt_iff_lt, List.takeWhile_map, List.dropWhile_map,
    hwider, hf.injective.eq_iff, List.map_map]
  split
  · rfl
  · split <;> rfl

/-- A line that is not scanned is not added. -/
theorem addLine_of_scan_error {keywords : Keywords} {layout : Layout} {number : Nat}
    {line : List Char} {flaw : Flaw} (h : Line.scan keywords path number line = .error flaw) :
    layout.addLine keywords path number line = .error flaw := by
  simp only [addLine, h]

/-- A line that meets no open level may not stand where it does. -/
theorem addLine_of_enter_none {keywords : Keywords} {layout : Layout} {number : Nat}
    {line : List Char} {scanned : List Token}
    (hscan : Line.scan keywords path number line = .ok scanned)
    (hne : scanned ≠ []) (hdepth : layout.depth = 0)
    (henter : enter layout.levels (Line.indentWidth line) = none) :
    layout.addLine keywords path number line =
      .error ⟨⟨⟨number, Line.indentWidth line + 1⟩, path⟩, .inconsistentIndentation⟩ := by
  obtain ⟨token, more, rfl⟩ := List.exists_cons_of_ne_nil hne
  simp only [addLine, hscan, if_pos hdepth, henter]

/-- One line does the same in both runs: it fails for the same cause, or it adds the same tokens,
up to columns, and leaves corresponding levels. -/
inductive SameStep (keywords : Keywords) (path : Option String) (f : Nat → Nat) (layout : Layout)
    (number : Nat) (line line' : List Char) : Prop where
  | fails {flaw flaw' : Flaw} :
    layout.addLine keywords path number (Text.trimReturns line) = .error flaw →
    (layout.widthsMapped f).addLine keywords path number (Text.trimReturns line') = .error flaw' →
    flaw.line = flaw'.line → flaw.cause = flaw'.cause →
      SameStep keywords path f layout number line line'
  | adds {tokens tokens' : List Token} {next : Layout} :
    layout.addLine keywords path number (Text.trimReturns line) = .ok (tokens, next) →
    (layout.widthsMapped f).addLine keywords path number (Text.trimReturns line') =
      .ok (tokens', next.widthsMapped f) →
    tokens.map (Token.moved Position.lineOnly) = tokens'.map (Token.moved Position.lineOnly) →
    Line.bracketsBehind keywords layout.depth line = some next.depth →
    SameStep keywords path f layout number line line'

include hf hzero in
/-- A line with tokens does the same in both runs. -/
theorem sameStep_of_scan {keywords : Keywords} {layout : Layout} {number : Nat}
    {line line' : List Char} {scanned scanned' : List Token}
    (hscan : Line.scan keywords path number (Text.trimReturns line) = .ok scanned)
    (hscan' : Line.scan keywords path number (Text.trimReturns line') = .ok scanned')
    (hne : scanned ≠ [])
    (hsame : scanned.map (Token.moved Position.lineOnly) =
      scanned'.map (Token.moved Position.lineOnly))
    (hdepth : Line.depthAfter layout.depth scanned' = Line.depthAfter layout.depth scanned)
    (hbehind : Line.bracketsBehind keywords layout.depth line =
      some (Line.depthAfter layout.depth scanned))
    (hwidth : layout.depth = 0 → Line.indentWidth line' = f (Line.indentWidth line)) :
    SameStep keywords path f layout number line line' := by
  have hne' : scanned' ≠ [] := by
    rintro rfl
    exact hne (List.map_eq_nil_iff.mp hsame)
  by_cases hzeroDepth : layout.depth = 0
  · have henter' : enter (layout.widthsMapped f).levels
        (Line.indentWidth (Text.trimReturns line')) =
        (enter layout.levels (Line.indentWidth (Text.trimReturns line))).map
          (Prod.map id (List.map f)) := by
      rw [Line.indentWidth_trimReturns, Line.indentWidth_trimReturns, hwidth hzeroDepth]
      exact enter_map hf hzero layout.levels (Line.indentWidth line)
    cases henter : enter layout.levels (Line.indentWidth (Text.trimReturns line)) with
    | none =>
      rw [henter, Option.map_none] at henter'
      exact .fails (addLine_of_enter_none hscan hne hzeroDepth henter)
        (addLine_of_enter_none hscan' hne' hzeroDepth henter') rfl rfl
    | some entered =>
      obtain ⟨marks, levels⟩ := entered
      rw [henter, Option.map_some, Prod.map_apply, id] at henter'
      have hadds : Adds keywords path layout number (Text.trimReturns line) marks scanned
          ⟨levels, Line.depthAfter layout.depth scanned⟩ :=
        ⟨hscan, hne, rfl, fun hopen => absurd hzeroDepth hopen, fun _ => henter⟩
      have hadds' : Adds keywords path (layout.widthsMapped f) number (Text.trimReturns line') marks
          scanned' (widthsMapped f ⟨levels, Line.depthAfter layout.depth scanned⟩) :=
        ⟨hscan', hne', hdepth.symm, fun hopen => absurd hzeroDepth hopen, fun _ => henter'⟩
      refine .adds hadds.addLine hadds'.addLine ?_ hbehind
      simp only [List.map_append, hsame]
      rfl
  · have hadds : Adds keywords path layout number (Text.trimReturns line) [] scanned
        ⟨layout.levels, Line.depthAfter layout.depth scanned⟩ :=
      ⟨hscan, hne, rfl, fun _ => ⟨rfl, rfl⟩, fun hopen => absurd hopen hzeroDepth⟩
    have hadds' : Adds keywords path (layout.widthsMapped f) number (Text.trimReturns line') []
        scanned' (widthsMapped f ⟨layout.levels, Line.depthAfter layout.depth scanned⟩) :=
      ⟨hscan', hne', hdepth.symm, fun _ => ⟨rfl, rfl⟩, fun hopen => absurd hopen hzeroDepth⟩
    refine .adds hadds.addLine hadds'.addLine ?_ hbehind
    simp only [List.map_append, hsame]
    rfl

include hf hzero in
/-- Every line does the same in both runs. -/
theorem sameStep_of_reindented {keywords : Keywords} {layout : Layout} {number : Nat}
    {line line' : List Char} (hbody : Line.behindBlanks line = Line.behindBlanks line')
    (hwidth : layout.depth = 0 → Line.indentWidth line' = f (Line.indentWidth line)) :
    SameStep keywords path f layout number line line' := by
  obtain ⟨shift, hscan⟩ := Line.scan_eq_moved keywords path number line
  obtain ⟨shift', hscan'⟩ := Line.scan_eq_moved keywords path number line'
  obtain ⟨shift₁, hscan₁⟩ := Line.scan_eq_moved keywords none 1 line
  rw [← hbody] at hscan'
  cases hresult : Line.scanAt keywords none 0 0 (Text.trimReturns (Line.behindBlanks line)) with
  | error flaw =>
    rw [hresult, Line.movedResult] at hscan hscan'
    exact .fails (addLine_of_scan_error hscan) (addLine_of_scan_error hscan') rfl rfl
  | ok scanned =>
    rw [hresult, Line.movedResult] at hscan hscan' hscan₁
    have hbehind : Line.bracketsBehind keywords layout.depth line =
        some (Line.depthAfter layout.depth scanned) := by
      simp only [Line.bracketsBehind, hscan₁, Line.depthAfter_moved]
    by_cases hne : scanned = []
    · subst hne
      exact .adds (addLine_of_scan_nil hscan) (addLine_of_scan_nil hscan') rfl hbehind
    · refine sameStep_of_scan hf hzero hscan hscan' (by simpa using hne) ?_ ?_ ?_ hwidth
      · rw [List.map_map, List.map_map]
        rfl
      · rw [Line.depthAfter_moved, Line.depthAfter_moved]
      · rw [hbehind, Line.depthAfter_moved]

include hf hzero in
/-- **Two runs side by side.** The lines with other leading blanks give the same tokens up to
columns, or fail on the same line for the same cause. -/
theorem addLines_reindented {keywords : Keywords} {lines lines' : List (List Char)}
    {layout : Layout} (done : Nat)
    (h : Text.Reindented keywords f (some layout.depth) lines lines') :
    SameTokens (layout.addLines keywords path done lines)
      ((layout.widthsMapped f).addLines keywords path done lines') := by
  induction lines generalizing lines' layout done with
  | nil =>
    cases lines' with
    | nil =>
      rw [addLines, addLines, close_widthsMapped]
      exact .ok rfl
    | cons => exact h.elim
  | cons line lines ih =>
    cases lines' with
    | nil => exact h.elim
    | cons line' lines' =>
      obtain ⟨hbody, hwidth, hrest⟩ := h
      have hstep : SameStep keywords path f layout (done + 1) line line' :=
        sameStep_of_reindented hf hzero hbody fun hdepth => hwidth (by rw [hdepth])
      rw [addLines, addLines]
      cases hstep with
      | fails hadd hadd' hline hcause =>
        rw [hadd, hadd']
        exact .error hline hcause
      | @adds tokens tokens' next hadd hadd' hsame hbehind =>
        rw [Option.bind_some, hbehind] at hrest
        have hmore := ih (done + 1) hrest
        rw [hadd, hadd']
        simp only
        exact hmore.map_append hsame

end

end Layout

end Slick
