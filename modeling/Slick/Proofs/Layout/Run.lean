import Mathlib.Tactic.Common
import Slick.Layout

/-!
# Runs of the layout over the lines of a source

The layout goes through the lines one after another. A line without tokens changes nothing. Any
other line adds its own tokens and the end of the line behind them, and, if no bracket is open, the
marks for a change of indentation in front of them. `addLine_cases` says all that one step can do,
and `Reaches` is the run of steps from the start of a source. Main statement: `tokenize_reaches`.
-/

namespace Slick

variable {path : Option String}

/-- The lexemes of a line are not marks of the layout. -/
theorem Lead.isLayout_of_ofText {keywords : Keywords} {text rest : List Char} {l : Lexeme}
    (h : ofText keywords text = lexeme l rest) : l.kind.isLayout = false := by
  cases text with
  | nil => cases h
  | cons c more =>
    simp only [ofText] at h
    split at h
    · cases h
    split at h
    · cases h
    split at h
    · simp only [number] at h
      split at h <;>
        · cases h
          rfl
    split at h
    · simp only [textLiteral] at h
      split at h <;> cases h
      rfl
    split at h
    · simp only [word] at h
      cases h
      simp only [Word.lexeme]
      repeat' split
      all_goals rfl
    · simp only [symbol] at h
      split at h
      · next spelling kind hfind =>
        cases h
        have htable : ∀ entry ∈ Symbol.table, entry.2.isLayout = false := by decide
        exact htable _ (List.mem_of_find?_eq_some hfind)
      · cases h

/-- The tokens of a line stand in that line, and each is what some text starts with. -/
theorem Line.lead_of_mem_scan {keywords : Keywords} {number : Nat} {text : List Char}
    {tokens : List Token} (h : scan keywords path number text = .ok tokens) :
    ∀ token ∈ tokens, token.line = number ∧
      ∃ text rest, Lead.ofText keywords text = .lexeme token.toLexeme rest := by
  have strong : ∀ (fuel column : Nat) (text : List Char) (tokens : List Token),
      scanFrom keywords path number fuel column text = .ok tokens →
      ∀ token ∈ tokens, token.line = number ∧
        ∃ text rest, Lead.ofText keywords text = .lexeme token.toLexeme rest := by
    intro fuel
    induction fuel with
    | zero =>
      intro column text tokens h
      cases h
      simp
    | succ fuel ih =>
      intro column text tokens h
      rw [scanFrom] at h
      split at h
      · cases h
        simp
      · exact ih _ _ _ h
      · next l rest hlead =>
        cases hrest : scanFrom keywords path number fuel (column + l.text.length) rest with
        | error flaw =>
          rw [hrest] at h
          cases h
        | ok more =>
          rw [hrest] at h
          cases h
          intro token htoken
          rcases List.mem_cons.mp htoken with rfl | hmore
          · exact ⟨rfl, _, _, hlead⟩
          · exact ih _ _ _ hrest token hmore
      · cases h
  exact strong _ _ _ _ h

/-- The tokens of a line stand in that line and are not marks of the layout. -/
theorem Line.mem_scan {keywords : Keywords} {number : Nat} {text : List Char}
    {tokens : List Token} (h : scan keywords path number text = .ok tokens) :
    ∀ token ∈ tokens, token.line = number ∧ token.kind.isLayout = false := by
  intro token htoken
  obtain ⟨hline, _, _, hlead⟩ := lead_of_mem_scan h token htoken
  exact ⟨hline, Lead.isLayout_of_ofText hlead⟩

namespace Layout

/-- A line that may stand where it does opens one level that is wider than all others, or it closes
the levels that are wider than itself and meets the width of the next one. -/
theorem enter_cases {levels levels' : List Nat} {width : Nat} {marks : List Lexeme}
    (h : enter levels width = some (marks, levels')) :
    (innermost levels < width ∧ marks = [.indent] ∧ levels' = width :: levels) ∨
      ∃ closed, levels = closed ++ levels' ∧ innermost levels' = width ∧
        marks = closed.map fun _ => .dedent := by
  unfold enter at h
  split at h
  · next hwider =>
    cases h
    exact .inl ⟨hwider, rfl, rfl⟩
  · simp only at h
    split at h
    · next hmeets =>
      cases h
      exact .inr ⟨_, (List.takeWhile_append_dropWhile).symm, hmeets, rfl⟩
    · cases h

/-- What a line with tokens adds: marks, its own tokens and its end. -/
structure Adds (keywords : Keywords) (path : Option String) (layout : Layout) (number : Nat)
    (line : List Char) (marks : List Lexeme) (scanned : List Token) (next : Layout) : Prop where
  scan : Line.scan keywords path number line = .ok scanned
  nonempty : scanned ≠ []
  depth : next.depth = Line.depthAfter layout.depth scanned
  /-- Inside brackets the levels stay as they are. -/
  inside : layout.depth ≠ 0 → marks = [] ∧ next.levels = layout.levels
  outside : layout.depth = 0 →
    enter layout.levels (Line.indentWidth line) = some (marks, next.levels)

/-- A line answers with what it adds. -/
theorem Adds.addLine {keywords : Keywords} {layout next : Layout} {number : Nat}
    {line : List Char} {marks : List Lexeme} {scanned : List Token}
    (h : Adds keywords path layout number line marks scanned next) :
    layout.addLine keywords path number line =
      .ok (marks.map (·.place number 1) ++
        (scanned ++ [Lexeme.newline.place number (line.length + 1)]), next) := by
  obtain ⟨levels, depth⟩ := next
  obtain ⟨hscan, hnonempty, hdepth, hinside, houtside⟩ := h
  simp only at hdepth hinside houtside
  obtain ⟨token, more, rfl⟩ := List.exists_cons_of_ne_nil hnonempty
  by_cases hzero : layout.depth = 0
  · simp only [Layout.addLine, hscan, if_pos hzero, houtside hzero, hdepth]
  · obtain ⟨rfl, rfl⟩ := hinside hzero
    simp only [Layout.addLine, hscan, if_neg hzero, hdepth, List.map_nil, List.nil_append]

/-- All that one line can do. -/
theorem addLine_cases {keywords : Keywords} {layout next : Layout} {number : Nat}
    {line : List Char} {tokens : List Token}
    (h : layout.addLine keywords path number line = .ok (tokens, next)) :
    (Line.scan keywords path number line = .ok [] ∧ tokens = [] ∧ next = layout) ∨
      ∃ marks scanned, Adds keywords path layout number line marks scanned next ∧
        tokens = marks.map (·.place number 1) ++
          (scanned ++ [Lexeme.newline.place number (line.length + 1)]) := by
  unfold addLine at h
  split at h
  · cases h
  · next hscan =>
    cases h
    exact .inl ⟨hscan, rfl, rfl⟩
  · next scanned hne hscan =>
    have hnonempty : scanned ≠ [] := by
      rintro rfl
      exact hne rfl
    simp only at h
    split at h
    · next hdepth =>
      split at h
      · cases h
      · next marks levels henter =>
        cases h
        refine .inr ⟨marks, scanned, ⟨hscan, hnonempty, rfl, fun hopen => ?_, fun _ => henter⟩, rfl⟩
        exact absurd hdepth hopen
    · next hdepth =>
      cases h
      refine .inr ⟨[], scanned, ⟨hscan, hnonempty, rfl, fun _ => ⟨rfl, rfl⟩, fun hzero => ?_⟩, rfl⟩
      exact absurd hzero hdepth

/-- In front of the tokens of a line there are marks of the layout only. -/
theorem Adds.marks_isLayout {keywords : Keywords} {layout next : Layout} {number : Nat}
    {line : List Char} {marks : List Lexeme} {scanned : List Token}
    (h : Adds keywords path layout number line marks scanned next) :
    ∀ mark ∈ marks, mark.kind.isLayout = true := by
  by_cases hdepth : layout.depth = 0
  · rcases enter_cases (h.outside hdepth) with ⟨-, rfl, -⟩ | ⟨closed, -, -, rfl⟩
    · simp [Lexeme.indent, Kind.isLayout]
    · simp [Lexeme.dedent, Kind.isLayout]
  · rw [(h.inside hdepth).1]
    simp

/-- The tokens that a line adds stand in it. -/
theorem Adds.line_eq {keywords : Keywords} {layout next : Layout} {number : Nat}
    {line : List Char} {marks : List Lexeme} {scanned : List Token}
    (h : Adds keywords path layout number line marks scanned next) :
    ∀ token ∈ marks.map (·.place number 1) ++
      (scanned ++ [Lexeme.newline.place number (line.length + 1)]), token.line = number := by
  rw [List.forall_mem_append, List.forall_mem_append, List.forall_mem_singleton]
  refine ⟨fun token htoken => ?_, fun token htoken => (Line.mem_scan h.scan token htoken).1, rfl⟩
  obtain ⟨mark, -, rfl⟩ := List.mem_map.mp htoken
  rfl

/-- The marks that close the open levels behind the last line. -/
def dedents (layout : Layout) (lineCount : Nat) : List Token :=
  layout.levels.map fun _ => Lexeme.dedent.place lineCount 1

/-- The marks behind the last line are those that close blocks, and the end of the source. -/
theorem close_eq_dedents (layout : Layout) (lineCount : Nat) :
    layout.close lineCount = layout.dedents lineCount ++ [Lexeme.eof.place (lineCount + 1) 1] :=
  rfl

/-- Behind the lines the layout is in the given state, and the tokens have been added so far. -/
inductive Reaches (keywords : Keywords) (path : Option String) :
    List (List Char) → List Token → Layout → Prop where
  | start : Reaches keywords path [] [] {}
  | step {lines : List (List Char)} {line : List Char} {before tokens : List Token}
      {layout next : Layout} :
    Reaches keywords path lines before layout →
    layout.addLine keywords path (lines.length + 1) (Text.trimReturns line) = .ok (tokens, next) →
    Reaches keywords path (lines ++ [line]) (before ++ tokens) next

/-- The tokens of a run stand in its lines. -/
theorem Reaches.line_le {keywords : Keywords} {lines : List (List Char)} {before : List Token}
    {layout : Layout} (h : Reaches keywords path lines before layout) :
    ∀ token ∈ before, token.line ≤ lines.length := by
  induction h with
  | start => simp
  | @step lines line before tokens layout next _ hadd ih =>
    rw [List.length_append, List.length_singleton, List.forall_mem_append]
    refine ⟨fun token htoken => Nat.le_succ_of_le (ih token htoken), fun token htoken => ?_⟩
    rcases addLine_cases hadd with ⟨-, rfl, -⟩ | ⟨marks, scanned, hadds, rfl⟩
    · cases htoken
    · exact Nat.le_of_eq (hadds.line_eq token htoken)

/-- The tokens of a run that are no marks are read in one of its lines. -/
theorem Reaches.exists_scan {keywords : Keywords} {lines : List (List Char)} {before : List Token}
    {layout : Layout} (h : Reaches keywords path lines before layout) :
    ∀ token ∈ before, token.kind.isLayout = false →
      ∃ line ∈ lines, ∃ number scanned,
        Line.scan keywords path number (Text.trimReturns line) = .ok scanned ∧ token ∈ scanned := by
  induction h with
  | start => simp
  | @step lines line before tokens layout next _ hadd ih =>
    intro token htoken hplain
    rcases List.mem_append.mp htoken with hbefore | hadded
    · obtain ⟨line', hline', hscan⟩ := ih token hbefore hplain
      exact ⟨line', List.mem_append_left _ hline', hscan⟩
    · rcases addLine_cases hadd with ⟨-, rfl, -⟩ | ⟨marks, scanned, hadds, rfl⟩
      · cases hadded
      refine ⟨line, by simp, lines.length + 1, scanned, hadds.scan, ?_⟩
      rw [List.mem_append, List.mem_append, List.mem_singleton] at hadded
      rcases hadded with hmark | hscanned | rfl
      · obtain ⟨mark, hmem, rfl⟩ := List.mem_map.mp hmark
        rw [Lexeme.toLexeme_place, hadds.marks_isLayout mark hmem] at hplain
        cases hplain
      · exact hscanned
      · cases hplain

/-- The first of the remaining lines adds its tokens in front of those of the others. -/
theorem addLines_cons {keywords : Keywords} {layout : Layout} {done : Nat} {line : List Char}
    {rest : List (List Char)} {tokens : List Token}
    (h : layout.addLines keywords path done (line :: rest) = .ok tokens) :
    ∃ added next more, layout.addLine keywords path (done + 1) (Text.trimReturns line) =
        .ok (added, next) ∧
      next.addLines keywords path (done + 1) rest = .ok more ∧ tokens = added ++ more := by
  rw [addLines] at h
  split at h
  · cases h
  · next added next hadd =>
    cases hmore : addLines keywords path next (done + 1) rest with
    | error flaw =>
      rw [hmore] at h
      cases h
    | ok more =>
      rw [hmore] at h
      cases h
      exact ⟨added, next, more, hadd, hmore, rfl⟩

/-- The first of the remaining lines are a run that goes on from where the layout is, and the others
add their tokens behind it. -/
theorem addLines_split {keywords : Keywords} {lines first rest : List (List Char)}
    {before tokens : List Token} {layout : Layout}
    (hreaches : Reaches keywords path lines before layout)
    (h : layout.addLines keywords path lines.length (first ++ rest) = .ok tokens) :
    ∃ body next more, Reaches keywords path (lines ++ first) (before ++ body) next ∧
      next.addLines keywords path (lines ++ first).length rest = .ok more ∧ tokens =
        body ++ more := by
  induction first generalizing lines before tokens layout with
  | nil => exact ⟨[], layout, tokens, by simpa using hreaches, by simpa using h, rfl⟩
  | cons line first ih =>
    obtain ⟨added, next, more, hadd, hmore, rfl⟩ := addLines_cons h
    have hstep := Reaches.step hreaches hadd
    have hlength : lines.length + 1 = (lines ++ [line]).length := by simp
    rw [hlength] at hmore
    obtain ⟨body, final, behind, hfinal, hbehind, rfl⟩ := ih hstep hmore
    refine ⟨added ++ body, final, behind, ?_, ?_, ?_⟩
    · simpa using hfinal
    · simpa using hbehind
    · simp

/-- A run is determined by its lines. -/
theorem Reaches.unique {keywords : Keywords} {lines : List (List Char)}
    {before before' : List Token} {layout layout' : Layout}
    (h : Reaches keywords path lines before layout)
    (h' : Reaches keywords path lines before' layout') :
    before = before' ∧ layout = layout' := by
  induction h generalizing before' layout' with
  | start =>
    generalize hnil : ([] : List (List Char)) = lines at h'
    cases h' with
    | start => exact ⟨rfl, rfl⟩
    | step => simp at hnil
  | @step lines line before tokens layout next _ hadd ih =>
    generalize hsame : lines ++ [line] = all at h'
    cases h' with
    | start => simp at hsame
    | step hreaches' hadd' =>
      obtain ⟨rfl, hline⟩ := List.append_inj' hsame rfl
      obtain rfl : line = _ := by simpa using hline
      obtain ⟨rfl, rfl⟩ := ih hreaches'
      rw [hadd] at hadd'
      cases hadd'
      exact ⟨rfl, rfl⟩

/-- The tokens of a source are those of a run over its lines, and the marks behind the last line. -/
theorem tokenize_reaches {keywords : Keywords} {source : String} {tokens : List Token}
    (h : tokenize keywords source path = .ok tokens) :
    ∃ body final, Reaches keywords path (Text.lines source.toList) body final ∧
      tokens = body ++ final.close (Text.lines source.toList).length := by
  unfold tokenize at h
  rw [← List.append_nil (Text.lines source.toList)] at h
  obtain ⟨body, final, more, hreaches, hmore, rfl⟩ := addLines_split .start h
  rw [addLines] at hmore
  cases hmore
  exact ⟨body, final, by simpa using hreaches, by simp⟩

/-- The last token of a source is its end. -/
theorem tokenize_getLast {keywords : Keywords} {source : String} {tokens : List Token}
    (h : tokenize keywords source path = .ok tokens) :
    ∃ last, tokens.getLast? = some last ∧ last.kind = .eof := by
  obtain ⟨body, final, -, rfl⟩ := tokenize_reaches h
  refine ⟨Lexeme.eof.place ((Text.lines source.toList).length + 1) 1, ?_, rfl⟩
  rw [close_eq_dedents, ← List.append_assoc, List.getLast?_append, List.getLast?_singleton,
    Option.some_or]

/-- Where a run over the first lines has come, the others go on. -/
theorem Reaches.addLines_append {keywords : Keywords} {lines : List (List Char)}
    {before : List Token} {layout : Layout} (h : Reaches keywords path lines before layout)
    (rest : List (List Char)) :
    addLines keywords path {} 0 (lines ++ rest) =
      (layout.addLines keywords path lines.length rest).map (before ++ ·) := by
  induction h generalizing rest with
  | start =>
    rw [List.nil_append, List.length_nil]
    cases addLines keywords path {} 0 rest <;> rfl
  | @step lines line before tokens layout next _ hadd ih =>
    rw [List.append_assoc, List.singleton_append, ih, addLines, hadd, List.length_append,
      List.length_singleton]
    cases hrest : addLines keywords path next (lines.length + 1) rest with
    | error flaw => simp [hrest, Except.map]
    | ok more => simp [hrest, Except.map]

/-- A run over all lines of a source ends its tokens with the marks behind the last line. -/
theorem Reaches.tokenize_eq {keywords : Keywords} {source : String} {body : List Token}
    {final : Layout} (h : Reaches keywords path (Text.lines source.toList) body final) :
    Slick.tokenize keywords source path =
      .ok (body ++ final.close (Text.lines source.toList).length) := by
  rw [Slick.tokenize, ← List.append_nil (Text.lines source.toList), h.addLines_append, addLines,
    List.append_nil]
  rfl

/-- Wherever a run over the first lines of a source has come, the tokens go on from there. -/
theorem Reaches.tokenize_split {keywords : Keywords} {source : String} {tokens before : List Token}
    {first rest : List (List Char)} {layout : Layout}
    (h : Reaches keywords path first before layout)
    (htokens : tokenize keywords source path = .ok tokens)
    (hlines : Text.lines source.toList = first ++ rest) :
    ∃ more, layout.addLines keywords path first.length rest = .ok more ∧ tokens =
      before ++ more := by
  unfold tokenize at htokens
  rw [hlines] at htokens
  obtain ⟨body, next, more, hreaches, hmore, rfl⟩ := addLines_split .start htokens
  obtain ⟨rfl, rfl⟩ := h.unique (by simpa using hreaches)
  exact ⟨more, by simpa using hmore, rfl⟩

/-- A source of one line at the left margin has the tokens of the line, their end and the end of the
source. -/
theorem tokenize_line {keywords : Keywords} {line : List Char} {tokens : List Token}
    (hnewline : '\n' ∉ line) (hlast : line.getLast? ≠ some '\r')
    (hwidth : Line.indentWidth line = 0) (hne : tokens ≠ [])
    (hscan : Line.scan keywords path 1 line = .ok tokens) :
    tokenize keywords (String.ofList line) path =
      .ok (tokens ++ [Lexeme.newline.place 1 (line.length + 1), Lexeme.eof.place 2 1]) := by
  have hadds : Adds keywords path {} 1 line [] tokens ⟨[], Line.depthAfter 0 tokens⟩ :=
    ⟨hscan, hne, rfl, fun hopen => absurd rfl hopen, fun _ => by rw [hwidth]; rfl⟩
  have hlines : Text.lines (String.ofList line).toList = [] ++ [line] := by
    rw [String.toList_ofList, Text.lines_of_newline_notMem hnewline]
    rfl
  have hreaches : Reaches keywords path (Text.lines (String.ofList line).toList)
      ([] ++ (tokens ++ [Lexeme.newline.place 1 (line.length + 1)]))
      ⟨[], Line.depthAfter 0 tokens⟩ := by
    rw [hlines]
    refine .step .start ?_
    rw [Text.trimReturns_of_last hlast]
    exact hadds.addLine
  rw [hreaches.tokenize_eq, hlines]
  simp [close]

end Layout

end Slick
