import Slick.Proofs.Layout.Reindentation
import Slick.Proofs.Line.Partition

/-!
# Blanks and comments add nothing

Put lines without tokens between the lines of a source, and blanks or comments behind its tokens.
The layout goes through the same states, at any depth of brackets and with any open levels: an added
line leaves it as it is, and a longer line has the same tokens and the same width. Only the numbers
of the lines change, and the columns of the line ends. Main statement: `Layout.addLines_padded`.
-/

namespace Slick

variable {path : Option String}

namespace Text

/-- The text with a carriage return in front of every line feed. -/
def withReturns (text : List Char) : List Char :=
  text.flatMap fun c => if c = '\n' then ['\r', '\n'] else [c]

/-- What is trimmed off a line depends on what is trimmed off its rest. -/
theorem trimReturns_cons_congr (c : Char) {line line' : List Char}
    (h : trimReturns line = trimReturns line') : trimReturns (c :: line) = trimReturns
    (c :: line') := by
  rw [trimReturns, trimReturns, h]

/-- Carriage returns in front of line feeds are trimmed off the lines. -/
theorem trimReturns_lines_withReturns (text : List Char) :
    (lines (withReturns text)).map trimReturns = (lines text).map trimReturns := by
  induction text with
  | nil => rfl
  | cons c rest ih =>
    rw [withReturns, List.flatMap_cons, ← withReturns]
    by_cases hc : c = '\n'
    · subst hc
      have hlines : lines ('\r' :: '\n' :: withReturns rest) =
        ['\r'] :: lines (withReturns rest) := by
        simp [lines]
      rw [if_pos rfl, List.cons_append, List.singleton_append, hlines, List.map_cons, ih]
      simp [lines, trimReturns]
    · rw [if_neg hc, List.singleton_append]
      obtain ⟨line, more, hlines⟩ := List.exists_cons_of_ne_nil (lines_ne_nil rest)
      obtain ⟨line', more', hlines'⟩ := List.exists_cons_of_ne_nil (lines_ne_nil (withReturns rest))
      rw [hlines, hlines', List.map_cons, List.map_cons, List.cons.injEq] at ih
      simp only [lines, if_neg hc, hlines, hlines', List.map_cons, ih.2,
        trimReturns_cons_congr c ih.1]

/-- A character other than a carriage return stays in front of a trimmed line. -/
theorem trimReturns_cons_of_ne {c : Char} (hc : c ≠ '\r') (line : List Char) :
    trimReturns (c :: line) = c :: trimReturns line := by
  rw [trimReturns]
  split
  · next hrest => rw [if_neg hc, hrest]
  · next hrest => rfl

/-- Carriage returns behind a line are trimmed off. -/
theorem trimReturns_append_returns (line : List Char) (count : Nat) :
    trimReturns (line ++ List.replicate count '\r') = trimReturns line := by
  induction count with
  | zero => rw [List.replicate_zero, List.append_nil]
  | succ count ih =>
    rw [List.replicate_succ', ← List.append_assoc, trimReturns_append_return, ih]

/-- Behind a text that does not end with a carriage return only what follows is trimmed. -/
theorem trimReturns_append {front : List Char} (hfront : trimReturns front = front)
    (text : List Char) : trimReturns (front ++ text) = front ++ trimReturns text := by
  induction front with
  | nil => rfl
  | cons c rest ih =>
    rw [trimReturns] at hfront
    cases hrest : trimReturns rest with
    | nil =>
      rw [hrest] at hfront
      have hc : c ≠ '\r' := by
        rintro rfl
        rw [if_pos rfl] at hfront
        cases hfront
      rw [if_neg hc, List.cons.injEq] at hfront
      rw [← hfront.2, List.cons_append, List.nil_append, trimReturns_cons_of_ne hc]
      rfl
    | cons d kept =>
      rw [hrest, List.cons.injEq] at hfront
      have hfixed : trimReturns rest = rest := hrest.trans hfront.2
      rw [List.cons_append, trimReturns, ih hfixed, ← hfront.2]
      rfl

end Text

/-- Behind a lexeme there may be blanks. -/
theorem Lexeme.Ends.append_blank {keywords : Keywords} {l : Lexeme} {rest : List Char} {c : Char}
    (h : l.Ends keywords rest) (hc : c = ' ' ∨ c = '\t') (more : List Char) :
    l.Ends keywords (rest ++ c :: more) := by
  have hhead : ∀ {P : Char → Prop}, (∀ d ∈ rest.head?, P d) → P ' ' → P '\t' →
      ∀ d ∈ (rest ++ c :: more).head?, P d := by
    intro P hrest hspace htab d hd
    cases rest with
    | nil =>
      obtain rfl : c = d := by simpa using hd
      rcases hc with rfl | rfl
      · exact hspace
      · exact htab
    | cons e rest => exact hrest d (by simpa using hd)
  cases h with
  | numeral hne hwhole hdigit hpoint =>
    refine .numeral hne hwhole (hhead hdigit (by decide) (by decide)) fun d behind hbehind => ?_
    match rest with
    | [] =>
      obtain ⟨rfl, -⟩ := List.cons.inj hbehind
      exact absurd hc (by decide)
    | [_] =>
      obtain ⟨-, hrest⟩ := List.cons.inj hbehind
      obtain ⟨rfl, -⟩ := List.cons.inj hrest
      rcases hc with rfl | rfl <;> decide
    | e :: d' :: rest =>
      obtain ⟨rfl, hrest⟩ := List.cons.inj hbehind
      obtain ⟨rfl, -⟩ := List.cons.inj hrest
      exact hpoint d' rest rfl
  | fraction hne hwhole hpart hdigits hdigit =>
    exact .fraction hne hwhole hpart hdigits (hhead hdigit (by decide) (by decide))
  | text hdenotes => exact .text hdenotes
  | word hword hpart => exact .word hword (hhead hpart (by decide) (by decide))
  | symbol hsymbol hminus hless =>
    refine .symbol hsymbol (fun hkind => ?_) fun hkind => ?_
    · exact hhead (hminus hkind) (by decide) (by decide)
    · exact hhead (hless hkind) (by decide) (by decide)

namespace Line

variable {keywords : Keywords} {line column : Nat} {text : List Char} {tokens : List Token}

/-- What may be written behind the tokens of a line: blanks, or a comment behind a space. -/
def IsPadding (pad : List Char) : Prop :=
  (∀ c ∈ pad, isIndent c = true) ∨ ∃ comment, pad = ' ' :: '-' :: '-' :: comment

/-- A line is indented by spaces and tabs. -/
theorem isIndent_iff {c : Char} : isIndent c = true ↔ c = ' ' ∨ c = '\t' := by
  simp [isIndent]

/-- Blanks with nothing but a comment behind them hold no tokens. -/
theorem tiled_blanks {blanks comment : List Char} (hblanks : ∀ c ∈ blanks, isIndent c = true)
    (hcomment : comment = [] ∨ ['-', '-'] <+: comment) :
    Tiled keywords line column (blanks ++ comment) [] := by
  induction blanks generalizing column with
  | nil => exact .finished hcomment
  | cons c blanks ih =>
    rw [List.forall_mem_cons] at hblanks
    exact .blank (isIndent_iff.mp hblanks.1) (ih hblanks.2)

private theorem trimReturns_comment {comment : List Char}
    (h : comment = [] ∨ ['-', '-'] <+: comment) :
    Text.trimReturns comment = [] ∨ ['-', '-'] <+: Text.trimReturns comment := by
  rcases h with rfl | ⟨more, rfl⟩
  · exact .inl rfl
  · refine .inr ⟨Text.trimReturns more, ?_⟩
    rw [Text.trimReturns_append rfl]

/-- Padding holds no tokens. -/
theorem IsPadding.tiled {pad : List Char} (h : IsPadding pad) : Tiled keywords line column pad
    [] := by
  rcases h with hblanks | ⟨comment, rfl⟩
  · rw [← List.append_nil pad]
    exact tiled_blanks hblanks (.inl rfl)
  · exact .blank (.inl rfl) (.finished (.inr ⟨comment, rfl⟩))

/-- Padding is empty, or it starts with a blank. -/
theorem IsPadding.cases {pad : List Char} (h : IsPadding pad) :
    pad = [] ∨ ∃ c more, pad = c :: more ∧ (c = ' ' ∨ c = '\t') := by
  rcases h with hblanks | ⟨comment, rfl⟩
  · cases pad with
    | nil => exact .inl rfl
    | cons c more => exact .inr ⟨c, more, rfl, isIndent_iff.mp (hblanks c List.mem_cons_self)⟩
  · exact .inr ⟨' ', '-' :: '-' :: comment, rfl, .inl rfl⟩

/-- Padding stays padding without its carriage returns. -/
theorem IsPadding.trimReturns {pad : List Char} (h : IsPadding pad) :
    IsPadding (Text.trimReturns pad) := by
  rcases h with hblanks | ⟨comment, rfl⟩
  · have htrim := trimReturns_blanks hblanks []
    rw [List.append_nil, Text.trimReturns, List.append_nil] at htrim
    rw [htrim]
    exact .inl hblanks
  · refine .inr ⟨Text.trimReturns comment, ?_⟩
    exact Text.trimReturns_append (show Text.trimReturns [' ', '-', '-'] = _ from rfl) comment

/-- A line has the same tokens with padding behind them. -/
theorem Tiled.append_padding (h : Tiled keywords line column text tokens) {pad : List Char}
    (hpad : IsPadding pad) : Tiled keywords line column (text ++ pad) tokens := by
  induction h with
  | finished hend =>
    rcases hend with rfl | hcomment
    · exact hpad.tiled
    · exact .finished (.inr (hcomment.trans (List.prefix_append _ _)))
  | blank hc _ ih => exact .blank hc ih
  | token hends _ ih =>
    rw [List.append_assoc]
    refine .token ?_ ih
    rcases hpad.cases with rfl | ⟨c, more, rfl, hc⟩
    · rwa [List.append_nil]
    · exact hends.append_blank hc more

/-- The width of a line that has more than blanks does not depend on its end. -/
theorem indentWidth_append (h : ∃ c ∈ text, isIndent c = false) (more : List Char) :
    indentWidth (text ++ more) = indentWidth text := by
  induction text with
  | nil => simp at h
  | cons c rest ih =>
    rw [List.cons_append, indentWidth, indentWidth]
    by_cases hc : isIndent c = true
    · have hrest : ∃ d ∈ rest, isIndent d = false := by simpa [hc] using h
      rw [ih hrest]
    · have hblank := mt isIndent_iff.mpr hc
      rw [not_or] at hblank
      rw [if_neg hblank.1, if_neg hblank.2, if_neg hblank.1, if_neg hblank.2]

/-- A line with tokens has more than blanks. -/
theorem exists_plain_of_scan {number : Nat} (h : scan keywords path number text = .ok tokens)
    (hne : tokens ≠ []) : ∃ c ∈ text, isIndent c = false := by
  by_contra hblanks
  have hall : ∀ c ∈ text, isIndent c = true := by simpa using hblanks
  have htiled : Tiled keywords number 1 text [] := IsPadding.tiled (.inl hall)
  rw [scan, htiled.scanAt_eq] at h
  cases h
  exact hne rfl

end Line

/-- The place with its line left out. -/
def Position.columnOnly (place : Position) : Position := ⟨0, place.column⟩

/-- The token with its line left out, and for a line end also its column. -/
def Token.unlined (token : Token) : Token :=
  ⟨token.toLexeme, ⟨0, if token.kind = .newline then 0 else token.column⟩⟩

/-- A reading with the lines left out, of its tokens or of its flaw. -/
def Line.unlined : Except Flaw (List Token) → Except Flaw (List Token)
  | .ok tokens => .ok (tokens.map Token.unlined)
  | .error flaw => .error (flaw.moved Position.columnOnly)

namespace Line

variable {keywords : Keywords} {text : List Char} {tokens : List Token}

/-- A line holds the same under another number. -/
theorem unlined_scan (keywords : Keywords) (number number' : Nat) (text : List Char) :
    unlined (scan keywords path number' text) = unlined (scan keywords path number text) := by
  have hmoved : scan keywords path number' text =
      movedResult ⟨fun place => ⟨number', place.column⟩, id⟩ (scan keywords path number text) :=
    scan_moved keywords ⟨fun place => ⟨number', place.column⟩, id⟩ rfl (fun _ => rfl) text
  rw [hmoved]
  cases scan keywords path number text with
  | ok tokens =>
    simp only [movedResult, unlined, List.map_map]
    rfl
  | error flaw => rfl

private theorem depthAfter_unlined (depth : Nat) (tokens : List Token) :
    depthAfter depth (tokens.map Token.unlined) = depthAfter depth tokens := by
  rw [depthAfter, List.foldl_map]
  rfl

end Line

namespace Layout

variable {keywords : Keywords} {layout : Layout}

/-- The marks in front of a line and the levels that are open in it. Inside brackets the width of
the line does not matter. -/
def entered (layout : Layout) (width : Nat) : Option (List Lexeme × List Nat) :=
  if layout.depth = 0 then enter layout.levels width else some ([], layout.levels)

/-- What a line with tokens comes to. -/
theorem addLine_of_scan {number : Nat} {line : List Char} {scanned : List Token}
    (hscan : Line.scan keywords path number line = .ok scanned) (hne : scanned ≠ []) :
    layout.addLine keywords path number line =
      match layout.entered (Line.indentWidth line) with
      | none => .error ⟨⟨⟨number, Line.indentWidth line + 1⟩, path⟩, .inconsistentIndentation⟩
      | some (marks, levels) =>
        .ok (marks.map (·.place number 1) ++
          (scanned ++ [Lexeme.newline.place number (line.length + 1)]),
          ⟨levels, Line.depthAfter layout.depth scanned⟩) := by
  obtain ⟨token, more, rfl⟩ := List.exists_cons_of_ne_nil hne
  simp only [addLine, hscan, entered]
  by_cases hdepth : layout.depth = 0
  · cases enter layout.levels (Line.indentWidth line) <;> simp only [if_pos hdepth]
  · simp only [if_neg hdepth, List.map_nil, List.nil_append]

/-- What a line comes to, with the lines left out. -/
def unlinedStep : Except Flaw (List Token × Layout) → Except Flaw (List Token × Layout)
  | .ok (tokens, next) => .ok (tokens.map Token.unlined, next)
  | .error flaw => .error (flaw.moved Position.columnOnly)

/-- **One line.** Two lines that hold the same and, if they hold tokens, have the same width do the
same to the layout. -/
theorem unlinedStep_addLine {number number' : Nat} {line line' : List Char}
    (hscan : Line.unlined (Line.scan keywords path number line) =
      Line.unlined (Line.scan keywords path number' line'))
    (hwidth : ∀ tokens, Line.scan keywords path number line = .ok tokens → tokens ≠ [] →
      Line.indentWidth line = Line.indentWidth line') :
    unlinedStep (layout.addLine keywords path number line) =
      unlinedStep (layout.addLine keywords path number' line') := by
  cases hfirst : Line.scan keywords path number line with
  | error flaw =>
    cases hsecond : Line.scan keywords path number' line' with
    | error flaw' =>
      rw [hfirst, hsecond, Line.unlined, Line.unlined, Except.error.injEq] at hscan
      rw [addLine_of_scan_error hfirst, addLine_of_scan_error hsecond, unlinedStep, unlinedStep,
        hscan]
    | ok tokens' =>
      rw [hfirst, hsecond] at hscan
      cases hscan
  | ok tokens =>
    cases hsecond : Line.scan keywords path number' line' with
    | error flaw' =>
      rw [hfirst, hsecond] at hscan
      cases hscan
    | ok tokens' =>
      rw [hfirst, hsecond, Line.unlined, Line.unlined, Except.ok.injEq] at hscan
      by_cases hne : tokens = []
      · subst hne
        obtain rfl : tokens' = [] := List.map_eq_nil_iff.mp hscan.symm
        rw [addLine_of_scan_nil hfirst, addLine_of_scan_nil hsecond]
      · have hne' : tokens' ≠ [] := by
          rintro rfl
          exact hne (List.map_eq_nil_iff.mp hscan)
        have hdepth : Line.depthAfter layout.depth tokens =
          Line.depthAfter layout.depth tokens' := by
          rw [← Line.depthAfter_unlined, hscan, Line.depthAfter_unlined]
        rw [addLine_of_scan hfirst hne, addLine_of_scan hsecond hne', hwidth tokens hfirst hne,
          hdepth]
        cases layout.entered (Line.indentWidth line') with
        | none => rfl
        | some entered =>
          simp only [unlinedStep, List.map_append, List.map_map, hscan]
          rfl

/-- The lines of a source count only without the carriage returns at their ends. -/
theorem addLines_congr {lines lines' : List (List Char)}
    (h : lines.map Text.trimReturns = lines'.map Text.trimReturns) (layout : Layout) (done : Nat) :
    layout.addLines keywords path done lines = layout.addLines keywords path done lines' := by
  induction lines generalizing lines' layout done with
  | nil =>
    obtain rfl : lines' = [] := List.map_eq_nil_iff.mp h.symm
    rfl
  | cons line lines ih =>
    obtain ⟨line', lines', rfl, hline, hlines⟩ := List.map_eq_cons_iff.mp h.symm
    rw [addLines, addLines, hline]
    split
    · rfl
    · rw [ih hlines.symm]

end Layout

/-- The second list holds the lines of the first, some of them with padding behind their tokens and
in front of the carriage returns at their ends, and any number of further lines that hold nothing
but blanks and comments. -/
inductive Text.Padded (keywords : Keywords) : List (List Char) → List (List Char) → Prop where
  | nil : Padded keywords [] []
  | same {line : List Char} {lines lines' : List (List Char)} :
    Padded keywords lines lines' → Padded keywords (line :: lines) (line :: lines')
  | inserted {blanks comment : List Char} {lines lines' : List (List Char)} :
    (∀ c ∈ blanks, Line.isIndent c = true) → comment = [] ∨ ['-', '-'] <+: comment →
    Padded keywords lines lines' → Padded keywords lines ((blanks ++ comment) :: lines')
  | appended {line pad : List Char} {count : Nat} {tokens : List Token}
      {lines lines' : List (List Char)} :
    Text.trimReturns line = line → Line.scan keywords none 1 line = .ok tokens →
      Line.IsPadding pad →
    Padded keywords lines lines' →
    Padded keywords ((line ++ List.replicate count '\r') :: lines)
      ((line ++ (pad ++ List.replicate count '\r')) :: lines')

namespace Layout

variable {keywords : Keywords} {layout : Layout}

/-- The same tokens in front keep two readings the same. -/
theorem unlined_map_append {result result' : Except Flaw (List Token)} {tokens tokens' : List Token}
    (h : Line.unlined result = Line.unlined result')
    (htokens : tokens.map Token.unlined = tokens'.map Token.unlined) :
    Line.unlined (result.map (tokens ++ ·)) = Line.unlined (result'.map (tokens' ++ ·)) := by
  cases result with
  | error flaw =>
    cases result' with
    | error flaw' => exact h
    | ok more' => cases h
  | ok more =>
    cases result' with
    | error flaw' => cases h
    | ok more' =>
      rw [Line.unlined, Line.unlined, Except.ok.injEq] at h
      simp only [Except.map, Line.unlined, List.map_append, htokens, h]

/-- Lines of which the first ones do the same come to the same if the others do. -/
theorem unlined_addLines_cons {done done' : Nat} {line line' : List Char}
    {lines lines' : List (List Char)}
    (hstep : unlinedStep (layout.addLine keywords path (done + 1) (Text.trimReturns line)) =
      unlinedStep (layout.addLine keywords path (done' + 1) (Text.trimReturns line')))
    (hrest : ∀ next : Layout, Line.unlined (next.addLines keywords path (done + 1) lines) =
      Line.unlined (next.addLines keywords path (done' + 1) lines')) :
    Line.unlined (layout.addLines keywords path done (line :: lines)) =
      Line.unlined (layout.addLines keywords path done' (line' :: lines')) := by
  rw [addLines, addLines]
  generalize layout.addLine keywords path (done + 1) (Text.trimReturns line) = first at hstep
  generalize layout.addLine keywords path (done' + 1) (Text.trimReturns line') = second at hstep
  cases first with
  | error flaw =>
    cases second with
    | error flaw' =>
      rw [unlinedStep, unlinedStep, Except.error.injEq] at hstep
      rw [Line.unlined, Line.unlined, hstep]
    | ok added' => cases hstep
  | ok added =>
    cases second with
    | error flaw' => cases hstep
    | ok added' =>
      obtain ⟨tokens, next⟩ := added
      obtain ⟨tokens', next'⟩ := added'
      rw [unlinedStep, unlinedStep, Except.ok.injEq, Prod.mk.injEq] at hstep
      obtain ⟨htokens, rfl⟩ := hstep
      exact unlined_map_append (hrest next) htokens

/-- A line with padding does the same as without it. -/
theorem unlinedStep_appended {number number' : Nat} {line pad : List Char} {tokens : List Token}
    (hscan : Line.scan keywords none 1 line = .ok tokens) (hpad : Line.IsPadding pad) :
    unlinedStep (layout.addLine keywords path number line) =
      unlinedStep (layout.addLine keywords path number' (line ++ pad)) := by
  have htiled : Line.Tiled keywords 1 1 line tokens := Line.scanAt_eq_ok_iff.mp hscan
  have hplain : Line.scan keywords path 1 line = .ok tokens := htiled.scanAt_eq
  have hpadded : Line.scan keywords path 1 (line ++ pad) = .ok tokens :=
    (htiled.append_padding hpad).scanAt_eq
  refine unlinedStep_addLine ?_ fun found hfound hne => ?_
  · rw [Line.unlined_scan keywords 1 number, hplain, ← hpadded,
      Line.unlined_scan keywords number' 1]
  · exact (Line.indentWidth_append (Line.exists_plain_of_scan hfound hne) pad).symm

/-- **Two runs side by side.** Lines with padding, and with further lines that hold no tokens, come
to the same as the lines without them, up to the numbers of the lines and the columns of their ends.
-/
theorem addLines_padded {lines lines' : List (List Char)} (h : Text.Padded keywords lines lines')
    (layout : Layout) (done done' : Nat) :
    Line.unlined (layout.addLines keywords path done lines) =
      Line.unlined (layout.addLines keywords path done' lines') := by
  induction h generalizing layout done done' with
  | nil =>
    simp only [addLines, Line.unlined, close, List.map_append, List.map_map]
    rfl
  | same _ ih =>
    refine unlined_addLines_cons ?_ fun next => ih next _ _
    exact unlinedStep_addLine (Line.unlined_scan keywords _ _ _) fun _ _ _ => rfl
  | @inserted blanks comment lines lines' hblanks hcomment _ ih =>
    have hscan : Line.scan keywords path (done' + 1) (Text.trimReturns (blanks ++ comment)) =
      .ok [] := by
      rw [Line.trimReturns_blanks hblanks]
      exact (Line.tiled_blanks hblanks (Line.trimReturns_comment hcomment)).scanAt_eq
    rw [addLines, addLine_of_scan_nil hscan, ih layout done (done' + 1)]
    simp only
    cases layout.addLines keywords path (done' + 1) lines' <;> rfl
  | @appended line pad count tokens lines lines' hline hscan hpad _ ih =>
    refine unlined_addLines_cons ?_ fun next => ih next _ _
    rw [Text.trimReturns_append_returns, hline, ← List.append_assoc,
      Text.trimReturns_append_returns, Text.trimReturns_append hline]
    exact unlinedStep_appended hscan hpad.trimReturns

end Layout

end Slick
