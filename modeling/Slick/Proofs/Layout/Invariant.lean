import Slick.Proofs.Layout.Run
import Slick.Proofs.Layout.Widths

/-!
# What every token list looks like

The marks of the layout stand where they belong: blocks are opened and closed in balance, only
where no bracket is open, and lines of one block have one width. The invariant of a run ties the
tokens added so far to the state of the layout: the number of open blocks is the number of its
levels, and each line that may still be compared with a later one has the width of its level. Main
statement: `tokenize_laidOut`.
-/

namespace Slick.Layout

variable {path : Option String}

/-- What holds between two lines: the tokens added so far fit, end with a line, and show the state
of the layout. -/
structure Invariant (width : Nat → Nat) (before : List Token) (layout : Layout) : Prop where
  fits : Everywhere (fun front token => Fits front token ∧ Outside front token) [] before
  noEnd : ∀ token ∈ before, token.kind ≠ .eof
  last : ∀ last ∈ before.getLast?, last.kind = .newline
  depth : Line.depthAfter 0 before = layout.depth
  height : level before = layout.levels.length
  widening : Widening layout.levels
  stepped : Stepped (openLines width [] before)
  tracks : Tracks layout.levels (openLines width [] before)

/-- The invariant holds in front of the first line. -/
theorem Invariant.start (width : Nat → Nat) : Invariant width [] {} where
  fits := trivial
  noEnd := by simp
  last := by simp
  depth := rfl
  height := rfl
  widening := ⟨.nil, by simp⟩
  stepped := ⟨by simp [openLines], by simp [openLines]⟩
  tracks := by
    intro before line after h
    simp [openLines] at h

/-- The marks in front of a line fit, and the level behind them is the number of levels. -/
structure Marked (before marks : List Token) (levels : List Nat) : Prop where
  layout : ∀ token ∈ marks, token.kind = .indent ∨ token.kind = .dedent
  fits : Everywhere (fun front token => Fits front token ∧ Outside front token) before marks
  height : level (before ++ marks) = levels.length

/-- Marks change neither the brackets that are open nor where a line starts. -/
theorem Marked.isLayout {before marks : List Token} {levels : List Nat}
    (h : Marked before marks levels) : ∀ token ∈ marks, token.kind.isLayout = true := by
  intro token htoken
  rcases h.layout token htoken with hkind | hkind <;>
    · rw [hkind]
      rfl

/-- The tokens behind the marks of a line are at the level of the line. -/
theorem Marked.level_line {before marks scanned : List Token} {levels : List Nat}
    (h : Marked before marks levels) (hplain : ∀ token ∈ scanned, token.kind.isLayout = false) :
    level ((before ++ marks) ++ scanned) = levels.length := by
  rw [level_append, h.height, level_plain hplain]
  omega

/-- The tokens behind the marks of a line fit, with the end of the line. -/
theorem Marked.everywhere_line {before marks scanned : List Token} {levels : List Nat}
    (h : Marked before marks levels) (hne : scanned ≠ [])
    (hplain : ∀ token ∈ scanned, token.kind.isLayout = false) {newline : Token}
    (hnewline : newline.kind = .newline) :
    Everywhere (fun front token => Fits front token ∧ Outside front token) (before ++ marks)
      (scanned ++ [newline]) := by
  obtain ⟨last, hlast⟩ := Option.isSome_iff_exists.mp (List.getLast?_isSome.mpr hne)
  have hend : last ∈ (before ++ marks ++ scanned).getLast? := by
    rw [List.getLast?_append, hlast]
    rfl
  have hlastPlain := hplain last (List.mem_of_getLast? hlast)
  have hnonneg : 0 ≤ level (before ++ marks ++ scanned) := by
    rw [h.level_line hplain]
    omega
  have hnonnegMarks : 0 ≤ level (before ++ marks) := by
    rw [h.height]
    omega
  have hfitsEnd := fits_newline hnonneg hend hlastPlain hnewline
  have hfitsLine := everywhere_plain hnonnegMarks hplain
  exact everywhere_append.mpr ⟨hfitsLine, hfitsEnd, trivial⟩

/-- A block is opened where no bracket is open. -/
theorem Invariant.marked_indent {width : Nat → Nat} {before : List Token} {layout : Layout}
    (h : Invariant width before layout) (hdepth : layout.depth = 0) {mark : Token}
    (hmark : mark.kind = .indent) (w : Nat) : Marked before [mark] (w :: layout.levels) where
  layout := by
    intro token htoken
    obtain rfl : token = mark := by simpa using htoken
    exact .inl hmark
  fits := by
    have hlevel := h.height
    refine ⟨⟨⟨by omega, ?_, fun _ => h.last, ?_, ?_⟩, fun _ => h.depth.trans hdepth⟩, trivial⟩
    · intro hkind
      rw [hmark] at hkind
      cases hkind
    · intro hkind
      rw [hmark] at hkind
      cases hkind
    · intro last hlast hindent
      rw [h.last last hlast] at hindent
      cases hindent
  height := by
    rw [level_append, level_indent hmark, h.height, List.length_cons]
    omega

/-- Levels are closed behind the end of a line, and nowhere else. -/
theorem Invariant.everywhere_close {width : Nat → Nat} {before : List Token} {layout : Layout}
    (h : Invariant width before layout) {marks : List Token}
    (hmarks : ∀ token ∈ marks, token.kind = .dedent)
    (hcount : marks.length ≤ layout.levels.length) : Everywhere Fits before marks := by
  have hlevel := h.height
  refine everywhere_dedents hmarks (by omega) fun hne => ?_
  -- Where a level is open, there is a line in front, for without tokens the level is zero.
  have hsome : before ≠ [] := by
    rintro rfl
    have hpos := List.length_pos_iff.mpr hne
    rw [level_nil] at hlevel
    omega
  obtain ⟨last, hlast⟩ := Option.isSome_iff_exists.mp (List.getLast?_isSome.mpr hsome)
  exact ⟨last, hlast, .inl (h.last last hlast)⟩

/-- Blocks are closed where no bracket is open. -/
theorem Invariant.marked_dedents {width : Nat → Nat} {before : List Token} {layout : Layout}
    (h : Invariant width before layout) (hdepth : layout.depth = 0) {closed kept : List Nat}
    (hlevels : layout.levels = closed ++ kept) {marks : List Token}
    (hmarks : ∀ token ∈ marks, token.kind = .dedent) (hcount : marks.length = closed.length) :
    Marked before marks kept where
  layout := fun token htoken => .inr (hmarks token htoken)
  fits := by
    have hfits := h.everywhere_close hmarks (by rw [hlevels, List.length_append]; omega)
    have houtside : ∀ front, Line.depthAfter 0 front = 0 → Everywhere Outside front marks := by
      intro front hfront
      clear hfits hcount
      induction marks generalizing front with
      | nil => trivial
      | cons mark marks ih =>
        refine ⟨fun _ => hfront, ih (fun t ht => hmarks t (List.mem_cons_of_mem _ ht)) _ ?_⟩
        have hmark := hmarks mark (by simp)
        rw [depthAfter_append, hfront, depthAfter_marks]
        simp [hmark, Kind.isLayout]
    exact everywhere_and hfits (houtside before (h.depth.trans hdepth))
  height := by
    rw [level_append, level_dedents hmarks, h.height, hlevels, List.length_append, hcount]
    omega

/-- A line with tokens is marked as its width asks for. -/
theorem Invariant.marked {width : Nat → Nat} {before : List Token} {layout next : Layout}
    (h : Invariant width before layout) {keywords : Keywords} {number : Nat} {line : List Char}
    {marks : List Lexeme} {scanned : List Token}
    (hadds : Adds keywords path layout number line marks scanned next) :
    Marked before (marks.map (·.place number 1)) next.levels ∧ Turns layout.levels next.levels := by
  by_cases hdepth : layout.depth = 0
  · rcases enter_cases (hadds.outside hdepth) with ⟨hwider, rfl, hlevels⟩ |
      ⟨closed, hlevels, -, rfl⟩
    · rw [hlevels]
      refine ⟨h.marked_indent hdepth rfl _, h.widening.cons hwider, fun height hheight _ => ?_⟩
      exact widthAt_append [_] layout.levels hheight
    · refine ⟨h.marked_dedents hdepth hlevels ?_ (by simp), ?_, fun height _ hheight => ?_⟩
      · intro token htoken
        simp only [List.map_map, List.mem_map] at htoken
        obtain ⟨-, -, rfl⟩ := htoken
        rfl
      · have hwidening := h.widening
        rw [hlevels] at hwidening
        exact hwidening.of_append
      · rw [hlevels, widthAt_append closed next.levels hheight]
  · obtain ⟨rfl, hlevels⟩ := hadds.inside hdepth
    rw [hlevels]
    refine ⟨⟨by simp, trivial, ?_⟩, h.widening, fun _ _ _ => rfl⟩
    rw [List.map_nil, List.append_nil]
    exact h.height

/-- A line of its own is added to the open lines if it starts where no bracket is open. -/
theorem Invariant.openLines_step {width : Nat → Nat} {before : List Token} {layout : Layout}
    (h : Invariant width before layout) {marks scanned : List Token} {newline : Token}
    {levels : List Nat} {number : Nat} (hmarked : Marked before marks levels)
    (hne : scanned ≠ [])
    (hscanned : ∀ token ∈ scanned, token.line = number ∧ token.kind.isLayout = false)
    (hnewline : newline.kind = .newline) (hbefore : ∀ token ∈ before, token.line ≠ number) :
    openLines width [] (before ++ (marks ++ (scanned ++ [newline]))) =
      openLines width [] before ++
        if layout.depth = 0 then [(level (before ++ marks), width number)] else [] := by
  -- In front of the line there are its marks and the tokens of other lines.
  have hstart : ∀ early ∈ before ++ marks, early.kind.isLayout = false → early.line ≠ number := by
    rw [List.forall_mem_append]
    refine ⟨fun early hearly _ => hbefore early hearly, fun mark hmark hplain => ?_⟩
    rw [hmarked.isLayout mark hmark] at hplain
    cases hplain
  have hdepth : Line.depthAfter 0 (before ++ marks) = layout.depth := by
    rw [depthAfter_append, h.depth, depthAfter_marks hmarked.isLayout]
  have hmarks : openLines width before marks = [] := openLines_marks width hmarked.isLayout
  have hend : openLines width (before ++ marks ++ scanned) [newline] = [] :=
    openLines_marks width (by simp [hnewline, Kind.isLayout])
  rw [openLines_append, openLines_append, openLines_append, List.nil_append, hmarks, hend,
    openLines_line width hne hscanned hstart, hdepth, List.append_nil, List.nil_append]

/-- **One line keeps the invariant.** -/
theorem Invariant.step {width : Nat → Nat} {before : List Token} {layout next : Layout}
    (h : Invariant width before layout) {keywords : Keywords} {number : Nat} {line : List Char}
    {marks : List Lexeme} {scanned : List Token}
    (hadds : Adds keywords path layout number line marks scanned next)
    (hbefore : ∀ token ∈ before, token.line ≠ number)
    (hwidth : width number = Line.indentWidth line) (column : Nat) :
    Invariant width (before ++ (marks.map (·.place number 1) ++
      (scanned ++ [Lexeme.newline.place number column]))) next := by
  obtain ⟨hmarked, hturns⟩ := h.marked hadds
  generalize marks.map (·.place number 1) = marks at hmarked ⊢
  generalize hnewline : Lexeme.newline.place number column = newline
  have hkind : newline.kind = .newline := by rw [← hnewline]; rfl
  have hscanned := Line.mem_scan hadds.scan
  have hplain : ∀ token ∈ scanned, token.kind.isLayout = false := fun t ht => (hscanned t ht).2
  have hlevelMarks := hmarked.height
  have hlevelScanned := hmarked.level_line hplain
  have hlines := h.openLines_step hmarked hadds.nonempty hscanned hkind hbefore
  have hnested : Stepped (openLines width [] (before ++ (marks ++ (scanned ++ [newline])))) ∧
      Tracks next.levels (openLines width [] (before ++ (marks ++ (scanned ++ [newline])))) := by
    rw [hlines]
    by_cases hdepth : layout.depth = 0
    · rw [if_pos hdepth]
      have hinner : width number = innermost next.levels := by
        rw [hwidth, innermost_of_enter (hadds.outside hdepth)]
      exact ⟨h.stepped.append h.tracks hturns hlevelMarks hinner,
        h.tracks.append hturns hlevelMarks hinner⟩
    · rw [if_neg hdepth, List.append_nil, (hadds.inside hdepth).2]
      exact ⟨h.stepped, h.tracks⟩
  refine ⟨?_, ?_, ?_, ?_, ?_, hturns.widening, hnested.1, hnested.2⟩
  · have hline := hmarked.everywhere_line hadds.nonempty hplain hkind
    exact everywhere_append.mpr ⟨h.fits, everywhere_append.mpr ⟨hmarked.fits, hline⟩⟩
  · intro token htoken
    simp only [List.mem_append, List.mem_singleton] at htoken
    rcases htoken with hbefore | hmark | hline | rfl
    · exact h.noEnd token hbefore
    · rcases hmarked.layout token hmark with hmark | hmark <;> rw [hmark] <;> decide
    · exact (not_mark_of_plain (hplain token hline)).2.2.2
    · rw [hkind]
      decide
  · intro last hlast
    obtain rfl : newline = last := by simpa using hlast
    exact hkind
  · rw [depthAfter_append, h.depth, depthAfter_append, depthAfter_marks hmarked.isLayout,
      depthAfter_append, ← hadds.depth]
    exact depthAfter_marks (by simp [hkind, Kind.isLayout]) _
  · have hlevelEnd : level [newline] = 0 := level_eq_zero (by simp [hkind])
    rw [← List.append_assoc, ← List.append_assoc, level_append, hlevelScanned, hlevelEnd]
    omega

/-- The width of a line by its number. -/
def lineWidth (lines : List (List Char)) (number : Nat) : Nat :=
  Line.indentWidth (Text.trimReturns (lines.getD (number - 1) []))

/-- **Every run keeps the invariant.** -/
theorem Reaches.invariant {keywords : Keywords} {lines all : List (List Char)}
    {before : List Token} {layout : Layout} (h : Reaches keywords path lines before layout)
    (hall : lines <+: all) : Invariant (lineWidth all) before layout := by
  induction h with
  | start => exact Invariant.start _
  | @step lines line before tokens layout next hreaches hadd ih =>
    have hinvariant := ih ((List.prefix_append lines [line]).trans hall)
    have hbefore : ∀ token ∈ before, token.line ≠ lines.length + 1 :=
      fun token htoken => Nat.ne_of_lt (Nat.lt_succ_of_le (hreaches.line_le token htoken))
    have hline : lineWidth all (lines.length + 1) = Line.indentWidth (Text.trimReturns line) := by
      obtain ⟨more, rfl⟩ := hall
      simp [lineWidth]
    rcases addLine_cases hadd with ⟨-, rfl, rfl⟩ | ⟨marks, scanned, hadds, rfl⟩
    · rw [List.append_nil]
      exact hinvariant
    · exact hinvariant.step hadds hbefore hline _

/-- What a token list with its layout looks like. -/
structure LaidOut (width : Nat → Nat) (tokens : List Token) : Prop where
  /-- The source ends once, where every block is closed. -/
  end_last : ∃ body eof, tokens = body ++ [eof] ∧ eof.kind = .eof ∧
    (∀ token ∈ body, token.kind ≠ .eof) ∧ level body = 0
  level_nonneg : ∀ before after, tokens = before ++ after → 0 ≤ level before
  /-- Only lines with tokens are ended. -/
  newline : ∀ before newline after, tokens = before ++ newline :: after →
    newline.kind = .newline → ∃ last ∈ before.getLast?, last.kind.isLayout = false
  /-- A block is opened at the start of a line that has tokens, one at a time. -/
  indent : ∀ before indent after, tokens = before ++ indent :: after → indent.kind = .indent →
    (∀ last ∈ before.getLast?, last.kind = .newline) ∧
      ∃ next ∈ after.head?, next.kind.isLayout = false
  /-- Blocks are closed in runs behind the end of a line. -/
  dedent : ∀ before dedent after, tokens = before ++ dedent :: after → dedent.kind = .dedent →
    ∃ front newline run, before = front ++ newline :: run ∧ newline.kind = .newline ∧
      ∀ token ∈ run, token.kind = .dedent
  /-- No block is closed where one is opened. -/
  apart : ∀ before first second after, tokens = before ++ first :: second :: after →
    ¬(first.kind = .indent ∧ second.kind = .dedent) ∧
      ¬(first.kind = .dedent ∧ second.kind = .indent)
  /-- No block is opened or closed inside brackets, except at the end of the source. -/
  outside : ∀ before mark after, tokens = before ++ mark :: after →
    mark.kind = .indent ∨
      mark.kind = .dedent ∧ (∃ token ∈ after, token.kind ≠ .dedent ∧ token.kind ≠ .eof) →
    Line.depthAfter 0 before = 0
  /-- The levels of the lines that start outside brackets go with their widths. -/
  stepped : Stepped (openLines width [] tokens)

/-- Behind the last line there are only ends of blocks, and the end of the source. -/
theorem close_eq (layout : Layout) (lineCount : Nat) :
    ∃ dedents eof, layout.close lineCount = dedents ++ [eof] ∧ eof.kind = .eof ∧
      (∀ token ∈ dedents, token.kind = .dedent) ∧ dedents.length = layout.levels.length := by
  refine ⟨_, _, rfl, rfl, ?_, List.length_map _⟩
  intro token htoken
  obtain ⟨-, -, rfl⟩ := List.mem_map.mp htoken
  rfl

/-- The marks behind the last line fit. -/
theorem Invariant.fits_close {width : Nat → Nat} {body dedents : List Token} {layout : Layout}
    {eof : Token} (h : Invariant width body layout) (heof : eof.kind = .eof)
    (hdedents : ∀ token ∈ dedents, token.kind = .dedent)
    (hcount : dedents.length = layout.levels.length) :
    level (body ++ dedents) = 0 ∧ Everywhere Fits [] (body ++ (dedents ++ [eof])) := by
  have hlevel : level (body ++ dedents) = 0 := by
    rw [level_append, h.height, level_dedents hdedents, hcount]
    omega
  have hlast : ∀ last ∈ (body ++ dedents).getLast?, last.kind ≠ .indent := by
    intro last hlast hindent
    rw [List.getLast?_append, Option.mem_def, Option.or_eq_some_iff] at hlast
    rcases hlast with hlast | ⟨-, hlast⟩
    · rw [hdedents last (List.mem_of_getLast? hlast)] at hindent
      cases hindent
    · rw [h.last last hlast] at hindent
      cases hindent
  refine ⟨hlevel, everywhere_append.mpr ⟨h.fits.mono fun _ _ hboth => hboth.1, ?_⟩⟩
  refine everywhere_append.mpr ⟨h.everywhere_close hdedents (by omega), ?_, trivial⟩
  exact fits_eof (Int.le_of_eq hlevel.symm) hlast heof

/-- Marks that are not in the last run stand where no bracket is open. -/
theorem Invariant.outside {width : Nat → Nat} {body closing before after : List Token}
    {layout : Layout} {mark : Token} (h : Invariant width body layout)
    (hclosing : ∀ token ∈ closing, token.kind = .dedent ∨ token.kind = .eof)
    (htokens : body ++ closing = before ++ mark :: after)
    (hmark : mark.kind = .indent ∨
      mark.kind = .dedent ∧ ∃ token ∈ after, token.kind ≠ .dedent ∧ token.kind ≠ .eof) :
    Line.depthAfter 0 before = 0 := by
  have hbody : ∀ more, closing ≠ more ++ mark :: after := by
    rintro more rfl
    rcases hmark with hindent | ⟨-, token, htoken, hdedent, heof⟩
    · rcases hclosing mark (by simp) with hkind | hkind <;>
        · rw [hindent] at hkind
          cases hkind
    · exact (hclosing token (by simp [htoken])).elim hdedent heof
  rcases List.append_eq_append_iff.mp htokens with ⟨more, -, hmore⟩ | ⟨more, rfl, hmore⟩
  · exact absurd hmore (hbody more)
  · cases more with
    | nil => exact absurd hmore.symm (hbody [])
    | cons first more =>
      obtain ⟨rfl, -⟩ := List.cons_eq_cons.mp hmore
      exact h.fits.at_split.2 (hmark.imp id And.left)

/-- The marks behind the last line complete the layout. -/
theorem Invariant.laidOut {width : Nat → Nat} {body : List Token} {layout : Layout}
    (h : Invariant width body layout) (lineCount : Nat) :
    LaidOut width (body ++ layout.close lineCount) := by
  obtain ⟨dedents, eof, hclose, heof, hdedents, hcount⟩ := close_eq layout lineCount
  obtain ⟨hlevel, hfits⟩ := h.fits_close heof hdedents hcount
  have hclosing : ∀ token ∈ dedents ++ [eof], token.kind = .dedent ∨ token.kind = .eof := by
    intro token htoken
    rcases List.mem_append.mp htoken with hdedent | hlast
    · exact .inl (hdedents token hdedent)
    · obtain rfl : token = eof := by simpa using hlast
      exact .inr heof
  rw [hclose]
  refine ⟨⟨body ++ dedents, eof, by simp, heof, ?_, hlevel⟩, ?_, ?_, ?_, ?_, ?_, ?_, ?_⟩
  · intro token htoken
    rcases List.mem_append.mp htoken with hbody | hdedent
    · exact h.noEnd token hbody
    · rw [hdedents token hdedent]
      decide
  · intro before after htokens
    cases after with
    | nil =>
      have hlevelEnd : level [eof] = 0 := level_eq_zero (by simp [heof])
      rw [List.append_nil] at htokens
      rw [← htokens, ← List.append_assoc, level_append, hlevel, hlevelEnd]
      decide
    | cons token after =>
      rw [htokens] at hfits
      exact hfits.at_split.level_nonneg
  · intro before newline after htokens
    rw [htokens] at hfits
    exact hfits.at_split.newline
  · intro before indent after htokens hindent
    have hlast : eof ∈ (before ++ indent :: after).getLast? := by simp [← htokens]
    rw [htokens] at hfits
    exact ⟨hfits.at_split.indent hindent, hfits.indent_next hindent hlast heof⟩
  · intro before dedent after htokens hdedent
    rw [htokens] at hfits
    exact hfits.dedent_run hdedent
  · intro before first second after htokens
    rw [htokens] at hfits
    exact hfits.marks_apart
  · intro before mark after htokens hmark
    exact h.outside hclosing htokens hmark
  · have hmarks : openLines width body (dedents ++ [eof]) = [] := by
      refine openLines_marks width fun token htoken => ?_
      rcases hclosing token htoken with hkind | hkind <;>
        · rw [hkind]
          rfl
    rw [openLines_append, List.nil_append, hmarks, List.append_nil]
    exact h.stepped

/-- **The layout of a token list.** Whatever the source and the reserved words, the tokens of a
source end once, their blocks are opened and closed in balance, where lines start and no bracket is
open, and the levels of the lines that start outside brackets go with their widths. -/
theorem tokenize_laidOut {keywords : Keywords} {source : String} {tokens : List Token}
    (h : tokenize keywords source path = .ok tokens) :
    LaidOut (lineWidth (Text.lines source.toList)) tokens := by
  obtain ⟨body, final, hreaches, rfl⟩ := tokenize_reaches h
  exact (hreaches.invariant (List.prefix_refl _)).laidOut _

/-- A block with a bracket in it that stays open over the end of a line is laid out. -/
theorem tokenize_laidOut_block : ∃ tokens,
    tokenize Keywords.standard "x :\n  f (a\nb)\ny : z" none = .ok tokens ∧
      LaidOut (lineWidth (Text.lines "x :\n  f (a\nb)\ny : z".toList)) tokens :=
  ⟨_, rfl, tokenize_laidOut
    (show tokenize Keywords.standard "x :\n  f (a\nb)\ny : z" none = .ok _ from rfl)⟩

-- The third line starts inside the bracket and is not among them.
example : (tokenize Keywords.standard "x :\n  f (a\nb)\ny : z" none).map
    (openLines (lineWidth (Text.lines "x :\n  f (a\nb)\ny : z".toList)) []) =
      .ok [(0, 0), (1, 2), (0, 0)] := rfl

end Slick.Layout
