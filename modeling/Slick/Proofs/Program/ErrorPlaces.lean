import Slick.Proofs.Layout.Reindentation
import Slick.Proofs.Line.Partition
import Slick.Proofs.Program.Paths

/-!
# Places of errors

Every token stands at a place of its source: in a line, right behind its last character, or at the
end of the source. So do the flaws of the lines, and readings refuse tokens at places of tokens
only, and all of them under the path of the source. One error may lie elsewhere: a line that meets
no open level is reported behind the width of its leading blanks, and a tab is wider than one
character. Main statement: `Program.refused_place`.
-/

namespace Slick

variable {path : Option String}

namespace Text

/-- A place in one of the lines, or right behind its last character. -/
def InLine (lines : List (List Char)) (place : Position) : Prop :=
  ∃ index line, lines[index]? = some line ∧ place.line = index + 1 ∧
    1 ≤ place.column ∧ place.column ≤ (trimReturns line).length + 1

/-- A place in the text with the given lines: in one of them, or at the end behind them. -/
def IsPlace (lines : List (List Char)) (place : Position) : Prop :=
  InLine lines place ∨ (place.line = lines.length + 1 ∧ place.column = 1)

/-- A place in some lines is a place in more lines. -/
theorem InLine.append {lines : List (List Char)} {place : Position} (h : InLine lines place)
    (more : List (List Char)) : InLine (lines ++ more) place := by
  obtain ⟨index, line, hindex, hplace⟩ := h
  refine ⟨index, line, ?_, hplace⟩
  have hlt : index < lines.length := (List.getElem?_eq_some_iff.mp hindex).1
  rw [List.getElem?_append_left hlt, hindex]

/-- A column of a line that stands behind others. -/
theorem inLine_behind {lines : List (List Char)} {line : List Char} {column : Nat}
    (hfirst : 1 ≤ column) (hlast : column ≤ (trimReturns line).length + 1) :
    InLine (lines ++ [line]) ⟨lines.length + 1, column⟩ :=
  ⟨lines.length, line, by simp, rfl, hfirst, hlast⟩

end Text

namespace Line

variable {keywords : Keywords} {number : Nat} {text : List Char}

/-- The tokens of a line stand at its characters. -/
theorem column_of_mem_scan {tokens : List Token} (h : scan keywords path number text = .ok tokens) :
    ∀ token ∈ tokens, token.line = number ∧ 1 ≤ token.column ∧ token.column ≤ text.length := by
  intro token htoken
  have hpartitioned := (scanAt_eq_ok_iff.mp h).partitioned
  obtain ⟨hline, hfirst, hne, hslice⟩ := hpartitioned.slice token htoken
  refine ⟨hline, hfirst, ?_⟩
  have hlength := hslice.length_le
  have hpos : 0 < token.text.toList.length := by
    rw [List.length_pos_iff]
    simpa using hne
  rw [fromColumn, List.length_drop] at hlength
  omega

/-- The flaw of a line stands at one of its characters. -/
theorem column_of_scan_error {flaw : Flaw} (h : scan keywords path number text = .error flaw) :
    flaw.line = number ∧ 1 ≤ flaw.column ∧ flaw.column ≤ text.length := by
  rcases scanAt_cases keywords path number 1 text with
    ⟨tokens, htiled⟩ | ⟨front, rest, tokens, cause, offset, rfl, -, hflawed, herror⟩
  · rw [scan, htiled.scanAt_eq] at h
    cases h
  · rw [scan, herror] at h
    cases h
    have hoffset : offset < rest.length := by
      cases hflawed with
      | unexpected => simp
      | unterminated => simp
      | badEscape => simp
    simp only [List.length_append, true_and]
    omega

/-- Without tabs the leading blanks are as wide as they are long. -/
theorem indentWidth_le_of_no_tab (h : '\t' ∉ text.takeWhile isIndent) :
    indentWidth text ≤ text.length := by
  induction text with
  | nil => exact Nat.le_refl 0
  | cons c rest ih =>
    rw [indentWidth, List.length_cons]
    split
    · next hspace =>
      subst hspace
      have hrest : '\t' ∉ rest.takeWhile isIndent := by simpa [isIndent] using h
      have := ih hrest
      omega
    split
    · next htab =>
      subst htab
      simp [isIndent] at h
    · omega

end Line

namespace Layout

variable {keywords : Keywords}

/-- The tokens of a run stand in its lines. -/
theorem Reaches.inLine {lines : List (List Char)} {before : List Token} {layout : Layout}
    (h : Reaches keywords path lines before layout) :
    ∀ token ∈ before, token.At (Text.InLine lines) := by
  induction h with
  | start => simp
  | @step lines line before tokens layout next _ hadd ih =>
    rw [List.forall_mem_append]
    refine ⟨fun token htoken => (ih token htoken).append [line], ?_⟩
    rcases addLine_cases hadd with ⟨-, rfl, -⟩ | ⟨marks, scanned, hadds, rfl⟩
    · simp
    rw [List.forall_mem_append, List.forall_mem_append, List.forall_mem_singleton]
    refine ⟨?_, ?_, ?_⟩
    · intro token htoken
      obtain ⟨mark, -, rfl⟩ := List.mem_map.mp htoken
      exact Text.inLine_behind (Nat.le_refl 1) (by omega)
    · intro token htoken
      obtain ⟨hline, hfirst, hlast⟩ := Line.column_of_mem_scan hadds.scan token htoken
      have hplace : token.toPosition = ⟨lines.length + 1, token.column⟩ := by rw [← hline]
      rw [Token.At, hplace]
      exact Text.inLine_behind hfirst (by omega)
    · exact Text.inLine_behind (by omega) (Nat.le_refl _)

/-- The tokens of a source stand at places of it. -/
theorem tokenize_places {source : String} {tokens : List Token}
    (h : tokenize keywords source path = .ok tokens) :
    ∀ token ∈ tokens, token.At (Text.IsPlace (Text.lines source.toList)) := by
  obtain ⟨body, final, hreaches, rfl⟩ := tokenize_reaches h
  rw [close_eq_dedents, List.forall_mem_append, List.forall_mem_append, List.forall_mem_singleton]
  refine ⟨fun token htoken => .inl (hreaches.inLine token htoken), ?_, .inr ⟨rfl, rfl⟩⟩
  intro token htoken
  obtain ⟨_, -, rfl⟩ := List.mem_map.mp htoken
  obtain ⟨lines, line, hlines⟩ := (List.eq_nil_or_concat (Text.lines source.toList)).resolve_left
    (Text.lines_ne_nil _)
  rw [hlines, List.concat_eq_append, List.length_append, List.length_singleton]
  exact .inl (Text.inLine_behind (Nat.le_refl 1) (by omega))

/-- A line fails because of a flaw in it, or because it meets no open level. -/
theorem addLine_error_cases {layout : Layout} {number : Nat} {line : List Char} {flaw : Flaw}
    (h : layout.addLine keywords path number line = .error flaw) :
    Line.scan keywords path number line = .error flaw ∨
      flaw = ⟨⟨⟨number, Line.indentWidth line + 1⟩, path⟩, .inconsistentIndentation⟩ := by
  unfold addLine at h
  split at h
  · next hscan =>
    cases h
    exact .inl hscan
  · cases h
  · simp only at h
    split at h
    · split at h
      · cases h
        exact .inr rfl
      · cases h
    · cases h

/-- Lines fail at the first of them that fails. -/
theorem addLines_error {layout : Layout} {lines : List (List Char)} {done : Nat} {flaw : Flaw}
    (h : layout.addLines keywords path done lines = .error flaw) :
    ∃ layout' index line, lines[index]? = some line ∧
      addLine keywords path layout' (done + index + 1) (Text.trimReturns line) = .error flaw := by
  induction lines generalizing layout done with
  | nil => cases h
  | cons line rest ih =>
    rw [addLines] at h
    split at h
    · next hadd =>
      cases h
      exact ⟨layout, 0, line, rfl, hadd⟩
    · next tokens next hadd =>
      cases hrest : next.addLines keywords path (done + 1) rest with
      | ok more =>
        rw [hrest] at h
        cases h
      | error flaw' =>
        rw [hrest] at h
        cases h
        obtain ⟨layout', index, found, hindex, hfound⟩ := ih hrest
        refine ⟨layout', index + 1, found, by simpa using hindex, ?_⟩
        rwa [Nat.add_right_comm done 1] at hfound

end Layout

/-- The error about a line that meets no open level and has a tab among its leading blanks: it is
reported behind the width of these blanks. -/
def Flaw.BehindTabs (lines : List (List Char)) (flaw : Flaw) : Prop :=
  flaw.cause = .inconsistentIndentation ∧ ∃ index line, lines[index]? = some line ∧
    flaw.line = index + 1 ∧ flaw.column = Line.indentWidth (Text.trimReturns line) + 1 ∧
    '\t' ∈ (Text.trimReturns line).takeWhile Line.isIndent

/-- A source without tokens fails at one of its places, or at a line that is indented by tabs. -/
theorem Layout.tokenize_error_place {keywords : Keywords} {source : String} {flaw : Flaw}
    (h : tokenize keywords source path = .error flaw) :
    Text.InLine (Text.lines source.toList) flaw.toPosition ∨
      flaw.BehindTabs (Text.lines source.toList) := by
  obtain ⟨layout, index, line, hindex, hadd⟩ := addLines_error h
  rw [Nat.zero_add] at hadd
  rcases addLine_error_cases hadd with hscan | rfl
  · obtain ⟨hline, hfirst, hlast⟩ := Line.column_of_scan_error hscan
    exact .inl ⟨index, line, hindex, hline, hfirst, by omega⟩
  · by_cases htab : '\t' ∈ (Text.trimReturns line).takeWhile Line.isIndent
    · exact .inr ⟨rfl, index, line, hindex, rfl, rfl, htab⟩
    · have hwidth := Line.indentWidth_le_of_no_tab htab
      exact .inl ⟨index, line, hindex, rfl, Nat.succ_pos _, Nat.succ_le_succ hwidth⟩

/-- **Errors lie in the source**: they carry its path, and their place is one of its places, except
for a line that meets no open level and is indented by tabs. -/
theorem Program.refused_place {keywords : Keywords} {source : String} {path : Option String}
    {flaw : Flaw} (h : Program.parse keywords source path = .error (.refused flaw)) :
    flaw.diagnostic.path = path ∧
      (Text.IsPlace (Text.lines source.toList) flaw.toPosition ∨
        flaw.BehindTabs (Text.lines source.toList)) := by
  unfold Program.parse at h
  split at h
  · next htokens =>
    cases h
    exact ⟨path_of_tokenize_error htokens, (Layout.tokenize_error_place htokens).imp .inl id⟩
  · next tokens htokens =>
    obtain ⟨hplace, hpath⟩ := Program.ofTokens_refused (Layout.tokenize_places htokens) h
    exact ⟨hpath, .inl hplace⟩

/-- The tokens of a list that ends behind a comma. -/
def listUpToComma : List Token :=
  [⟨⟨.ident, "x", .text "x"⟩, ⟨1, 1⟩⟩, ⟨⟨.colon, ":", .nothing⟩, ⟨1, 3⟩⟩,
    ⟨⟨.lbracket, "[", .nothing⟩, ⟨1, 5⟩⟩, ⟨⟨.ident, "y", .text "y"⟩, ⟨1, 6⟩⟩,
    ⟨⟨.comma, ",", .nothing⟩, ⟨1, 7⟩⟩, ⟨.newline, ⟨1, 8⟩⟩, ⟨.eof, ⟨2, 1⟩⟩]

private theorem parse_listUpToComma : Program.parse Keywords.standard "x : [y," (some "a.slick") =
    .error (.refused ⟨⟨⟨1, 5⟩, "a.slick"⟩, .unclosedList⟩) := by
  have htokens : tokenize Keywords.standard "x : [y," (some "a.slick") = .ok listUpToComma := rfl
  rw [Program.parse, htokens]
  rfl

/-- A list that is never closed is reported where it starts. -/
theorem Program.refused_place_listUpToComma :
    Program.parse Keywords.standard "x : [y," (some "a.slick") =
        .error (.refused ⟨⟨⟨1, 5⟩, "a.slick"⟩, .unclosedList⟩) ∧
      (Flaw.diagnostic ⟨⟨⟨1, 5⟩, "a.slick"⟩, .unclosedList⟩).path = some "a.slick" ∧
      (Text.IsPlace (Text.lines "x : [y,".toList) ⟨1, 5⟩ ∨
        Flaw.BehindTabs (Text.lines "x : [y,".toList) ⟨⟨⟨1, 5⟩, "a.slick"⟩, .unclosedList⟩) :=
  ⟨parse_listUpToComma, Program.refused_place parse_listUpToComma⟩

/-- A line that is indented by a tab, between two open levels, is reported in its fifth column. It
has two characters. -/
theorem Program.refused_beyond_line :
    Program.parse Keywords.standard "a :\n        1\n\tb" none =
        .error (.refused ⟨⟨⟨3, 5⟩, none⟩, .inconsistentIndentation⟩) ∧
      ¬Text.IsPlace (Text.lines "a :\n        1\n\tb".toList) ⟨3, 5⟩ := by
  constructor
  · have htokens : tokenize Keywords.standard "a :\n        1\n\tb" none =
        .error ⟨⟨⟨3, 5⟩, none⟩, .inconsistentIndentation⟩ := rfl
    rw [Program.parse, htokens]
  · rintro (⟨index, line, hindex, hline, -, hcolumn⟩ | ⟨-, hcolumn⟩)
    · obtain rfl : index = 2 := by simpa using hline.symm
      have hlines : Text.lines "a :\n        1\n\tb".toList =
          ["a :".toList, "        1".toList, "\tb".toList] := rfl
      rw [hlines] at hindex
      cases hindex
      exact absurd hcolumn (by decide)
    · exact absurd hcolumn (by decide)

end Slick
