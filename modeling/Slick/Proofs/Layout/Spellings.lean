import Slick.Proofs.Line.Spellings
import Slick.Proofs.Program.Locations

/-!
# Other spellings in a source

Put signs in the places of some tokens of a source that have a spelling in ASCII. Two runs of the
layout, over the old lines and over the new ones, go side by side through the same states: each line
keeps its width and its brackets, and it adds the same tokens up to columns, spelled in Unicode
where they are chosen. Main statement: `Layout.tokenize_respelled`.
-/

namespace Slick

variable {path : Option String}

/-- The lines, of which the first has the number behind `done`, with the signs of the chosen tokens
in the places of their spellings. -/
def Text.respelled (chosen : Token → Bool) (tokens : List Token) :
    (done : Nat) → List (List Char) → List (List Char)
  | _, [] => []
  | done, line :: lines =>
    Line.respelled 1 line
        (tokens.filter fun token => token.line == done + 1 && token.isReplaced chosen) ::
      Text.respelled chosen tokens (done + 1) lines

/-- The source with the signs of the chosen tokens in the places of their spellings. -/
def Source.respelled (chosen : Token → Bool) (tokens : List Token) (source : String) : String :=
  String.ofList (Text.unlines (Text.respelled chosen tokens 0 (Text.lines source.toList)))

/-- Tokens without another spelling stay. -/
theorem Token.respelled_of_sign?_none {token : Token} (h : Symbol.sign? token.text = none)
    (chosen : Token → Bool) : token.respelled chosen = token := by
  rcases token.respelled_cases chosen with hsame | ⟨sign, hsign, -⟩
  · exact hsame
  · rw [h] at hsign
    cases hsign

private theorem Token.not_isReplaced_of_sign?_none {token : Token}
    (h : Symbol.sign? token.text = none)
    (chosen : Token → Bool) : token.isReplaced chosen = false := by
  rw [Token.isReplaced, h, Option.isSome_none, Bool.and_false]

/-- Tokens on earlier lines are not looked for. -/
theorem Text.respelled_append {chosen : Token → Bool} {earlier tokens : List Token} {done : Nat}
    (h : ∀ token ∈ earlier, token.line ≤ done) (lines : List (List Char)) :
    Text.respelled chosen (earlier ++ tokens) done lines =
      Text.respelled chosen tokens done lines := by
  induction lines generalizing done with
  | nil => rfl
  | cons line lines ih =>
    have hnone : (earlier.filter fun token =>
        token.line == done + 1 && token.isReplaced chosen) = [] := by
      rw [List.filter_eq_nil_iff]
      intro token htoken
      have := h token htoken
      simp only [Bool.and_eq_true, beq_iff_eq]
      omega
    rw [Text.respelled, Text.respelled, List.filter_append, hnone, List.nil_append,
      ih fun token htoken => Nat.le_succ_of_le (h token htoken)]

namespace Layout

variable {keywords : Keywords} {layout next : Layout} {chosen : Token → Bool} {number done : Nat}
  {line : List Char} {lines : List (List Char)} {added scanned tokens : List Token}
  {marks : List Lexeme}

private theorem sign?_newline : Symbol.sign? "\n" = none := by decide

private theorem sign?_empty : Symbol.sign? "" = none := by decide

/-- The marks in front of a line have no other spelling. -/
theorem Adds.marks_sign? (h : Adds keywords path layout number line marks scanned next) :
    ∀ mark ∈ marks, Symbol.sign? mark.text = none := by
  by_cases hdepth : layout.depth = 0
  · rcases enter_cases (h.outside hdepth) with ⟨-, rfl, -⟩ | ⟨closed, -, -, rfl⟩
    · rw [List.forall_mem_singleton]
      exact sign?_empty
    · intro mark hmark
      obtain ⟨_, -, rfl⟩ := List.mem_map.mp hmark
      exact sign?_empty
  · rw [(h.inside hdepth).1]
    simp

/-- Of the tokens that a line adds only those that stand in it are replaced. -/
theorem Adds.filter_isReplaced (h : Adds keywords path layout number line marks scanned next)
    (chosen : Token → Bool) :
    (marks.map (·.place number 1) ++
        (scanned ++ [Lexeme.newline.place number (line.length + 1)])).filter
          (Token.isReplaced chosen) =
      scanned.filter (Token.isReplaced chosen) := by
  have hmarks : (marks.map (·.place number 1)).filter (Token.isReplaced chosen) = [] := by
    rw [List.filter_eq_nil_iff]
    intro token htoken
    obtain ⟨mark, hmark, rfl⟩ := List.mem_map.mp htoken
    rw [Token.not_isReplaced_of_sign?_none (h.marks_sign? mark hmark)]
    exact Bool.false_ne_true
  have hnewline : (Lexeme.newline.place number (line.length + 1)).isReplaced chosen = false :=
    Token.not_isReplaced_of_sign?_none sign?_newline chosen
  rw [List.filter_append, List.filter_append, hmarks, List.nil_append, List.filter_cons, hnewline,
    if_neg Bool.false_ne_true, List.filter_nil, List.append_nil]

/-- A line of the same width with the same kinds of tokens does the same to the layout. -/
theorem Adds.of_kinds (h : Adds keywords path layout number line marks scanned next)
    {line' : List Char} {scanned' : List Token}
    (hscan : Line.scan keywords path number line' = .ok scanned')
    (hkinds : scanned'.map (·.kind) = scanned.map (·.kind))
    (hwidth : Line.indentWidth line' = Line.indentWidth line) :
    Adds keywords path layout number line' marks scanned' next := by
  refine ⟨hscan, ?_, ?_, h.inside, fun hdepth => by rw [hwidth, h.outside hdepth]⟩
  · rintro rfl
    exact h.nonempty (List.map_eq_nil_iff.mp hkinds.symm)
  · rw [h.depth, Line.depthAfter_eq_foldl_kinds, Line.depthAfter_eq_foldl_kinds, hkinds]

/-- **One line.** A line with signs in the places of its chosen tokens leaves the layout in the same
state and adds the same tokens, up to columns and the chosen spellings. -/
theorem addLine_respelled
    (h : layout.addLine keywords path number (Text.trimReturns line) = .ok (added, next))
    (hline : '\n' ∉ line) (chosen : Token → Bool) :
    ∃ line' added', Line.respelled 1 line (added.filter (Token.isReplaced chosen)) = line' ∧
      '\n' ∉ line' ∧
      layout.addLine keywords path number (Text.trimReturns line') = .ok (added', next) ∧
      added'.map (Token.moved Position.lineOnly) =
        added.map fun token => (token.respelled chosen).moved Position.lineOnly := by
  rcases addLine_cases h with ⟨-, rfl, -⟩ | ⟨marks, scanned, hadds, rfl⟩
  · exact ⟨line, [], rfl, hline, h, rfl⟩
  obtain ⟨count, hreturns⟩ := Text.exists_trimReturns_append line
  obtain ⟨text', hreplaced, hrespelling⟩ :=
    (Line.scanAt_eq_ok_iff.mp hadds.scan).respelling chosen (List.replicate count '\r')
  obtain ⟨scanned', htiled, hsame⟩ := hrespelling.tiled 1
  have hfixed : Text.trimReturns (Text.trimReturns line) = Text.trimReturns line := by
    rw [← Text.trimReturns_append_returns (Text.trimReturns line) count, ← hreturns]
  have htrimmed : Text.trimReturns (text' ++ List.replicate count '\r') = text' := by
    rw [Text.trimReturns_append_returns, hrespelling.trimReturns_eq hfixed]
  have hkinds : scanned'.map (·.kind) = scanned.map (·.kind) := by
    simpa [Function.comp_def] using congrArg (List.map fun token : Token => token.kind) hsame
  have hadds' := hadds.of_kinds htiled.scanAt_eq hkinds (hrespelling.indentWidth_eq hadds.nonempty)
  refine ⟨text' ++ List.replicate count '\r', _, ?_, ?_, htrimmed ▸ hadds'.addLine, ?_⟩
  · rw [hadds.filter_isReplaced, ← hreplaced, ← hreturns]
  · rw [hreturns, List.mem_append, not_or] at hline
    rw [List.mem_append, not_or]
    exact ⟨hrespelling.newline_notMem hline.1, hline.2⟩
  · have hmarks : ∀ mark ∈ marks, ((mark.place number 1).respelled chosen) = mark.place number 1 :=
      fun mark hmark => Token.respelled_of_sign?_none (hadds.marks_sign? mark hmark) chosen
    have hnewline : ∀ column, (Lexeme.newline.place number column).respelled chosen =
        Lexeme.newline.place number column :=
      fun column => Token.respelled_of_sign?_none sign?_newline chosen
    have hmarksSame : (marks.map (·.place number 1)).map (Token.moved Position.lineOnly) =
        (marks.map (·.place number 1)).map fun token =>
          (token.respelled chosen).moved Position.lineOnly := by
      rw [List.map_map, List.map_map]
      refine List.map_congr_left fun mark hmark => ?_
      rw [Function.comp_apply, Function.comp_apply, hmarks mark hmark]
    rw [List.map_append, List.map_append, List.map_append, List.map_append, hmarksSame, hsame,
      List.map_singleton, List.map_singleton, hnewline]
    rfl

/-- The tokens that a line adds stand in it. -/
theorem line_of_mem_addLine
    (h : layout.addLine keywords path number (Text.trimReturns line) = .ok (added, next)) :
    ∀ token ∈ added, token.line = number := by
  rcases addLine_cases h with ⟨-, rfl, -⟩ | ⟨marks, scanned, hadds, rfl⟩
  · simp
  · exact hadds.line_eq

/-- The marks behind the last line have no other spelling. -/
theorem close_sign? : ∀ token ∈ layout.close done, Symbol.sign? token.text = none := by
  rw [close_eq_dedents, List.forall_mem_append, List.forall_mem_singleton]
  refine ⟨fun token htoken => ?_, sign?_empty⟩
  obtain ⟨_, -, rfl⟩ := List.mem_map.mp htoken
  exact sign?_empty

/-- A token that a line adds and that has another spelling is of a kind with two spellings. -/
theorem signKind_of_mem_addLine
    (h : layout.addLine keywords path number (Text.trimReturns line) = .ok (added, next)) :
    ∀ token ∈ added, ∀ sign, Symbol.sign? token.text = some sign →
      token.kind ∈ Symbol.signKinds := by
  rcases addLine_cases h with ⟨-, rfl, -⟩ | ⟨marks, scanned, hadds, rfl⟩
  · simp
  rw [List.forall_mem_append, List.forall_mem_append, List.forall_mem_singleton]
  refine ⟨fun token htoken sign hsign => ?_, fun token htoken sign hsign => ?_,
    fun sign hsign => ?_⟩
  · obtain ⟨mark, hmark, rfl⟩ := List.mem_map.mp htoken
    cases (hadds.marks_sign? mark hmark).symm.trans hsign
  · obtain ⟨-, _, _, hlead⟩ := Line.lead_of_mem_scan hadds.scan token htoken
    exact ((Lead.ends_of_ofText hlead).sign hsign).1
  · cases sign?_newline.symm.trans hsign

/-- The tokens of the remaining lines that have another spelling stand in these lines, and they are
of a kind with two spellings. -/
theorem of_sign? (h : layout.addLines keywords path done lines = .ok tokens) :
    ∀ token ∈ tokens, ∀ sign, Symbol.sign? token.text = some sign →
      done < token.line ∧ token.kind ∈ Symbol.signKinds := by
  induction lines generalizing layout done tokens with
  | nil =>
    cases h
    intro token htoken sign hsign
    cases (close_sign? token htoken).symm.trans hsign
  | cons line lines ih =>
    obtain ⟨added, next, more, hadd, hmore, rfl⟩ := addLines_cons h
    rw [List.forall_mem_append]
    refine ⟨fun token htoken sign hsign => ?_, fun token htoken sign hsign => ?_⟩
    · rw [line_of_mem_addLine hadd token htoken]
      exact ⟨Nat.lt_succ_self done, signKind_of_mem_addLine hadd token htoken sign hsign⟩
    · obtain ⟨hline, hkind⟩ := ih hmore token htoken sign hsign
      exact ⟨Nat.lt_of_succ_lt hline, hkind⟩

/-- The first of the remaining lines is respelled by the tokens that it adds. -/
theorem filter_first
    (hadd : layout.addLine keywords path (done + 1) (Text.trimReturns line) = .ok (added, next))
    {more : List Token} (hmore : next.addLines keywords path (done + 1) lines = .ok more) :
    ((added ++ more).filter fun token => token.line == done + 1 && token.isReplaced chosen) =
      added.filter (Token.isReplaced chosen) := by
  have hlater : (more.filter fun token =>
      token.line == done + 1 && token.isReplaced chosen) = [] := by
    rw [List.filter_eq_nil_iff]
    intro token htoken hfound
    rw [Token.isReplaced, Bool.and_eq_true, Bool.and_eq_true, beq_iff_eq] at hfound
    obtain ⟨hline, -, hsign⟩ := hfound
    obtain ⟨sign, hsign⟩ := Option.isSome_iff_exists.mp hsign
    have := (of_sign? hmore token htoken sign hsign).1
    omega
  rw [List.filter_append, hlater, List.append_nil]
  refine List.filter_congr fun token htoken => ?_
  rw [line_of_mem_addLine hadd token htoken, beq_self_eq_true, Bool.true_and]

/-- **Two runs side by side.** The lines with signs in the places of the chosen tokens give the same
tokens, up to columns and the chosen spellings. -/
theorem addLines_respelled (h : layout.addLines keywords path done lines = .ok tokens)
    (hlines : ∀ line ∈ lines, '\n' ∉ line) (chosen : Token → Bool) :
    ∃ tokens', layout.addLines keywords path done (Text.respelled chosen tokens done lines) =
        .ok tokens' ∧
      (∀ line ∈ Text.respelled chosen tokens done lines, '\n' ∉ line) ∧
      tokens'.map (Token.moved Position.lineOnly) =
        tokens.map fun token => (token.respelled chosen).moved Position.lineOnly := by
  induction lines generalizing layout done tokens with
  | nil =>
    refine ⟨tokens, h, by simp [Text.respelled], ?_⟩
    cases h
    refine List.map_congr_left fun token htoken => ?_
    rw [Token.respelled_of_sign?_none (close_sign? token htoken)]
  | cons line lines ih =>
    obtain ⟨added, next, more, hadd, hmore, rfl⟩ := addLines_cons h
    rw [List.forall_mem_cons] at hlines
    obtain ⟨line', added', hline', hnewline, hadd', haddedSame⟩ :=
      addLine_respelled hadd hlines.1 chosen
    obtain ⟨more', hmore', hnewlines, hmoreSame⟩ := ih hmore hlines.2
    have hearlier : ∀ token ∈ added, token.line ≤ done + 1 :=
      fun token htoken => (line_of_mem_addLine hadd token htoken).le
    rw [Text.respelled, filter_first hadd hmore, hline', Text.respelled_append hearlier]
    refine ⟨added' ++ more', ?_, ?_, ?_⟩
    · rw [addLines, hadd']
      simp only [hmore', Except.map]
    · rw [List.forall_mem_cons]
      exact ⟨hnewline, hnewlines⟩
    · rw [List.map_append, List.map_append, haddedSame, hmoreSame]

/-- **Signs may stand for ASCII.** A source with signs in the places of some of its tokens has the
same tokens, up to columns and the replaced spellings. -/
theorem tokenize_respelled {source : String} (h : tokenize keywords source path = .ok tokens)
    (chosen : Token → Bool) :
    ∃ tokens', tokenize keywords (Source.respelled chosen tokens source) path = .ok tokens' ∧
      tokens'.map (Token.moved Position.lineOnly) =
        tokens.map fun token => (token.respelled chosen).moved Position.lineOnly := by
  obtain ⟨tokens', htokens', hnewlines, hsame⟩ :=
    addLines_respelled h (fun line hline => Text.newline_notMem_of_mem_lines hline) chosen
  have hne : Text.respelled chosen tokens 0 (Text.lines source.toList) ≠ [] := by
    obtain ⟨line, lines, hlines⟩ := List.exists_cons_of_ne_nil (Text.lines_ne_nil source.toList)
    rw [hlines, Text.respelled]
    exact List.cons_ne_nil _ _
  refine ⟨tokens', ?_, hsame⟩
  rw [tokenize, Source.respelled, String.toList_ofList, Text.lines_unlines hne hnewlines, htokens']

end Layout

end Slick
