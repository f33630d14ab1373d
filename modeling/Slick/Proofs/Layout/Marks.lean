import Mathlib.Data.List.Induction
import Slick.Layout

/-!
# Where marks of the layout may stand

The level of a place in a token list is the number of blocks that are open there. Whether a token
may stand at a place depends on the tokens in front of it: `Fits` says how, and `Everywhere` says it
of all tokens of a list.
-/

namespace Slick.Layout

/-- The level of the place behind the tokens: the number of blocks opened less those closed. -/
def level (tokens : List Token) : Int :=
  (tokens.countP (·.kind == .indent) : Int) - tokens.countP (·.kind == .dedent)

/-- The level starts at zero. -/
@[simp] theorem level_nil : level [] = 0 := rfl

/-- The levels of two lists add up. -/
@[simp] theorem level_append (tokens more : List Token) :
    level (tokens ++ more) = level tokens + level more := by
  simp only [level, List.countP_append]
  omega

/-- Only marks change the level. -/
theorem level_eq_zero {tokens : List Token}
    (h : ∀ token ∈ tokens, token.kind ≠ .indent ∧ token.kind ≠ .dedent) : level tokens = 0 := by
  have hindent : tokens.countP (·.kind == .indent) = 0 := by
    rw [List.countP_eq_zero]
    intro token htoken
    simpa using (h token htoken).1
  have hdedent : tokens.countP (·.kind == .dedent) = 0 := by
    rw [List.countP_eq_zero]
    intro token htoken
    simpa using (h token htoken).2
  rw [level, hindent, hdedent]
  rfl

/-- The start of a block opens one level. -/
theorem level_indent {token : Token} (h : token.kind = .indent) : level [token] = 1 := by
  simp [level, h]

private theorem level_dedent {token : Token} (h : token.kind = .dedent) : level [token] = -1 := by
  simp [level, h]

/-- Tokens with the kind of a mark for the end of a block close as many levels as there are of
them. -/
theorem level_dedents {marks : List Token} (h : ∀ token ∈ marks, token.kind = .dedent) :
    level marks = -marks.length := by
  induction marks with
  | nil => rfl
  | cons mark marks ih =>
    rw [← List.singleton_append, level_append, level_dedent (h mark (by simp)),
      ih fun token htoken => h token (List.mem_cons_of_mem _ htoken), List.length_append]
    simp only [List.length_singleton]
    omega

/-- A token that is not a mark is neither the start nor the end of a block. -/
theorem not_mark_of_plain {token : Token} (h : token.kind.isLayout = false) :
    token.kind ≠ .newline ∧ token.kind ≠ .indent ∧ token.kind ≠ .dedent ∧ token.kind ≠ .eof := by
  refine ⟨?_, ?_, ?_, ?_⟩ <;>
    · intro hkind
      rw [hkind] at h
      cases h

/-- The tokens of a line leave the level as it is. -/
theorem level_plain {tokens : List Token}
    (h : ∀ token ∈ tokens, token.kind.isLayout = false) : level tokens = 0 := by
  refine level_eq_zero fun token htoken => ?_
  obtain ⟨-, hindent, hdedent, -⟩ := not_mark_of_plain (h token htoken)
  exact ⟨hindent, hdedent⟩

/-- The depth behind two lists is counted through both. -/
theorem depthAfter_append (depth : Nat) (tokens more : List Token) :
    Line.depthAfter depth (tokens ++ more) =
      Line.depthAfter (Line.depthAfter depth tokens) more :=
  List.foldl_append

/-- Marks are not brackets. -/
theorem depthAfter_marks {tokens : List Token}
    (h : ∀ token ∈ tokens, token.kind.isLayout = true) (depth : Nat) :
    Line.depthAfter depth tokens = depth := by
  induction tokens with
  | nil => rfl
  | cons token tokens ih =>
    have hstep : Line.depthStep depth token.kind = depth := by
      have htoken := h token (by simp)
      unfold Line.depthStep
      cases hkind : token.kind <;> simp_all [Kind.isLayout, Kind.isOpener, Kind.isCloser]
    rw [Line.depthAfter, List.foldl_cons, hstep]
    exact ih fun token htoken => h token (List.mem_cons_of_mem _ htoken)

/-- The condition holds of every token together with the tokens in front of it. -/
def Everywhere (P : List Token → Token → Prop) : List Token → List Token → Prop
  | _, [] => True
  | front, token :: rest => P front token ∧ Everywhere P (front ++ [token]) rest

/-- A condition holds everywhere in two lists if it does in each, behind what is in front. -/
theorem everywhere_append {P : List Token → Token → Prop} {front tokens more : List Token} :
    Everywhere P front (tokens ++ more) ↔
      Everywhere P front tokens ∧ Everywhere P (front ++ tokens) more := by
  induction tokens generalizing front with
  | nil => simp [Everywhere]
  | cons token tokens ih =>
    simp only [List.cons_append, Everywhere, ih, and_assoc, List.append_assoc, List.nil_append]

/-- What holds everywhere holds at each place. -/
theorem Everywhere.at_split {P : List Token → Token → Prop} {front before after : List Token}
    {token : Token} (h : Everywhere P front (before ++ token :: after)) :
    P (front ++ before) token :=
  (everywhere_append.mp h).2.1

/-- Two conditions that hold everywhere hold together. -/
theorem everywhere_and {P Q : List Token → Token → Prop} {front tokens : List Token}
    (hP : Everywhere P front tokens) (hQ : Everywhere Q front tokens) :
    Everywhere (fun front token => P front token ∧ Q front token) front tokens := by
  induction tokens generalizing front with
  | nil => trivial
  | cons token tokens ih => exact ⟨⟨hP.1, hQ.1⟩, ih hP.2 hQ.2⟩

/-- A weaker condition holds everywhere too. -/
theorem Everywhere.mono {P Q : List Token → Token → Prop}
    (hPQ : ∀ front token, P front token → Q front token) {front tokens : List Token}
    (h : Everywhere P front tokens) : Everywhere Q front tokens := by
  induction tokens generalizing front with
  | nil => trivial
  | cons token tokens ih => exact ⟨hPQ _ _ h.1, ih h.2⟩

/-- The token may stand behind the tokens in front of it: the level has not gone below zero, a line
ends behind a token of its own, a block starts on a new line, blocks end at the start of a line, and
a block starts with a token of its own. -/
structure Fits (front : List Token) (token : Token) : Prop where
  level_nonneg : 0 ≤ level front
  newline : token.kind = .newline → ∃ last ∈ front.getLast?, last.kind.isLayout = false
  indent : token.kind = .indent → ∀ last ∈ front.getLast?, last.kind = .newline
  dedent : token.kind = .dedent →
    ∃ last ∈ front.getLast?, last.kind = .newline ∨ last.kind = .dedent
  behind_indent : ∀ last ∈ front.getLast?, last.kind = .indent → token.kind.isLayout = false

/-- The token is no mark for a block, or no bracket is open in front of it. -/
def Outside (front : List Token) (token : Token) : Prop :=
  token.kind = .indent ∨ token.kind = .dedent → Line.depthAfter 0 front = 0

/-- Tokens of a line may stand anywhere. -/
theorem fits_of_plain {front : List Token} {token : Token} (hlevel : 0 ≤ level front)
    (hplain : token.kind.isLayout = false) : Fits front token ∧ Outside front token := by
  obtain ⟨hnewline, hindent, hdedent, -⟩ := not_mark_of_plain hplain
  refine ⟨⟨hlevel, fun h => absurd h hnewline, fun h => absurd h hindent,
    fun h => absurd h hdedent, fun _ _ _ => hplain⟩, ?_⟩
  rintro (h | h)
  · exact absurd h hindent
  · exact absurd h hdedent

/-- The tokens of a line fit wherever the level is not below zero. -/
theorem everywhere_plain {tokens front : List Token} (hlevel : 0 ≤ level front)
    (hplain : ∀ token ∈ tokens, token.kind.isLayout = false) :
    Everywhere (fun front token => Fits front token ∧ Outside front token) front tokens := by
  induction tokens generalizing front with
  | nil => trivial
  | cons token tokens ih =>
    have htoken := hplain token (by simp)
    refine ⟨fits_of_plain hlevel htoken, ih ?_ fun t ht => hplain t (List.mem_cons_of_mem _ ht)⟩
    have hzero : level [token] = 0 := level_plain (by simpa using htoken)
    rw [level_append, hzero]
    omega

/-- As many blocks may end at the start of a line as are open. -/
theorem everywhere_dedents {marks front : List Token}
    (hmarks : ∀ token ∈ marks, token.kind = .dedent) (hlevel : (marks.length : Int) ≤ level front)
    (hlast : marks ≠ [] → ∃ last ∈ front.getLast?, last.kind = .newline ∨ last.kind = .dedent) :
    Everywhere Fits front marks := by
  induction marks generalizing front with
  | nil => trivial
  | cons mark marks ih =>
    have hmark : mark.kind = .dedent := hmarks mark (by simp)
    obtain ⟨last, hmem, hkind⟩ := hlast (by simp)
    rw [List.length_cons] at hlevel
    refine ⟨⟨by omega, ?_, ?_, fun _ => ⟨last, hmem, hkind⟩, ?_⟩, ih ?_ ?_ ?_⟩
    · intro h
      rw [hmark] at h
      cases h
    · intro h
      rw [hmark] at h
      cases h
    · intro last' hlast' hindent
      obtain rfl : last = last' := Option.mem_unique hmem hlast'
      rcases hkind with hkind | hkind <;>
        · rw [hkind] at hindent
          cases hindent
    · exact fun token htoken => hmarks token (List.mem_cons_of_mem _ htoken)
    · rw [level_append, level_dedent hmark]
      omega
    · exact fun _ => ⟨mark, by simp, .inr hmark⟩

/-- A line may end behind a token of its own. -/
theorem fits_newline {front : List Token} {last newline : Token} (hlevel : 0 ≤ level front)
    (hlast : last ∈ front.getLast?) (hplain : last.kind.isLayout = false)
    (hkind : newline.kind = .newline) : Fits front newline ∧ Outside front newline := by
  refine ⟨⟨hlevel, fun _ => ⟨last, hlast, hplain⟩, ?_, ?_, ?_⟩, ?_⟩
  · intro hwrong
    rw [hkind] at hwrong
    cases hwrong
  · intro hwrong
    rw [hkind] at hwrong
    cases hwrong
  · intro last' hlast' hindent
    obtain rfl : last = last' := Option.mem_unique hlast hlast'
    exact absurd hindent (not_mark_of_plain hplain).2.1
  · rintro (hwrong | hwrong) <;>
      · rw [hkind] at hwrong
        cases hwrong

/-- The end of the source may stand behind the end of a line or of a block. -/
theorem fits_eof {front : List Token} {eof : Token} (hlevel : 0 ≤ level front)
    (hlast : ∀ last ∈ front.getLast?, last.kind ≠ .indent) (heof : eof.kind = .eof) :
    Fits front eof := by
  refine ⟨hlevel, ?_, ?_, ?_, fun last hmem hindent => absurd hindent (hlast last hmem)⟩ <;>
    · intro hwrong
      rw [heof] at hwrong
      cases hwrong

/-- Blocks that end one after another end behind the end of a line. -/
theorem Everywhere.dedent_run {before after : List Token} {mark : Token}
    (h : Everywhere Fits [] (before ++ mark :: after)) (hmark : mark.kind = .dedent) :
    ∃ front newline run, before = front ++ newline :: run ∧ newline.kind = .newline ∧
      ∀ token ∈ run, token.kind = .dedent := by
  induction before using List.reverseRecOn generalizing mark after with
  | nil =>
    obtain ⟨last, hlast, -⟩ := h.at_split.dedent hmark
    cases hlast
  | append_singleton before last ih =>
    obtain ⟨last', hlast, hkind⟩ := h.at_split.dedent hmark
    obtain rfl : last = last' := by simpa using hlast
    rcases hkind with hnewline | hdedent
    · exact ⟨before, last, [], rfl, hnewline, by simp⟩
    · rw [List.append_assoc] at h
      obtain ⟨front, newline, run, rfl, hnewline, hrun⟩ := ih h hdedent
      refine ⟨front, newline, run ++ [last], by simp, hnewline, ?_⟩
      intro token htoken
      rcases List.mem_append.mp htoken with htoken | htoken
      · exact hrun token htoken
      · obtain rfl : token = last := by simpa using htoken
        exact hdedent

/-- A block starts with a token of its own, for the source does not end where one starts. -/
theorem Everywhere.indent_next {before after : List Token} {indent eof : Token}
    (h : Everywhere Fits [] (before ++ indent :: after)) (hindent : indent.kind = .indent)
    (heof : eof ∈ (before ++ indent :: after).getLast?) (hkind : eof.kind = .eof) :
    ∃ next ∈ after.head?, next.kind.isLayout = false := by
  cases after with
  | nil =>
    obtain rfl : indent = eof := by simpa using heof
    rw [hindent] at hkind
    cases hkind
  | cons next after =>
    have hnext := (everywhere_append.mp h).2.2.1
    exact ⟨next, rfl, hnext.behind_indent indent (by simp) hindent⟩

/-- The start and the end of a block do not stand side by side. -/
theorem Everywhere.marks_apart {before after : List Token} {first second : Token}
    (h : Everywhere Fits [] (before ++ first :: second :: after)) :
    ¬(first.kind = .indent ∧ second.kind = .dedent) ∧
      ¬(first.kind = .dedent ∧ second.kind = .indent) := by
  have hsecond := (everywhere_append.mp h).2.2.1
  constructor
  · rintro ⟨hfirst, hdedent⟩
    have hplain := hsecond.behind_indent first (by simp) hfirst
    rw [hdedent] at hplain
    cases hplain
  · rintro ⟨hfirst, hindent⟩
    have hnewline := hsecond.indent hindent first (by simp)
    rw [hfirst] at hnewline
    cases hnewline

end Slick.Layout
