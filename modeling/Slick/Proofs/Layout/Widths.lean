import Mathlib.Data.List.Basic
import Slick.Proofs.Layout.Marks

/-!
# Levels and widths of lines

Of the lines that start where no bracket is open, those of one block have one width, and a deeper
block is wider than the lines around it. The layout keeps the widths of the open levels only, so a
line is compared through the level it stands at (`Tracks`) for as long as that level is open. Main
statements: `Stepped.append` and `Tracks.append`, which add one more line.
-/

namespace Slick.Layout

/-- The token is the first of its line that is no mark. -/
def Starts (front : List Token) (token : Token) : Prop :=
  token.kind.isLayout = false ∧
    ∀ early ∈ front, early.kind.isLayout = false → early.line ≠ token.line

instance (front : List Token) (token : Token) : Decidable (Starts front token) :=
  inferInstanceAs (Decidable (_ ∧ _))

/-- The lines that have tokens and start where no bracket is open, in order, each with its level and
its width. The width is given by the number of the line, and a line is found by the places of its
tokens. -/
def openLines (width : Nat → Nat) : List Token → List Token → List (Int × Nat)
  | _, [] => []
  | front, token :: rest =>
    if Starts front token ∧ Line.depthAfter 0 front = 0 then
      (level front, width token.line) :: openLines width (front ++ [token]) rest
    else openLines width (front ++ [token]) rest

/-- The lines of two lists one behind the other. -/
theorem openLines_append (width : Nat → Nat) (front tokens more : List Token) :
    openLines width front (tokens ++ more) =
      openLines width front tokens ++ openLines width (front ++ tokens) more := by
  induction tokens generalizing front with
  | nil => simp [openLines]
  | cons token tokens ih =>
    simp only [List.cons_append, openLines, ih, List.append_assoc, List.nil_append]
    split <;> rfl

/-- No line starts with a mark. -/
theorem openLines_marks (width : Nat → Nat) {front tokens : List Token}
    (h : ∀ token ∈ tokens, token.kind.isLayout = true) : openLines width front tokens = [] := by
  induction tokens generalizing front with
  | nil => rfl
  | cons token tokens ih =>
    rw [openLines, if_neg (by simp [Starts, h token (by simp)])]
    exact ih fun t ht => h t (List.mem_cons_of_mem _ ht)

/-- No line starts behind a token of its own. -/
theorem openLines_inside (width : Nat → Nat) {front tokens : List Token} {first : Token}
    (hfirst : first ∈ front) (hplain : first.kind.isLayout = false)
    (h : ∀ token ∈ tokens, token.line = first.line) : openLines width front tokens = [] := by
  induction tokens generalizing front with
  | nil => rfl
  | cons token tokens ih =>
    have hnot : ¬Starts front token :=
      fun hstarts => hstarts.2 first hfirst hplain (h token (by simp)).symm
    rw [openLines, if_neg (fun hstart => hnot hstart.1)]
    exact ih (List.mem_append_left _ hfirst) fun t ht => h t (List.mem_cons_of_mem _ ht)

/-- The tokens of a line make one line, if no bracket is open in front of them. -/
theorem openLines_line (width : Nat → Nat) {front tokens : List Token} {number : Nat}
    (hne : tokens ≠ [])
    (htokens : ∀ token ∈ tokens, token.line = number ∧ token.kind.isLayout = false)
    (hfront : ∀ early ∈ front, early.kind.isLayout = false → early.line ≠ number) :
    openLines width front tokens =
      if Line.depthAfter 0 front = 0 then [(level front, width number)] else [] := by
  obtain ⟨first, more, rfl⟩ := List.exists_cons_of_ne_nil hne
  obtain ⟨hline, hplain⟩ := htokens first (by simp)
  have hstarts : Starts front first := ⟨hplain, by rwa [hline]⟩
  have hmore : openLines width (front ++ [first]) more = [] := by
    refine openLines_inside width (List.mem_append_right _ List.mem_cons_self) hplain ?_
    intro token htoken
    rw [(htokens token (List.mem_cons_of_mem _ htoken)).1, hline]
  rw [openLines, hmore, hline]
  by_cases hdepth : Line.depthAfter 0 front = 0
  · rw [if_pos ⟨hstarts, hdepth⟩, if_pos hdepth]
  · rw [if_neg (fun h => hdepth h.2), if_neg hdepth]

/-- Lines of level zero have no width, lines of one block have one width, and a line in a deeper
block is wider than the lines around the block. -/
structure Stepped (lines : List (Int × Nat)) : Prop where
  level_zero : ∀ line ∈ lines, line.1 = 0 → line.2 = 0
  nested : ∀ before early between late after,
    lines = before ++ early :: (between ++ late :: after) →
    (∀ line ∈ between, early.1 ≤ line.1) →
    (early.1 = late.1 → early.2 = late.2) ∧ (early.1 < late.1 → early.2 < late.2)

/-- The width of the level at a height. -/
def widthAt (levels : List Nat) (height : Nat) : Nat :=
  innermost (levels.drop (levels.length - height))

private theorem widthAt_length (levels : List Nat) :
    widthAt levels levels.length = innermost levels := by
  rw [widthAt, Nat.sub_self, List.drop_zero]

/-- Levels that are opened or closed further inside leave the width of a level as it is. -/
theorem widthAt_append (closed kept : List Nat) {height : Nat} (h : height ≤ kept.length) :
    widthAt (closed ++ kept) height = widthAt kept height := by
  unfold widthAt
  have hcount : (closed ++ kept).length - height = closed.length + (kept.length - height) := by
    rw [List.length_append]
    omega
  rw [hcount, List.drop_append, List.drop_eq_nil_of_le (by omega), Nat.add_sub_cancel_left,
    List.nil_append]

/-- The levels are wider and wider from the outside inwards. -/
structure Widening (levels : List Nat) : Prop where
  decreasing : levels.Pairwise (· > ·)
  pos : ∀ width ∈ levels, 0 < width

/-- A level wider than the innermost one keeps the levels widening. -/
theorem Widening.cons {levels : List Nat} (h : Widening levels) {w : Nat}
    (hw : innermost levels < w) : Widening (w :: levels) := by
  have hall : ∀ v ∈ levels, v < w := by
    intro v hv
    cases levels with
    | nil => cases hv
    | cons inner outer =>
      rw [innermost, List.headD_cons] at hw
      rcases List.mem_cons.mp hv with rfl | hv
      · exact hw
      · have := (List.pairwise_cons.mp h.decreasing).1 v hv
        omega
  refine ⟨List.pairwise_cons.mpr ⟨hall, h.decreasing⟩, ?_⟩
  intro v hv
  rcases List.mem_cons.mp hv with rfl | hv
  · omega
  · exact h.pos v hv

/-- Levels keep widening when some are closed from the inside. -/
theorem Widening.of_append {closed kept : List Nat} (h : Widening (closed ++ kept)) :
    Widening kept :=
  ⟨(List.pairwise_append.mp h.decreasing).2.1, fun w hw => h.pos w (List.mem_append_right _ hw)⟩

/-- A level is narrower than the levels inside it. -/
theorem Widening.widthAt_lt {levels : List Nat} (h : Widening levels) {height : Nat}
    (hheight : height < levels.length) : widthAt levels height < innermost levels := by
  obtain ⟨width, outer, rfl⟩ := List.exists_cons_of_ne_nil (List.ne_nil_of_length_pos
    (Nat.zero_lt_of_lt hheight))
  have hheight : height ≤ outer.length := by
    rw [List.length_cons] at hheight
    omega
  have houter : widthAt (width :: outer) height = widthAt outer height :=
    widthAt_append [width] outer hheight
  rw [houter, widthAt, innermost, innermost, List.headD_cons]
  cases hdrop : outer.drop (outer.length - height) with
  | nil => exact h.pos width (by simp)
  | cons next more =>
    have hmem : next ∈ outer := by
      refine List.mem_of_mem_drop (i := outer.length - height) ?_
      rw [hdrop]
      simp
    exact (List.pairwise_cons.mp h.decreasing).1 next hmem

/-- Each line that no later line has left behind has the width of its level. -/
def Tracks (levels : List Nat) (lines : List (Int × Nat)) : Prop :=
  ∀ before line after, lines = before ++ line :: after → (∀ later ∈ after, line.1 ≤ later.1) →
    ∃ height : Nat,
      height ≤ levels.length ∧ line.1 = (height : Int) ∧ line.2 = widthAt levels height

/-- What the marks of a line do to the levels: they stay widening, and those that are open before
and behind keep their widths. -/
structure Turns (levels levels' : List Nat) : Prop where
  widening : Widening levels'
  keep : ∀ height, height ≤ levels.length → height ≤ levels'.length →
    widthAt levels' height = widthAt levels height

variable {lines : List (Int × Nat)} {levels levels' : List Nat} {new : Int × Nat}

/-- A line that can be compared with the next one still has the width of its level. -/
theorem Tracks.turn (h : Tracks levels lines) (hturns : Turns levels levels')
    {before between : List (Int × Nat)} {early : Int × Nat}
    (hlines : lines = before ++ early :: between) (hbetween : ∀ line ∈ between, early.1 ≤ line.1)
    (hle : early.1 ≤ levels'.length) :
    ∃ height : Nat, height ≤ levels'.length ∧ early.1 = (height : Int) ∧
      early.2 = widthAt levels' height := by
  obtain ⟨height, hheight, hlevel, hwidth⟩ := h before early between hlines hbetween
  have hheight' : height ≤ levels'.length := by omega
  exact ⟨height, hheight', hlevel, by rw [hwidth, hturns.keep height hheight hheight']⟩

/-- The next line is at its own level, and it leaves behind the lines at deeper levels. -/
theorem Tracks.append (h : Tracks levels lines) (hturns : Turns levels levels')
    (hlevel : new.1 = (levels'.length : Int)) (hwidth : new.2 = innermost levels') :
    Tracks levels' (lines ++ [new]) := by
  intro before line after hlines hafter
  rcases List.eq_nil_or_concat' after with rfl | ⟨after, final, rfl⟩
  · obtain ⟨-, rfl⟩ := List.append_singleton_inj.mp hlines
    exact ⟨levels'.length, Nat.le_refl _, hlevel, by rw [hwidth, widthAt_length]⟩
  · have hend : lines ++ [new] = (before ++ line :: after) ++ [final] := by simpa using hlines
    obtain ⟨hfront, rfl⟩ := List.append_singleton_inj.mp hend
    have hle : line.1 ≤ levels'.length := by
      rw [← hlevel]
      exact hafter new (by simp)
    exact h.turn hturns hfront (fun later hlater => hafter later (by simp [hlater])) hle

/-- The next line keeps the steps, if it opens or closes levels at the inner end only. -/
theorem Stepped.append (h : Stepped lines) (htracks : Tracks levels lines)
    (hturns : Turns levels levels') (hlevel : new.1 = (levels'.length : Int))
    (hwidth : new.2 = innermost levels') : Stepped (lines ++ [new]) := by
  refine ⟨?_, ?_⟩
  · intro line hline hzero
    rcases List.mem_append.mp hline with hline | hline
    · exact h.level_zero line hline hzero
    · obtain rfl : line = new := by simpa using hline
      have hnil : levels' = [] := List.eq_nil_of_length_eq_zero (by omega)
      rw [hwidth, hnil]
      rfl
  · intro before early between late after hlines hbetween
    rcases List.eq_nil_or_concat' after with rfl | ⟨after, final, rfl⟩
    · have hend : lines ++ [new] = (before ++ early :: between) ++ [late] := by simpa using hlines
      obtain ⟨hfront, rfl⟩ := List.append_singleton_inj.mp hend
      constructor
      · intro heq
        obtain ⟨height, -, hheight, hearly⟩ :=
          htracks.turn hturns hfront hbetween (by omega)
        obtain rfl : height = levels'.length := by omega
        rw [hearly, widthAt_length, hwidth]
      · intro hlt
        obtain ⟨height, -, hheight, hearly⟩ :=
          htracks.turn hturns hfront hbetween (by omega)
        rw [hearly, hwidth]
        exact hturns.widening.widthAt_lt (by omega)
    · have hend : lines ++ [new] = (before ++ early :: (between ++ late :: after)) ++ [final] := by
        simpa using hlines
      have hinside := (List.append_singleton_inj.mp hend).1
      exact h.nested before early between late after hinside hbetween

end Slick.Layout
