/-!
# Lines of a text

A text is cut at its line feeds only. Carriage returns at the end of a line belong to the
line break and are dropped from the line; elsewhere they are ordinary characters.
Main statements: lines that are joined are cut apart again (`lines_unlines`), and a text with a
line feed is cut on both sides of it on its own (`lines_append_newline`).
-/

namespace Slick.Text

/-- The pieces between the line feeds. A text without a line feed is one line. -/
def lines : List Char → List (List Char)
  | [] => [[]]
  | c :: rest =>
    if c = '\n' then [] :: lines rest
    else
      match lines rest with
      | [] => [[c]]
      | line :: more => (c :: line) :: more

/-- The lines joined by single line feeds. -/
def unlines : List (List Char) → List Char
  | [] => []
  | [line] => line
  | line :: next :: more => line ++ '\n' :: unlines (next :: more)

/-- A line without the carriage returns at its end. -/
def trimReturns : List Char → List Char
  | [] => []
  | c :: rest =>
    match trimReturns rest with
    | [] => if c = '\r' then [] else [c]
    | kept => c :: kept

/-- Every line break written as one line feed: a carriage return stands for a break, alone or
together with the line feed behind it. -/
def universalNewlines : List Char → List Char
  | [] => []
  | '\r' :: '\n' :: rest => '\n' :: universalNewlines rest
  | c :: rest => (if c = '\r' then '\n' else c) :: universalNewlines rest

/-- Every text has a line. -/
theorem lines_ne_nil (text : List Char) : lines text ≠ [] := by
  cases text with
  | nil => simp [lines]
  | cons c rest =>
    simp only [lines]
    split
    · simp
    · split <;> simp

/-- A line feed separates the lines before it from those behind it. -/
theorem lines_append_newline (before after : List Char) :
    lines (before ++ '\n' :: after) = lines before ++ lines after := by
  induction before with
  | nil => simp [lines]
  | cons c rest ih =>
    simp only [List.cons_append, lines, ih]
    split
    · rfl
    · cases hlines : lines rest with
      | nil => exact absurd hlines (lines_ne_nil rest)
      | cons line more => rfl

/-- No line holds a line feed. -/
theorem newline_notMem_of_mem_lines {text line : List Char} (h : line ∈ lines text) :
    '\n' ∉ line := by
  induction text generalizing line with
  | nil => simp [lines] at h; simp [h]
  | cons c rest ih =>
    simp only [lines] at h
    split at h
    · obtain rfl | h := List.mem_cons.mp h
      · simp
      · exact ih h
    · next hc =>
      cases hlines : lines rest with
      | nil => exact absurd hlines (lines_ne_nil rest)
      | cons first more =>
        rw [hlines] at h ih
        obtain rfl | h := List.mem_cons.mp h
        · have : '\n' ∉ first := ih (by simp)
          simp only [List.mem_cons, not_or]
          exact ⟨fun he => hc he.symm, this⟩
        · exact ih (List.mem_cons_of_mem _ h)

/-- A text without line feeds is one line. -/
theorem lines_of_newline_notMem {line : List Char} (h : '\n' ∉ line) : lines line = [line] := by
  induction line with
  | nil => rfl
  | cons c rest ih =>
    simp only [List.mem_cons, not_or] at h
    simp [lines, ih h.2, Ne.symm h.1]

/-- Lines that are joined are cut apart again. -/
theorem lines_unlines {lines : List (List Char)} (hne : lines ≠ [])
    (h : ∀ line ∈ lines, '\n' ∉ line) : Text.lines (unlines lines) = lines := by
  induction lines with
  | nil => exact absurd rfl hne
  | cons line more ih =>
    rw [List.forall_mem_cons] at h
    cases more with
    | nil => exact lines_of_newline_notMem h.1
    | cons next more =>
      rw [unlines, lines_append_newline, lines_of_newline_notMem h.1,
        ih (List.cons_ne_nil next more) h.2, List.singleton_append]

/-- Lines that are closed by line feeds are cut apart again, with nothing behind the last one. -/
theorem lines_flatMap_newline {lines : List (List Char)} (h : ∀ line ∈ lines, '\n' ∉ line) :
    Text.lines (lines.flatMap (· ++ ['\n'])) = lines ++ [[]] := by
  induction lines with
  | nil => rfl
  | cons line more ih =>
    rw [List.forall_mem_cons] at h
    rw [List.flatMap_cons, List.append_assoc, List.singleton_append, lines_append_newline,
      lines_of_newline_notMem h.1, ih h.2, List.singleton_append, List.cons_append]

/-- A line that does not end with a carriage return is kept as it is. -/
theorem trimReturns_of_last {line : List Char} (h : line.getLast? ≠ some '\r') :
    trimReturns line = line := by
  induction line with
  | nil => rfl
  | cons c rest ih =>
    cases rest with
    | nil =>
      have hc : c ≠ '\r' := by simpa using h
      simp [trimReturns, hc]
    | cons d more =>
      have hrest : (d :: more).getLast? ≠ some '\r' := by
        rwa [List.getLast?_cons_cons] at h
      rw [trimReturns, ih hrest]

/-- A carriage return behind a line is trimmed off. -/
theorem trimReturns_append_return (line : List Char) :
    trimReturns (line ++ ['\r']) = trimReturns line := by
  induction line with
  | nil => rfl
  | cons c rest ih => simp only [List.cons_append, trimReturns, ih]

/-- What is trimmed off a line are carriage returns at its end. -/
theorem exists_trimReturns_append (line : List Char) :
    ∃ count, line = trimReturns line ++ List.replicate count '\r' := by
  induction line with
  | nil => exact ⟨0, rfl⟩
  | cons c rest ih =>
    obtain ⟨count, hrest⟩ := ih
    cases hkept : trimReturns rest with
    | nil =>
      rw [hkept, List.nil_append] at hrest
      rw [trimReturns, hkept]
      by_cases hc : c = '\r'
      · exact ⟨count + 1, by rw [if_pos hc, List.nil_append, List.replicate_succ, ← hrest, hc]⟩
      · exact ⟨count, by rw [if_neg hc, ← hrest, List.singleton_append]⟩
    | cons d kept =>
      rw [hkept] at hrest
      exact ⟨count, by rw [trimReturns, hkept, List.cons_append, ← hrest]⟩

end Slick.Text
