import Mathlib.Tactic.Common

/-!
# Runs of characters

A run of characters, or of other items, that pass a test ends where the first one fails it. So a
text is cut into such a run and a rest in one way only. Main statement: `Text.run_unique`.
-/

namespace Slick.Text

variable {α : Type} {test : α → Bool}

/-- A run ends where the next item does not pass the test. -/
theorem takeWhile_run {run rest : List α} (hrun : ∀ c ∈ run, test c = true)
    (hrest : ∀ c ∈ rest.head?, test c = false) : (run ++ rest).takeWhile test = run := by
  rw [List.takeWhile_append_of_pos hrun]
  cases rest with
  | nil => simp
  | cons c rest => simp [hrest c (by simp)]

/-- Behind a run the next item does not pass the test. -/
theorem dropWhile_run {run rest : List α} (hrun : ∀ c ∈ run, test c = true)
    (hrest : ∀ c ∈ rest.head?, test c = false) : (run ++ rest).dropWhile test = rest := by
  rw [List.dropWhile_append_of_pos hrun]
  cases rest with
  | nil => simp
  | cons c rest => simp [hrest c (by simp)]

/-- A text is cut into a run and what follows it in one way. -/
theorem run_unique {run run' rest rest' : List α} (hrun : ∀ c ∈ run, test c = true)
    (hrun' : ∀ c ∈ run', test c = true) (hrest : ∀ c ∈ rest.head?, test c = false)
    (hrest' : ∀ c ∈ rest'.head?, test c = false) (h : run ++ rest = run' ++ rest') :
    run = run' ∧ rest = rest' := by
  constructor
  · rw [← takeWhile_run hrun hrest, h, takeWhile_run hrun' hrest']
  · rw [← dropWhile_run hrun hrest, h, dropWhile_run hrun' hrest']

end Slick.Text
