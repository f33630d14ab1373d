import Slick.Layout
import Slick.Proofs.Line.Places

/-!
# Lines under another path

A source has the same tokens under all paths. If it has none, its flaw has the same place and the
same cause, and the path under which the source is read. Main statements: `tokenize_path` and
`path_of_tokenize_error`.
-/

namespace Slick

namespace Layout

variable {keywords : Keywords}

/-- Under another path a line adds the same tokens or has the same flaw. -/
theorem addLine_path (layout : Layout) (path path' : Option String) (number : Nat)
    (line : List Char) :
    layout.addLine keywords path' number line =
      (layout.addLine keywords path number line).mapError (Flaw.moved (.into path')) := by
  have hscan : Line.scan keywords path' number line =
      Line.movedResult (.into path') (Line.scan keywords path number line) :=
    Line.scan_moved keywords (.into path') rfl (fun _ => rfl) line
  simp only [addLine, hscan]
  cases Line.scan keywords path number line with
  | error flaw => rfl
  | ok tokens =>
    have hsame : tokens.map (Token.moved (.into path')) = tokens := List.map_id tokens
    rw [Line.movedResult, hsame]
    cases tokens with
    | nil => rfl
    | cons token tokens =>
      simp only
      split
      · cases enter layout.levels (Line.indentWidth line) <;> rfl
      · rfl

/-- Under another path lines come to the same tokens or the same flaw. -/
theorem addLines_path (layout : Layout) (path path' : Option String) (done : Nat)
    (lines : List (List Char)) :
    layout.addLines keywords path' done lines =
      (layout.addLines keywords path done lines).mapError (Flaw.moved (.into path')) := by
  induction lines generalizing layout done with
  | nil => rfl
  | cons line rest ih =>
    rw [addLines, addLines, addLine_path layout path path']
    cases layout.addLine keywords path (done + 1) (Text.trimReturns line) with
    | error flaw => rfl
    | ok added =>
      -- The line adds the same under both paths, so only the other lines can make a difference.
      change (added.2.addLines keywords path' (done + 1) rest).map (added.1 ++ ·) =
        ((added.2.addLines keywords path (done + 1) rest).map (added.1 ++ ·)).mapError _
      rw [ih]
      cases added.2.addLines keywords path (done + 1) rest <;> rfl

end Layout

variable {keywords : Keywords} {source : String}

/-- **Tokens do not depend on the path.** Under another path a source has the same tokens, or the
same flaw with the other path. -/
theorem tokenize_path (keywords : Keywords) (source : String) (path path' : Option String) :
    tokenize keywords source path' =
      (tokenize keywords source path).mapError (Flaw.moved (.into path')) :=
  Layout.addLines_path {} path path' 0 (Text.lines source.toList)

/-- The flaw of a source without tokens has the path of the source. -/
theorem path_of_tokenize_error {path : Option String} {flaw : Flaw}
    (h : tokenize keywords source path = .error flaw) : flaw.path = path := by
  have hsame := tokenize_path keywords source path path
  rw [h] at hsame
  exact congrArg (fun flaw => flaw.path) (Except.error.inj hsame)

end Slick
