import Slick.Line
import Slick.Proofs.Expr.Places

/-!
# Lines at other places

What a line holds does not depend on where it stands: on another line of the source, or further to
the right, the same lexemes are found and the same flaw, at places that are moved along. The path of
the source shows in the flaw alone. Main statement: `Line.scanAt_moved`.
-/

namespace Slick

variable {path path' : Option String}

/-- The flaw at another place. -/
def Flaw.moved (move : Move) (flaw : Flaw) : Flaw :=
  ⟨flaw.toLocation.moved move, flaw.cause⟩

/-- What a reading comes to at another place. -/
def Line.movedResult (move : Move) :
    Except Flaw (List Token) → Except Flaw (List Token)
  | .ok tokens => .ok (tokens.map (Token.moved move))
  | .error flaw => .error (flaw.moved move)

namespace Line

private theorem moved_place {move : Move} {line line' column column' : Nat}
    (hmove : move.place ⟨line, column⟩ = ⟨line', column'⟩) (lexeme : Lexeme) :
    (lexeme.place line column).moved move = lexeme.place line' column' := by
  have hplace : (lexeme.place line column).toPosition = ⟨line, column⟩ := rfl
  rw [Token.moved, hplace, hmove]
  rfl

private theorem scanFrom_moved (keywords : Keywords) {move : Move} {line line' shift : Nat}
    (hpath : move.path path = path')
    (hmove : ∀ column, move.place ⟨line, column⟩ = ⟨line', column + shift⟩) (fuel column : Nat)
    (text : List Char) :
    scanFrom keywords path' line' fuel (column + shift) text =
      movedResult move (scanFrom keywords path line fuel column text) := by
  induction fuel generalizing column text with
  | zero => rfl
  | succ fuel ih =>
    rw [scanFrom, scanFrom]
    cases Lead.ofText keywords text with
    | finished => rfl
    | blank rest =>
      simp only
      rw [← ih, Nat.add_right_comm]
    | lexeme lexeme rest =>
      simp only
      rw [Nat.add_right_comm, ih]
      cases scanFrom keywords path line fuel (column + lexeme.text.length) rest with
      | error flaw => rfl
      | ok tokens =>
        simp only [movedResult, Except.map, List.map_cons, moved_place (hmove column)]
    | flaw cause offset =>
      simp only [movedResult, Flaw.moved, Location.moved, hmove, hpath, Nat.add_right_comm]

/-- A text that stands at another place holds the same lexemes, or the same flaw, moved along. -/
theorem scanAt_moved (keywords : Keywords) (move : Move) {line line' shift : Nat}
    (hpath : move.path path = path')
    (hmove : ∀ column, move.place ⟨line, column⟩ = ⟨line', column + shift⟩) (column : Nat)
    (text : List Char) :
    scanAt keywords path' line' (column + shift) text =
      movedResult move (scanAt keywords path line column text) :=
  scanFrom_moved keywords hpath hmove text.length column text

/-- A line holds the same on another line of a source with another path. -/
theorem scan_moved (keywords : Keywords) (move : Move) {number number' : Nat}
    (hpath : move.path path = path')
    (hmove : ∀ column, move.place ⟨number, column⟩ = ⟨number', column⟩) (text : List Char) :
    scan keywords path' number' text = movedResult move (scan keywords path number text) := by
  have hshift : ∀ column, move.place ⟨number, column⟩ = ⟨number', column + 0⟩ := hmove
  exact scanAt_moved keywords move hpath hshift 1 text

/-- The number of open brackets behind some tokens depends on their kinds alone. -/
theorem depthAfter_eq_foldl_kinds (depth : Nat) (tokens : List Token) :
    depthAfter depth tokens = (tokens.map (·.kind)).foldl depthStep depth := by
  rw [depthAfter, List.foldl_map]

/-- Places do not count for the depth. -/
theorem depthAfter_moved (move : Move) (depth : Nat) (tokens : List Token) :
    depthAfter depth (tokens.map (Token.moved move)) = depthAfter depth tokens := by
  rw [depthAfter, List.foldl_map]
  rfl

end Line

end Slick
