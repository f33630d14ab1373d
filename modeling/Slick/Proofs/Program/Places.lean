import Slick.Display
import Slick.Proofs.Expr.Places

/-!
# Programs at other places

Moving a program moves its declarations and everything in them. The display tree of a program shows
no places, so a moved program has the same tree. Main statement: `Stmt.displayAll_moved`.
-/

namespace Slick

/-- The declaration at another place. -/
def Stmt.moved (move : Move) : Stmt → Stmt
  | .binding name initializer location =>
    .binding (name.moved move) (initializer.moved move) (location.moved move)
  | .customType name subtypes location =>
    .customType (name.moved move) subtypes (location.moved move)
  | .unknown reason => .unknown reason

/-- The program at another place. -/
def Program.moved (move : Move) (program : Program) : Program :=
  ⟨program.statements.map (Stmt.moved move), move.path program.path⟩

/-- The declaration without any places. -/
def Stmt.unplaced : Stmt → Stmt := Stmt.moved .away

/-- A token at another place has the same spelling. -/
@[simp] theorem Token.text_moved (move : Move) (token : Token) :
    (token.moved move).text = token.text := rfl

private theorem Location.moved_none (location : Location) : location.moved .none = location := rfl

/-- A token that is not moved stays where it is. -/
@[simp] theorem Token.moved_none (token : Token) : token.moved .none = token := rfl

/-- Tokens that are not moved stay where they are. -/
theorem Token.map_moved_none (tokens : List Token) : tokens.map (Token.moved .none) = tokens := by
  simp only [show Token.moved .none = id from rfl, List.map_id]

private theorem Token.map_text_moved (move : Move) (tokens : List Token) :
    (tokens.map (Token.moved move)).map (·.text) = tokens.map (·.text) := by
  rw [List.map_map]
  rfl

mutual

private theorem Expr.moved_none : (e : Expr) → e.moved .none = e
  | .conditional c t e _ => by
    rw [Expr.moved, c.moved_none, t.moved_none, e.moved_none, Location.moved_none]
  | .binary a _ b _ => by
    rw [Expr.moved, a.moved_none, b.moved_none, Token.moved_none, Location.moved_none]
  | .grouping inner _ => by rw [Expr.moved, inner.moved_none, Location.moved_none]
  | .literal _ _ => by rw [Expr.moved, Location.moved_none]
  | .reference _ _ => by rw [Expr.moved, Token.moved_none, Location.moved_none]
  | .call callee arguments _ => by
    rw [Expr.moved, callee.moved_none, Expr.movedAll_none arguments, Location.moved_none]
  | .list elements _ => by rw [Expr.moved, Expr.movedAll_none elements, Location.moved_none]
  | .record fields _ => by rw [Expr.moved, Expr.movedFields_none fields, Location.moved_none]
  | .update target fields _ => by
    rw [Expr.moved, target.moved_none, Expr.movedFields_none fields, Location.moved_none]
  | .function parameters body _ => by
    rw [Expr.moved, body.moved_none, Token.map_moved_none, Location.moved_none]
  | .get object _ _ => by rw [Expr.moved, object.moved_none, Token.moved_none, Location.moved_none]
  | .select scrutinee arms _ => by
    rw [Expr.moved, scrutinee.moved_none, Arm.movedAll_none arms, Location.moved_none]
  | .unknown _ => by rw [Expr.moved]

private theorem Expr.movedAll_none : (es : List Expr) → Expr.movedAll .none es = es
  | [] => by rw [Expr.movedAll]
  | e :: es => by rw [Expr.movedAll, e.moved_none, Expr.movedAll_none es]

private theorem Expr.movedFields_none :
    (fields : List (String × Expr)) → Expr.movedFields .none fields = fields
  | [] => by rw [Expr.movedFields]
  | (_, value) :: fields => by
    rw [Expr.movedFields, value.moved_none, Expr.movedFields_none fields]

private theorem Arm.moved_none : (arm : Arm) → arm.moved .none = arm
  | .tag _ parameters result _ => by
    rw [Arm.moved, result.moved_none, Token.map_moved_none, Token.moved_none, Location.moved_none]
  | .value pattern parameters result _ => by
    rw [Arm.moved, pattern.moved_none, result.moved_none, Token.map_moved_none, Location.moved_none]

private theorem Arm.movedAll_none : (arms : List Arm) → Arm.movedAll .none arms = arms
  | [] => by rw [Arm.movedAll]
  | arm :: arms => by rw [Arm.movedAll, arm.moved_none, Arm.movedAll_none arms]

end

private theorem Stmt.moved_none (stmt : Stmt) : stmt.moved .none = stmt := by
  cases stmt with
  | binding name initializer location =>
    rw [Stmt.moved, initializer.moved_none, Token.moved_none, Location.moved_none]
  | customType name subtypes location => rw [Stmt.moved, Token.moved_none, Location.moved_none]
  | unknown reason => rfl

/-- Declarations that are not moved stay where they are. -/
theorem Stmt.map_moved_none (stmts : List Stmt) : stmts.map (Stmt.moved .none) = stmts := by
  rw [show Stmt.moved .none = id from funext Stmt.moved_none, List.map_id]

mutual

/-- The tree of an expression shows no places. -/
theorem Expr.display_moved (move : Move) :
    (e : Expr) → (e.moved move).display = e.display
  | .conditional c t e _ => by
    simp only [Expr.moved, Expr.display, c.display_moved move, t.display_moved move,
      e.display_moved move]
  | .binary a _ b _ => by
    simp only [Expr.moved, Expr.display, a.display_moved move, b.display_moved move,
      Token.text_moved]
  | .grouping inner _ => by simp only [Expr.moved, Expr.display, inner.display_moved move]
  | .literal _ _ => by simp only [Expr.moved, Expr.display]
  | .reference _ _ => by simp only [Expr.moved, Expr.display, Token.text_moved]
  | .call callee arguments _ => by
    simp only [Expr.moved, Expr.display, callee.display_moved move,
      Expr.displayAll_moved move arguments]
  | .list elements _ => by
    simp only [Expr.moved, Expr.display, Expr.displayAll_moved move elements]
  | .record fields _ => by
    simp only [Expr.moved, Expr.display, Expr.displayFields_moved move fields]
  | .update target fields _ => by
    simp only [Expr.moved, Expr.display, target.display_moved move,
      Expr.displayFields_moved move fields]
  | .function parameters body _ => by
    simp only [Expr.moved, Expr.display, body.display_moved move, Token.map_text_moved]
  | .get object _ _ => by
    simp only [Expr.moved, Expr.display, object.display_moved move, Token.text_moved]
  | .select scrutinee arms _ => by
    simp only [Expr.moved, Expr.display, scrutinee.display_moved move,
      Arm.displayAll_moved move arms]
  | .unknown _ => by simp only [Expr.moved]

/-- Expressions at other places have the same trees. -/
theorem Expr.displayAll_moved (move : Move) :
    (es : List Expr) → Expr.displayAll (Expr.movedAll move es) = Expr.displayAll es
  | [] => by simp only [Expr.movedAll]
  | e :: es => by
    simp only [Expr.movedAll, Expr.displayAll, e.display_moved move,
      Expr.displayAll_moved move es]

private theorem Expr.displayFields_moved (move : Move) :
    (fields : List (String × Expr)) →
      Expr.displayFields (Expr.movedFields move fields) = Expr.displayFields fields
  | [] => by simp only [Expr.movedFields]
  | (_, value) :: fields => by
    simp only [Expr.movedFields, Expr.displayFields, value.display_moved move,
      Expr.displayFields_moved move fields]

/-- An arm at another place has the same tree. -/
theorem Arm.display_moved (move : Move) :
    (arm : Arm) → (arm.moved move).display = arm.display
  | .tag _ parameters result _ => by
    simp only [Arm.moved, Arm.display, result.display_moved move, Token.text_moved,
      Token.map_text_moved]
  | .value pattern parameters result _ => by
    simp only [Arm.moved, Arm.display, pattern.display_moved move, result.display_moved move,
      Token.map_text_moved]

/-- Arms at other places have the same trees. -/
theorem Arm.displayAll_moved (move : Move) :
    (arms : List Arm) → Arm.displayAll (Arm.movedAll move arms) = Arm.displayAll arms
  | [] => by simp only [Arm.movedAll]
  | arm :: arms => by
    simp only [Arm.movedAll, Arm.displayAll, arm.display_moved move,
      Arm.displayAll_moved move arms]

end

/-- A declaration at another place has the same tree. -/
theorem Stmt.display_moved (move : Move) (stmt : Stmt) :
    (stmt.moved move).display = stmt.display := by
  cases stmt with
  | binding name initializer location =>
    simp only [Stmt.moved, Stmt.display, initializer.display_moved move, Token.text_moved]
  | customType name subtypes location => simp only [Stmt.moved, Stmt.display, Token.text_moved]
  | unknown reason => rfl

/-- Moved declarations have the trees of the declarations. -/
theorem Stmt.displayAll_moved (move : Move) (stmts : List Stmt) :
    Stmt.displayAll (stmts.map (Stmt.moved move)) = Stmt.displayAll stmts := by
  induction stmts with
  | nil => rfl
  | cons stmt stmts ih => simp only [List.map_cons, Stmt.displayAll, stmt.display_moved move, ih]

/-- A moved program has the tree of the program. -/
theorem Program.display_moved (move : Move) (program : Program) :
    (program.moved move).display = program.display := by
  rw [Program.display, Program.display, Program.moved, Stmt.displayAll_moved]

end Slick
