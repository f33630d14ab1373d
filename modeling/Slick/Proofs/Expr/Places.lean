import Slick.Program

/-!
# Trees at other places

Moving a tree changes the locations of its expressions and the places of the tokens in it, and
nothing else. Two trees are the same up to places if they agree once every place is erased.
-/

namespace Slick

/-- A change of places: where each place goes, and what becomes of the path of the source. -/
structure Move where
  place : Position → Position
  path : Option String → Option String := id

instance : Coe (Position → Position) Move := ⟨fun place => { place }⟩

/-- The change that leaves everything where it is. -/
def Move.none : Move := ⟨id, id⟩

/-- The change that erases all places. -/
def Move.away : Move := ⟨fun _ => ⟨0, 0⟩, fun _ => .none⟩

/-- The change to the same places in a source with another path. -/
def Move.into (path : Option String) : Move := ⟨id, fun _ => path⟩

/-- The token at another place. -/
def Token.moved (move : Move) (token : Token) : Token :=
  ⟨token.toLexeme, move.place token.toPosition⟩

/-- The location at another place. -/
def Location.moved (move : Move) (location : Location) : Location :=
  ⟨move.place location.toPosition, move.path location.path⟩

/-- A token at another place is the same lexeme. -/
@[simp] theorem Token.toLexeme_moved (move : Move) (token : Token) :
    (token.moved move).toLexeme = token.toLexeme := rfl

/-- A token is moved to the place that its own place is moved to. -/
@[simp] theorem Token.toPosition_moved (move : Move) (token : Token) :
    (token.moved move).toPosition = move.place token.toPosition := rfl

/-- The location of a token moves with the token. -/
theorem Token.location_moved (move : Move) (path : Option String) (token : Token) :
    (token.location path).moved move = (token.moved move).location (move.path path) := rfl

mutual

/-- The expression at another place. -/
@[simp] def Expr.moved (move : Move) : Expr → Expr
  | .conditional condition thenBranch elseBranch location =>
    .conditional (condition.moved move) (thenBranch.moved move) (elseBranch.moved move)
      (location.moved move)
  | .binary left operator right location =>
    .binary (left.moved move) (operator.moved move) (right.moved move) (location.moved move)
  | .grouping inner location => .grouping (inner.moved move) (location.moved move)
  | .literal value location => .literal value (location.moved move)
  | .reference name location => .reference (name.moved move) (location.moved move)
  | .call callee arguments location =>
    .call (callee.moved move) (Expr.movedAll move arguments) (location.moved move)
  | .list elements location => .list (Expr.movedAll move elements) (location.moved move)
  | .record fields location => .record (Expr.movedFields move fields) (location.moved move)
  | .update target fields location =>
    .update (target.moved move) (Expr.movedFields move fields) (location.moved move)
  | .function parameters body location =>
    .function (parameters.map (Token.moved move)) (body.moved move) (location.moved move)
  | .get object name location => .get (object.moved move) (name.moved move) (location.moved move)
  | .select scrutinee arms location =>
    .select (scrutinee.moved move) (Arm.movedAll move arms) (location.moved move)
  | .unknown reason => .unknown reason

/-- Some expressions at other places. -/
@[simp] def Expr.movedAll (move : Move) : List Expr → List Expr
  | [] => []
  | expr :: rest => expr.moved move :: Expr.movedAll move rest

/-- The fields of a record at other places. -/
@[simp] def Expr.movedFields (move : Move) :
    List (String × Expr) → List (String × Expr)
  | [] => []
  | (key, value) :: rest => (key, value.moved move) :: Expr.movedFields move rest

/-- The arm at another place. -/
@[simp] def Arm.moved (move : Move) : Arm → Arm
  | .tag subtype parameters result location =>
    .tag (subtype.moved move) (parameters.map (Token.moved move)) (result.moved move)
      (location.moved move)
  | .value pattern parameters result location =>
    .value (pattern.moved move) (parameters.map (Token.moved move)) (result.moved move)
      (location.moved move)

/-- Some arms at other places. -/
@[simp] def Arm.movedAll (move : Move) : List Arm → List Arm
  | [] => []
  | arm :: rest => arm.moved move :: Arm.movedAll move rest

end

/-- Expressions are moved one by one. -/
theorem Expr.movedAll_eq_map (move : Move) (es : List Expr) :
    Expr.movedAll move es = es.map (Expr.moved move) := by
  induction es with
  | nil => rw [Expr.movedAll, List.map_nil]
  | cons e es ih => rw [Expr.movedAll, ih, List.map_cons]

/-- Fields are moved one by one, and their keys stay. -/
theorem Expr.movedFields_eq_map (move : Move) (fields : List (String × Expr)) :
    Expr.movedFields move fields = fields.map (Prod.map id (Expr.moved move)) := by
  induction fields with
  | nil => rw [Expr.movedFields, List.map_nil]
  | cons field fields ih =>
    obtain ⟨key, value⟩ := field
    rw [Expr.movedFields, ih, List.map_cons, Prod.map_apply, id]

/-- Arms are moved one by one. -/
theorem Arm.movedAll_eq_map (move : Move) (arms : List Arm) :
    Arm.movedAll move arms = arms.map (Arm.moved move) := by
  induction arms with
  | nil => rw [Arm.movedAll, List.map_nil]
  | cons arm arms ih => rw [Arm.movedAll, ih, List.map_cons]

/-- The token without its place. -/
def Token.unplaced : Token → Token := Token.moved .away

/-- The expression without any places. -/
def Expr.unplaced : Expr → Expr := Expr.moved .away

/-- The arm without any places. -/
def Arm.unplaced : Arm → Arm := Arm.moved .away

/-- Tokens without places are told apart by their lexemes. -/
theorem Token.unplaced_eq_iff {token token' : Token} :
    token.unplaced = token'.unplaced ↔ token.toLexeme = token'.toLexeme := by
  constructor
  · intro h
    simpa [Token.unplaced] using congrArg Token.toLexeme h
  · intro h
    rw [Token.unplaced, Token.moved, Token.moved, h]
    rfl

end Slick
