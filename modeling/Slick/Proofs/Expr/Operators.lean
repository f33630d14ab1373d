import Slick.Program

/-!
# Trees with other operators

`withOperators` replaces the tokens of the operators in a tree and leaves everything else as it is.
-/

namespace Slick

mutual

/-- The expression with other tokens for its operators. -/
def Expr.withOperators (f : Token → Token) : Expr → Expr
  | .conditional condition thenBranch elseBranch location =>
    .conditional (condition.withOperators f) (thenBranch.withOperators f)
      (elseBranch.withOperators f) location
  | .binary left operator right location =>
    .binary (left.withOperators f) (f operator) (right.withOperators f) location
  | .grouping inner location => .grouping (inner.withOperators f) location
  | .literal value location => .literal value location
  | .reference name location => .reference name location
  | .call callee arguments location =>
    .call (callee.withOperators f) (Expr.allWithOperators f arguments) location
  | .list elements location => .list (Expr.allWithOperators f elements) location
  | .record fields location => .record (Expr.fieldsWithOperators f fields) location
  | .update target fields location =>
    .update (target.withOperators f) (Expr.fieldsWithOperators f fields) location
  | .function parameters body location => .function parameters (body.withOperators f) location
  | .get object name location => .get (object.withOperators f) name location
  | .select scrutinee arms location =>
    .select (scrutinee.withOperators f) (Arm.allWithOperators f arms) location
  | .unknown reason => .unknown reason

/-- Some expressions with other tokens for their operators. -/
def Expr.allWithOperators (f : Token → Token) : List Expr → List Expr
  | [] => []
  | expr :: rest => expr.withOperators f :: Expr.allWithOperators f rest

/-- The fields of a record with other tokens for the operators in them. -/
def Expr.fieldsWithOperators (f : Token → Token) : List (String × Expr) → List (String × Expr)
  | [] => []
  | (key, value) :: rest => (key, value.withOperators f) :: Expr.fieldsWithOperators f rest

/-- The arm with other tokens for its operators. -/
def Arm.withOperators (f : Token → Token) : Arm → Arm
  | .tag subtype parameters result location =>
    .tag subtype parameters (result.withOperators f) location
  | .value pattern parameters result location =>
    .value (pattern.withOperators f) parameters (result.withOperators f) location

/-- Some arms with other tokens for their operators. -/
def Arm.allWithOperators (f : Token → Token) : List Arm → List Arm
  | [] => []
  | arm :: rest => arm.withOperators f :: Arm.allWithOperators f rest

end

/-- The declaration with other tokens for its operators. -/
def Stmt.withOperators (f : Token → Token) : Stmt → Stmt
  | .binding name initializer location => .binding name (initializer.withOperators f) location
  | .customType name subtypes location => .customType name subtypes location
  | .unknown reason => .unknown reason

/-- The program with other tokens for its operators. -/
def Program.withOperators (f : Token → Token) (program : Program) : Program :=
  { program with statements := program.statements.map (Stmt.withOperators f) }

/-- The keys of a record stay. -/
theorem Expr.keys_fieldsWithOperators (f : Token → Token) (fields : List (String × Expr)) :
    (Expr.fieldsWithOperators f fields).map Prod.fst = fields.map Prod.fst := by
  induction fields with
  | nil => rw [Expr.fieldsWithOperators]
  | cons field fields ih =>
    obtain ⟨key, value⟩ := field
    rw [Expr.fieldsWithOperators, List.map_cons, List.map_cons, ih]

/-- With other operators there are as many expressions as before. -/
theorem Expr.allWithOperators_ne_nil (f : Token → Token) {es : List Expr} (h : es ≠ []) :
    Expr.allWithOperators f es ≠ [] := by
  obtain ⟨e, es, rfl⟩ := List.exists_cons_of_ne_nil h
  rw [Expr.allWithOperators]
  exact List.cons_ne_nil _ _

/-- With other operators there are as many arms as before. -/
theorem Arm.allWithOperators_ne_nil (f : Token → Token) {arms : List Arm} (h : arms ≠ []) :
    Arm.allWithOperators f arms ≠ [] := by
  obtain ⟨arm, arms, rfl⟩ := List.exists_cons_of_ne_nil h
  rw [Arm.allWithOperators]
  exact List.cons_ne_nil _ _

end Slick
