import Slick.Display
import Slick.Proofs.Grammar.Origin

/-!
# The trees of programs that are read

Conversion can fail only at an unknown form, and a program that is read holds none. `shown` is the
conversion without failure, and on a program that is made of known lexemes the two agree. Main
statement: `Stmt.displayAll_eq_shown`.
-/

namespace Slick

mutual

/-- The tree of an expression, with a leaf in place of an unknown form. -/
def Expr.shown : Expr → Tree
  | .conditional condition thenBranch elseBranch _ =>
    .branch "If Expression" [condition.shown, thenBranch.shown, elseBranch.shown]
  | .binary left operator right _ =>
    .branch "Binary Expression" [left.shown, .under "operator" (.leaf operator.text), right.shown]
  | .grouping inner _ => .branch "Grouping Expression" [.leaf "(", inner.shown, .leaf ")"]
  | .literal value _ => .branch "Literal Expression" [.leaf value.toText]
  | .reference name _ => .branch "Binding" [.leaf name.text]
  | .call callee arguments _ =>
    .branch "Call Expression" (callee.shown :: Expr.shownAll arguments)
  | .list elements _ => .branch "List Literal" (Expr.shownAll elements)
  | .record fields _ => .branch "Record Literal" (Expr.shownFields fields)
  | .update target fields _ =>
    .branch "Record Literal" (.under "Target Record" target.shown :: Expr.shownFields fields)
  | .function parameters body _ =>
    .node "Function Expression"
      [Tree.leaves? "Parameters" (parameters.map (·.text)), some (.under "Body" body.shown)]
  | .get object name _ =>
    .branch "Get Expression"
      [.under "Record" object.shown, .under "Property Name" (.leaf ("\"" ++ name.text ++ "\""))]
  | .select scrutinee arms _ =>
    .branch "Case Expression" (.under "Conditional" scrutinee.shown :: Arm.shownAll arms)
  | .unknown reason => .leaf reason.message

/-- The trees of some expressions. -/
def Expr.shownAll : List Expr → List Tree
  | [] => []
  | expr :: rest => expr.shown :: Expr.shownAll rest

/-- The trees of the fields of a record, each under its key. -/
def Expr.shownFields : List (String × Expr) → List Tree
  | [] => []
  | (key, value) :: rest => .under key value.shown :: Expr.shownFields rest

/-- The tree of an arm. -/
def Arm.shown : Arm → Tree
  | .tag subtype parameters result _ =>
    .node "Branch"
      [some (.under "Subtype" (.leaf subtype.text)),
        Tree.leaves? "Parameters" (parameters.map (·.text)), some (.under "Result" result.shown)]
  | .value pattern parameters result _ =>
    .node "Branch"
      [some (.under "Value" pattern.shown),
        Tree.leaves? "Parameters" (parameters.map (·.text)), some (.under "Result" result.shown)]

/-- The trees of some arms. -/
def Arm.shownAll : List Arm → List Tree
  | [] => []
  | arm :: rest => arm.shown :: Arm.shownAll rest

end

/-- The tree of a declaration, with a leaf in place of an unknown form. -/
def Stmt.shown : Stmt → Tree
  | .binding name initializer _ =>
    .branch "Binding Declaration" [.under "Binding Name" (.leaf name.text), initializer.shown]
  | .customType name subtypes _ =>
    .branch "Custom Type Declaration"
      (.under "Custom Type Name" (.leaf name.text) ::
        subtypes.map fun subtype => .leaf (subtypeLabel subtype))
  | .unknown reason => .leaf reason.message

variable {known : Lexeme → Prop}

mutual

/-- Expressions that are made of known lexemes are converted. -/
theorem Expr.display_eq_shown :
    (e : Expr) → e.MadeOf known → e.display = .ok e.shown
  | .conditional c t e _, h => by
    rw [Expr.display, c.display_eq_shown h.1, t.display_eq_shown h.2.1, e.display_eq_shown h.2.2]
    rfl
  | .binary a _ b _, h => by
    rw [Expr.display, a.display_eq_shown h.1, b.display_eq_shown h.2.1]
    rfl
  | .grouping inner _, h => by
    rw [Expr.display, inner.display_eq_shown h]
    rfl
  | .literal _ _, _ => rfl
  | .reference _ _, _ => rfl
  | .call callee arguments _, h => by
    rw [Expr.display, callee.display_eq_shown h.1, Expr.displayAll_eq_shown arguments h.2]
    rfl
  | .list elements _, h => by
    rw [Expr.display, Expr.displayAll_eq_shown elements h]
    rfl
  | .record fields _, h => by
    rw [Expr.display, Expr.displayFields_eq_shown fields h]
    rfl
  | .update target fields _, h => by
    rw [Expr.display, target.display_eq_shown h.1, Expr.displayFields_eq_shown fields h.2]
    rfl
  | .function _ body _, h => by
    rw [Expr.display, body.display_eq_shown h.2]
    rfl
  | .get object _ _, h => by
    rw [Expr.display, object.display_eq_shown h.1]
    rfl
  | .select scrutinee arms _, h => by
    rw [Expr.display, scrutinee.display_eq_shown h.1, Arm.displayAll_eq_shown arms h.2]
    rfl
  | .unknown _, h => h.elim

/-- Expressions that were read are converted one after another. -/
theorem Expr.displayAll_eq_shown :
    (es : List Expr) → Expr.AllMadeOf known es → Expr.displayAll es = .ok (Expr.shownAll es)
  | [], _ => rfl
  | e :: es, h => by
    rw [Expr.displayAll, e.display_eq_shown h.1, Expr.displayAll_eq_shown es h.2]
    rfl

private theorem Expr.displayFields_eq_shown :
    (fields : List (String × Expr)) → Expr.FieldsMadeOf known fields →
      Expr.displayFields fields = .ok (Expr.shownFields fields)
  | [], _ => rfl
  | (_, value) :: fields, h => by
    rw [Expr.displayFields, value.display_eq_shown h.2.1,
      Expr.displayFields_eq_shown fields h.2.2]
    rfl

private theorem Arm.display_eq_shown : (arm : Arm) → arm.MadeOf known → arm.display = .ok arm.shown
  | .tag _ _ result _, h => by
    rw [Arm.display, result.display_eq_shown h.2.2]
    rfl
  | .value pattern _ result _, h => by
    rw [Arm.display, pattern.display_eq_shown h.1, result.display_eq_shown h.2.2]
    rfl

/-- Arms that were read are converted one after another. -/
theorem Arm.displayAll_eq_shown :
    (arms : List Arm) → Arm.AllMadeOf known arms → Arm.displayAll arms = .ok (Arm.shownAll arms)
  | [], _ => rfl
  | arm :: arms, h => by
    rw [Arm.displayAll, arm.display_eq_shown h.1, Arm.displayAll_eq_shown arms h.2]
    rfl

end

private theorem Stmt.display_eq_shown {stmt : Stmt} (h : stmt.MadeOf known) :
    stmt.display = .ok stmt.shown := by
  cases stmt with
  | binding name initializer location =>
    rw [Stmt.display, initializer.display_eq_shown h.2]
    rfl
  | customType name subtypes location => rfl
  | unknown reason => exact h.elim

/-- Declarations that are made of known lexemes are converted, each to its own tree. -/
theorem Stmt.displayAll_eq_shown {stmts : List Stmt} (h : ∀ stmt ∈ stmts, stmt.MadeOf known) :
    Stmt.displayAll stmts = .ok (stmts.map Stmt.shown) := by
  induction stmts with
  | nil => rfl
  | cons stmt stmts ih =>
    rw [List.forall_mem_cons] at h
    rw [Stmt.displayAll, Stmt.display_eq_shown h.1, ih h.2]
    rfl

end Slick
