import Slick.Tree
import Slick.Variant

/-!
# Programs as display trees

Each form of expression and declaration has one rule. Parts that may be absent, such as the
parameters of a function without any, leave no node behind. Conversion fails on the first
unknown part, parts taken in the order in which the tree shows them.
-/

namespace Slick

mutual

/-- The tree of an expression. -/
def Expr.display : Expr → Except Unsupported Tree
  | .conditional condition thenBranch elseBranch _ => do
    let condition ← condition.display
    let thenBranch ← thenBranch.display
    let elseBranch ← elseBranch.display
    return .branch "If Expression" [condition, thenBranch, elseBranch]
  | .binary left operator right _ => do
    let left ← left.display
    let right ← right.display
    return .branch "Binary Expression" [left, .under "operator" (.leaf operator.text), right]
  | .grouping inner _ => do
    let inner ← inner.display
    return .branch "Grouping Expression" [.leaf "(", inner, .leaf ")"]
  | .literal value _ => return .branch "Literal Expression" [.leaf value.toText]
  | .reference name _ => return .branch "Binding" [.leaf name.text]
  | .call callee arguments _ => do
    let callee ← callee.display
    let arguments ← Expr.displayAll arguments
    return .branch "Call Expression" (callee :: arguments)
  | .list elements _ => do
    let elements ← Expr.displayAll elements
    return .branch "List Literal" elements
  | .record fields _ => do
    let fields ← Expr.displayFields fields
    return .branch "Record Literal" fields
  | .update target fields _ => do
    let target ← target.display
    let fields ← Expr.displayFields fields
    return .branch "Record Literal" (.under "Target Record" target :: fields)
  | .function parameters body _ => do
    let body ← body.display
    return .node "Function Expression"
      [Tree.leaves? "Parameters" (parameters.map (·.text)), some (.under "Body" body)]
  | .get object name _ => do
    let object ← object.display
    return .branch "Get Expression"
      [.under "Record" object, .under "Property Name" (.leaf ("\"" ++ name.text ++ "\""))]
  | .select scrutinee arms _ => do
    let scrutinee ← scrutinee.display
    let branches ← Arm.displayAll arms
    return .branch "Case Expression" (.under "Conditional" scrutinee :: branches)
  | .unknown reason => .error reason

/-- The trees of some expressions. -/
def Expr.displayAll : List Expr → Except Unsupported (List Tree)
  | [] => return []
  | expr :: rest => do
    let first ← expr.display
    let rest ← Expr.displayAll rest
    return first :: rest

/-- The trees of the fields of a record, each under its key. -/
def Expr.displayFields : List (String × Expr) → Except Unsupported (List Tree)
  | [] => return []
  | (key, value) :: rest => do
    let first ← value.display
    let rest ← Expr.displayFields rest
    return .under key first :: rest

/-- The tree of an arm. -/
def Arm.display : Arm → Except Unsupported Tree
  | .tag subtype parameters result _ => do
    let result ← result.display
    return .node "Branch"
      [some (.under "Subtype" (.leaf subtype.text)),
        Tree.leaves? "Parameters" (parameters.map (·.text)), some (.under "Result" result)]
  | .value pattern parameters result _ => do
    let pattern ← pattern.display
    let result ← result.display
    return .node "Branch"
      [some (.under "Value" pattern),
        Tree.leaves? "Parameters" (parameters.map (·.text)), some (.under "Result" result)]

/-- The trees of some arms. -/
def Arm.displayAll : List Arm → Except Unsupported (List Tree)
  | [] => return []
  | arm :: rest => do
    let first ← arm.display
    let rest ← Arm.displayAll rest
    return first :: rest

end

/-- The tree of an expression, under a label if there is one. -/
def Expr.displayUnder (label : Option String) (expr : Expr) : Except Unsupported Tree := do
  let tree ← expr.display
  return match label with
    | none => tree
    | some label => .under label tree

/-- The label of a subtype: its name, and its payload type if it has one. -/
def Stmt.subtypeLabel (subtype : String × Option TypeExpr) : String :=
  match subtype.2 with
  | none => subtype.1
  | some payload => subtype.1 ++ " " ++ payload.toText

/-- The tree of a declaration. -/
def Stmt.display : Stmt → Except Unsupported Tree
  | .binding name initializer _ => do
    let initializer ← initializer.display
    return .branch "Binding Declaration" [.under "Binding Name" (.leaf name.text), initializer]
  | .customType name subtypes _ =>
    return .branch "Custom Type Declaration"
      (.under "Custom Type Name" (.leaf name.text) ::
        subtypes.map fun subtype => .leaf (subtypeLabel subtype))
  | .unknown reason => .error reason

/-- The trees of some declarations. -/
def Stmt.displayAll : List Stmt → Except Unsupported (List Tree)
  | [] => return []
  | stmt :: rest => do
    let first ← stmt.display
    let rest ← Stmt.displayAll rest
    return first :: rest

/-- The tree of a program. -/
def Program.display (program : Program) : Except Unsupported Tree := do
  let statements ← Stmt.displayAll program.statements
  return .branch "Program" statements

end Slick
