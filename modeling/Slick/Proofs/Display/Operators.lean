import Slick.Display
import Slick.Proofs.Expr.Operators
import Slick.Proofs.Line.Spellings

/-!
# Operators in display trees

The token of an operator is shown in one place: as the leaf under `operator`. A tree with these
leaves in Unicode does not tell which spelling an operator had. Main statement:
`Program.display_withOperators`.
-/

namespace Slick

namespace Tree

/-- A leaf with its label in Unicode. -/
def leafInUnicode : Tree → Tree
  | mk label [] collapsed attributes => mk (Symbol.inUnicode label) [] collapsed attributes
  | tree => tree

mutual

/-- The tree with the labels of the leaves under `operator` in Unicode. -/
def operatorsInUnicode : Tree → Tree
  | mk name children collapsed attributes =>
    mk name
      (if name = "operator" then (allOperatorsInUnicode children).map leafInUnicode
        else allOperatorsInUnicode children)
      collapsed attributes

/-- Some trees with the labels of the leaves under `operator` in Unicode. -/
def allOperatorsInUnicode : List Tree → List Tree
  | [] => []
  | tree :: rest => tree.operatorsInUnicode :: allOperatorsInUnicode rest

end

private theorem allOperatorsInUnicode_eq_map (trees : List Tree) :
    allOperatorsInUnicode trees = trees.map operatorsInUnicode := by
  induction trees with
  | nil => rw [allOperatorsInUnicode, List.map_nil]
  | cons tree trees ih => rw [allOperatorsInUnicode, ih, List.map_cons]

/-- Nodes are the same up to operators if their children are. -/
theorem branch_congr {name : String} {children children' : List Tree}
    (h : children.map operatorsInUnicode = children'.map operatorsInUnicode) :
    (branch name children).operatorsInUnicode = (branch name children').operatorsInUnicode := by
  rw [branch, branch, operatorsInUnicode, operatorsInUnicode, allOperatorsInUnicode_eq_map,
    allOperatorsInUnicode_eq_map, h]

private theorem under_congr {wrapper : String} {tree tree' : Tree}
    (h : tree.operatorsInUnicode = tree'.operatorsInUnicode) :
    (under wrapper tree).operatorsInUnicode = (under wrapper tree').operatorsInUnicode := by
  apply branch_congr
  rw [List.map_singleton, List.map_singleton, h]

private theorem node_congr {name : String} {children children' : List (Option Tree)}
    (h : children.map (Option.map operatorsInUnicode) =
      children'.map (Option.map operatorsInUnicode)) :
    (node name children).operatorsInUnicode = (node name children').operatorsInUnicode := by
  have hpresent : ∀ trees : List (Option Tree), (trees.filterMap id).map operatorsInUnicode =
      (trees.map (Option.map operatorsInUnicode)).filterMap id := by
    intro trees
    rw [List.map_filterMap, List.filterMap_map]
    rfl
  apply branch_congr
  rw [hpresent, hpresent, h]

/-- The spelling of an operator does not matter. -/
theorem operator_congr {label label' : String}
    (h : Symbol.inUnicode label = Symbol.inUnicode label') :
    (under "operator" (leaf label)).operatorsInUnicode =
      (under "operator" (leaf label')).operatorsInUnicode := by
  simp only [under, leaf, branch, operatorsInUnicode, allOperatorsInUnicode, if_true, List.map_cons,
    List.map_nil, ite_self, leafInUnicode, h]

end Tree

namespace Display

variable {α β : Type}

/-- Conversions that come to the same up to `view` go on to the same. -/
theorem bind_same {α' β' : Type} {view : α → α'} {view' : β → β'}
    {result result' : Except Unsupported α} {next next' : α → Except Unsupported β}
    (h : result.map view = result'.map view)
    (hnext : ∀ a a', view a = view a' → (next a).map view' = (next' a').map view') :
    (result >>= next).map view' = (result' >>= next').map view' := by
  cases result with
  | error error =>
    cases result' with
    | error error' =>
      cases h
      rfl
    | ok a' => cases h
  | ok a =>
    cases result' with
    | error error' => cases h
    | ok a' => exact hnext a a' (Except.ok.inj h)

end Display

/-- The replaced tokens are spelled as the tokens are, in ASCII or in Unicode. -/
def Token.KeepsOperators (f : Token → Token) : Prop :=
  ∀ token, Symbol.inUnicode (f token).text = Symbol.inUnicode token.text

open Slick.Tree Display Token

variable {f : Token → Token}

mutual

/-- The tree of an expression shows which operators it has, in one spelling or the other. -/
theorem Expr.display_withOperators (hf : KeepsOperators f) : (e : Expr) →
    (e.withOperators f).display.map operatorsInUnicode = e.display.map operatorsInUnicode
  | .conditional c t e _ => by
    rw [Expr.withOperators, Expr.display, Expr.display]
    refine bind_same (c.display_withOperators hf) fun c c' hc => ?_
    refine bind_same (t.display_withOperators hf) fun t t' ht => ?_
    refine bind_same (e.display_withOperators hf) fun e e' he => congrArg Except.ok ?_
    exact branch_congr (by simp only [List.map_cons, hc, ht, he])
  | .binary a operator b _ => by
    rw [Expr.withOperators, Expr.display, Expr.display]
    refine bind_same (a.display_withOperators hf) fun a a' ha => ?_
    refine bind_same (b.display_withOperators hf) fun b b' hb => congrArg Except.ok ?_
    exact branch_congr (by simp only [List.map_cons, ha, hb, operator_congr (hf operator)])
  | .grouping inner _ => by
    rw [Expr.withOperators, Expr.display, Expr.display]
    refine bind_same (inner.display_withOperators hf) fun e e' he => congrArg Except.ok ?_
    exact branch_congr (by simp only [List.map_cons, he])
  | .literal _ _ => by rw [Expr.withOperators]
  | .reference _ _ => by rw [Expr.withOperators]
  | .call callee arguments _ => by
    rw [Expr.withOperators, Expr.display, Expr.display]
    refine bind_same (callee.display_withOperators hf) fun e e' he => ?_
    refine bind_same (Expr.displayAll_withOperators hf arguments) fun es es' hes =>
      congrArg Except.ok ?_
    exact branch_congr (by simp only [List.map_cons, he, hes])
  | .list elements _ => by
    rw [Expr.withOperators, Expr.display, Expr.display]
    refine bind_same (Expr.displayAll_withOperators hf elements) fun es es' hes =>
      congrArg Except.ok ?_
    exact branch_congr hes
  | .record fields _ => by
    rw [Expr.withOperators, Expr.display, Expr.display]
    refine bind_same (Expr.displayFields_withOperators hf fields) fun es es' hes =>
      congrArg Except.ok ?_
    exact branch_congr hes
  | .update target fields _ => by
    rw [Expr.withOperators, Expr.display, Expr.display]
    refine bind_same (target.display_withOperators hf) fun e e' he => ?_
    refine bind_same (Expr.displayFields_withOperators hf fields) fun es es' hes =>
      congrArg Except.ok ?_
    exact branch_congr (by simp only [List.map_cons, under_congr he, hes])
  | .function parameters body _ => by
    rw [Expr.withOperators, Expr.display, Expr.display]
    refine bind_same (body.display_withOperators hf) fun e e' he => congrArg Except.ok ?_
    exact node_congr (by simp only [List.map_cons, Option.map_some, under_congr he])
  | .get object name _ => by
    rw [Expr.withOperators, Expr.display, Expr.display]
    refine bind_same (object.display_withOperators hf) fun e e' he => congrArg Except.ok ?_
    exact branch_congr (by simp only [List.map_cons, under_congr he])
  | .select scrutinee arms _ => by
    rw [Expr.withOperators, Expr.display, Expr.display]
    refine bind_same (scrutinee.display_withOperators hf) fun e e' he => ?_
    refine bind_same (Arm.displayAll_withOperators hf arms) fun es es' hes => congrArg Except.ok ?_
    exact branch_congr (by simp only [List.map_cons, under_congr he, hes])
  | .unknown _ => by rw [Expr.withOperators]

private theorem Expr.displayAll_withOperators (hf : KeepsOperators f) : (es : List Expr) →
    (Expr.displayAll (Expr.allWithOperators f es)).map (List.map operatorsInUnicode) =
      (Expr.displayAll es).map (List.map operatorsInUnicode)
  | [] => by rw [Expr.allWithOperators]
  | e :: es => by
    rw [Expr.allWithOperators, Expr.displayAll, Expr.displayAll]
    refine bind_same (e.display_withOperators hf) fun e e' he => ?_
    refine bind_same (Expr.displayAll_withOperators hf es) fun es es' hes => congrArg Except.ok ?_
    rw [List.map_cons, List.map_cons, he, hes]

private theorem Expr.displayFields_withOperators (hf : KeepsOperators f) :
    (fields : List (String × Expr)) →
    (Expr.displayFields (Expr.fieldsWithOperators f fields)).map (List.map operatorsInUnicode) =
      (Expr.displayFields fields).map (List.map operatorsInUnicode)
  | [] => by rw [Expr.fieldsWithOperators]
  | (key, value) :: fields => by
    rw [Expr.fieldsWithOperators, Expr.displayFields, Expr.displayFields]
    refine bind_same (value.display_withOperators hf) fun e e' he => ?_
    refine bind_same (Expr.displayFields_withOperators hf fields) fun es es' hes =>
      congrArg Except.ok ?_
    rw [List.map_cons, List.map_cons, under_congr he, hes]

/-- Another spelling of the operators in an arm changes the labels of operators only. -/
theorem Arm.display_withOperators (hf : KeepsOperators f) : (arm : Arm) →
    (arm.withOperators f).display.map operatorsInUnicode = arm.display.map operatorsInUnicode
  | .tag _ _ result _ => by
    rw [Arm.withOperators, Arm.display, Arm.display]
    refine bind_same (result.display_withOperators hf) fun e e' he => congrArg Except.ok ?_
    exact node_congr (by simp only [List.map_cons, Option.map_some, under_congr he])
  | .value pattern _ result _ => by
    rw [Arm.withOperators, Arm.display, Arm.display]
    refine bind_same (pattern.display_withOperators hf) fun p p' hp => ?_
    refine bind_same (result.display_withOperators hf) fun e e' he => congrArg Except.ok ?_
    exact node_congr (by
      simp only [List.map_cons, Option.map_some, under_congr hp, under_congr he])

private theorem Arm.displayAll_withOperators (hf : KeepsOperators f) : (arms : List Arm) →
    (Arm.displayAll (Arm.allWithOperators f arms)).map (List.map operatorsInUnicode) =
      (Arm.displayAll arms).map (List.map operatorsInUnicode)
  | [] => by rw [Arm.allWithOperators]
  | arm :: arms => by
    rw [Arm.allWithOperators, Arm.displayAll, Arm.displayAll]
    refine bind_same (arm.display_withOperators hf) fun e e' he => ?_
    refine bind_same (Arm.displayAll_withOperators hf arms) fun es es' hes => congrArg Except.ok ?_
    rw [List.map_cons, List.map_cons, he, hes]

end

/-- Another spelling of the operators in a declaration changes the labels of operators only. -/
theorem Stmt.display_withOperators (hf : KeepsOperators f) (stmt : Stmt) :
    (stmt.withOperators f).display.map operatorsInUnicode =
      stmt.display.map operatorsInUnicode := by
  cases stmt with
  | binding name initializer location =>
    rw [Stmt.withOperators, Stmt.display, Stmt.display]
    refine bind_same (initializer.display_withOperators hf) fun e e' he => congrArg Except.ok ?_
    exact branch_congr (by simp only [List.map_cons, he])
  | customType name subtypes location => rfl
  | unknown reason => rfl

private theorem Stmt.displayAll_withOperators (hf : KeepsOperators f) (stmts : List Stmt) :
    (Stmt.displayAll (stmts.map (Stmt.withOperators f))).map (List.map operatorsInUnicode) =
      (Stmt.displayAll stmts).map (List.map operatorsInUnicode) := by
  induction stmts with
  | nil => rfl
  | cons stmt stmts ih =>
    rw [List.map_cons, Stmt.displayAll, Stmt.displayAll]
    refine bind_same (stmt.display_withOperators hf) fun e e' he => ?_
    refine bind_same ih fun es es' hes => congrArg Except.ok ?_
    rw [List.map_cons, List.map_cons, he, hes]

/-- **Only the leaves under `operator` show how operators are spelled.** Programs whose operators
differ in spelling have trees that differ in the labels of these leaves alone. -/
theorem Program.display_withOperators (hf : KeepsOperators f) (program : Program) :
    (program.withOperators f).display.map operatorsInUnicode =
      program.display.map operatorsInUnicode := by
  rw [Program.display, Program.display]
  refine bind_same (Stmt.displayAll_withOperators hf program.statements) fun es es' hes =>
    congrArg Except.ok ?_
  exact branch_congr hes

end Slick
