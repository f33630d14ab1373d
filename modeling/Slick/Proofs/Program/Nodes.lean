import Slick.Proofs.Expr.Shape
import Slick.Variant

/-!
# The nodes of a program

A node is a declaration, an expression or an arm. Its children are the nodes that it is put together
from, in the order in which a source writes them and a display tree shows them. A walk that goes
depth first reaches every node in front of its children. Main statement: `Node.reached_eq`, which
says so.
-/

namespace Slick

/-- A declaration, an expression or an arm. -/
inductive Node where
  | stmt (s : Stmt)
  | expr (e : Expr)
  | arm (a : Arm)

namespace Node

/-- The nodes that a node is put together from. The target of an update stands in front of the
fields, and the pattern of an arm in front of its result. -/
def children : Node → List Node
  | stmt (.binding _ initializer _) => [expr initializer]
  | stmt (.customType _ _ _) | stmt (.unknown _) => []
  | expr (.select scrutinee arms _) => expr scrutinee :: arms.map arm
  | expr e => e.children.map expr
  | arm a => a.parts.map expr

private theorem sizeOf_lt_of_mem_fields {fields : List (String × Expr)} {value : Expr}
    (h : value ∈ fields.map Prod.snd) : sizeOf value < sizeOf fields := by
  obtain ⟨⟨key, value⟩, hfield, rfl⟩ := List.mem_map.mp h
  have hlt := List.sizeOf_lt_of_mem hfield
  simp only [Prod.mk.sizeOf_spec] at hlt ⊢
  omega

/-- A child is smaller than the node it belongs to. -/
theorem sizeOf_lt_of_mem_children {node child : Node} (h : child ∈ node.children) :
    sizeOf child < sizeOf node := by
  cases node with
  | stmt s => cases s <;> grind [children]
  | arm a => cases a <;> grind [children, Arm.parts]
  | expr e =>
    cases e <;> simp only [children, Expr.children, List.mem_map, List.mem_cons] at h <;>
      grind [→ List.sizeOf_lt_of_mem, → sizeOf_lt_of_mem_fields]

/-- A node and all nodes in it, depth first. -/
def reached (node : Node) : List Node :=
  node :: node.children.attach.flatMap fun child => reached child.1
termination_by sizeOf node
decreasing_by exact sizeOf_lt_of_mem_children child.2

/-- A node is reached first, then what is reached from its children, one child after another. -/
theorem reached_eq (node : Node) : node.reached = node :: node.children.flatMap reached := by
  rw [reached]
  simp

end Node

end Slick
