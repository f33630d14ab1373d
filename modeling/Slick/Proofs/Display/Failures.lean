import Slick.Display
import Slick.Proofs.Program.Nodes

/-!
# Where conversion fails

A hand-made tree may hold anything in the place of an expression or a declaration. Conversion walks
the nodes depth first and has one rule for each form, so it comes to a tree if every node that it
reaches has a form, and otherwise it fails at the first node that has none and names it. A form that
lacks a token its tree shows counts as having none. Main statement: `Display.fails_at_first`.
-/

namespace Slick

/-- The form of an expression, or why what stands in the place of one has no tree. -/
def Expr.variant : Expr → Except Unsupported Variant
  | .conditional .. => .ok .conditional
  | .binary .. => .ok .binary
  | .grouping .. => .ok .grouping
  | .literal .. => .ok .literal
  | .reference .. => .ok .reference
  | .call .. => .ok .call
  | .list .. => .ok .list
  | .record .. | .update .. => .ok .record
  | .function .. => .ok .function
  | .get .. => .ok .get
  | .select .. => .ok .select
  | .unknown reason => .error reason

/-- The form of a declaration, or why what stands in the place of one has no tree. -/
def Stmt.variant : Stmt → Except Unsupported Variant
  | .binding .. => .ok .binding
  | .customType .. => .ok .customType
  | .unknown reason => .error reason

/-- Why a node has no tree: what it is named if it has no form. An arm is always supported: it is
converted as a part of the choice that it belongs to. -/
def Node.unsupported? : Node → Option Unsupported
  | stmt s => match s.variant with
    | .ok _ => none
    | .error reason => some reason
  | expr e => match e.variant with
    | .ok _ => none
    | .error reason => some reason
  | arm _ => none

namespace Display

variable {α β : Type} {nodes more : List Node} {result : Except Unsupported α}

/-- The conversion of nodes that are walked in the given order: it comes to a result if all of them
are supported, and otherwise it fails for the reason of the first that is not. -/
structure FailsAtFirst (nodes : List Node) (result : Except Unsupported α) : Prop where
  ok_iff : (∃ a, result = .ok a) ↔ ∀ node ∈ nodes, node.unsupported? = none
  error_iff : ∀ error, result = .error error ↔
    nodes.findSome? Node.unsupported? = some error

namespace FailsAtFirst

/-- A conversion that walks no nodes succeeds. -/
theorem pure (a : α) : FailsAtFirst [] (Except.ok a : Except Unsupported α) :=
  ⟨by simp, by simp⟩

/-- A conversion fails at a node that is not supported. -/
theorem error {node : Node} {reason : Unsupported} (h : node.unsupported? = some reason) :
    FailsAtFirst [node] (Except.error reason : Except Unsupported α) :=
  ⟨by simp [h], fun reason' => by simp [h]⟩

/-- Walking a supported node comes before what is in it. -/
theorem cons {node : Node} (hnode : node.unsupported? = none) (h : FailsAtFirst nodes result) :
    FailsAtFirst (node :: nodes) result :=
  ⟨by simp [hnode, h.ok_iff], by simp [hnode, h.error_iff]⟩

/-- Conversions that follow one another fail where the first of them does that fails at all. -/
theorem bind {next : α → Except Unsupported β} (h : FailsAtFirst nodes result)
    (hnext : ∀ a, FailsAtFirst more (next a)) : FailsAtFirst (nodes ++ more) (result >>= next) := by
  cases result with
  | ok a =>
    have hnodes : ∀ node ∈ nodes, node.unsupported? = none := h.ok_iff.mp ⟨a, rfl⟩
    have hnone : nodes.findSome? Node.unsupported? = none := List.findSome?_eq_none_iff.mpr hnodes
    refine ⟨?_, fun error => ?_⟩
    · simp only [List.forall_mem_append]
      exact ((hnext a).ok_iff).trans (and_iff_right hnodes).symm
    · rw [List.findSome?_append, hnone, Option.none_or]
      exact (hnext a).error_iff error
  | error error =>
    have hfirst : nodes.findSome? Node.unsupported? = some error :=
      (h.error_iff error).mp rfl
    refine ⟨⟨?_, fun hall => ?_⟩, fun error' => ?_⟩
    · rintro ⟨_, hb⟩
      cases hb
    · obtain ⟨_, ha⟩ := h.ok_iff.mpr fun node hnode => hall node (List.mem_append_left _ hnode)
      cases ha
    · rw [List.findSome?_append, hfirst, Option.some_or, ← hfirst]
      refine Iff.trans ?_ (h.error_iff error')
      change (Except.error error : Except Unsupported β) = .error error' ↔ _
      simp only [Except.error.injEq]

/-- Building a result from the converted nodes cannot fail. -/
theorem build {make : α → β} (h : FailsAtFirst nodes result) :
    FailsAtFirst nodes (result >>= fun a => Pure.pure (make a)) := by
  have hbind := h.bind fun a => pure (make a)
  rwa [List.append_nil] at hbind

end FailsAtFirst

mutual

/-- The conversion of an expression fails at its first unsupported node. -/
theorem expr_failsAtFirst : (e : Expr) → FailsAtFirst (Node.expr e).reached e.display
  | .conditional condition thenBranch elseBranch _ => by
    rw [Node.reached_eq, Expr.display]
    exact .cons rfl ((expr_failsAtFirst condition).bind fun _ =>
      (expr_failsAtFirst thenBranch).bind fun _ => (expr_failsAtFirst elseBranch).bind fun _ =>
        .pure _)
  | .binary left _ right _ => by
    rw [Node.reached_eq, Expr.display]
    exact .cons rfl ((expr_failsAtFirst left).bind fun _ =>
      (expr_failsAtFirst right).bind fun _ => .pure _)
  | .grouping inner _ => by
    rw [Node.reached_eq, Expr.display]
    exact .cons rfl ((expr_failsAtFirst inner).bind fun _ => .pure _)
  | .literal _ _ | .reference _ _ => by
    rw [Node.reached_eq, Expr.display]
    exact .cons rfl (.pure _)
  | .call callee arguments _ => by
    rw [Node.reached_eq, Expr.display]
    exact .cons rfl ((expr_failsAtFirst callee).bind fun _ => (exprs_failAtFirst arguments).build)
  | .list elements _ => by
    rw [Node.reached_eq, Expr.display]
    exact .cons rfl (exprs_failAtFirst elements).build
  | .record fields _ => by
    rw [Node.reached_eq, Expr.display]
    exact .cons rfl (fields_failAtFirst fields).build
  | .update target fields _ => by
    rw [Node.reached_eq, Expr.display]
    exact .cons rfl ((expr_failsAtFirst target).bind fun _ => (fields_failAtFirst fields).build)
  | .function _ body _ => by
    rw [Node.reached_eq, Expr.display]
    exact .cons rfl ((expr_failsAtFirst body).bind fun _ => .pure _)
  | .get object _ _ => by
    rw [Node.reached_eq, Expr.display]
    exact .cons rfl ((expr_failsAtFirst object).bind fun _ => .pure _)
  | .select scrutinee arms _ => by
    rw [Node.reached_eq, Expr.display]
    exact .cons rfl ((expr_failsAtFirst scrutinee).bind fun _ => (arms_failAtFirst arms).build)
  | .unknown _ => by
    rw [Node.reached_eq, Expr.display]
    exact .error rfl

private theorem exprs_failAtFirst : (es : List Expr) →
    FailsAtFirst ((es.map Node.expr).flatMap Node.reached) (Expr.displayAll es)
  | [] => by
    rw [Expr.displayAll]
    exact .pure _
  | e :: es => by
    rw [Expr.displayAll, List.map_cons, List.flatMap_cons]
    exact (expr_failsAtFirst e).bind fun _ => (exprs_failAtFirst es).build

private theorem fields_failAtFirst : (fields : List (String × Expr)) →
    FailsAtFirst (((fields.map Prod.snd).map Node.expr).flatMap Node.reached)
      (Expr.displayFields fields)
  | [] => by
    rw [Expr.displayFields]
    exact .pure _
  | (_, value) :: fields => by
    rw [Expr.displayFields, List.map_cons, List.map_cons, List.flatMap_cons]
    exact (expr_failsAtFirst value).bind fun _ => (fields_failAtFirst fields).build

private theorem arm_failsAtFirst : (arm : Arm) → FailsAtFirst (Node.arm arm).reached arm.display
  | .tag _ _ result _ => by
    rw [Node.reached_eq, Arm.display]
    exact .cons rfl ((expr_failsAtFirst result).bind fun _ => .pure _)
  | .value pattern _ result _ => by
    rw [Node.reached_eq, Arm.display]
    exact .cons rfl ((expr_failsAtFirst pattern).bind fun _ =>
      (expr_failsAtFirst result).bind fun _ => .pure _)

private theorem arms_failAtFirst : (arms : List Arm) →
    FailsAtFirst ((arms.map Node.arm).flatMap Node.reached) (Arm.displayAll arms)
  | [] => by
    rw [Arm.displayAll]
    exact .pure _
  | arm :: arms => by
    rw [Arm.displayAll, List.map_cons, List.flatMap_cons]
    exact (arm_failsAtFirst arm).bind fun _ => (arms_failAtFirst arms).build

end

private theorem stmt_failsAtFirst (s : Stmt) : FailsAtFirst (Node.stmt s).reached s.display := by
  rw [Node.reached_eq]
  cases s with
  | binding name initializer location =>
    simp only [Node.children, List.flatMap_cons, List.flatMap_nil, List.append_nil, Stmt.display]
    exact .cons rfl (expr_failsAtFirst initializer).build
  | customType name subtypes location => exact .cons rfl (.pure _)
  | unknown reason => exact .error rfl

private theorem stmts_failAtFirst (stmts : List Stmt) :
    FailsAtFirst ((stmts.map Node.stmt).flatMap Node.reached) (Stmt.displayAll stmts) := by
  induction stmts with
  | nil => exact .pure _
  | cons s stmts ih =>
    rw [Stmt.displayAll, List.map_cons, List.flatMap_cons]
    exact (stmt_failsAtFirst s).bind fun _ => ih.build

/-- Conversion comes to a tree exactly if every node that it reaches is supported, and otherwise it
fails for the reason of the first node that is not, depth first and in the order of the tree. An arm
with a subtype hides its pattern from conversion, whatever stands there. -/
theorem fails_at_first :
    (∀ label e, FailsAtFirst (Node.expr e).reached (e.displayUnder label)) ∧
    (∀ subtype pattern parameters result location,
      FailsAtFirst
        ((if subtype.isSome then [] else (Node.expr pattern).reached) ++ (Node.expr result).reached)
        (Arm.ofParts subtype pattern parameters result location).display) ∧
    (∀ s, FailsAtFirst (Node.stmt s).reached s.display) ∧
    ∀ program : Program,
      FailsAtFirst ((program.statements.map Node.stmt).flatMap Node.reached) program.display := by
  refine ⟨fun label e => (expr_failsAtFirst e).build, ?_, stmt_failsAtFirst,
    fun program => (stmts_failAtFirst program.statements).build⟩
  intro subtype pattern parameters result location
  cases subtype with
  | some subtype => exact (expr_failsAtFirst result).build
  | none =>
    rw [Arm.ofParts, Arm.display]
    exact (expr_failsAtFirst pattern).bind fun _ => (expr_failsAtFirst result).build

/-- Of two unsupported nodes the one in front is named, and the pattern of an arm with a subtype is
not looked at. -/
example (subtype operator : Token) (place : Location) :
    (Expr.select (.binary (.list [] place) operator (.list [] place) place)
      [.ofParts (some subtype) (.unknown (.noRule "NoneType")) []
        (.list [.unknown (.noRule "Let"), .unknown (.noRule "Set")] place) place] place).display =
      .error (.noRule "Let") := rfl

end Display

end Slick
