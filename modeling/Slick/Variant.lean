import Slick.Program

/-!
# Forms of expressions and declarations

The closed list of forms a program is made of, with the names under which reports show
them. Conversion is complete when it has a rule for each of them.
-/

namespace Slick

/-- A form of expression or declaration. -/
inductive Variant where
  | conditional | binary | grouping | literal | reference | call | list | record | function | get
  | select
  | binding | customType
  deriving DecidableEq, Repr

/-- The wording of the error. -/
def Unsupported.message : Unsupported → String
  | noRule variant => "No conversion rule implemented for " ++ variant
  | noToken => "A token is missing"

namespace Variant

/-- All forms: those of expressions, then those of declarations. -/
def all : List Variant :=
  [conditional, binary, grouping, literal, reference, call, list, record, function, get, select,
    binding, customType]

/-- The name of a form. -/
def name : Variant → String
  | conditional => "If"
  | binary => "Binary"
  | grouping => "Grouping"
  | literal => "Literal"
  | reference => "Variable"
  | call => "Call"
  | list => "ListLiteral"
  | record => "RecordLiteral"
  | function => "Function"
  | get => "Get"
  | select => "Case"
  | binding => "VarDeclaration"
  | customType => "CustomTypeDeclaration"

/-- The forms without a rule, when rules exist for the given forms. -/
def missing (rules : List Variant) : List Variant :=
  all.filter (· ∉ rules)

/-- Checks that the rules for the given forms are complete. -/
def checkComplete (rules : List Variant) : Except Unsupported Unit :=
  if (missing rules).isEmpty then .ok ()
  else .error (.noRule (", ".intercalate ((missing rules).map name)))

private theorem mem_all (variant : Variant) : variant ∈ all := by
  cases variant <;> decide

/-- Nothing is missing exactly if every form has a rule. -/
theorem missing_eq_nil_iff {rules : List Variant} :
    missing rules = [] ↔ ∀ variant, variant ∈ rules := by
  simp only [missing, List.filter_eq_nil_iff, decide_eq_true_eq, Decidable.not_not]
  exact ⟨fun h variant => h variant (mem_all variant), fun h variant _ => h variant⟩

end Variant

/-- The name of the form of a declaration. -/
def Stmt.variantName : Stmt → String
  | binding .. => Variant.binding.name
  | customType .. => Variant.customType.name
  | unknown (.noRule variant) => variant
  | unknown .noToken => ""

end Slick
