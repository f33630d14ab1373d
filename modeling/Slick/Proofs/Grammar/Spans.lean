import Slick.Proofs.Grammar.Places
import Slick.Proofs.Program.Nodes

/-!
# The tokens of a node

Every node of a spelled program is spelled by tokens of its own, which stand together among the
others, and the children of a node have their tokens inside of those, one child behind another. A
node is placed at the first of its tokens, except that an operation is placed at its operator.
`Spread` says how nodes are laid out over tokens. Main statements: `Node.SpelledBy.placed`,
`Spread.reached` and `SpellsProgram.spread`.
-/

namespace Slick

/-- The location of an expression. -/
def Expr.location? : Expr → Option Location
  | .conditional _ _ _ location | .binary _ _ _ location | .grouping _ location
  | .literal _ location | .reference _ location | .call _ _ location | .list _ location
  | .record _ location | .update _ _ location | .function _ _ location | .get _ _ location
  | .select _ _ location => some location
  | .unknown _ => none

/-- The expression in front: operations, calls and accesses to fields start with a part. -/
def Expr.leftmost : Expr → Expr
  | .binary left _ _ _ => left.leftmost
  | .call callee _ _ => callee.leftmost
  | .get object _ _ => object.leftmost
  | e => e

/-- The first token of an expression, by the form of the expression in front. -/
def Expr.OpensWith (e : Expr) (first : Token) : Prop :=
  match e.leftmost with
  | .conditional .. => first.isWord "if" = true
  | .select .. => first.isWord "case" = true
  | .function .. => first.kind = .fn
  | .grouping .. => first.kind = .lparen
  | .list .. => first.kind = .lbracket
  | .record .. | .update .. => first.kind = .lbrace
  | .reference name _ => first = name
  | .literal value _ =>
    first.kind ≠ .minus ∧ first.value = value ∨
      -- A negative number is read as a literal with its sign.
      first.kind = .minus ∧ ∃ number : Lexeme, number.kind = .number ∧ number.value.negate =
        .ok value
  | _ => False

namespace Node

/-- The location of a node. -/
def location? : Node → Option Location
  | stmt (.binding _ _ location) | stmt (.customType _ _ location) => some location
  | stmt (.unknown _) => none
  | expr e => e.location?
  | arm (.tag _ _ _ location) | arm (.value _ _ _ location) => some location

/-- The location where the source of a node starts. -/
def start? : Node → Option Location
  | expr e | arm (.value e _ _ _) => e.leftmost.location?
  | node => node.location?

/-- The operator of an operation. -/
def operator? : Node → Option Token
  | expr (.binary _ operator _ _) => some operator
  | _ => none

/-- The first token of a node. -/
def OpensWith : Node → Token → Prop
  | stmt (.binding name _ _), first => first = name
  | stmt (.customType _ _ _), first => first.isWord "type" = true
  | stmt (.unknown _), _ => False
  | expr e, first | arm (.value e _ _ _), first => e.OpensWith first
  | arm (.tag subtype _ _ _), first => first = subtype

/-- The tokens of a source with the path place the node: it starts at the first of them, and its own
location is there or, for an operation, at the operator. -/
structure PlacedBy (path : Option String) (tokens : List Token) (node : Node) : Prop where
  first : ∃ first ∈ tokens.head?, node.OpensWith first ∧
    node.start? = some (first.location path) ∧
    (node.operator? = none → node.location? = some (first.location path))
  operator : ∀ operator ∈ node.operator?, operator ∈ tokens ∧ operator.kind.isLayout = false ∧
    node.location? = some (operator.location path)

variable {path : Option String}

private theorem PlacedBy.of_first {node : Node} {token : Token} {more : List Token}
    (hoperator : node.operator? = none) (hopens : node.OpensWith token)
    (hstart : node.start? = some (token.location path))
    (hlocation : node.location? = some (token.location path)) :
    node.PlacedBy path (token :: more) :=
  ⟨⟨token, rfl, hopens, hstart, fun _ => hlocation⟩, by simp [hoperator]⟩

/-- A node whose source starts with that of a child, and which is placed where the child starts. -/
theorem PlacedBy.extend {child node : Node} {start : Token} {front : List Token}
    (h : child.PlacedBy path front) (hstart : front.head? = some start)
    (hoperator : node.operator? = none)
    (hopens : ∀ token, child.OpensWith token → node.OpensWith token)
    (hplace : node.start? = child.start?) (hlocation : node.location? = some (start.location path))
    (more : List Token) : node.PlacedBy path (front ++ more) := by
  obtain ⟨first, hfirst, hfirstOpens, hfirstStart, -⟩ := h.first
  obtain rfl : start = first := Option.some.inj (hstart.symm.trans hfirst)
  obtain ⟨rest, rfl⟩ := List.head?_eq_some_iff.mp hstart
  exact .of_first hoperator (hopens _ hfirstOpens) (hplace.trans hfirstStart) hlocation

/-- The tokens spell the node. -/
def SpelledBy (path : Option String) (apart : List Token → List Token → Prop)
    (tokens : List Token) : Node → Prop
  | stmt s => Grammar.SpellsStmt path apart tokens s
  | expr e => Grammar.Spells path apart tokens (.expression e)
  | arm a => Grammar.Spells path apart tokens (.arm a)

end Node

namespace Grammar

variable {path : Option String} {apart : List Token → List Token → Prop} {tokens : List Token}

/-- The node that a phrase is, if it starts with the tokens of the node. -/
def Phrase.node? : Phrase → Option Node
  | .expression e | .level _ e | .call e | .access e | .primary e => some (.expr e)
  | .arm a => some (.arm a)
  | .block _ | .arguments _ | .elements _ | .fields _ | .arms _ => none

/-- An operand is a node of its own. -/
@[simp] theorem Level.node?_operand (level : Level) (e : Expr) :
    (level.operand e).node? = some (.expr e) := by
  cases level <;> rfl

/-- A left operand is a node of its own. -/
@[simp] theorem Level.node?_left (level : Level) (e : Expr) :
    (level.left e).node? = some (.expr e) := by
  cases level <;> rfl

/-- An expression does not start with a mark of the layout. -/
theorem isLayout_of_startsExpression {token : Token} (h : startsExpression token = true) :
    token.kind.isLayout = false := by
  have hkind := kind_of_startsExpression h
  cases hlayout : token.kind <;> simp_all [Kind.isLayout]

/-- A phrase is placed by its tokens. -/
theorem Spells.placed {phrase : Phrase} (h : Spells path apart tokens phrase) :
    ∀ node ∈ phrase.node?, node.PlacedBy path tokens := by
  induction h with
  | inline | indented | noArguments | argument | noElements | element | noFields | field | noArms
  | nextArm => simp [Phrase.node?]
  | operators _ ih | callee _ ih | object _ ih => exact ih
  | operand _ ih =>
    rw [Level.node?_operand] at ih
    exact ih
  | function hstart | conditional hstart | select hstart | grouping hstart | list hstart
  | record hstart | update hstart =>
    rintro _ ⟨⟩
    exact .of_first rfl hstart rfl rfl
  | reference | tag =>
    rintro _ ⟨⟩
    exact .of_first rfl rfl rfl rfl
  | @literal token htoken =>
    rintro _ ⟨⟩
    have hkind : token.kind ≠ .minus := by
      rcases htoken with h | h | h
      · simp [h]
      · simp [h]
      · simp [(Lexeme.isTruth_iff.mp h).1]
    exact .of_first rfl (.inl ⟨hkind, rfl⟩) rfl rfl
  | @negative minus number value hminus hnumber hvalue =>
    rintro _ ⟨⟩
    exact .of_first rfl (.inr ⟨hminus, number.toLexeme, hnumber, hvalue⟩) rfl rfl
  | @operation level left right operator a b _ hoperator _ ih _ =>
    rintro _ ⟨⟩
    rw [Level.node?_left] at ih
    obtain ⟨⟨first, hfirst, hopens, hstart, -⟩, -⟩ := ih _ rfl
    refine ⟨⟨first, by simp [Option.mem_def.mp hfirst], ?_, ?_, by simp [Node.operator?]⟩, ?_⟩
    · exact hopens
    · exact hstart
    · rintro _ ⟨⟩
      exact ⟨by simp, Level.isLayout_operator hoperator, rfl⟩
  | call _ hstart _ _ ih _ | get _ hstart _ _ ih | value _ hstart _ _ _ ih _ =>
    rintro _ ⟨⟩
    refine (ih _ rfl).extend hstart ?_ ?_ ?_ ?_ _
    · rfl
    · exact fun _ hopens => hopens
    · rfl
    · rfl

/-- A declaration is placed by its tokens. -/
theorem SpellsStmt.placed {s : Stmt} (h : SpellsStmt path apart tokens s) :
    (Node.stmt s).PlacedBy path tokens := by
  cases h with
  | binding => exact .of_first rfl rfl rfl rfl
  | customType hstart => exact .of_first rfl hstart rfl rfl

end Grammar

open Grammar

namespace Node

variable {path : Option String} {apart : List Token → List Token → Prop} {tokens : List Token}
  {node : Node}

/-- **Nodes are placed by their tokens.** -/
theorem SpelledBy.placed (h : node.SpelledBy path apart tokens) : node.PlacedBy path tokens := by
  cases node with
  | stmt s => exact SpellsStmt.placed h
  | expr e => exact Spells.placed h _ rfl
  | arm a => exact Spells.placed h _ rfl

/-- A node does not start with a mark of the layout. -/
theorem SpelledBy.head_plain (h : node.SpelledBy path apart tokens) :
    ∀ first ∈ tokens.head?, first.kind.isLayout = false := by
  cases node with
  | stmt s =>
    cases h with
    | binding hname => simp [hname, Kind.isLayout]
    | customType hstart => simp [(Lexeme.isWord_iff.mp hstart).1, Kind.isLayout]
  | expr e =>
    obtain ⟨first, more, rfl, hfirst⟩ := Spells.exists_cons h rfl
    rintro _ ⟨⟩
    exact isLayout_of_startsExpression hfirst
  | arm a =>
    obtain ⟨first, more, rfl, hfirst⟩ := Spells.exists_cons h rfl
    rintro _ ⟨⟩
    exact isLayout_of_startsOperand hfirst

end Node

namespace Grammar

/-- The nodes that a phrase consists of. -/
def Phrase.nodes : Phrase → List Node
  | .block e | .expression e | .level _ e | .call e | .access e | .primary e => [.expr e]
  | .arguments es | .elements es => es.map .expr
  | .fields entries => (entries.map Prod.snd).map .expr
  | .arm a => [.arm a]
  | .arms as => as.map .arm

private theorem Level.nodes_operand (level : Level) (e : Expr) :
    (level.operand e).nodes = [.expr e] := by
  cases level <;> rfl

private theorem Level.nodes_left (level : Level) (e : Expr) : (level.left e).nodes = [.expr e] := by
  cases level <;> rfl

variable {path : Option String} {apart : List Token → List Token → Prop} {tokens more : List Token}
  {nodes others : List Node}

/-- The nodes are spelled among the tokens of a source with the path, one behind another, and so are
the children of each node among its own tokens, and their children, and so on. -/
inductive Spread (path : Option String) (apart : List Token → List Token → Prop) :
    List Token → List Node → Prop where
  | nil {tokens : List Token} : Spread path apart tokens []
  | cons {gap used rest : List Token} {node : Node} {nodes : List Node} :
    node.SpelledBy path apart used → Spread path apart used node.children →
    Spread path apart rest nodes →
    Spread path apart (gap ++ (used ++ rest)) (node :: nodes)

namespace Spread

/-- Tokens in front do not matter. -/
theorem behind (front : List Token) (h : Spread path apart tokens nodes) :
    Spread path apart (front ++ tokens) nodes := by
  cases h with
  | nil => exact .nil
  | @cons gap used rest node nodes hnode hchildren hrest =>
    rw [← List.append_assoc]
    exact .cons hnode hchildren hrest

/-- A token in front does not change how nodes are spread. -/
theorem skip (token : Token) (h : Spread path apart tokens nodes) : Spread path apart
    (token :: tokens) nodes :=
  h.behind [token]

/-- Nodes spread over tokens and over those behind them are spread over both. -/
theorem append (h : Spread path apart tokens nodes) (h' : Spread path apart more others) :
    Spread path apart (tokens ++ more) (nodes ++ others) := by
  induction h with
  | nil => exact h'.behind _
  | cons hnode hchildren _ _ ih =>
    rw [List.append_assoc, List.append_assoc]
    exact .cons hnode hchildren ih

/-- Tokens behind do not matter. -/
theorem before (h : Spread path apart tokens nodes) (rest : List Token) :
    Spread path apart (tokens ++ rest) nodes := by
  have happend := h.append (nil : Spread path apart rest [])
  rwa [List.append_nil] at happend

/-- A node that all of the tokens spell. -/
theorem whole {node : Node} (h : node.SpelledBy path apart tokens)
    (hchildren : Spread path apart tokens node.children) : Spread path apart tokens [node] := by
  have hcons : Spread path apart ([] ++ (tokens ++ [])) [node] := .cons h hchildren .nil
  rwa [List.nil_append, List.append_nil] at hcons

end Spread

/-- A phrase of any rank is an expression. -/
theorem Spells.spread_whole {e : Expr} (rank : Nat) (h : Spells path apart tokens (phraseAt rank e))
    (hchildren : Spread path apart tokens (Node.expr e).children) :
    Spread path apart tokens [.expr e] :=
  .whole (h.of_rank_le (Nat.zero_le rank)) hchildren

/-- The nodes of a phrase are spread over its tokens. -/
theorem Spells.spread {phrase : Phrase} (h : Spells path apart tokens phrase) :
    Spread path apart tokens phrase.nodes := by
  induction h with
  | inline _ ih | operators _ ih | callee _ ih | object _ ih => exact ih
  | operand _ ih =>
    rw [Level.nodes_operand] at ih
    exact ih
  | indented _ _ _ _ _ _ ih => exact ((ih.before _).skip _).behind _
  | function hstart hnames harrow hbody ih =>
    exact Spells.spread_whole 0 (.function hstart hnames harrow hbody)
      (((ih.skip _).behind _).skip _)
  | conditional hif hc hthen ht hlines helse he ihc iht ihe =>
    exact Spells.spread_whole 0 (.conditional hif hc hthen ht hlines helse he)
      ((ihc.append ((iht.append ((ihe.skip _).behind _)).skip _)).skip _)
  | select hcase hs hof hne hlines hindent harms harmsNe hdedent ihs iharms =>
    exact Spells.spread_whole 0 (.select hcase hs hof hne hlines hindent harms harmsNe hdedent)
      ((ihs.append ((((iharms.before _).skip _).behind _).skip _)).skip _)
  | @operation level left right operator a b ha hoperator hb iha ihb =>
    have hwhole := Spells.operation ha hoperator hb
    rw [← Level.phraseAt_rank] at hwhole
    rw [Level.nodes_left] at iha
    rw [Level.nodes_operand] at ihb
    exact Spells.spread_whole level.rank hwhole (iha.append (ihb.skip _))
  | call he hstart harguments hne ihe iharguments =>
    exact Spells.spread_whole 6 (.call he hstart harguments hne) (ihe.append iharguments)
  | get he hstart hdot hname ih =>
    exact Spells.spread_whole 7 (.get he hstart hdot hname) (ih.before _)
  | literal htoken => exact Spells.spread_whole 8 (.literal htoken) .nil
  | negative hminus hnumber hvalue =>
    exact Spells.spread_whole 8 (.negative hminus hnumber hvalue) .nil
  | reference hname => exact Spells.spread_whole 8 (.reference hname) .nil
  | grouping hopener hbefore he hbehind hcloser ih =>
    exact Spells.spread_whole 8 (.grouping hopener hbefore he hbehind hcloser)
      (((ih.before _).behind _).skip _)
  | list hopener hseparators hitems hcloser ih =>
    exact Spells.spread_whole 8 (.list hopener hseparators hitems hcloser)
      (((ih.before _).behind _).skip _)
  | record hopener hlines hitems hkeys hcloser ih =>
    exact Spells.spread_whole 8 (.record hopener hlines hitems hkeys hcloser)
      (((ih.before _).behind _).skip _)
  | update hopener hlines he hpipe hseparators hitems hkeys hcloser ihe ihitems =>
    exact Spells.spread_whole 8 (.update hopener hlines he hpipe hseparators hitems hkeys hcloser)
      (((ihe.append (((ihitems.before _).behind _).skip _)).behind _).skip _)
  | noArguments | noElements | noFields | noArms => exact .nil
  | argument _ _ _ ihfirst ihrest => exact ihfirst.append ihrest
  | element _ _ _ _ ihfirst ihrest => exact ihfirst.append (ihrest.behind _)
  | field _ _ _ _ _ _ ihfirst ihrest =>
    exact ((ihfirst.append (ihrest.behind _)).skip _).skip _
  | tag hsubtype hnames harrow hresult ih =>
    exact .whole (Spells.tag hsubtype hnames harrow hresult) (((ih.skip _).behind _).skip _)
  | value hpattern hstart hkind harrow hresult ihpattern ihresult =>
    exact .whole (Spells.value hpattern hstart hkind harrow hresult)
      (ihpattern.append (ihresult.skip _))
  | nextArm _ _ _ _ ihfirst ihrest => exact ihfirst.append (ihrest.behind _)

/-- A declaration is spread over its tokens. -/
theorem SpellsStmt.spread {s : Stmt} (h : SpellsStmt path apart tokens s) :
    Spread path apart tokens [.stmt s] := by
  refine .whole h ?_
  cases h with
  | binding _ _ hbody => exact (hbody.spread.skip _).skip _
  | customType => exact .nil

/-- Declarations are spread over their tokens one behind another. -/
theorem SpellsStmts.spread {stmts : List Stmt} (h : SpellsStmts path apart tokens stmts) :
    Spread path apart tokens (stmts.map .stmt) := by
  induction h with
  | nil => exact .nil
  | cons hfirst _ _ _ ih => exact hfirst.spread.append (ih.behind _)

/-- **Programs are spread over their tokens**, declaration by declaration. -/
theorem SpellsProgram.spread {stmts : List Stmt} (h : SpellsProgram path apart tokens stmts) :
    Spread path apart tokens (stmts.map .stmt) := by
  obtain ⟨lines, rest, rfl, -, hrest⟩ := h
  exact hrest.spread.behind lines

/-- **Every node has tokens of its own**, and its children are spread over them. -/
theorem Spread.reached (h : Spread path apart tokens nodes) :
    ∀ node ∈ nodes.flatMap Node.reached,
      ∃ used, used <:+: tokens ∧ node.SpelledBy path apart used ∧
        Spread path apart used node.children := by
  induction h with
  | nil => simp
  | @cons gap used rest node nodes hnode hchildren _ ihchildren ihrest =>
    have hused : used <:+: gap ++ (used ++ rest) := ⟨gap, rest, by simp⟩
    have hrest : rest <:+: gap ++ (used ++ rest) := ⟨gap ++ used, [], by simp⟩
    rw [List.flatMap_cons, Node.reached_eq, List.cons_append, List.forall_mem_cons,
      List.forall_mem_append]
    refine ⟨⟨used, hused, hnode, hchildren⟩, fun inner hinner => ?_, fun later hlater => ?_⟩
    · obtain ⟨part, hpart, hspelled⟩ := ihchildren inner hinner
      exact ⟨part, hpart.trans hused, hspelled⟩
    · obtain ⟨part, hpart, hspelled⟩ := ihrest later hlater
      exact ⟨part, hpart.trans hrest, hspelled⟩

/-- The nodes start with tokens of their own that are no marks of the layout. -/
theorem Spread.start_mem (h : Spread path apart tokens nodes) :
    ∀ node ∈ nodes, ∃ first ∈ tokens, first.kind.isLayout = false ∧
      node.start? = some (first.location path) := by
  induction h with
  | nil => simp
  | @cons gap used rest node nodes hnode _ _ _ ih =>
    rw [List.forall_mem_cons]
    refine ⟨?_, fun later hlater => ?_⟩
    · obtain ⟨first, hfirst, -, hstart, -⟩ := hnode.placed.first
      have hmem := List.mem_of_mem_head? hfirst
      exact ⟨first, by simp [hmem], hnode.head_plain first hfirst, hstart⟩
    · obtain ⟨first, hfirst, hplain⟩ := ih later hlater
      exact ⟨first, by simp [hfirst], hplain⟩

end Grammar

end Slick
