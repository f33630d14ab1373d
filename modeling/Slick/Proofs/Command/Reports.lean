import Mathlib.Data.List.Forall2
import Slick.Command.Report
import Slick.Proofs.Program.Reading

/-!
# Reports on source files

A file that holds a source as UTF-8 is decoded to that source, as long as it has no carriage
returns. A command without a log reports a source that is read with the exit code zero and without
an error, and the list of its declarations says of each what its tree says; a source that is refused
is reported with the exit code one, by the place and the wording of its flaw behind the path. Main
statements: `Invocation.onSource_of_parse` and `Invocation.onSource_of_refused`.
-/

namespace Slick

/-- A tree that shows a declaration of the named form with the given name. -/
inductive Tree.Declares : Tree → String × String → Prop where
  | binding {name : String} {rest : List Tree} :
    Declares (.branch "Binding Declaration" (.under "Binding Name" (.leaf name) :: rest))
      ("VarDeclaration", name)
  | customType {name : String} {rest : List Tree} :
    Declares (.branch "Custom Type Declaration" (.under "Custom Type Name" (.leaf name) :: rest))
      ("CustomTypeDeclaration", name)

/-- The list of some declarations: how many there are, and each with its number, its form and its
name. -/
def Command.listOf (entries : List (String × String)) : List String :=
  ("Parsed " ++ toString entries.length ++ " statements.\n") ::
    entries.mapIdx fun i entry =>
      "  " ++ toString (i + 1) ++ ". " ++ entry.1 ++ " " ++ entry.2 ++ "\n"

/-- The texts that a command shows of the tree of a program. -/
inductive Command.Shows (tree : Tree) : Command → List String → Prop where
  | parse {entries : List (String × String)} :
    List.Forall₂ Tree.Declares tree.children entries → Shows tree .parse (listOf entries)
  | tree {indent : Int} : Shows tree (.tree indent) [tree.json indent ++ "\n"]
  | dump : Shows tree .dump [tree.dump]

/-- The place of a flaw and its wording, as they stand behind a path. -/
def Flaw.located (flaw : Flaw) : String :=
  ":" ++ toString flaw.line ++ ":" ++ toString flaw.column ++ ": " ++ flaw.cause.message

/-- A flaw is reported with its path in front. -/
theorem Flaw.text_diagnostic {flaw : Flaw} {path : String} (h : flaw.path = some path)
    (hpath : path ≠ "") : flaw.diagnostic.text = path ++ flaw.located := by
  simp only [Flaw.diagnostic, h, Diagnostic.text, Flaw.located, String.append_assoc]
  rfl

/-- The path that is shown for a file is not empty. -/
theorem Path.toText_ne_empty (file : String) : (Path.ofText file).toText ≠ "" := by
  rw [Path.toText]
  split
  · decide
  · next hsome =>
    intro hempty
    obtain ⟨hroot, hparts⟩ := String.append_eq_empty_iff.mp hempty
    cases hpieces : (Path.ofText file).parts with
    | nil => exact hsome ⟨hroot, hpieces⟩
    | cons part rest =>
      have hpart : part ≠ "" := by
        have hmem : part ∈ (Path.ofText file).parts := by simp [hpieces]
        have hkept := (List.mem_filter.mp hmem).2
        simp only [ne_eq, decide_not, Bool.and_eq_true, Bool.not_eq_true',
          decide_eq_false_iff_not] at hkept
        exact hkept.1
      rw [hpieces] at hparts
      cases rest with
      | nil => exact hpart (by simpa using hparts)
      | cons next rest =>
        rw [String.intercalate_cons_cons, String.append_eq_empty_iff,
          String.append_eq_empty_iff] at hparts
        exact hpart hparts.1.1

/-- A text without carriage returns keeps its line breaks. -/
theorem Text.universalNewlines_eq_self {text : List Char} (h : '\r' ∉ text) :
    universalNewlines text = text := by
  fun_induction universalNewlines text with
  | case1 => rfl
  | case2 => simp at h
  | case3 c rest _ ih =>
    rw [List.mem_cons, not_or] at h
    rw [if_neg (Ne.symm h.1), ih h.2]

/-- A file that holds a text without carriage returns is decoded to that text. -/
theorem Found.decode?_toUTF8 {source : String} (h : '\r' ∉ source.toList) :
    Found.decode? source.toUTF8 = some source := by
  have hdecode : String.fromUTF8? source.toUTF8 = some source := by
    rw [String.fromUTF8?, String.toUTF8_eq_toByteArray, dif_pos source.isValidUTF8]
    rfl
  rw [Found.decode?, hdecode, Option.map_some, Text.universalNewlines_eq_self h,
    String.ofList_toList]

namespace Invocation

variable {keywords : Keywords} {source : String} {invocation : Invocation}

/-- The declarations of a program are listed one after another by their forms and names. -/
theorem numbered_eq_mapIdx (stmts : List Stmt) (number : Nat) :
    numbered (number + 1) stmts =
      (stmts.map fun stmt => (stmt.variantName, stmt.declaredName)).mapIdx fun i entry =>
        "  " ++ toString (number + i + 1) ++ ". " ++ entry.1 ++ " " ++ entry.2 ++ "\n" := by
  induction stmts generalizing number with
  | nil => rfl
  | cons stmt stmts ih =>
    rw [numbered, ih, List.map_cons, List.mapIdx_cons]
    simp only [Nat.add_zero, Nat.add_assoc, Nat.add_comm 1]

/-- A declaration that was read is listed by the form and the name that its tree shows. -/
theorem declares_of_madeOf {known : Lexeme → Prop} {stmt : Stmt} (h : stmt.MadeOf known) :
    stmt.shown.Declares (stmt.variantName, stmt.declaredName) := by
  cases stmt with
  | binding name initializer location => exact .binding
  | customType name subtypes location => exact .customType
  | unknown reason => exact h.elim

/-- Without the wish for a log nothing is logged. -/
theorem log_of_quiet (hquiet : invocation.verbose = false) (part message : String) :
    invocation.log part message = [] := by
  rw [log, hquiet]
  rfl

/-- A program that was read is reported without an error. -/
theorem onProgram_of_parse {path : Option String} {program : Program} {tree : Tree}
    (h : Program.parse keywords source path = .ok program) (htree : program.display = .ok tree)
    (hquiet : invocation.verbose = false) :
    ∃ texts, invocation.onProgram program = { exitCode := 0, stdout := texts } ∧
      invocation.command.Shows tree texts := by
  have hdisplay := htree
  rw [Program.display_of_parse h, Except.ok.injEq] at hdisplay
  have hlog := log_of_quiet hquiet
  cases hcommand : invocation.command with
  | parse =>
    refine ⟨Command.listOf (program.statements.map fun stmt =>
      (stmt.variantName, stmt.declaredName)), ?_, .parse ?_⟩
    · have hlist := numbered_eq_mapIdx program.statements 0
      simp only [Nat.zero_add] at hlist
      simp only [onProgram, hcommand, opening, parsedLog, hlog, listing, hlist, Command.listOf,
        List.length_map, List.append_nil]
    · rw [← hdisplay, Tree.children_branch, List.forall₂_map_left_iff,
        List.forall₂_map_right_iff, List.forall₂_same]
      exact fun stmt hstmt => declares_of_madeOf (Program.madeOf_of_parse h stmt hstmt)
  | tree indent =>
    refine ⟨_, ?_, .tree⟩
    simp only [onProgram, hcommand, onTree, htree, opening, parsedLog, convertedLog, hlog,
      List.append_nil]
  | dump =>
    refine ⟨_, ?_, .dump⟩
    simp only [onProgram, hcommand, onTree, htree, opening, parsedLog, convertedLog, hlog,
      List.append_nil]

/-- A command without a log on a source that is read succeeds and shows the tree of the source. -/
theorem onSource_of_parse {program : Program} {tree : Tree}
    (h : Program.parse keywords source (some invocation.path) = .ok program)
    (htree : program.display = .ok tree) (hquiet : invocation.verbose = false) :
    ∃ texts, invocation.onSource keywords source = { exitCode := 0, stdout := texts } ∧
      invocation.command.Shows tree texts := by
  rw [onSource, h]
  exact onProgram_of_parse h htree hquiet

/-- A command without a log on a source that is refused fails and reports the flaw with its path. -/
theorem onSource_of_refused {flaw : Flaw}
    (h : Program.parse keywords source (some invocation.path) = .error (.refused flaw))
    (hpath : flaw.path = some invocation.path) (hquiet : invocation.verbose = false) :
    invocation.onSource keywords source =
      { exitCode := 1, stderr := [invocation.path ++ flaw.located ++ "\n"] } := by
  have htext := Flaw.text_diagnostic hpath (Path.toText_ne_empty invocation.file)
  rw [onSource, h]
  simp only [htext, opening, log_of_quiet hquiet]

/-- A command on a file that holds a source is a command on the source. -/
theorem onDisk_of_file {disk : Path → Found}
    (h : disk (Path.ofText invocation.file) = .file source.toUTF8)
    (hreturn : '\r' ∉ source.toList) :
    invocation.onDisk keywords disk = invocation.onSource keywords source := by
  rw [onDisk, h]
  simp only [report, Found.decode?_toUTF8 hreturn]

end Invocation

end Slick
