import Slick.Command.Console
import Slick.Proofs.Command.Reports
import Slick.Proofs.Program.Places
import Slick.Proofs.Program.Verdict
import Slick.Service.Server

/-!
# All surfaces agree on a source

A source can be read as a program, turned into a tree, handed to the two handlers of the service and
named on the command line. Either it is read everywhere, and everything that is shown comes from
one tree, or it is refused everywhere, and every report is the same place and wording behind the
path that the surface gives the source.

The server and the console in front of the program are not part of it. They are parameters here, of
which only this is assumed: a request that carries a source, or arguments that name a command, are
handed over, and what comes back is sent on. Main statement: `Source.surfaces_agree`.
-/

namespace Slick

/-- The place and the wording of a flaw do not depend on its path. -/
theorem Flaw.located_into {path : Option String} {flaw : Flaw} :
    (flaw.moved (.into path)).located = flaw.located :=
  rfl

namespace Service

/-- A server for some kind of request: what it sends back on a request, a status and a response, if
it is given the handlers. -/
structure Server (Request : Type) where
  serve : Handlers → Request → Option (Nat × Response)

/-- The request asks for some work on a source: the source is handed to the handler, and the
response that comes back, if one does, is sent with the status for success. -/
def Server.Delivers {Request : Type} (server : Server Request) (request : Request) (work : Work)
    (source : String) : Prop :=
  ∀ (handlers : Handlers) (response : Response), handlers work source = .ok response →
    server.serve handlers request = some (200, response)

/-- The server that `answer` describes. -/
def server : Server Request where
  serve handlers request :=
    match answer handlers request with
    | .ok (.response response) => some (200, response)
    | _ => none

/-- The source that the content of a request comes to, if it is in order. -/
def Content.source? : Content → Option String
  | .source text => some text
  | _ => none

private theorem Content.eq_of_source? {content : Content} {text : String}
    (h : content.source? = some text) : content = .source text := by
  cases content with
  | source other => rw [Option.some.inj h]
  | wrong quoted => cases h
  | unreadable => cases h

/-- A request in order is delivered. -/
theorem server_delivers {request : Request} {work : Work} {source : String}
    (hmethod : request.method.toUpper = "POST")
    (haddress : Route.ofAddress? request.address = some (.work work))
    (hsource : (Content.ofText request.content).source? = some source) :
    server.Delivers request work source := by
  have hcontent := Content.eq_of_source? hsource
  intro handlers response hresponse
  simp only [server, answer, hmethod, haddress, hcontent, hresponse, ne_eq, not_true, if_false]

variable {keywords : Keywords} {source : String} {program : Program} {tree : Tree} {flaw : Flaw}

/-- What the handler for trees returns is sent back. -/
theorem Server.Delivers.serve_tree {Request : Type} {server : Server Request} {request : Request}
    (h : server.Delivers request .tree source) {response : TreeResponse}
    (hresponse : treeOf keywords source = .ok response) :
    server.serve (handlers keywords) request = some (200, .tree response) := by
  apply h
  rw [handlers, hresponse]
  rfl

/-- What the handler for checks returns is sent back. -/
theorem Server.Delivers.serve_check {Request : Type} {server : Server Request} {request : Request}
    (h : server.Delivers request .check source) {response : CheckResponse}
    (hresponse : checkOf keywords source = .ok response) :
    server.serve (handlers keywords) request = some (200, .check response) := by
  apply h
  rw [handlers, hresponse]
  rfl

/-- A source that is read has its tree as response. -/
theorem treeOf_of_parse (h : Program.parse keywords source (some path) = .ok program)
    (htree : program.display = .ok tree) :
    treeOf keywords source = .ok { ok := true, tree := some tree } := by
  have hsource := Source.tree_eq_ok_iff.mpr ⟨program, h, htree⟩
  simp only [treeOf, hsource]

/-- A source that is read has its number of declarations as response. -/
theorem checkOf_of_parse (h : Program.parse keywords source (some path) = .ok program)
    (htree : program.display = .ok tree) :
    checkOf keywords source = .ok { ok := true, statements := tree.children.length } := by
  rw [Program.display_of_parse h, Except.ok.injEq] at htree
  simp only [checkOf, h, ← htree, Tree.children_branch, List.length_map]

/-- A source that is refused has the text of its flaw as response. -/
theorem treeOf_of_refused
    (h : Program.parse keywords source (some path) = .error (.refused flaw))
    (hpath : flaw.path = some path) :
    treeOf keywords source = .ok { ok := false, error := some (path ++ flaw.located) } := by
  have htext := Flaw.text_diagnostic hpath (by decide)
  simp only [treeOf, Source.tree, h, htext]

/-- A check of a source that is refused has the same response. -/
theorem checkOf_of_refused
    (h : Program.parse keywords source (some path) = .error (.refused flaw))
    (hpath : flaw.path = some path) :
    checkOf keywords source = .ok { ok := false, error := some (path ++ flaw.located) } := by
  have htext := Flaw.text_diagnostic hpath (by decide)
  simp only [checkOf, h, htext]

end Service

/-- A console in front of the commands: what a command line leaves on it, and what arrives of a
text that is handed over for one of its two streams. -/
structure Console where
  run : (Invocation → Report) → List String → Output
  toStdout : String → String
  toStderr : String → String

/-- The arguments make up an invocation: it is handed to the commands, and what they report without
a log and without an exception is left on the console. -/
def Console.Delivers (console : Console) (args : List String) (invocation : Invocation) : Prop :=
  ∀ commands : Invocation → Report, (commands invocation).log = [] →
    (commands invocation).escape = none →
    console.run commands args =
      (commands invocation).output console.toStdout console.toStderr

/-- The console that `Invocation.ofArguments` describes, where the streams are no terminals. -/
def Console.plain : Console where
  run commands args :=
    match Invocation.ofArguments args with
    | .ok invocation => (commands invocation).output Text.plain Text.plain
    | .error _ => { exitCode := 2 }
  toStdout := Text.plain
  toStderr := Text.plain

/-- Arguments in order are delivered. -/
theorem Console.plain_delivers {args : List String} {invocation : Invocation}
    (h : Invocation.ofArguments args = .ok invocation) :
    Console.plain.Delivers args invocation := by
  intro commands _ _
  simp only [plain, h]

/-- The arguments name a command without a log, on a file that holds the source as UTF-8. -/
structure Console.Names (console : Console) (disk : Path → Found) (args : List String)
    (invocation : Invocation) (source : String) : Prop where
  delivers : console.Delivers args invocation
  quiet : invocation.verbose = false
  content : disk (Path.ofText invocation.file) = .file source.toUTF8

/-- What is reported on the source is left on the console. -/
theorem Console.Names.run_eq {console : Console} {disk : Path → Found} {args : List String}
    {invocation : Invocation} {keywords : Keywords} {source : String}
    (h : console.Names disk args invocation source) (hreturn : '\r' ∉ source.toList)
    {report : Report} (hreport : invocation.onSource keywords source = report)
    (hlog : report.log = []) (hescape : report.escape = none) :
    console.run (Invocation.onDisk keywords disk) args =
      report.output console.toStdout console.toStderr := by
  rw [← Invocation.onDisk_of_file h.content hreturn] at hreport
  rw [h.delivers _ (by rw [hreport, hlog]) (by rw [hreport, hescape]), hreport]

namespace Source

/-- The source is read on every surface, and what is shown of it comes from one tree. -/
structure Accepted (keywords : Keywords) (source : String) (tree : Tree) : Prop where
  /-- Under every path the source is read, and the program is converted to the tree. -/
  parse : ∀ path, ∃ program, Program.parse keywords source path = .ok program ∧
    program.display = .ok tree
  /-- The handler for trees returns the tree. -/
  treeOf : Service.treeOf keywords source = .ok { ok := true, tree := some tree }
  /-- The handler for checks returns the number of children of the tree. -/
  checkOf : Service.checkOf keywords source =
    .ok { ok := true, statements := tree.children.length }
  /-- Every command without a log shows the tree. -/
  onSource : ∀ invocation : Invocation, invocation.verbose = false →
    ∃ texts, invocation.onSource keywords source = { exitCode := 0, stdout := texts } ∧
      invocation.command.Shows tree texts
  /-- Every server answers that the source is in order, with the tree. -/
  serve_tree : ∀ {Request : Type} (server : Service.Server Request) (request : Request),
    server.Delivers request .tree source →
    server.serve (Service.handlers keywords) request =
      some (200, .tree { ok := true, tree := some tree })
  /-- Every server answers that the source is in order, with the number of its declarations. -/
  serve_check : ∀ {Request : Type} (server : Service.Server Request) (request : Request),
    server.Delivers request .check source →
    server.serve (Service.handlers keywords) request =
      some (200, .check { ok := true, statements := tree.children.length })
  /-- Every console shows the source, with nothing on its error stream. -/
  run : '\r' ∉ source.toList → ∀ (console : Console) (disk : Path → Found) (args : List String)
    (invocation : Invocation), console.Names disk args invocation source →
    ∃ texts, console.run (Invocation.onDisk keywords disk) args =
        { exitCode := 0, stdout := String.join (texts.map console.toStdout), stderr := "" } ∧
      invocation.command.Shows tree texts

/-- The source is refused on every surface for one flaw, which has a line and a column. -/
structure Refused (keywords : Keywords) (source : String) (flaw : Flaw) : Prop where
  /-- Under every path the source is refused for the flaw, with that path. -/
  parse : ∀ path,
    Program.parse keywords source path = .error (.refused (flaw.moved (.into path)))
  /-- The handler for trees returns the text of the flaw. -/
  treeOf : Service.treeOf keywords source =
    .ok { ok := false, error := some ("editor" ++ flaw.located) }
  /-- The handler for checks returns the same text. -/
  checkOf : Service.checkOf keywords source =
    .ok { ok := false, error := some ("editor" ++ flaw.located) }
  /-- Every command without a log reports that text on the error stream, with the path of the file
  in the place of `editor`. -/
  onSource : ∀ invocation : Invocation, invocation.verbose = false →
    invocation.onSource keywords source =
      { exitCode := 1, stderr := [invocation.path ++ flaw.located ++ "\n"] }
  /-- Every server answers a request for the tree with the text of the flaw. -/
  serve_tree : ∀ {Request : Type} (server : Service.Server Request) (request : Request),
    server.Delivers request .tree source →
    server.serve (Service.handlers keywords) request =
      some (200, .tree { ok := false, error := some ("editor" ++ flaw.located) })
  /-- Every server answers a request for a check with the same text. -/
  serve_check : ∀ {Request : Type} (server : Service.Server Request) (request : Request),
    server.Delivers request .check source →
    server.serve (Service.handlers keywords) request =
      some (200, .check { ok := false, error := some ("editor" ++ flaw.located) })
  /-- Every console has the flaw on its error stream and nothing else. -/
  run : '\r' ∉ source.toList → ∀ (console : Console) (disk : Path → Found) (args : List String)
    (invocation : Invocation), console.Names disk args invocation source →
    console.run (Invocation.onDisk keywords disk) args =
      { exitCode := 1, stdout := "",
        stderr := console.toStderr (invocation.path ++ flaw.located ++ "\n") }

/-- **All surfaces agree.** A source whose numerals have less than a million digits each is read on
every surface or refused on every surface. -/
theorem surfaces_agree {keywords : Keywords} {source : String}
    (h : NumeralsWithin 999999 keywords source) :
    (∃ tree, Accepted keywords source tree) ∨ ∃ flaw, Refused keywords source flaw := by
  rcases Program.parse_verdict h with ⟨program, hparse⟩ | ⟨flaw, hparse⟩
  · obtain ⟨tree, htree⟩ : ∃ tree, ∀ path, (program.moved (.into path)).display = .ok tree := by
      have hdisplay := Program.display_of_parse (hparse none)
      rw [Program.display_moved] at hdisplay
      exact ⟨_, fun path => (Program.display_moved (.into path) program).trans hdisplay⟩
    have htreeOf := Service.treeOf_of_parse (hparse _) (htree _)
    have hcheckOf := Service.checkOf_of_parse (hparse _) (htree _)
    have honSource : ∀ invocation : Invocation, invocation.verbose = false →
        ∃ texts, invocation.onSource keywords source = { exitCode := 0, stdout := texts } ∧
          invocation.command.Shows tree texts :=
      fun invocation hquiet => Invocation.onSource_of_parse (hparse _) (htree _) hquiet
    refine .inl ⟨tree, fun path => ⟨_, hparse path, htree path⟩, htreeOf, hcheckOf, honSource,
      fun server request hdelivers => hdelivers.serve_tree htreeOf,
      fun server request hdelivers => hdelivers.serve_check hcheckOf, ?_⟩
    intro hreturn console disk args invocation hnames
    obtain ⟨texts, hreport, hshows⟩ := honSource invocation hnames.quiet
    exact ⟨texts, hnames.run_eq hreturn hreport rfl rfl, hshows⟩
  · have htreeOf := Service.treeOf_of_refused (hparse _) rfl
    have hcheckOf := Service.checkOf_of_refused (hparse _) rfl
    have honSource : ∀ invocation : Invocation, invocation.verbose = false →
        invocation.onSource keywords source =
          { exitCode := 1, stderr := [invocation.path ++ flaw.located ++ "\n"] } := by
      intro invocation hquiet
      rw [Invocation.onSource_of_refused (hparse (some invocation.path)) rfl hquiet,
        Flaw.located_into]
    refine .inr ⟨flaw, hparse, htreeOf, hcheckOf, honSource,
      fun server request hdelivers => hdelivers.serve_tree htreeOf,
      fun server request hdelivers => hdelivers.serve_check hcheckOf, ?_⟩
    intro hreturn console disk args invocation hnames
    have hrun := hnames.run_eq hreturn (honSource invocation hnames.quiet) rfl rfl
    simp only [hrun, Report.output, List.map_nil, List.map_cons, String.join_cons, String.join_nil,
      String.empty_append, String.append_empty]

/-- A source with a declaration of either form. -/
def twoDeclarations : String := "type T:\n  A\nx : -1.5"

/-- The tokens of that source. -/
def twoDeclarationsTokens : List Token :=
  [⟨⟨.keyword, "type", .text "type"⟩, ⟨1, 1⟩⟩, ⟨⟨.uident, "T", .text "T"⟩, ⟨1, 6⟩⟩,
    ⟨⟨.colon, ":", .nothing⟩, ⟨1, 7⟩⟩, ⟨.newline, ⟨1, 8⟩⟩, ⟨.indent, ⟨2, 1⟩⟩,
    ⟨⟨.uident, "A", .text "A"⟩, ⟨2, 3⟩⟩, ⟨.newline, ⟨2, 4⟩⟩, ⟨.dedent, ⟨3, 1⟩⟩,
    ⟨⟨.ident, "x", .text "x"⟩, ⟨3, 1⟩⟩, ⟨⟨.colon, ":", .nothing⟩, ⟨3, 3⟩⟩,
    ⟨⟨.minus, "-", .nothing⟩, ⟨3, 5⟩⟩,
    ⟨⟨.number, "1.5", .decimal (.finite false 15 (-1))⟩, ⟨3, 6⟩⟩, ⟨.newline, ⟨3, 9⟩⟩,
    ⟨.eof, ⟨4, 1⟩⟩]

/-- A disk with the source in a file of the present directory. -/
def diskOfTwoDeclarations (file : Path) : Found :=
  if file = ⟨"", ["a.slick"]⟩ then .file twoDeclarations.toUTF8 else .nothing

/-- The source is accepted, a server answers requests that carry it, and a console shows it. -/
theorem surfaces_agree_twoDeclarations :
    NumeralsWithin 999999 Keywords.standard twoDeclarations ∧ '\r' ∉ twoDeclarations.toList ∧
      Service.server.Delivers ⟨"POST", "/api/check",
        "\x7b\"source\": \"type T:\\n  A\\nx : -1.5\"\x7d"⟩ .check twoDeclarations ∧
      Console.plain.Names diskOfTwoDeclarations ["tree", "--indent=4", "./a.slick"]
        ⟨false, .tree 4, "./a.slick"⟩ twoDeclarations ∧
      ∃ tree, Accepted Keywords.standard twoDeclarations tree := by
  have htokens : tokenize Keywords.standard twoDeclarations none = .ok twoDeclarationsTokens := rfl
  have hnumerals : NumeralsWithin 999999 Keywords.standard twoDeclarations := by
    intro tokens h
    rw [htokens] at h
    cases h
    decide
  have hpost : "POST".toUpper = "POST" := by
    rw [← String.toList_inj, String.toUpper, String.toList_map]
    decide
  refine ⟨hnumerals, by decide, Service.server_delivers hpost (by decide) (by decide +kernel),
    ⟨Console.plain_delivers rfl, rfl, rfl⟩, ?_⟩
  rcases surfaces_agree hnumerals with haccepted | ⟨flaw, hrefused⟩
  · exact haccepted
  · have hread : (Program.ofTokens twoDeclarationsTokens none).isOk = true := rfl
    rw [← Program.parse_of_tokenize htokens, hrefused.parse none] at hread
    cases hread

end Source

end Slick
