import DispatchGraph.Command.LogFilter
import DispatchGraph.EntryPoint
import DispatchGraph.Json.Printer
import DispatchGraph.Load
import DispatchGraph.Report.Graph

/-!
# Runs of the program

What a call of the program does, from what it can see of the files to what it shows: load the model,
build the call graph from the entry points, and write the report.

* `analyze`: everything up to the report.
* `Completion.exitCode`, `Completion.messages`: how a run ends and what it shows on standard error.
* `runInTree`: a whole run in a file tree.
-/

namespace DispatchGraph

/-! ## Failures -/

/-- Why a run fails. -/
inductive RunError where
  | inputMissing (path : String)
  | classpathMissing (path : String)
  | load (error : LoadError)
  /-- The file for the report cannot be written. -/
  | output (path : String) (error : PathError)

/-- The error and what caused it, outermost first. -/
def RunError.causes : RunError → List String
  | inputMissing path => ["input not found: " ++ path]
  | classpathMissing path => ["classpath entry not found: " ++ path]
  | load error => error.causes
  | output path error => ["failed to open " ++ path, error.message]

/-- A text with something before its first line, and as many blanks before the others. -/
def indented (lead text : String) : String :=
  lead ++ String.ofList (text.toList.flatMap fun c =>
    if c = '\n' then '\n' :: List.replicate lead.length ' ' else [c])

/-- A number, right-aligned in five columns, with a colon. -/
def causeNumber (n : Nat) : String :=
  let digits := natChars n
  String.ofList (List.replicate (5 - digits.length) ' ' ++ digits) ++ ": "

/-- How causes are shown: numbered, if there are several. -/
def causesText : List String → String
  | [] => ""
  | [cause] => "\n\nCaused by:\n" ++ indented "    " cause
  | causes => "\n\nCaused by:" ++ String.join
      (causes.zipIdx.map fun (cause, n) => "\n" ++ indented (causeNumber n) cause)

/-- How an error is shown. -/
def RunError.text (error : RunError) : String :=
  match error.causes with
  | [] => ""
  | outermost :: causes => "Error: " ++ outermost ++ causesText causes ++ "\n"

/-! ## Diagnostics -/

/-- The value of a field of a diagnostic, as it is shown. -/
def FieldValue.shown : FieldValue → String
  | text value => value
  | count value => natText value

/-- How a diagnostic is shown. -/
def Diagnostic.text (d : Diagnostic) : String :=
  " ".intercalate ((d.level.text ++ " " ++ toolName ++ ":") :: d.message
    :: d.fields.map fun (name, value) => name ++ "=" ++ value.shown) ++ "\n"

/-! ## The analysis -/

/-- What a run has found. -/
structure Analysis where
  loaded : Loaded
  construction : Construction
  /-- What was reported, in order. -/
  diagnostics : List Diagnostic

/-- Why a run fails, and what was reported before. -/
structure RunFailure where
  error : RunError
  diagnostics : List Diagnostic

/-- The first of the paths that leads nowhere. -/
def firstMissing? (lookup : String → Except PathError FileNode) (paths : List String) :
    Option String :=
  paths.find? fun path => !(lookup path).isOk

/-- Load the model and build its call graph. -/
def analyze (lookup : String → Except PathError FileNode) (options : Options) :
    Except RunFailure Analysis :=
  if !(lookup options.input).isOk then .error ⟨.inputMissing options.input, []⟩
  else
    match firstMissing? lookup options.classpath with
    | some path => .error ⟨.classpathMissing path, []⟩
    | none =>
      match loadInputs lookup options.input options.classpath with
      | .error failure => .error ⟨.load failure.error, failure.diagnostics⟩
      | .ok loaded =>
        let entries :=
          if options.entries.isEmpty then loaded.program.mainMethods else options.entries
        let warning := if entries.isEmpty then [.noEntryPoints] else []
        let run := loaded.program.run loaded.program.hierarchy entries options.maxMethods
        .ok ⟨loaded, run.construction entries, loaded.diagnostics ++ warning ++ run.diagnostics⟩

/-- The report in the format that was asked for. -/
def Analysis.report (a : Analysis) (options : Options) (arguments : List String) : String :=
  let value := match options.format with
    | .sarif => a.construction.sarif (toolName :: arguments)
    | .json => a.construction.report.toJson
  value.pretty ++ "\n"

/-- The counts of a run, with the time that it took. -/
def Analysis.timingLine (a : Analysis) (elapsed : String) : String :=
  let c := a.construction
  "timing: total_ms=" ++ elapsed ++ " files=" ++ natText a.loaded.fileCount
    ++ " classes=" ++ natText a.loaded.program.classCount
    ++ " methods=" ++ natText c.stats.methods ++ " call_sites=" ++ natText c.stats.callSites
    ++ " unresolved=" ++ natText c.stats.unresolved ++ " nodes=" ++ natText c.graph.nodeCount
    ++ " edges=" ++ natText c.graph.edgeCount
    ++ " complete=" ++ (if c.complete then "true" else "false") ++ "\n"

/-- Where the report goes: to a file, or to standard output. -/
def Options.outputFile? (options : Options) : Option String :=
  options.output.filter fun path => !Path.isPlainName path "-"

/-! ## Completion -/

/-- The end of a run: the analysis, if it was reported, and why not otherwise. -/
abbrev Completion := Except RunFailure Analysis

namespace Completion

/-- The exit code of a run. -/
def exitCode : Completion → Nat
  | .ok _ => 0
  | .error _ => 1

/-- What a run reports. -/
def diagnostics : Completion → List Diagnostic
  | .ok analysis => analysis.diagnostics
  | .error failure => failure.diagnostics

/-- What a run shows on standard error. -/
def messages (completion : Completion) (options : Options) (setting : Option String)
    (elapsed : String) : String :=
  let shown := completion.diagnostics.filter (showsBy (logDirectives setting options.quiet))
  let ending := match completion with
    | .ok analysis =>
      if options.timing && !options.quiet then analysis.timingLine elapsed else ""
    | .error failure => failure.error.text
  String.join (shown.map Diagnostic.text) ++ ending

end Completion

/-! ## Whole runs -/

/-- What a run leaves behind. -/
structure RunResult where
  exitCode : Nat
  /-- Standard output. -/
  output : String
  /-- Standard error. -/
  messages : String
  /-- The files afterwards. -/
  files : FileNode

/-- Write the report of an analysis: what goes to standard output, and the files afterwards. -/
def deliver (files : FileNode) (options : Options) (report : String) :
    Except RunError (String × FileNode) :=
  match options.outputFile? with
  | none => .ok (report, files)
  | some path =>
    match files.write path report.toUTF8 with
    | .ok files => .ok ("", files)
    | .error error => .error (.output path error)

/-- Run in a file tree, with the log setting, if there is one, and a text for the elapsed time. -/
def runInTree (files : FileNode) (arguments : List String) (options : Options)
    (setting : Option String) (elapsed : String) : RunResult :=
  let completed (completion : Completion) (output : String) (files : FileNode) : RunResult :=
    ⟨completion.exitCode, output, completion.messages options setting elapsed, files⟩
  match analyze files.lookup options with
  | .error failure => completed (.error failure) "" files
  | .ok analysis =>
    match deliver files options (analysis.report options arguments) with
    | .ok (output, files) => completed (.ok analysis) output files
    | .error error => completed (.error ⟨error, analysis.diagnostics⟩) "" files

end DispatchGraph
