import DispatchGraph.Command.Run

/-!
# The program

Reads the files that the arguments name, runs the analysis, writes the report and shows what there
is to show. Everything that is decided is decided in `DispatchGraph.Command.Run`.
-/

namespace DispatchGraph

/-- The environment variable with the log setting. -/
def logVariable : String := "RUST_LOG"

/-- What a call that does not run shows. -/
def Usage.text : Usage → String
  | help => "Class Hierarchy Analysis call graphs for JVM program models.\n\n" ++ summary
  | version => toolName ++ " 0.1.0"
  | missingInput => "error: an input is required\n\n" ++ summary
  | unknownArgument => "error: unexpected argument\n\n" ++ summary
  | invalidValue => "error: a value is missing or not allowed\n\n" ++ summary
  | unreadableValue => "error: a value cannot be read\n\n" ++ summary
  | repeatedArgument => "error: an option is given more than once\n\n" ++ summary
  | unneededValue => "error: a flag takes no value\n\n" ++ summary
where
  summary : String :=
    "Usage: " ++ toolName ++ " --input <PATH> [--classpath <PATH>]... [--entry <METHOD>]...\n" ++
    "    [--output <PATH>] [--format <sarif|json>] [--max-methods <N>] [--quiet] [--timing]"

/-- The reason why a path cannot be used. -/
def PathError.ofSystem : IO.Error → PathError
  | .noFileOrDirectory .. => .notFound
  | .inappropriateType _ 20 _ => .notDirectory
  | .inappropriateType _ 21 _ => .isDirectory
  | .permissionDenied _ 13 _ => .denied
  | .invalidArgument _ 36 _ => .tooLong
  | error => .other (toString error)

/-- What stands at a path in the file system. What cannot be read is kept with the reason. -/
partial def readNode (path : String) : IO FileNode := do
  let place := (← IO.currentDir) / path
  if ← place.isDir then
    match ← place.readDir.toBaseIO with
    | .ok found =>
      let entries ← found.toList.mapM fun entry => do
        return (entry.fileName, ← readNode (Path.join path entry.fileName))
      return .directory entries
    | .error error => return .closed (.ofSystem error)
  else
    match ← (IO.FS.readBinFile place).toBaseIO with
    | .ok content => return .file content
    | .error error => return .unreadable (.ofSystem error)

/-- What a path leads to in the file system. -/
def lookupInSystem (path : String) : IO (Except PathError FileNode) := do
  match ← ((← IO.currentDir) / path).metadata.toBaseIO with
  | .ok _ => return .ok (← readNode path)
  | .error error => return .error (.ofSystem error)

/-- Write the report to a file, or to standard output. -/
def writeReport (output : Option String) (report : String) : IO (Except RunError Unit) := do
  match output with
  | none =>
    (← IO.getStdout).putStr report
    return .ok ()
  | some path =>
    try
      IO.FS.writeFile path report
      return .ok ()
    catch error => return .error (.output path (.ofSystem error))

/-- Run with options. -/
def runInSystem (arguments : List String) (options : Options) : IO Completion := do
  let seen ← (options.input :: options.classpath).mapM fun path => do
    return (path, ← lookupInSystem path)
  let lookup path := ((seen.find? fun entry => entry.1 = path).map Prod.snd).getD (.error .notFound)
  match analyze lookup options with
  | .error failure => return .error failure
  | .ok analysis =>
    match ← writeReport options.outputFile? (analysis.report options arguments) with
    | .ok () => return .ok analysis
    | .error error => return .error ⟨error, analysis.diagnostics⟩

end DispatchGraph

open DispatchGraph in
/-- The command line. Its exit status is that of the run. -/
def main (arguments : List String) : IO UInt32 := do
  match Options.parse arguments with
  | .error usage =>
    if usage.exitCode = 0 then IO.println usage.text else IO.eprintln usage.text
    return usage.exitCode.toUInt32
  | .ok options =>
    let started ← IO.monoMsNow
    let completion ← runInSystem arguments options
    let elapsed := natText ((← IO.monoMsNow) - started)
    IO.eprint (completion.messages options (← IO.getEnv logVariable) elapsed)
    return completion.exitCode.toUInt32
