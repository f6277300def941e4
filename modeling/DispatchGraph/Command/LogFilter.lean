import DispatchGraph.Diagnostic
import DispatchGraph.Command.MatchPattern
import DispatchGraph.Command.Options
import DispatchGraph.Report.Sarif

/-!
# Which diagnostics are shown

A log setting is a list of directives between commas. A directive is a level, or has the form
`target[span{field=value}]=level`, from which parts may be missing. A level shows the diagnostics of
its kind and those that are more important.

* `Directive.read?`: the directive that a text stands for.
* `Directive.applies`: whether a directive is about a diagnostic. The tool's name must begin with
  its target, and the diagnostic must have its field. A directive with a span or a value is about
  what happens inside of spans, of which the tool has none.
* `showsBy`: of the directives that are about a diagnostic the most specific one decides.
* `logDirectives`: the directives of a run. Without a setting, or with one that cannot be read,
  warnings are shown, or nothing if the run is to be quiet.
-/

namespace DispatchGraph

/-- How much is shown. -/
inductive Verbosity where
  | off | error | warn | info | debug | trace
  deriving DecidableEq

namespace Verbosity

/-- All levels from the least to the most. -/
def all : List Verbosity := [off, error, warn, info, debug, trace]

/-- The name of a level. -/
def text : Verbosity → String
  | off => "off"
  | error => "error"
  | warn => "warn"
  | info => "info"
  | debug => "debug"
  | trace => "trace"

/-- A level by its name, in any case, or by its number. -/
def ofText? (name : String) : Option Verbosity :=
  match readCount? name with
  | some n => all[n]?
  | none => all.find? fun level => level.text = String.ofList (name.toList.map Char.toLower)

/-- Diagnostics of a level are shown. -/
def shows : Verbosity → Level → Bool
  | off, _ => false
  | error, _ => false
  | warn, level => level = .warn
  | info, level => level = .warn
  | debug, _ => true
  | trace, _ => true

end Verbosity

/-- A field that a directive asks for. -/
structure FieldCondition where
  name : String
  /-- The value of the field counts too. -/
  valued : Bool
  deriving DecidableEq

/-- A field condition, a name or a name and a value. The value must be one that can be asked for. -/
def FieldCondition.read? (text : List Char) : Option FieldCondition :=
  match splitAll '=' text with
  | name :: value :: _ =>
    if MatchPattern.isValid value then some ⟨String.ofList name, true⟩ else none
  | name :: [] => some ⟨String.ofList name, false⟩
  | [] => none

/-- A part of a log setting. -/
structure Directive where
  /-- What the tool's name must begin with. -/
  target : Option String
  span : Option String
  field : Option FieldCondition
  level : Verbosity
  deriving DecidableEq

namespace Directive

/-- The directive that shows a level of everything. -/
def ofLevel (level : Verbosity) : Directive := ⟨none, none, none, level⟩

/-! ## Reading -/

/-- What is being read, with the position at which it begins. -/
inductive Part where
  | start
  /-- A target, or a level that stands alone. -/
  | name (first : Nat)
  | span (first : Nat)
  | field (first : Nat)
  /-- After a field. -/
  | fieldEnd
  /-- After a span. -/
  | spanEnd
  | level (first : Nat)

/-- The characters of a text from one position up to another. -/
def cut (text : List Char) (first last : Nat) : List Char := (text.take last).drop first

/-- A directive may begin with the character, apart from a bracket. -/
def isLead (c : Char) : Bool := isAlphanumeric c || c ∈ ['-', ':', '_']

/-- The level that a text stands for. No text stands for all of them. -/
def readLevel? (text : List Char) : Option Verbosity :=
  if text = [] then some .trace else Verbosity.ofText? (String.ofList text)

/-- Read the character at a position. The parts that end there are cut from the text. -/
def step (text : List Char) : Part × Directive → Char × Nat → Option (Part × Directive)
  | (.start, d), (c, i) =>
    if c = '[' then some (.span (i + 1), d) else if isLead c then some (.name i, d) else none
  | (.name first, d), (c, i) =>
    let named := { d with target := some (String.ofList (cut text first i)) }
    if c = '=' then some (.level (i + 1), named)
    else if c = '[' then some (.span (i + 1), named)
    else some (.name first, d)
  | (.span first, d), (c, i) =>
    let name := cut text first i
    if c = ']' then some (.spanEnd, { d with span := some (String.ofList name) })
    else if c = '\x7b' then
      some (.field (i + 1), if name = [] then d else { d with span := some (String.ofList name) })
    else some (.span first, d)
  | (.field first, d), (c, i) =>
    let condition := cut text first i
    if c ≠ '\x7d' then some (.field first, d)
    else if condition = [] then none
    else do return (.fieldEnd, { d with field := some (← FieldCondition.read? condition) })
  | (.fieldEnd, d), (c, _) => if c = ']' then some (.spanEnd, d) else none
  | (.spanEnd, d), (c, i) => if c = '=' then some (.level (i + 1), d) else none
  | (.level first, d), _ => some (.level first, d)

/-- The directive once its text has been read. A name that is no level is a target, of which
everything is shown. -/
def finish? (text : List Char) : Part × Directive → Option Directive
  | (.name first, d) =>
    let name := String.ofList (text.drop first)
    match Verbosity.ofText? name with
    | some level => some { d with target := none, level }
    | none => some { d with target := some name }
  | (.level first, d) => (readLevel? (text.drop first)).map fun level => { d with level }
  | (.spanEnd, d) => some d
  | _ => none

/-- Read a directive. White space at its ends is passed over, but positions are counted from where
the white space ends, and parts are cut from the text with the white space. -/
def read? (text : List Char) : Option Directive := do
  let read ← (trimWhiteSpace text).zipIdx.foldlM (step text) (.start, ofLevel .trace)
  finish? text read

/-! ## Deciding -/

/-- The directive is about diagnostics with the given fields. -/
def applies (d : Directive) (fields : List String) : Bool :=
  d.span.isNone && d.target.all (fun target => target.toList.isPrefixOf toolName.toList)
    && d.field.all fun field => !field.valued && field.name ∈ fields

/-- The length of the target. -/
def reach (d : Directive) : Nat := (d.target.map String.length).getD 0

/-- The second directive is at least as specific as the first: its target is longer, or equally long
and its field has the same name or a later one. A field is more specific than none. -/
def upTo (a b : Directive) : Bool :=
  a.reach < b.reach || a.reach = b.reach &&
    match a.field, b.field with
    | none, _ => true
    | some _, none => false
    | some f, some g => (compare f.name g.name).isLE

end Directive

/-- The directives of a log setting. -/
def readDirectives? (setting : String) : Option (List Directive) :=
  ((splitAll ',' setting.toList).filter (· ≠ [])).mapM Directive.read?

/-- Directives show a diagnostic. Of directives that are equally specific the last decides. -/
def showsBy (directives : List Directive) (d : Diagnostic) : Bool :=
  let names := "message" :: d.fields.map Prod.fst
  match directives.filter (Directive.applies · names) with
  | [] => false
  | first :: rest =>
    (rest.foldl (fun best next => if best.upTo next then next else best) first).level.shows d.level

/-- The directives of a run, by the log setting, if there is one, and by whether the run is quiet.
A setting without directives shows errors. -/
def logDirectives (setting : Option String) (quiet : Bool) : List Directive :=
  match setting.bind readDirectives? with
  | some [] => [.ofLevel .error]
  | some directives => directives
  | none => [.ofLevel (if quiet then .error else .warn)]

end DispatchGraph
