/-! The command line: what the arguments ask for. -/

namespace Tally.Command

/-- Where the program comes from. -/
inductive Source where
  | file (path : String)
  | inline (text : String)
deriving DecidableEq

/-- What is shown besides the output of the program. -/
structure Dumps where
  tokens : Bool
  ast : Bool
  vars : Bool
deriving DecidableEq

inductive Request where
  | usageError
  | help
  | version
  | run (source : Source) (dumps : Dumps)
  /-- A run, with no program to run. -/
  | noProgram
deriving DecidableEq

inductive Flag where
  | tokens
  | ast
  | vars
deriving DecidableEq

/-- Options that take a value. -/
inductive Setting where
  | eval
  | logLevel
deriving DecidableEq

/-- What an argument means on its own. -/
inductive Argument where
  | positional (path : String)
  | flag (flag : Flag)
  /-- The value is part of the argument, or else the next argument. -/
  | setting (setting : Setting) (value : Option String)
  | help
  | version
  /-- Whatever follows is positional. -/
  | separator
  | unknown
deriving DecidableEq

/-- A long option without its dashes. The value stands behind an equals sign. -/
def Argument.ofLong (name : List Char) (value : Option String) : Argument :=
  match String.ofList name, value with
  | "eval", value => .setting .eval value
  | "log-level", value => .setting .logLevel value
  | "tokens", none => .flag .tokens
  | "ast", none => .flag .ast
  | "vars", none => .flag .vars
  | "help", none => .help
  | "version", none => .version
  | _, _ => .unknown

/-- A short option without its dash, and what stands right behind it. Options
that end the reading of arguments make what stands there irrelevant. -/
def Argument.ofShort (letter : Char) (behind : List Char) : Argument :=
  match letter, behind with
  | 'e', [] => .setting .eval none
  | 'e', '=' :: value => .setting .eval (some (String.ofList value))
  | 'e', value => .setting .eval (some (String.ofList value))
  | 'h', _ => .help
  | 'V', _ => .version
  | _, _ => .unknown

def Argument.ofString (s : String) : Argument :=
  match s.toList with
  | ['-', '-'] => .separator
  | '-' :: '-' :: long =>
    match long.dropWhile (· ≠ '=') with
    | [] => ofLong long none
    | _ :: value => ofLong (long.takeWhile (· ≠ '=')) (some (String.ofList value))
  | '-' :: letter :: behind => ofShort letter behind
  | _ => .positional s

/-- A single dash is a value, any other argument with a dash in front is not. -/
def isValue (s : String) : Bool := s == "-" || s.toList.head? != some '-'

/-- What the arguments so far have given. -/
structure Draft where
  file : Option String
  eval : Option String
  logLevel : Option String
  dumps : Dumps
deriving DecidableEq

namespace Draft

def empty : Draft := ⟨none, none, none, ⟨false, false, false⟩⟩

/-- Takes one file, which has a name. -/
def addFile? (d : Draft) (path : String) : Option Draft :=
  if d.file.isSome ∨ path.isEmpty then none else some { d with file := some path }

/-- Takes no flag twice. -/
def addFlag? (d : Draft) : Flag → Option Draft
  | .tokens =>
    if d.dumps.tokens then none else some { d with dumps := { d.dumps with tokens := true } }
  | .ast => if d.dumps.ast then none else some { d with dumps := { d.dumps with ast := true } }
  | .vars => if d.dumps.vars then none else some { d with dumps := { d.dumps with vars := true } }

/-- Takes no setting twice. -/
def addSetting? (d : Draft) (setting : Setting) (value : String) : Option Draft :=
  match setting with
  | .eval => if d.eval.isSome then none else some { d with eval := some value }
  | .logLevel => if d.logLevel.isSome then none else some { d with logLevel := some value }

/-- The program to run: a text that is given goes before a file. -/
def source? (d : Draft) : Option Source :=
  match d.eval, d.file with
  | some text, _ => some (.inline text)
  | none, some path => some (.file path)
  | none, none => none

/-- There must be a file or a text, and not both. -/
def finish (d : Draft) : Request :=
  if d.file.isSome = d.eval.isSome then .usageError
  else
    match d.source? with
    | some source => .run source d.dumps
    | none => .noProgram

/-- The arguments behind a separator. -/
def readFiles (d : Draft) : List String → Request
  | [] => d.finish
  | path :: rest =>
    match d.addFile? path with
    | some d => d.readFiles rest
    | none => .usageError

/-- Reads the arguments from left to right. The first fault, request for help or
request for the version decides. -/
def read (d : Draft) : List String → Request
  | [] => d.finish
  | arg :: rest =>
    match Argument.ofString arg with
    | .positional path =>
      match d.addFile? path with
      | some d => d.read rest
      | none => .usageError
    | .flag flag =>
      match d.addFlag? flag with
      | some d => d.read rest
      | none => .usageError
    | .setting setting (some value) =>
      match d.addSetting? setting value with
      | some d => d.read rest
      | none => .usageError
    | .setting setting none =>
      match rest with
      | [] => .usageError
      | value :: rest =>
        if isValue value then
          match d.addSetting? setting value with
          | some d => d.read rest
          | none => .usageError
        else .usageError
    | .help => .help
    | .version => .version
    | .separator => d.readFiles rest
    | .unknown => .usageError

end Draft

def Request.ofArguments (arguments : List String) : Request := Draft.empty.read arguments

end Tally.Command
