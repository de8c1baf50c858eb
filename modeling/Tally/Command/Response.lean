import Tally.Command.Arguments
import Tally.Report.Excerpt
import Tally.Run.Execution

/-! What the command does with a request: its exit code and what it writes. -/

namespace Tally.Command

/-- Why a file gives no program. -/
inductive ReadError where
  | notFound
  | isDirectory
  /-- A file stands where the path goes on. -/
  | notDirectory
  | denied
  | nameTooLong
  | notText
  | other (message : String)
deriving DecidableEq

def ReadError.message : ReadError → String
  | notFound => "No such file or directory (os error 2)"
  | isDirectory => "Is a directory (os error 21)"
  | notDirectory => "Not a directory (os error 20)"
  | denied => "Permission denied (os error 13)"
  | nameTooLong => "File name too long (os error 36)"
  | notText => "stream did not contain valid UTF-8"
  | other message => message

/-- The text in a file, whose bytes must be UTF-8. -/
def decode (bytes : Except ReadError ByteArray) : Except ReadError String :=
  match bytes with
  | .error e => .error e
  | .ok bytes =>
    match String.fromUTF8? bytes with
    | some text => .ok text
    | none => .error .notText

structure Response where
  exitCode : Nat
  output : List UInt8
  errors : String
deriving DecidableEq

def helpText : String :=
  String.join <| List.map (· ++ "\n")
    ["Runs Tally programs: `$name = expr` assignments and `PRINT expr, ...`",
     "",
     "Usage: tally [OPTIONS] [FILE]",
     "",
     "Arguments:",
     "  [FILE]  Program file to run",
     "",
     "Options:",
     "  -e, --eval <SOURCE>          Run SOURCE directly instead of reading a file",
     "      --tokens                 Print the token sequence before parsing",
     "      --ast                    Print the parsed statements before running them",
     "      --vars                   Print every variable after the program finishes",
     "      --log-level <LOG_LEVEL>  Log filter used when RUST_LOG is not set [default: warn]",
     "  -h, --help                   Print help",
     "  -V, --version                Print version"]

def versionText : String := "tally 0.1.0\n"

/-- The lines of a dump, none if it is switched off. -/
def dump (on : Bool) (lines : List String) : List UInt8 :=
  if on then lines.flatMap lineBytes else []

/-- A token behind its offset, which is set to the right of four columns. -/
def tokenLine (t : Token) : String :=
  let offset := toString t.offset
  String.ofList (List.replicate (4 - offset.length) ' ') ++ offset ++ " " ++ t.shown

def bindingLine (b : Binding) : String := "$" ++ b.1 ++ " = " ++ b.2.described

/-- Runs a text stage by stage. A dump is written between two stages, and what
it cannot write is a failure like any other. -/
def perform (dumps : Dumps) (text : String) (sink : Sink) : List UInt8 × Option Failure :=
  match Token.ofText text with
  | .error e => ([], some (.lexical e))
  | .ok tokens =>
    let tokenDump := sink.write (dump dumps.tokens (tokens.map tokenLine))
    match tokenDump.refused, Program.ofTokens tokens with
    | some r, _ => (tokenDump.bytes, some (.runtime (.output r)))
    | none, .error e => (tokenDump.bytes, some (.structural e))
    | none, .ok program =>
      let astDump := tokenDump.sink.write (dump dumps.ast (program.map Statement.shown))
      match astDump.refused with
      | some r => (tokenDump.bytes ++ astDump.bytes, some (.runtime (.output r)))
      | none =>
        let outcome := program.run (.fresh astDump.sink)
        let output := tokenDump.bytes ++ astDump.bytes ++ outcome.output
        match outcome.fault with
        | some fault => (output, some (.runtime fault))
        | none =>
          let varDump := outcome.machine.sink.write
            (dump dumps.vars (outcome.machine.store.bindings.map bindingLine))
          (output ++ varDump.bytes, varDump.refused.map fun r => .runtime (.output r))

/-- The text of a program, or the file that gives none. -/
def Source.text (readFile : String → Except ReadError ByteArray) :
    Source → Except (String × ReadError) String
  | .inline text => .ok text
  | .file path => (decode (readFile path)).mapError (path, ·)

/-- Exit code 0 for success, 1 for a program that fails, 2 for no program. -/
def respond (readFile : String → Except ReadError ByteArray) (sink : Sink) : Request → Response
  | .usageError => ⟨2, [], ""⟩
  | .help => ⟨0, (sink.write (textBytes helpText)).bytes, ""⟩
  | .version => ⟨0, (sink.write (textBytes versionText)).bytes, ""⟩
  | .noProgram => ⟨2, [], "no program given\n"⟩
  | .run source dumps =>
    match source.text readFile with
    | .error (path, e) => ⟨2, [], "Failed to read '" ++ path ++ "': " ++ e.message ++ "\n"⟩
    | .ok text =>
      match perform dumps text sink with
      | (output, none) => ⟨0, output, ""⟩
      | (output, some failure) => ⟨1, output, failure.report text⟩

end Tally.Command
