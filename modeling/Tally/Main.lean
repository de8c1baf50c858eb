import Tally.Command.Response

/-! The command itself. -/

namespace Tally.Command

/-- The bytes of a file, or why there are none. -/
def readBytes (path : String) : IO (Except ReadError ByteArray) := do
  try
    return .ok (← IO.FS.readBinFile path)
  catch e =>
    return .error <|
      match e with
      | .noFileOrDirectory .. => .notFound
      | .inappropriateType _ code _ => if code == 21 then .isDirectory else .notDirectory
      | .unsupportedOperation .. => .isDirectory
      | .permissionDenied .. => .denied
      | .invalidArgument .. => .nameTooLong
      | _ => .other (toString e)

end Tally.Command

open Tally Command

/-- Answers a request. The file that it names is read beforehand, and output that
cannot be written is a failure of the program. -/
def main (arguments : List String) : IO UInt32 := do
  let request := Request.ofArguments arguments
  let file ← match request with
    | .run (.file path) _ => readBytes path
    | _ => pure (.error .notFound)
  let response := respond (fun _ => file) .unlimited request
  let written ← (do
    let stdout ← IO.getStdout
    stdout.write ⟨response.output.toArray⟩
    stdout.flush
    return true) <|> return false
  let response := if written then response else respond (fun _ => file) ⟨some 0, .deviceFull⟩ request
  (← IO.getStderr).putStr response.errors
  return response.exitCode.toUInt32
