/-! Where output goes: a sink that may fill up. -/

namespace Tally

/-- Why a sink takes no more. -/
inductive Refusal where
  | closed
  | noProgress
  | deviceFull
deriving DecidableEq

def Refusal.message : Refusal → String
  | closed => "closed"
  | noProgress => "failed to write whole buffer"
  | deviceFull => "No space left on device (os error 28)"

structure Sink where
  /-- How many bytes it still takes, if there is a limit. -/
  room : Option Nat
  refusal : Refusal
deriving DecidableEq

namespace Sink

def unlimited : Sink := ⟨none, .closed⟩

structure Written where
  bytes : List UInt8
  sink : Sink
  refused : Option Refusal

/-- Writes as many of the bytes as there is room for. -/
def write (s : Sink) (bytes : List UInt8) : Written :=
  match s.room with
  | none => ⟨bytes, s, none⟩
  | some room =>
    ⟨bytes.take room, { s with room := some (room - bytes.length) },
      if bytes.length ≤ room then none else some s.refusal⟩

end Sink

/-- The bytes of the characters, in UTF-8. -/
def textBytes (text : String) : List UInt8 := text.toList.flatMap String.utf8EncodeChar

def lineBytes (text : String) : List UInt8 := textBytes text ++ textBytes "\n"

end Tally
