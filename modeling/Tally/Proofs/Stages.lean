import Tally.Command.Response
import Tally.Proofs.Bindings
import Tally.Proofs.Truncation

/-! Where a run of the command ends, and what it has written by then. The dumps that are asked for
and the level of the log have no say in how it ends. -/

namespace Tally

namespace Command

section Reading

def Source.arguments : Source → List String
  | file path => ["--", path]
  | inline text => ["--eval=" ++ text]

variable {d : Draft} {rest : List String}

end Reading

/-- The offset of a token, right-aligned in four columns, and the token. -/
def alignedLine (t : Token) : String :=
  String.ofList ((toString t.offset).toList.leftpad 4 ' ') ++ " " ++ t.shown

theorem tokenLine_eq (t : Token) : tokenLine t = alignedLine t := by
  rw [tokenLine, alignedLine, List.leftpad, String.ofList_append, String.ofList_toList,
    String.length_toList]

/-- The exit code for a text, and what the command has written by then. The first stage that fails
ends the command. -/
inductive Ends (dumps : Dumps) (text : String) : Nat → List UInt8 → Prop where
  | lexicalError {e} (h : Token.ofText text = .error e) : Ends dumps text 1 []
  | syntaxError {tokens e} (htokens : Token.ofText text = .ok tokens)
      (h : Program.ofTokens tokens = .error e) :
      Ends dumps text 1 (dump dumps.tokens (tokens.map alignedLine))
  | fault {tokens program fault} (htokens : Token.ofText text = .ok tokens)
      (hprogram : Program.ofTokens tokens = .ok program)
      (h : (program.run (.fresh .unlimited)).fault = some fault) :
      Ends dumps text 1 (dump dumps.tokens (tokens.map alignedLine) ++
        dump dumps.ast (program.map Statement.shown) ++ (program.run (.fresh .unlimited)).output)
  | success {tokens program bindings} (htokens : Token.ofText text = .ok tokens)
      (hprogram : Program.ofTokens tokens = .ok program)
      (h : (program.run (.fresh .unlimited)).fault = none)
      (hbindings : (program.run (.fresh .unlimited)).machine.store.Lists bindings) :
      Ends dumps text 0 (dump dumps.tokens (tokens.map alignedLine) ++
        dump dumps.ast (program.map Statement.shown) ++ (program.run (.fresh .unlimited)).output ++
        dump dumps.vars (bindings.map fun b => "$" ++ b.1 ++ " = " ++ b.2.described))

section Ends

variable {dumps others : Dumps} {text : String} {code other : Nat} {output more : List UInt8}

theorem write_unlimited (bytes : List UInt8) :
    Sink.unlimited.write bytes = ⟨bytes, .unlimited, none⟩ :=
  Sink.write_unlimited rfl

/-- The exit code is 1 if there is a failure. -/
theorem ends_perform (dumps : Dumps) (text : String) :
    Ends dumps text (if (perform dumps text .unlimited).2.isSome then 1 else 0)
      (perform dumps text .unlimited).1 := by
  cases htokens : Token.ofText text with
  | error e =>
    have hperform : perform dumps text .unlimited = ([], some (.lexical e)) := by
      simp [perform, htokens]
    rw [hperform]
    exact .lexicalError htokens
  | ok tokens =>
    cases hprogram : Program.ofTokens tokens with
    | error e =>
      have hperform : perform dumps text .unlimited =
          (dump dumps.tokens (tokens.map alignedLine), some (.structural e)) := by
        simp [perform, htokens, hprogram, write_unlimited, funext tokenLine_eq]
      rw [hperform]
      exact .syntaxError htokens hprogram
    | ok program =>
      cases hfault : (program.run (.fresh .unlimited)).fault with
      | some fault =>
        have hperform : perform dumps text .unlimited =
            (dump dumps.tokens (tokens.map alignedLine) ++
              dump dumps.ast (program.map Statement.shown) ++
              (program.run (.fresh .unlimited)).output, some (.runtime fault)) := by
          simp [perform, htokens, hprogram, hfault, write_unlimited, funext tokenLine_eq]
        rw [hperform]
        exact .fault htokens hprogram hfault
      | none =>
        have hsink : (program.run (.fresh .unlimited)).machine.sink = .unlimited :=
          congrArg Machine.sink (program.run_free .empty)
        have hperform : perform dumps text .unlimited =
            (dump dumps.tokens (tokens.map alignedLine) ++
              dump dumps.ast (program.map Statement.shown) ++
              (program.run (.fresh .unlimited)).output ++
              dump dumps.vars
                ((program.run (.fresh .unlimited)).machine.store.bindings.map bindingLine),
              none) := by
          simp [perform, htokens, hprogram, hfault, hsink, write_unlimited, funext tokenLine_eq]
        rw [hperform]
        exact .success htokens hprogram hfault (Store.lists_bindings _)

variable {readFile : String → Except ReadError ByteArray} {source : Source}

end Ends

end Command

end Tally
