import Mathlib
import Tally.Proofs.Reals
import Tally.Proofs.Spelling
import Tally.Proofs.Stages

/-! How numbers are shown. The dump of the variables and the output write every number alike but for
negative zero, which keeps its sign in the dump. -/

namespace Tally

/-- A number is described by the word for its kind and by this text. -/
def Value.Describes (v : Value) (kind text : String) : Prop :=
  kind ∈ ["integer ", "real "] ∧ v.described = kind ++ text

section Texts

variable {x : Float} {v : Value} {kind text : String}

theorem Decimal.ofReal_zero : ofReal 0 = "0" := by decide +kernel

theorem Decimal.ofReal_neg_zero : ofReal (-0) = "-0" := by decide +kernel

theorem Value.shown_neg_zero : (real (-0)).shown = "0" := by decide +kernel

/-- The output drops a sign from negative zero only. -/
theorem Value.ofReal_eq_shown_iff : Decimal.ofReal x = (real x).shown ↔ x ≠ -0 := by
  constructor
  · rintro h rfl
    rw [Decimal.ofReal_neg_zero, shown_neg_zero] at h
    exact absurd h (by decide)
  · intro hx
    rw [shown]
    split
    case isTrue hzero =>
      obtain rfl := (eq_zero_or_neg_zero_of_beq hzero).resolve_right hx
      exact Decimal.ofReal_zero
    case isFalse => rfl

theorem append_kind_inj {other more : String} (hkind : kind ∈ ["integer ", "real "])
    (hother : other ∈ ["integer ", "real "]) (h : kind ++ text = other ++ more) :
    kind = other ∧ text = more := by
  have hlist : kind.toList ++ text.toList = other.toList ++ more.toList := by
    rw [← String.toList_append, ← String.toList_append, h]
  simp only [List.mem_cons, List.not_mem_nil, or_false] at hkind hother
  rcases hkind with rfl | rfl <;> rcases hother with rfl | rfl
  · exact ⟨rfl, String.toList_inj.mp (List.append_cancel_left hlist)⟩
  · exact absurd (List.cons.inj hlist).1 (by decide)
  · exact absurd (List.cons.inj hlist).1 (by decide)
  · exact ⟨rfl, String.toList_inj.mp (List.append_cancel_left hlist)⟩

/-- What a number is described by behind the word for its kind. -/
theorem Value.Describes.cases (h : v.Describes kind text) :
    (∃ n, v = .integer n ∧ text = v.shown) ∨ ∃ x, v = .real x ∧ text = Decimal.ofReal x := by
  obtain ⟨hkind, hdescribed⟩ := h
  cases v with
  | integer n =>
    obtain ⟨-, rfl⟩ := append_kind_inj (by simp) hkind hdescribed
    exact .inl ⟨n, rfl, rfl⟩
  | real x =>
    obtain ⟨-, rfl⟩ := append_kind_inj (by simp) hkind hdescribed
    exact .inr ⟨x, rfl, rfl⟩
  | text s =>
    have hlist := congrArg String.toList hdescribed
    rw [described, String.toList_append, String.toList_append] at hlist
    simp only [List.mem_cons, List.not_mem_nil, or_false] at hkind
    rcases hkind with rfl | rfl <;> exact absurd (List.cons.inj hlist).1 (by decide)

theorem Value.exists_describes (h : ∀ s, v ≠ .text s) : ∃ kind text, v.Describes kind text := by
  cases v with
  | integer n => exact ⟨_, _, by simp, rfl⟩
  | real x => exact ⟨_, _, by simp, rfl⟩
  | text s => exact absurd rfl (h s)

theorem Value.Describes.eq_shown_iff (h : v.Describes kind text) :
    text = v.shown ↔ v ≠ .real (-0) := by
  rcases h.cases with ⟨n, rfl, rfl⟩ | ⟨x, rfl, rfl⟩
  · simp
  · rw [ofReal_eq_shown_iff, ne_eq, ne_eq, real.injEq]

end Texts

section Runs

variable {m : Machine} {program : Program} {name source : String} {v : Value}

theorem Statement.run_print_var (hroom : m.sink.room = none) (hv : m.store.get? name = some v) :
    (print [.var name]).run m = ⟨none, lineBytes v.shown, m⟩ := by
  have hitems : Expr.evalAll m.store [.var name] = .ok [v] := by
    simp [Expr.evalAll, Expr.eval, hv]
  rw [Statement.run, hitems]
  simp [Sink.write_unlimited hroom, printed]

/-- Behind a program that ends well a variable is shown with the value that it has. -/
theorem Program.run_append_print (hrun : (program.run m).fault = none)
    (hroom : (program.run m).machine.sink.room = none)
    (hv : (program.run m).machine.store.get? name = some v) :
    Program.run m (program ++ [.print [.var name]]) =
      ⟨none, (program.run m).output ++ lineBytes v.shown, (program.run m).machine⟩ := by
  rw [Program.run_append, Outcome.andThen_of_none hrun, Program.run_singleton,
    Statement.run_print_var hroom hv]

theorem Command.dump_of_mem {line : String} {lines : List String} (h : line ∈ lines) :
    ∃ front behind, dump true lines = front ++ lineBytes line ++ behind := by
  obtain ⟨before, others, rfl⟩ := List.append_of_mem h
  exact ⟨before.flatMap lineBytes, others.flatMap lineBytes, by simp [dump]⟩

/-- The dump of a program that ends well has a line for every variable. -/
theorem Command.exists_line (hprogram : Program.ofText source = .ok program)
    (hrun : (program.run (.fresh .unlimited)).fault = none)
    (hv : (program.run (.fresh .unlimited)).machine.store.get? name = some v) {dumps : Dumps}
    (hvars : dumps.vars) :
    ∃ front behind, perform dumps source .unlimited =
      (front ++ lineBytes ("$" ++ name ++ " = " ++ v.described) ++ behind, none) := by
  obtain ⟨tokens, htokens, hread⟩ := Program.ofText_eq_ok_iff.mp hprogram
  have hends := ends_perform dumps source
  rcases hperform : perform dumps source .unlimited with ⟨output, failure⟩
  rw [hperform] at hends
  generalize hcode : (if failure.isSome then 1 else 0) = code at hends
  cases hends with
  | lexicalError h => simp [htokens] at h
  | syntaxError h h' => simp_all
  | fault h h' h'' => simp_all
  | @success _ _ bindings h h' _ hbindings =>
    obtain rfl := Except.ok.inj (htokens.symm.trans h)
    obtain rfl := Except.ok.inj (hread.symm.trans h')
    have hfailure : failure = none := by simpa using hcode
    have hmem : (name, v) ∈ bindings := (hbindings.mem_iff name v).mpr hv
    obtain ⟨front, behind, hlines⟩ := dump_of_mem (List.mem_map_of_mem hmem)
    rw [hfailure, hvars, hlines]
    exact ⟨_ ++ front, behind, by simp only [List.append_assoc]; rfl⟩

end Runs

/-- A number that a variable has behind a program that ends well is described by a text in the dump,
and its value is shown in the output. The two are the same unless it is negative zero, which is `-0`
in the dump and `0` in the output. -/
theorem describes_of_run {program : Program} {name : String} {v : Value}
    (hrun : (program.run (.fresh .unlimited)).fault = none)
    (hv : (program.run (.fresh .unlimited)).machine.store.get? name = some v)
    (hnumber : ∀ value, v ≠ .text value) :
    ∃ kind text, v.Describes kind text ∧
      (∀ other more, v.Describes other more → other = kind ∧ more = text) ∧
      (∀ source dumps, Program.ofText source = .ok program → dumps.vars →
        ∃ front behind, Command.perform dumps source .unlimited =
          (front ++ lineBytes ("$" ++ name ++ " = " ++ (kind ++ text)) ++ behind, none)) ∧
      Program.run (.fresh .unlimited) (program ++ [.print [.var name]]) =
        ⟨none, (program.run (.fresh .unlimited)).output ++ lineBytes v.shown,
          (program.run (.fresh .unlimited)).machine⟩ ∧
      (text = v.shown ↔ v ≠ .real (-0)) ∧
      (v = .real (-0) → text = "-0" ∧ v.shown = "0") := by
  have hroom : (program.run (.fresh .unlimited)).machine.sink.room = none := by
    have hsink := congrArg Machine.sink (program.run_free .empty)
    exact congrArg Sink.room hsink
  obtain ⟨kind, text, hdescribes⟩ := Value.exists_describes hnumber
  refine ⟨kind, text, hdescribes, ?_, ?_, Program.run_append_print hrun hroom hv,
    hdescribes.eq_shown_iff, ?_⟩
  · intro other more hmore
    exact append_kind_inj hmore.1 hdescribes.1 (hmore.2.symm.trans hdescribes.2)
  · intro source dumps hprogram hvars
    have hline := Command.exists_line hprogram hrun hv hvars
    rwa [hdescribes.2] at hline
  · rintro rfl
    rcases hdescribes.cases with ⟨n, hn, -⟩ | ⟨x, hx, htext⟩
    · cases hn
    · obtain rfl := Value.real.inj hx
      exact ⟨htext.trans Decimal.ofReal_neg_zero, Value.shown_neg_zero⟩

def signedText : String := "$a = 0 - 1; $b = 0 / $a"

/-- A negative number and zero divided by it. -/
def signedStatements : Program :=
  [.assign "a" (.binary (.integer 0) .subtract (.integer 1)),
    .assign "b" (.binary (.integer 0) .divide (.var "a"))]

theorem signedText_describes :
    Program.ofText signedText = .ok signedStatements ∧
    (signedStatements.run (.fresh .unlimited)).fault = none ∧
    (signedStatements.run (.fresh .unlimited)).machine.store.get? "a" = some (.integer (-1)) ∧
    (signedStatements.run (.fresh .unlimited)).machine.store.get? "b" = some (.real (-0)) ∧
    (Value.integer (-1)).Describes "integer " "-1" ∧ "-1" = (Value.integer (-1)).shown ∧
    (Program.run (.fresh .unlimited) (signedStatements ++ [.print [.var "b"]])).output =
      lineBytes "0" ∧
    ∃ front behind, Command.perform ⟨false, false, true⟩ signedText .unlimited =
      (front ++ lineBytes "$b = real -0" ++ behind, none) := by
  have hread : Program.ofText signedText = .ok signedStatements := by decide +kernel
  have hrun : (signedStatements.run (.fresh .unlimited)).fault = none := by decide +kernel
  have ha : (signedStatements.run (.fresh .unlimited)).machine.store.get? "a" =
      some (.integer (-1)) := by decide +kernel
  have hb : (signedStatements.run (.fresh .unlimited)).machine.store.get? "b" =
      some (.real (-0)) := by decide +kernel
  have hinteger : (Value.integer (-1)).Describes "integer " "-1" := ⟨by simp, by decide +kernel⟩
  have hreal : (Value.real (-0)).Describes "real " "-0" := ⟨by simp, by decide +kernel⟩
  obtain ⟨kind, text, -, hfirst, -, -, hshown, -⟩ := describes_of_run hrun ha (by simp)
  obtain ⟨word, digits, -, hsecond, hline, hprint, -, hzero⟩ := describes_of_run hrun hb (by simp)
  obtain ⟨rfl, rfl⟩ := hfirst _ _ hinteger
  obtain ⟨rfl, rfl⟩ := hsecond _ _ hreal
  refine ⟨hread, hrun, ha, hb, hinteger, hshown.mpr (by simp), ?_, hline signedText _ hread rfl⟩
  rw [hprint, (hzero rfl).2]
  decide +kernel

/-- A variable that is negative zero is dumped in another way than it is shown. -/
theorem negativeZero_dumped :
    ¬ ∀ (program : Program) (name : String) (v : Value) (kind text : String),
      (program.run (.fresh .unlimited)).fault = none →
      (program.run (.fresh .unlimited)).machine.store.get? name = some v →
      v.Describes kind text → text = v.shown := by
  intro h
  have hdescribes : (Value.real (-0)).Describes "real " "-0" := ⟨by simp, by decide +kernel⟩
  have hshown := h signedStatements "b" (.real (-0)) "real " "-0" (by decide +kernel)
    (by decide +kernel) hdescribes
  exact absurd hshown (by decide +kernel)

end Tally
