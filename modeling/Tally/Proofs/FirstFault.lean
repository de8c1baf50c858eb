import Mathlib.Data.List.Infix
import Mathlib.Tactic.Common
import Tally.Proofs.Evaluation

/-! The first fault. A run passes statement by statement up to the first one that faults. Of that
one nothing stays, unless the sink refuses the rest of its line. -/

namespace Tally

/-- Goes on with the machine that is left, unless there was a fault. -/
def Outcome.andThen (o : Outcome) (next : Machine → Outcome) : Outcome :=
  match o.fault with
  | some _ => o
  | none => { next o.machine with output := o.output ++ (next o.machine).output }

namespace Machine

/-- The machine past these statements, whatever becomes of each. -/
def past (m : Machine) : List Statement → Machine
  | [] => m
  | s :: rest => (s.run m).machine.past rest

/-- What these statements write, whatever becomes of each. -/
def written (m : Machine) : List Statement → List UInt8
  | [] => []
  | s :: rest => (s.run m).output ++ (s.run m).machine.written rest

/-- The statement with this number is the first one that faults. -/
structure FirstFault (m : Machine) (program : Program) (k : Nat) (s : Statement)
    (fault : Fault) : Prop where
  statement : program[k]? = some s
  before : ∀ j < k, ∀ t ∈ program[j]?, (t.run (m.past (program.take j))).fault = none
  faults : (s.run (m.past (program.take k))).fault = some fault

end Machine

/-- What may stay of the line of a statement that faults: a proper part of it if the sink
refuses the rest, and nothing if there is another fault. -/
def Statement.Leaves (s : Statement) (store : Store) (fault : Fault) (part : List UInt8) : Prop :=
  match fault with
  | .output _ => ∃ items values, s = .print items ∧ Expr.evalAll store items = .ok values ∧
      part <+: printed values ∧ part ≠ printed values
  | _ => part = []

/-- The statement leaves the sink alone. If it faults, it leaves the store alone too. -/
structure Statement.Silent (s : Statement) (store : Store) (fault : Option Fault)
    (left : Store) : Prop where
  run_eq : ∀ sink, s.run ⟨store, sink⟩ = ⟨fault, [], left, sink⟩
  left_eq : fault ≠ none → left = store
  ne_output : ∀ refusal, fault ≠ some (.output refusal)

/-- The statement does nothing but write a line. -/
structure Statement.Prints (s : Statement) (store : Store) (line : List UInt8) : Prop where
  run_eq : ∀ sink, s.run ⟨store, sink⟩ = ⟨(sink.write line).refused.map .output,
    (sink.write line).bytes, store, (sink.write line).sink⟩
  line_eq : ∃ items values, s = .print items ∧ Expr.evalAll store items = .ok values ∧
    line = printed values

section Statements

variable {m : Machine} {s : Statement} {store : Store} {sink : Sink} {e : Expr} {items : List Expr}
  {bytes : List UInt8} {fault : Fault} {refusal : Refusal} {name : String}

/-- Only part of the bytes is written if a sink refuses. -/
theorem Sink.write_of_refused (h : (sink.write bytes).refused = some refusal) :
    (sink.write bytes).bytes <+: bytes ∧ (sink.write bytes).bytes ≠ bytes := by
  obtain ⟨room, r⟩ := sink
  cases room with
  | none => simp [write] at h
  | some room =>
    simp only [write] at h ⊢
    split at h
    · simp at h
    · refine ⟨List.take_prefix room bytes, ?_⟩
      intro htake
      have hlen := congrArg List.length htake
      rw [List.length_take] at hlen
      omega

theorem Op.ne_output_of_apply {op : Op} {l r : Value} (h : op.apply l r = .error fault) :
    fault ≠ .output refusal := by
  have happlies := op.applies_apply l r
  rw [h] at happlies
  cases happlies <;> simp

theorem Expr.ne_output_of_eval (h : e.eval store = .error fault) : fault ≠ .output refusal := by
  cases faults_of_eval h with
  | unbound => simp
  | operation _ _ _ h => exact Op.ne_output_of_apply h

theorem Expr.exists_of_evalAll (h : evalAll store items = .error fault) :
    ∃ e ∈ items, e.eval store = .error fault := by
  induction items with
  | nil => simp [evalAll] at h
  | cons e items ih =>
    rw [evalAll] at h
    cases he : e.eval store with
    | error other =>
      rw [he] at h
      cases h
      exact ⟨e, List.mem_cons_self, he⟩
    | ok v =>
      rw [he] at h
      cases hrest : evalAll store items with
      | error other =>
        simp only [hrest] at h ih
        obtain ⟨d, hd, hfault⟩ := ih h
        exact ⟨d, List.mem_cons_of_mem e hd, hfault⟩
      | ok values => simp [hrest] at h

theorem Expr.ne_output_of_evalAll (h : evalAll store items = .error fault) :
    fault ≠ .output refusal := by
  obtain ⟨e, -, he⟩ := exists_of_evalAll h
  exact ne_output_of_eval he

theorem Expr.evalAll_of_mem (he : e ∈ items) (h : e.eval store = .error fault) :
    ∃ other, evalAll store items = .error other := by
  induction items with
  | nil => simp at he
  | cons d items ih =>
    rw [evalAll]
    cases hd : d.eval store with
    | error other => exact ⟨other, rfl⟩
    | ok v =>
      rcases List.mem_cons.mp he with rfl | he
      · rw [h] at hd
        cases hd
      · obtain ⟨other, hother⟩ := ih he
        exact ⟨other, by rw [hother]⟩

theorem Statement.run_print_of_error (h : Expr.evalAll m.store items = .error fault) :
    (print items).run m = ⟨some fault, [], m⟩ := by
  simp [run, h]

theorem Statement.run_assign_of_error (h : e.eval m.store = .error fault) :
    (assign name e).run m = ⟨some fault, [], m⟩ := by
  simp [run, h]

theorem Statement.silent_of_error {f : Fault}
    (h : ∀ sink, s.run ⟨store, sink⟩ = ⟨some f, [], store, sink⟩) (hf : ∀ r, f ≠ .output r) :
    s.Silent store (some f) store :=
  ⟨h, fun _ => rfl, fun r hr => hf r (Option.some.inj hr)⟩

theorem Statement.silent_or_prints (s : Statement) (store : Store) :
    (∃ fault left, s.Silent store fault left) ∨ ∃ line, s.Prints store line := by
  cases s with
  | assign name e =>
    left
    cases he : e.eval store with
    | error fault =>
      exact ⟨some fault, store, silent_of_error (fun sink => run_assign_of_error he)
        fun r => Expr.ne_output_of_eval he⟩
    | ok value => exact ⟨none, (store.set name value).2, by simp [run, he], by simp, by simp⟩
  | print items =>
    cases hitems : Expr.evalAll store items with
    | error fault =>
      left
      exact ⟨some fault, store, silent_of_error (fun sink => run_print_of_error hitems)
        fun r => Expr.ne_output_of_evalAll hitems⟩
    | ok values =>
      right
      exact ⟨printed values, by simp [run, hitems], items, values, rfl, hitems, rfl⟩
  | unsupported directive =>
    left
    exact ⟨some (.unsupportedStatement directive), store,
      silent_of_error (fun sink => rfl) (by simp)⟩

theorem Statement.store_of_fault (h : (s.run m).fault = some fault) :
    (s.run m).machine.store = m.store := by
  obtain ⟨store, sink⟩ := m
  rcases s.silent_or_prints store with ⟨f, left, hs⟩ | ⟨line, hs⟩
  · rw [hs.run_eq] at h ⊢
    exact hs.left_eq (by simp_all)
  · rw [hs.run_eq]

theorem Statement.leaves_of_fault (h : (s.run m).fault = some fault) :
    s.Leaves m.store fault (s.run m).output := by
  obtain ⟨store, sink⟩ := m
  rcases s.silent_or_prints store with ⟨f, left, hs⟩ | ⟨line, hs⟩
  · rw [hs.run_eq] at h ⊢
    obtain rfl : f = some fault := h
    cases fault with
    | output refusal => exact (hs.ne_output refusal rfl).elim
    | _ => rfl
  · rw [hs.run_eq] at h ⊢
    obtain ⟨refusal, hrefused, rfl⟩ := Option.map_eq_some_iff.mp h
    obtain ⟨items, values, rfl, hitems, rfl⟩ := hs.line_eq
    obtain ⟨hpart, hne⟩ := Sink.write_of_refused hrefused
    exact ⟨items, values, rfl, hitems, hpart, hne⟩

end Statements

section Runs

variable {m : Machine} {s t : Statement} {program rest : Program} {fault : Fault} {k : Nat}

theorem Program.run_cons (m : Machine) (s : Statement) (rest : Program) :
    run m (s :: rest) = (s.run m).andThen fun n => run n rest := by
  cases hs : (s.run m).fault <;> simp [run, runSteps, Outcome.andThen, hs]

theorem Outcome.andThen_of_fault {o : Outcome} {next : Machine → Outcome}
    (h : o.fault = some fault) : o.andThen next = o := by
  rw [andThen, h]

theorem Outcome.andThen_of_none {o : Outcome} {next : Machine → Outcome} (h : o.fault = none) :
    o.andThen next = ⟨(next o.machine).fault, o.output ++ (next o.machine).output,
      (next o.machine).machine⟩ := by
  rw [andThen, h]

theorem Outcome.andThen_assoc (o : Outcome) (f g : Machine → Outcome) :
    (o.andThen f).andThen g = o.andThen fun n => (f n).andThen g := by
  cases ho : o.fault with
  | some fault => rw [andThen_of_fault ho, andThen_of_fault ho, andThen_of_fault ho]
  | none =>
    rw [andThen_of_none ho, andThen_of_none ho]
    cases hf : (f o.machine).fault <;> simp [andThen, hf]

theorem Outcome.output_andThen (o : Outcome) (next : Machine → Outcome) :
    o.output <+: (o.andThen next).output := by
  cases ho : o.fault with
  | some fault => rw [andThen_of_fault ho]
  | none =>
    rw [andThen_of_none ho]
    exact List.prefix_append ..

theorem Program.run_singleton (m : Machine) (s : Statement) : run m [s] = s.run m := by
  rw [run_cons]
  cases hs : (s.run m).fault with
  | some fault => rw [Outcome.andThen_of_fault hs]
  | none => simp [Outcome.andThen_of_none hs, ← hs]

/-- A program runs in two parts, the second one only if the first one succeeds. -/
theorem Program.run_append (m : Machine) (first second : Program) :
    run m (first ++ second) = (run m first).andThen fun n => run n second := by
  induction first generalizing m with
  | nil => simp [Outcome.andThen]
  | cons s first ih =>
    rw [List.cons_append, run_cons, run_cons, Outcome.andThen_assoc]
    congr 1
    funext n
    exact ih n

namespace Machine

theorem firstFault_zero_iff :
    m.FirstFault (s :: rest) 0 t fault ↔ s = t ∧ (s.run m).fault = some fault := by
  constructor
  · rintro ⟨hs, -, hfault⟩
    obtain rfl : s = t := by simpa using hs
    exact ⟨rfl, hfault⟩
  · rintro ⟨rfl, hfault⟩
    exact ⟨rfl, by simp, hfault⟩

theorem firstFault_succ_iff : m.FirstFault (s :: rest) (k + 1) t fault ↔
    (s.run m).fault = none ∧ (s.run m).machine.FirstFault rest k t fault := by
  constructor
  · rintro ⟨ht, hbefore, hfault⟩
    refine ⟨hbefore 0 (by omega) s rfl, by simpa using ht, ?_, hfault⟩
    intro j hj u hu
    exact hbefore (j + 1) (by omega) u (by simpa using hu)
  · rintro ⟨hs, ht, hbefore, hfault⟩
    refine ⟨by simpa using ht, ?_, hfault⟩
    intro j hj u hu
    cases j with
    | zero =>
      obtain rfl : s = u := by simpa using hu
      exact hs
    | succ j => exact hbefore j (by omega) u (by simpa using hu)

end Machine

open Machine

theorem exists_firstFault (h : (program.run m).fault = some fault) :
    ∃ k s, m.FirstFault program k s fault := by
  induction program generalizing m with
  | nil => simp at h
  | cons s rest ih =>
    rw [Program.run_cons] at h
    cases hs : (s.run m).fault with
    | some other =>
      rw [Outcome.andThen_of_fault hs, hs] at h
      exact ⟨0, s, firstFault_zero_iff.mpr ⟨rfl, hs.trans h⟩⟩
    | none =>
      rw [Outcome.andThen_of_none hs] at h
      obtain ⟨k, t, ht⟩ := ih h
      exact ⟨k + 1, t, firstFault_succ_iff.mpr ⟨hs, ht⟩⟩

/-- The statements before the first fault run through. -/
theorem Machine.FirstFault.run_take (h : m.FirstFault program k s fault) :
    Program.run m (program.take k) =
      ⟨none, m.written (program.take k), m.past (program.take k)⟩ := by
  induction program generalizing m k with
  | nil => simpa using h.statement
  | cons t rest ih =>
    cases k with
    | zero => rfl
    | succ k =>
      obtain ⟨ht, hrest⟩ := firstFault_succ_iff.mp h
      rw [List.take_succ_cons, Program.run_cons, Outcome.andThen_of_none ht, ih hrest]
      rfl

/-- Nothing of what stands behind the first fault matters. -/
theorem Machine.FirstFault.run_eq (h : m.FirstFault program k s fault) (others : Program) :
    Program.run m (program.take (k + 1) ++ others) =
      ⟨some fault, m.written (program.take k) ++ (s.run (m.past (program.take k))).output,
        (s.run (m.past (program.take k))).machine⟩ := by
  have hs := h.faults
  have htake : program.take (k + 1) ++ others = program.take k ++ s :: others := by
    simp [List.take_add_one, h.statement]
  rw [htake, Program.run_append, h.run_take, Outcome.andThen_of_none rfl, Program.run_cons,
    Outcome.andThen_of_fault hs]
  simp [hs]

theorem Machine.FirstFault.fault_eq (h : m.FirstFault program k s fault) :
    (program.run m).fault = some fault := by
  have hrun := h.run_eq (program.drop (k + 1))
  rw [List.take_append_drop] at hrun
  rw [hrun]

end Runs

/-- A run faults exactly if one of its statements does. It is then the run of the statements
before the first one that faults, and at most a proper part of a line that the sink refuses. -/
theorem run_of_firstFault (m : Machine) (program : Program) :
    (∀ fault, (program.run m).fault = some fault ↔ ∃ k s, m.FirstFault program k s fault) ∧
    (∀ k s fault, m.FirstFault program k s fault →
      Program.run m (program.take k) =
        ⟨none, m.written (program.take k), m.past (program.take k)⟩ ∧
      (program.run m).machine.store = (m.past (program.take k)).store ∧
      (∃ part, (program.run m).output = m.written (program.take k) ++ part ∧
        s.Leaves (m.past (program.take k)).store fault part) ∧
      ∀ others, Program.run m (program.take (k + 1) ++ others) = program.run m) ∧
    (∀ items, ∀ e ∈ items, ∀ fault, e.eval m.store = .error fault →
      ∃ other, (Statement.print items).run m = ⟨some other, [], m⟩) ∧
    ∀ name e fault, e.eval m.store = .error fault →
      (Statement.assign name e).run m = ⟨some fault, [], m⟩ := by
  have hrun : ∀ k s fault, m.FirstFault program k s fault → program.run m =
      ⟨some fault, m.written (program.take k) ++ (s.run (m.past (program.take k))).output,
        (s.run (m.past (program.take k))).machine⟩ := by
    intro k s fault h
    simpa using h.run_eq (program.drop (k + 1))
  refine ⟨?_, ?_, ?_, ?_⟩
  · intro fault
    constructor
    · exact exists_firstFault
    · rintro ⟨k, s, h⟩
      rw [hrun k s fault h]
  · intro k s fault h
    refine ⟨h.run_take, ?_, ⟨(s.run (m.past (program.take k))).output, ?_, ?_⟩, ?_⟩
    · rw [hrun k s fault h]
      exact Statement.store_of_fault h.faults
    · rw [hrun k s fault h]
    · exact Statement.leaves_of_fault h.faults
    · intro others
      rw [h.run_eq, hrun k s fault h]
  · intro items e he fault h
    obtain ⟨other, hitems⟩ := Expr.evalAll_of_mem he h
    exact ⟨other, Statement.run_print_of_error hitems⟩
  · intro name e fault h
    exact Statement.run_assign_of_error h

/-- What is left after a run that failed, with room for four bytes. -/
def spentMachine : Machine :=
  (Program.run (.fresh ⟨some 4, .closed⟩) [.assign "x" (.integer 7), .unsupported "@end"]).machine

def cutProgram : Program :=
  [.assign "a" (.integer 1), .print [.text "é"], .print [.var "a", .var "x"],
   .assign "a" (.integer 2)]

theorem cutProgram_firstFault :
    spentMachine.FirstFault cutProgram 2 (.print [.var "a", .var "x"]) (.output .closed) ∧
    (cutProgram.run spentMachine).fault = some (.output .closed) ∧
    (cutProgram.run spentMachine).machine.store.bindings = [("a", .integer 1), ("x", .integer 7)] ∧
    (∃ part, (cutProgram.run spentMachine).output = lineBytes "é" ++ part ∧
      part <+: lineBytes "1 7" ∧ part ≠ lineBytes "1 7") ∧
    (∃ other, (Statement.print [.var "x", .var "a"]).run spentMachine =
      ⟨some other, [], spentMachine⟩) ∧
    (Statement.assign "x" (.var "a")).run spentMachine =
      ⟨some (.undefinedVariable "a"), [], spentMachine⟩ := by
  obtain ⟨hiff, hrun, hprint, hassign⟩ := run_of_firstFault spentMachine cutProgram
  have hfirst : spentMachine.FirstFault cutProgram 2 (.print [.var "a", .var "x"])
      (.output .closed) := by
    refine ⟨rfl, ?_, by decide⟩
    intro j hj t ht
    obtain rfl | rfl : j = 0 ∨ j = 1 := by omega
    · cases ht
      decide
    · cases ht
      decide
  obtain ⟨-, hstore, ⟨part, hpart, items, values, hitems, hvalues, hprefix, hne⟩, -⟩ :=
    hrun 2 _ _ hfirst
  obtain rfl : [.var "a", .var "x"] = items := by simpa using hitems
  obtain rfl : [.integer 1, .integer 7] = values := Except.ok.inj hvalues
  have hunbound : (Expr.var "a").eval spentMachine.store = .error (.undefinedVariable "a") := by
    decide
  refine ⟨hfirst, (hiff _).mpr ⟨2, _, hfirst⟩, ?_, ⟨part, hpart, hprefix, hne⟩, ?_, ?_⟩
  · rw [hstore]
    decide
  · exact hprint _ (.var "a") (by simp) _ hunbound
  · exact hassign _ _ _ hunbound

end Tally
