import Mathlib.Data.List.Forall2
import Mathlib.Tactic.Common
import Tally.Run.Execution

/-! Evaluation as instructions for a stack, in postorder. The values of expressions are what the
instructions leave, and of all faults that are possible it is the first instruction to fail that
decides. Store and sink are as they were until all instructions are carried out. -/

namespace Tally

/-- What is done at one node of a tree. -/
inductive Instruction where
  | push (value : Value)
  | load (name : String)
  | apply (op : Op)
deriving DecidableEq

/-- Why an instruction fails. -/
inductive Trap where
  | fault (fault : Fault)
  /-- There are fewer than two values for an operator. -/
  | underflow
deriving DecidableEq

namespace Instruction

/-- The stack behind an instruction. The right operand is on top of the left one. -/
def step (store : Store) : Instruction → List Value → Except Trap (List Value)
  | push value, stack => .ok (value :: stack)
  | load name, stack =>
    match store.get? name with
    | some value => .ok (value :: stack)
    | none => .error (.fault (.undefinedVariable name))
  | apply op, r :: l :: stack =>
    match op.apply l r with
    | .ok value => .ok (value :: stack)
    | .error fault => .error (.fault fault)
  | apply _, _ => .error .underflow

/-- Carries out instructions in order, up to the first one that fails. -/
def execute (store : Store) : List Instruction → List Value → Except Trap (List Value)
  | [], stack => .ok stack
  | i :: rest, stack =>
    match i.step store stack with
    | .error trap => .error trap
    | .ok stack => execute store rest stack

/-- One of the instructions fails behind others that do not. -/
def FirstTrap (store : Store) (code : List Instruction) (trap : Trap) : Prop :=
  ∃ front i rest stack, code = front ++ i :: rest ∧ execute store front [] = .ok stack ∧
    i.step store stack = .error trap

end Instruction

open Instruction

def Expr.postorder : Expr → List Instruction
  | var name => [.load name]
  | text value => [.push (.text value)]
  | integer value => [.push (.integer value)]
  | binary left op right => left.postorder ++ right.postorder ++ [.apply op]

/-- The instructions for all expressions of a statement. -/
def Statement.postorder : Statement → List Instruction
  | assign _ e => e.postorder
  | print items => items.flatMap Expr.postorder
  | unsupported _ => []

section Stack

variable {store : Store} {code : List Instruction} {stack : List Value} {trap : Trap} {e : Expr}
  {items : List Expr} {v : Value} {vs : List Value} {fault : Fault} {sink : Sink}

namespace Instruction

theorem execute_append (code rest : List Instruction) (stack : List Value) :
    execute store (code ++ rest) stack =
      match execute store code stack with
      | .error trap => .error trap
      | .ok stack => execute store rest stack := by
  induction code generalizing stack with
  | nil => rfl
  | cons i code ih =>
    rw [List.cons_append, execute, execute]
    cases i.step store stack with
    | error trap => rfl
    | ok stack => exact ih stack

theorem execute_eq_error_iff : execute store code stack = .error trap ↔
    ∃ front i rest left, code = front ++ i :: rest ∧ execute store front stack = .ok left ∧
      i.step store left = .error trap := by
  constructor
  · intro h
    induction code generalizing stack with
    | nil => cases h
    | cons i code ih =>
      rw [execute] at h
      cases hi : i.step store stack with
      | error other =>
        rw [hi] at h
        cases h
        exact ⟨[], i, code, stack, rfl, rfl, hi⟩
      | ok top =>
        rw [hi] at h
        obtain ⟨front, j, rest, left, rfl, hfront, hj⟩ := ih h
        exact ⟨i :: front, j, rest, left, rfl, by rw [execute, hi]; exact hfront, hj⟩
  · rintro ⟨front, i, rest, left, rfl, hfront, hi⟩
    rw [execute_append, hfront]
    simp only [execute, hi]

end Instruction

namespace Expr

/-- The instructions of an expression leave its value on whatever is on the stack. -/
theorem execute_postorder_append (e : Expr) (rest : List Instruction) (stack : List Value) :
    execute store (e.postorder ++ rest) stack =
      match e.eval store with
      | .error fault => .error (.fault fault)
      | .ok v => execute store rest (v :: stack) := by
  induction e generalizing rest stack with
  | var name =>
    rw [postorder, List.singleton_append, execute, step, eval]
    cases store.get? name <;> rfl
  | text | integer => rfl
  | binary left op right ihl ihr =>
    rw [postorder, List.append_assoc, List.append_assoc, ihl, eval]
    cases left.eval store with
    | error fault => rfl
    | ok l =>
      simp only [ihr]
      cases right.eval store with
      | error fault => rfl
      | ok r =>
        simp only [List.singleton_append, execute, step]
        cases op.apply l r <;> rfl

theorem execute_postorder (e : Expr) : execute store e.postorder [] =
    match e.eval store with
    | .error fault => .error (.fault fault)
    | .ok v => .ok [v] := by
  have h := @execute_postorder_append store e [] []
  rw [List.append_nil] at h
  exact h

/-- Those of expressions in a row leave all their values, the last one on top. -/
theorem execute_flatMap_append (items : List Expr) (rest : List Instruction) (stack : List Value) :
    execute store (items.flatMap postorder ++ rest) stack =
      match evalAll store items with
      | .error fault => .error (.fault fault)
      | .ok vs => execute store rest (vs.reverse ++ stack) := by
  induction items generalizing stack with
  | nil => rfl
  | cons e items ih =>
    rw [List.flatMap_cons, List.append_assoc, execute_postorder_append, evalAll]
    cases e.eval store with
    | error fault => rfl
    | ok v =>
      simp only [ih]
      cases evalAll store items with
      | error fault => rfl
      | ok vs => simp

theorem execute_flatMap (items : List Expr) : execute store (items.flatMap postorder) [] =
    match evalAll store items with
    | .error fault => .error (.fault fault)
    | .ok vs => .ok vs.reverse := by
  have h := @execute_flatMap_append store items [] []
  rw [List.append_nil] at h
  rw [h]
  cases evalAll store items with
  | error fault => rfl
  | ok vs => simp [execute]

theorem eval_eq_error_iff :
    e.eval store = .error fault ↔ FirstTrap store e.postorder (.fault fault) := by
  rw [FirstTrap, ← execute_eq_error_iff, execute_postorder]
  cases e.eval store <;> simp

theorem evalAll_eq_error_iff : evalAll store items = .error fault ↔
    FirstTrap store (items.flatMap postorder) (.fault fault) := by
  rw [FirstTrap, ← execute_eq_error_iff, execute_flatMap]
  cases evalAll store items <;> simp

theorem evalAll_eq_ok_iff :
    evalAll store items = .ok vs ↔ List.Forall₂ (fun e v => e.eval store = .ok v) items vs := by
  induction items generalizing vs with
  | nil =>
    rw [evalAll, List.forall₂_nil_left_iff]
    simp [eq_comm]
  | cons e items ih =>
    rw [evalAll, List.forall₂_cons_left_iff]
    cases e.eval store with
    | error fault => simp
    | ok v =>
      cases hrest : evalAll store items with
      | error fault => simp [← ih, hrest]
      | ok rest =>
        simp only [← ih, hrest, Except.ok.injEq]
        constructor
        · rintro rfl
          exact ⟨v, rest, rfl, rfl, rfl⟩
        · rintro ⟨_, _, rfl, rfl, rfl⟩
          rfl

end Expr

namespace Statement

/-- A statement whose instructions fail does nothing else. -/
theorem run_of_firstTrap {s : Statement} (h : FirstTrap store s.postorder (.fault fault)) :
    s.run ⟨store, sink⟩ = ⟨some fault, [], store, sink⟩ := by
  cases s with
  | assign name e => simp only [run, Expr.eval_eq_error_iff.mpr h]
  | print items => simp only [run, Expr.evalAll_eq_error_iff.mpr h]
  | unsupported directive =>
    obtain ⟨front, i, rest, stack, hcode, -, -⟩ := h
    simp [postorder] at hcode

theorem run_assign_of_execute {name : String} (h : execute store e.postorder [] = .ok [v]) :
    (assign name e).run ⟨store, sink⟩ = ⟨none, [], (store.set name v).2, sink⟩ := by
  rw [Expr.execute_postorder] at h
  cases he : e.eval store with
  | error fault => simp [he] at h
  | ok value =>
    simp only [he, Except.ok.injEq, List.cons.injEq, and_true] at h
    simp only [run, he, h]

theorem run_print_of_execute (h : execute store (items.flatMap Expr.postorder) [] = .ok stack) :
    (print items).run ⟨store, sink⟩ =
      ⟨(sink.write (printed stack.reverse)).refused.map .output,
        (sink.write (printed stack.reverse)).bytes, store,
        (sink.write (printed stack.reverse)).sink⟩ := by
  rw [Expr.execute_flatMap] at h
  cases hitems : Expr.evalAll store items with
  | error fault => simp [hitems] at h
  | ok vs =>
    simp only [hitems, Except.ok.injEq] at h
    simp only [run, hitems, ← h, List.reverse_reverse]

end Statement

end Stack

/-- The value of an expression is what its instructions leave on the stack, alone. If one of them
fails, its fault is that of the evaluation, and of several expressions the first fault of all their
instructions in a row is reported. Otherwise their values are in order. Store and sink stay as they
are meanwhile: a fault leaves both, an assignment sets its variable only when the value is there,
and a line is written only when all values are. -/
theorem eval_eq_execute_postorder (store : Store) :
    (∀ e : Expr, execute store e.postorder [] =
      match e.eval store with
      | .error fault => .error (.fault fault)
      | .ok v => .ok [v]) ∧
    (∀ (e : Expr) fault, e.eval store = .error fault ↔ FirstTrap store e.postorder (.fault fault)) ∧
    (∀ items fault, Expr.evalAll store items = .error fault ↔
      FirstTrap store (items.flatMap Expr.postorder) (.fault fault)) ∧
    (∀ items vs, Expr.evalAll store items = .ok vs ↔
      List.Forall₂ (fun e v => e.eval store = .ok v) items vs) ∧
    (∀ (s : Statement) sink fault, FirstTrap store s.postorder (.fault fault) →
      s.run ⟨store, sink⟩ = ⟨some fault, [], store, sink⟩) ∧
    (∀ name (e : Expr) sink v, execute store e.postorder [] = .ok [v] →
      (Statement.assign name e).run ⟨store, sink⟩ = ⟨none, [], (store.set name v).2, sink⟩) ∧
    ∀ items sink stack, execute store (items.flatMap Expr.postorder) [] = .ok stack →
      (Statement.print items).run ⟨store, sink⟩ =
        ⟨(sink.write (printed stack.reverse)).refused.map .output,
          (sink.write (printed stack.reverse)).bytes, store,
          (sink.write (printed stack.reverse)).sink⟩ :=
  ⟨Expr.execute_postorder, fun _ _ => Expr.eval_eq_error_iff, fun _ _ => Expr.evalAll_eq_error_iff,
    fun _ _ => Expr.evalAll_eq_ok_iff, fun _ _ _ => Statement.run_of_firstTrap,
    fun _ _ _ _ => Statement.run_assign_of_execute, fun _ _ _ => Statement.run_print_of_execute⟩

def threeStore : Store := (Store.empty.set "a" (.integer 3)).2

/-- `$a + 2, "x" * $b`, where the variable has no value and the text is no number. -/
def faultyItems : List Expr :=
  [.binary (.var "a") .add (.integer 2), .binary (.text "x") .multiply (.var "b")]

/-- `$a - 5, "x"` -/
def soundItems : List Expr := [.binary (.var "a") .subtract (.integer 5), .text "x"]

def square : Expr := .binary (.var "a") .multiply (.var "a")

theorem faultyItems_firstTrap :
    (FirstTrap threeStore (Statement.print faultyItems).postorder
        (.fault (.undefinedVariable "b")) ∧
      Expr.evalAll threeStore faultyItems = .error (.undefinedVariable "b") ∧
      (Statement.print faultyItems).run ⟨threeStore, .unlimited⟩ =
        ⟨some (.undefinedVariable "b"), [], threeStore, .unlimited⟩) ∧
    (execute threeStore (soundItems.flatMap Expr.postorder) [] = .ok [.text "x", .integer (-2)] ∧
      (Statement.print soundItems).run ⟨threeStore, .unlimited⟩ =
        ⟨none, lineBytes "-2 x", threeStore, .unlimited⟩) ∧
    execute threeStore square.postorder [] = .ok [.integer 9] ∧
      (Statement.assign "a" square).run ⟨threeStore, .unlimited⟩ =
        ⟨none, [], (threeStore.set "a" (.integer 9)).2, .unlimited⟩ := by
  obtain ⟨-, -, hfault, -, hfails, hassign, hprint⟩ := eval_eq_execute_postorder threeStore
  have htrap : FirstTrap threeStore (Statement.print faultyItems).postorder
      (.fault (.undefinedVariable "b")) :=
    ⟨[.load "a", .push (.integer 2), .apply .add, .push (.text "x")], .load "b", [.apply .multiply],
      [.text "x", .integer 5], by decide, by decide +kernel, by decide +kernel⟩
  have hsound : execute threeStore (soundItems.flatMap Expr.postorder) [] =
      .ok [.text "x", .integer (-2)] := by decide +kernel
  have hsquare : execute threeStore square.postorder [] = .ok [.integer 9] := by decide +kernel
  refine ⟨⟨htrap, (hfault _ _).mpr htrap, hfails _ _ _ htrap⟩, ⟨hsound, ?_⟩, hsquare,
    hassign _ _ _ _ hsquare⟩
  rw [hprint _ _ _ hsound]
  decide +kernel

end Tally
