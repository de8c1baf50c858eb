import Tally.Proofs.FirstFault
import Tally.Proofs.Reals

/-! Finite reals only. Every result of arithmetic is checked, so no infinite and no undefined real
gets into a store, from where it could come back as an operand. -/

namespace Tally

/-- If it is a real, it is neither infinite nor undefined. -/
def Value.IsFinite : Value → Prop
  | .real x => x.isFinite
  | .integer _ | .text _ => True

def Store.IsFinite (s : Store) : Prop := ∀ b ∈ s.bindings, b.2.IsFinite

/-- If it is an overflow of reals, the operands that it names are finite. -/
def Fault.OperandsFinite : Fault → Prop
  | .realOverflow left _ right => left.isFinite ∧ right.isFinite
  | _ => True

/-- The result is as it should be, or a fault has finite operands. -/
def Yields {α : Type} (good : α → Prop) : Except Fault α → Prop
  | .ok a => good a
  | .error fault => fault.OperandsFinite

/-- The machines that runs lead to, one after the other, whatever becomes of each. In between the
sink may get into any state. -/
inductive Machine.Reachable : Machine → Prop where
  | fresh (sink : Sink) : Reachable (.fresh sink)
  | run {m sink} (h : Reachable m) (program : Program) :
      Reachable (program.run ⟨m.store, sink⟩).machine

section Arithmetic

variable {op : Op} {x y : Float} {l r : Value}

theorem Op.yields_applyReals (hx : x.isFinite) (hy : y.isFinite) :
    Yields Value.IsFinite (op.applyReals x y) := by
  unfold applyReals
  split
  · trivial
  · split
    case isTrue hfinite => exact hfinite
    case isFalse => exact ⟨hx, hy⟩

theorem Op.yields_applyIntegers (m n : Int64) : Yields Value.IsFinite (op.applyIntegers m n) := by
  unfold applyIntegers
  split
  · split <;> trivial
  · exact yields_applyReals (isFinite_realOfInteger m) (isFinite_realOfInteger n)

theorem Op.yields_apply (hl : l.IsFinite) (hr : r.IsFinite) :
    Yields Value.IsFinite (op.apply l r) := by
  cases l with
  | text s => trivial
  | integer m =>
    cases r with
    | text t => trivial
    | integer n => exact yields_applyIntegers m n
    | real y => exact yields_applyReals (isFinite_realOfInteger m) hr
  | real x =>
    cases r with
    | text t => trivial
    | integer n => exact yields_applyReals hl (isFinite_realOfInteger n)
    | real y => exact yields_applyReals hl hr

end Arithmetic

section Runs

variable {store : Store} {m : Machine} {name : String} {v : Value}

theorem Store.isFinite_of_get? (hs : store.IsFinite) (h : store.get? name = some v) :
    v.IsFinite := by
  obtain ⟨before, behind, hbindings, -⟩ := List.lookup_eq_some_iff.mp h
  exact hs (name, v) (by simp [hbindings])

theorem Store.isFinite_set (hs : store.IsFinite) (hv : v.IsFinite) :
    (store.set name v).2.IsFinite := by
  intro b hb
  rcases mem_place hb with rfl | hb
  · exact hv
  · exact hs b hb

theorem Expr.yields_eval (hs : store.IsFinite) (e : Expr) :
    Yields Value.IsFinite (e.eval store) := by
  induction e with
  | var name =>
    rw [eval]
    split
    case h_1 v hv => exact Store.isFinite_of_get? hs hv
    case h_2 => trivial
  | text s => trivial
  | integer n => trivial
  | binary left op right ihl ihr =>
    rw [eval]
    cases hl : left.eval store with
    | error fault =>
      rw [hl] at ihl
      exact ihl
    | ok l =>
      rw [hl] at ihl
      cases hr : right.eval store with
      | error fault =>
        rw [hr] at ihr
        exact ihr
      | ok r =>
        rw [hr] at ihr
        exact Op.yields_apply ihl ihr

theorem Expr.yields_evalAll (hs : store.IsFinite) (items : List Expr) :
    Yields (∀ v ∈ ·, v.IsFinite) (evalAll store items) := by
  induction items with
  | nil => simp [evalAll, Yields]
  | cons e items ih =>
    have he := e.yields_eval hs
    rw [evalAll]
    cases hfirst : e.eval store with
    | error fault =>
      rw [hfirst] at he
      exact he
    | ok v =>
      rw [hfirst] at he
      cases hrest : evalAll store items with
      | error fault =>
        rw [hrest] at ih
        exact ih
      | ok vs =>
        rw [hrest] at ih
        simpa [Yields] using ⟨he, ih⟩

/-- A statement keeps the reals in the store finite, and faults with finite operands only. -/
theorem Statement.isFinite_run (hs : m.store.IsFinite) (s : Statement) :
    (s.run m).machine.store.IsFinite ∧ ∀ fault ∈ (s.run m).fault, fault.OperandsFinite := by
  cases s with
  | assign name e =>
    have he := e.yields_eval hs
    cases hvalue : e.eval m.store with
    | error fault =>
      rw [hvalue] at he
      rw [run_assign_of_error hvalue]
      exact ⟨hs, by simpa [Yields] using he⟩
    | ok v =>
      rw [hvalue] at he
      simpa [run, hvalue] using Store.isFinite_set hs he
  | print items =>
    have hitems := Expr.yields_evalAll hs items
    cases hvalues : Expr.evalAll m.store items with
    | error fault =>
      rw [hvalues] at hitems
      rw [run_print_of_error hvalues]
      exact ⟨hs, by simpa [Yields] using hitems⟩
    | ok values =>
      simp only [run, hvalues]
      refine ⟨hs, ?_⟩
      intro fault hfault
      obtain ⟨refusal, -, rfl⟩ := Option.map_eq_some_iff.mp hfault
      trivial
  | unsupported directive => exact ⟨hs, by simp [run, Fault.OperandsFinite]⟩

/-- So does a run. -/
theorem Program.isFinite_run (hs : m.store.IsFinite) (program : Program) :
    (program.run m).machine.store.IsFinite ∧
      ∀ fault ∈ (program.run m).fault, fault.OperandsFinite := by
  induction program generalizing m with
  | nil => exact ⟨hs, by simp⟩
  | cons s rest ih =>
    have hfirst := s.isFinite_run hs
    rw [run_cons]
    cases hfault : (s.run m).fault with
    | some fault =>
      rw [Outcome.andThen_of_fault hfault]
      exact hfirst
    | none =>
      rw [Outcome.andThen_of_none hfault]
      exact ih hfirst.1

theorem Machine.Reachable.isFinite (h : m.Reachable) : m.store.IsFinite := by
  induction h with
  | fresh =>
    intro b hb
    simp [Machine.fresh, Store.empty] at hb
  | @run m sink _ program ih => exact (Program.isFinite_run (m := ⟨m.store, sink⟩) ih program).1

end Runs

/-- In every machine that runs lead to, all reals in the store are finite, and so is every value of
an item that a print statement comes to in a run from there. Overflows of reals happen between
finite operands. -/
theorem finite_of_reachable {m : Machine} (h : m.Reachable) (program : Program) :
    m.store.IsFinite ∧
    (∀ k items, program[k]? = some (.print items) →
      (Program.run m (program.take k)).fault = none →
      ∀ e ∈ items, ∀ v, e.eval (Program.run m (program.take k)).machine.store = .ok v →
        v.IsFinite) ∧
    ∀ left op right, (program.run m).fault = some (.realOverflow left op right) →
      left.isFinite ∧ right.isFinite := by
  refine ⟨h.isFinite, ?_, ?_⟩
  · intro k items _ _ e _ v hv
    have hvalue := e.yields_eval (Program.isFinite_run h.isFinite (program.take k)).1
    rw [hv] at hvalue
    exact hvalue
  · intro left op right hfault
    exact (Program.isFinite_run h.isFinite program).2 _ hfault

/-- Makes a real of `2 ^ 1008`: the largest integer as a real, squared four times. -/
def squares : Program :=
  .assign "a" (.binary (.integer 9223372036854775807) .divide (.integer 1)) ::
    List.replicate 4 (.assign "a" (.binary (.var "a") .multiply (.var "a")))

/-- Prints that real, and then squares it once more. -/
def overflowing : Program :=
  [.print [.var "a"], .print [.integer 1, .binary (.var "a") .multiply (.var "a")]]

theorem overflowing_finite :
    let m := (squares.run (.fresh .unlimited)).machine
    m.store.bindings = [("a", .real (.ofBits 0x7ef0000000000000))] ∧ m.store.IsFinite ∧
    (Value.real (.ofBits 0x7ef0000000000000)).IsFinite ∧
    (overflowing.run m).fault =
      some (.realOverflow (.ofBits 0x7ef0000000000000) .multiply (.ofBits 0x7ef0000000000000)) ∧
    (Float.ofBits 0x7ef0000000000000).isFinite := by
  intro m
  have hm : m.Reachable := .run (.fresh .unlimited) squares
  obtain ⟨hstore, hprinted, hoverflow⟩ := finite_of_reachable hm overflowing
  have hfault : (overflowing.run m).fault =
      some (.realOverflow (.ofBits 0x7ef0000000000000) .multiply (.ofBits 0x7ef0000000000000)) := by
    decide +kernel
  refine ⟨by decide +kernel, hstore, ?_, hfault, (hoverflow _ _ _ hfault).1⟩
  exact hprinted 0 [.var "a"] rfl rfl (.var "a") (by simp) _ (by decide +kernel)

end Tally
