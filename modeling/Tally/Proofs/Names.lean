import Tally.Proofs.Bindings
import Tally.Proofs.FirstFault

/-! Names that are read and names that are assigned to. A program shows before it runs which names
are bound at each of its statements, and no other ones are missed by a run. -/

namespace Tally

namespace Statement

/-- The expressions of a statement. -/
def exprs : Statement → List Expr
  | assign _ e => [e]
  | print items => items
  | unsupported _ => []

/-- The names that a statement reads. -/
def names (s : Statement) : List String := s.exprs.flatMap Expr.names

def assigned? : Statement → Option String
  | assign name _ => some name
  | _ => none

end Statement

namespace Machine

/-- The statements that run through: all of them, or those before the first fault. -/
def done (m : Machine) : Program → Program
  | [] => []
  | s :: rest =>
    match (s.run m).fault with
    | some _ => []
    | none => s :: (s.run m).machine.done rest

/-- The name is bound, or one of the statements assigns to it. -/
def Binds (m : Machine) (program : Program) (name : String) : Prop :=
  (m.store.get? name).isSome ∨ name ∈ program.filterMap Statement.assigned?

instance (m : Machine) (program : Program) (name : String) : Decidable (m.Binds program name) :=
  inferInstanceAs (Decidable (_ ∨ _))

end Machine

section Statements

variable {m : Machine} {s : Statement} {e : Expr} {name : String}

namespace Statement

/-- All expressions of a statement that runs through have a value. -/
theorem eval_of_run (h : (s.run m).fault = none) (he : e ∈ s.exprs) :
    ∃ v, e.eval m.store = .ok v := by
  cases hvalue : e.eval m.store with
  | ok v => exact ⟨v, rfl⟩
  | error fault =>
    exfalso
    cases s with
    | assign other value =>
      obtain rfl := List.mem_singleton.mp he
      simp [run_assign_of_error hvalue] at h
    | print items =>
      have hmem : e ∈ items := he
      obtain ⟨other, hitems⟩ := Expr.evalAll_of_mem hmem hvalue
      simp [run_print_of_error hitems] at h
    | unsupported => simp [exprs] at he

theorem bound_of_run (h : (s.run m).fault = none) (hname : name ∈ s.names) :
    (m.store.get? name).isSome := by
  obtain ⟨e, he, hname⟩ := List.mem_flatMap.mp hname
  obtain ⟨v, hv⟩ := eval_of_run h he
  exact Expr.bound_of_eval hv hname

/-- A name that a statement misses is one that it reads. -/
theorem unbound_of_run (h : (s.run m).fault = some (.undefinedVariable name)) :
    name ∈ s.names ∧ m.store.get? name = none := by
  obtain ⟨e, he, hfault⟩ : ∃ e ∈ s.exprs, e.eval m.store = .error (.undefinedVariable name) := by
    cases s with
    | assign other value =>
      refine ⟨value, List.mem_singleton_self value, ?_⟩
      cases hvalue : value.eval m.store with
      | error fault => simpa [run_assign_of_error hvalue] using h
      | ok v => simp [run, hvalue] at h
    | print items =>
      cases hitems : Expr.evalAll m.store items with
      | error fault =>
        obtain rfl : fault = .undefinedVariable name := by simpa [run_print_of_error hitems] using h
        exact Expr.exists_of_evalAll hitems
      | ok values => simp [run, hitems] at h
    | unsupported => simp [run] at h
  obtain ⟨hname, hnone⟩ := Expr.unbound_of_faults (Expr.faults_of_eval hfault)
  exact ⟨List.mem_flatMap.mpr ⟨e, he, hname⟩, hnone⟩

/-- A statement changes the value of no other name. -/
theorem get?_run_of_ne (h : s.assigned? ≠ some name) :
    (s.run m).machine.store.get? name = m.store.get? name := by
  cases s with
  | assign other e =>
    rw [run]
    split
    · rfl
    · have hne : name ≠ other := by
        rintro rfl
        exact h rfl
      rw [Store.get?_set, if_neg hne]
  | print items =>
    rw [run]
    split <;> rfl
  | unsupported => rfl

theorem isSome_get?_run (h : (s.run m).fault = none) (name : String) :
    ((s.run m).machine.store.get? name).isSome ↔
      s.assigned? = some name ∨ (m.store.get? name).isSome := by
  by_cases hname : s.assigned? = some name
  · cases s with
    | assign other e =>
      obtain rfl : other = name := Option.some.inj hname
      obtain ⟨v, hv⟩ := eval_of_run h (List.mem_singleton_self e)
      simp [run, hv, Store.get?_set, assigned?]
    | print | unsupported => cases hname
  · rw [get?_run_of_ne hname]
    simp [hname]

end Statement

end Statements

section Runs

variable {m : Machine} {program rest : Program} {k : Nat} {s : Statement} {fault : Fault}
  {name : String}

open Machine

theorem Machine.binds_cons (h : (s.run m).fault = none) :
    m.Binds (s :: rest) name ↔ (s.run m).machine.Binds rest name := by
  rw [Binds, Binds, Statement.isSome_get?_run h]
  cases hassigned : s.assigned? with
  | none => simp [hassigned]
  | some other =>
    simp only [List.filterMap_cons, hassigned, List.mem_cons, Option.some.injEq]
    rw [@eq_comm _ other, or_left_comm, or_assoc]

theorem Machine.done_of_fault (h : (s.run m).fault = some fault) : m.done (s :: rest) = [] := by
  rw [done, h]

theorem Machine.done_of_none (h : (s.run m).fault = none) :
    m.done (s :: rest) = s :: (s.run m).machine.done rest := by
  rw [done, h]

theorem Machine.done_eq_self (h : (program.run m).fault = none) : m.done program = program := by
  induction program generalizing m with
  | nil => rfl
  | cons s rest ih =>
    rw [Program.run_cons] at h
    cases hs : (s.run m).fault with
    | some fault => simp [Outcome.andThen_of_fault hs, hs] at h
    | none =>
      rw [Outcome.andThen_of_none hs] at h
      rw [done_of_none hs, ih h]

theorem Machine.FirstFault.done_eq (h : m.FirstFault program k s fault) :
    m.done program = program.take k := by
  induction program generalizing m k with
  | nil => simpa using h.statement
  | cons t rest ih =>
    cases k with
    | zero => exact done_of_fault (firstFault_zero_iff.mp h).2
    | succ k =>
      obtain ⟨ht, hrest⟩ := firstFault_succ_iff.mp h
      rw [done_of_none ht, ih hrest, List.take_succ_cons]

/-- The names that are bound behind a run are those that were bound before and those that a
statement assigned to. -/
theorem Program.isSome_get?_run (m : Machine) (program : Program) (name : String) :
    ((program.run m).machine.store.get? name).isSome ↔ m.Binds (m.done program) name := by
  induction program generalizing m with
  | nil => simp [Machine.done, Binds]
  | cons s rest ih =>
    rw [run_cons]
    cases hs : (s.run m).fault with
    | some fault =>
      rw [Outcome.andThen_of_fault hs, Statement.store_of_fault hs, done_of_fault hs]
      simp [Binds]
    | none => rw [Outcome.andThen_of_none hs, done_of_none hs, binds_cons hs, ih]

/-- The values of all other names are as they were. -/
theorem Program.get?_run_of_not_mem
    (h : name ∉ (m.done program).filterMap Statement.assigned?) :
    (program.run m).machine.store.get? name = m.store.get? name := by
  induction program generalizing m with
  | nil => rfl
  | cons s rest ih =>
    rw [run_cons]
    cases hs : (s.run m).fault with
    | some fault => rw [Outcome.andThen_of_fault hs, Statement.store_of_fault hs]
    | none =>
      rw [done_of_none hs, List.filterMap_cons] at h
      rw [Outcome.andThen_of_none hs]
      cases hassigned : s.assigned? with
      | none =>
        rw [hassigned] at h
        rw [ih h, Statement.get?_run_of_ne (by simp [hassigned])]
      | some other =>
        simp only [hassigned, List.mem_cons, not_or] at h
        rw [ih h.2, Statement.get?_run_of_ne (by simpa [hassigned] using Ne.symm h.1)]

/-- A run does not get past a statement that reads a name which is neither bound nor assigned to
before. -/
theorem exists_firstFault_of_not_binds (hs : program[k]? = some s) (hname : name ∈ s.names)
    (h : ¬ m.Binds (program.take k) name) : ∃ j ≤ k, ∃ t fault, m.FirstFault program j t fault := by
  induction program generalizing m k with
  | nil => simp at hs
  | cons t rest ih =>
    cases ht : (t.run m).fault with
    | some fault => exact ⟨0, Nat.zero_le k, t, fault, firstFault_zero_iff.mpr ⟨rfl, ht⟩⟩
    | none =>
      cases k with
      | zero =>
        obtain rfl : t = s := by simpa using hs
        exact absurd (.inl (Statement.bound_of_run ht hname)) h
      | succ k =>
        rw [List.take_succ_cons, binds_cons ht] at h
        obtain ⟨j, hj, u, fault, hu⟩ := ih (by simpa using hs) h
        exact ⟨j + 1, Nat.succ_le_succ hj, u, fault, firstFault_succ_iff.mpr ⟨ht, hu⟩⟩

/-- The statements before the first fault bind what the machine behind them does. -/
theorem Machine.FirstFault.isSome_get?_past (h : m.FirstFault program k s fault) (name : String) :
    ((m.past (program.take k)).store.get? name).isSome ↔ m.Binds (program.take k) name := by
  have hbound := Program.isSome_get?_run m (program.take k) name
  rwa [done_eq_self (by rw [h.run_take]), h.run_take] at hbound

theorem Machine.FirstFault.not_binds (h : m.FirstFault program k s (.undefinedVariable name)) :
    name ∈ s.names ∧ ¬ m.Binds (program.take k) name := by
  obtain ⟨hname, hnone⟩ := Statement.unbound_of_run h.faults
  refine ⟨hname, ?_⟩
  rw [← h.isSome_get?_past, hnone]
  simp

end Runs

/-- A run in which each statement reads only names that are bound or assigned to before misses none.
If one statement reads another name, the run gets to a fault there or before. A name that is missed
is read by the statement that faults, and is neither bound nor assigned to before. Behind a run those
names are bound that were bound before it or that a statement which ran through assigned to. -/
theorem binds_of_run (m : Machine) (program : Program) :
    ((∀ k s, program[k]? = some s → ∀ name ∈ s.names, m.Binds (program.take k) name) →
      ∀ name, (program.run m).fault ≠ some (.undefinedVariable name)) ∧
    (∀ k s name, program[k]? = some s → name ∈ s.names → ¬ m.Binds (program.take k) name →
      ∃ j ≤ k, ∃ t fault, m.FirstFault program j t fault ∧ (program.run m).fault = some fault) ∧
    (∀ name, (program.run m).fault = some (.undefinedVariable name) →
      ∃ j s, m.FirstFault program j s (.undefinedVariable name)) ∧
    (∀ j s name, m.FirstFault program j s (.undefinedVariable name) →
      name ∈ s.names ∧ m.store.get? name = none ∧
        name ∉ (program.take j).filterMap Statement.assigned?) ∧
    (∀ name, ((program.run m).machine.store.get? name).isSome ↔ m.Binds (m.done program) name) ∧
    ((program.run m).fault = none → m.done program = program) ∧
    ∀ j s fault, m.FirstFault program j s fault → m.done program = program.take j := by
  refine ⟨?_, ?_, fun name => exists_firstFault, ?_, Program.isSome_get?_run m program,
    Machine.done_eq_self, fun j s fault => Machine.FirstFault.done_eq⟩
  · intro h name hfault
    obtain ⟨j, s, hfirst⟩ := exists_firstFault hfault
    obtain ⟨hname, hnot⟩ := hfirst.not_binds
    exact hnot (h j s hfirst.statement name hname)
  · intro k s name hs hname hnot
    obtain ⟨j, hj, t, fault, hfirst⟩ := exists_firstFault_of_not_binds hs hname hnot
    exact ⟨j, hj, t, fault, hfirst, hfirst.fault_eq⟩
  · intro j s name hfirst
    obtain ⟨hname, hnot⟩ := hfirst.not_binds
    simpa [Machine.Binds, hname] using hnot

/-- Reads a name in the statement that assigns to it. -/
def counting : Program :=
  [.assign "b" (.integer 1), .print [.var "b", .text "a"],
   .assign "a" (.binary (.var "a") .add (.var "b")), .assign "c" (.var "a")]

theorem counting_binds :
    (let m := Machine.fresh .unlimited;
      ¬ m.Binds (counting.take 2) "a" ∧
      (∃ j ≤ 2, ∃ t fault, m.FirstFault counting j t fault ∧
        (counting.run m).fault = some fault) ∧
      (∃ j s, m.FirstFault counting j s (.undefinedVariable "a") ∧ "a" ∈ s.names ∧
        m.store.get? "a" = none ∧ "a" ∉ (counting.take j).filterMap Statement.assigned? ∧
        m.done counting = counting.take j) ∧
      ((counting.run m).machine.store.get? "b").isSome) ∧
    let n := Machine.mk (Store.empty.set "a" (.integer 4)).2 .unlimited;
      (∀ k s, counting[k]? = some s → ∀ name ∈ s.names, n.Binds (counting.take k) name) ∧
      (∀ name, (counting.run n).fault ≠ some (.undefinedVariable name)) ∧
      n.done counting = counting ∧ ((counting.run n).machine.store.get? "c").isSome := by
  refine ⟨?_, ?_⟩
  · intro m
    obtain ⟨-, hreads, hmissed, hfirst, hbound, -, hdone⟩ := binds_of_run m counting
    have hnot : ¬ m.Binds (counting.take 2) "a" := by decide +kernel
    obtain ⟨j, s, h⟩ := hmissed "a" (by decide +kernel)
    obtain ⟨hname, hnone, hassigned⟩ := hfirst j s "a" h
    refine ⟨hnot, hreads 2 _ "a" rfl (by decide) hnot,
      ⟨j, s, h, hname, hnone, hassigned, hdone j s _ h⟩, (hbound "b").mpr ?_⟩
    decide +kernel
  · intro n
    obtain ⟨hsafe, -, -, -, hbound, hdone, -⟩ := binds_of_run n counting
    have hbinds : ∀ k s, counting[k]? = some s →
        ∀ name ∈ s.names, n.Binds (counting.take k) name := by
      have hall : ∀ k : Fin 4, ∀ name ∈ counting[k].names, n.Binds (counting.take k) name := by
        decide +kernel
      intro k s hs
      obtain ⟨hk, rfl⟩ := List.getElem?_eq_some_iff.mp hs
      exact hall ⟨k, hk⟩
    refine ⟨hbinds, hsafe hbinds, hdone (by decide +kernel), (hbound "c").mpr ?_⟩
    decide +kernel

end Tally
