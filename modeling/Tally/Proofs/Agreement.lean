import Tally.Proofs.Names

/-! Runs on different stores. A run depends on those variables only that a statement reads before one
assigns to them. -/

namespace Tally

/-- The stores bind the same values to the names that a statement reads and none before it assigns
to. -/
def Program.Agree (program : Program) (store other : Store) : Prop :=
  ∀ k s, program[k]? = some s → ∀ name ∈ s.names,
    name ∉ (program.take k).filterMap Statement.assigned? → other.get? name = store.get? name

/-- The outcomes differ at most in their stores. -/
structure Outcome.Alike (o p : Outcome) : Prop where
  fault : p.fault = o.fault
  output : p.output = o.output
  sink : p.machine.sink = o.machine.sink

section Statements

variable {store other : Store} {m n : Machine} {e : Expr} {items : List Expr} {s : Statement}
  {name : String}

theorem Expr.eval_of_agree (h : ∀ name ∈ e.names, other.get? name = store.get? name) :
    e.eval other = e.eval store := by
  induction e with
  | var name => rw [eval, eval, h name (by simp [names])]
  | text | integer => rfl
  | binary left op right ihl ihr =>
    have hleft := ihl fun name hname => h name (by simp [names, hname])
    have hright := ihr fun name hname => h name (by simp [names, hname])
    rw [eval, eval, hleft, hright]

theorem Expr.evalAll_of_agree
    (h : ∀ name ∈ items.flatMap names, other.get? name = store.get? name) :
    evalAll other items = evalAll store items := by
  induction items with
  | nil => rfl
  | cons e items ih =>
    rw [List.flatMap_cons] at h
    have hfirst : e.eval other = e.eval store :=
      eval_of_agree fun name hname => h name (List.mem_append_left _ hname)
    have hrest := ih fun name hname => h name (List.mem_append_right _ hname)
    rw [evalAll, evalAll, hfirst, hrest]

theorem Statement.alike_run (hsink : n.sink = m.sink)
    (h : ∀ name ∈ s.names, n.store.get? name = m.store.get? name) :
    (s.run m).Alike (s.run n) := by
  cases s with
  | assign target e =>
    have heval : e.eval n.store = e.eval m.store :=
      Expr.eval_of_agree (by simpa [names, exprs] using h)
    rw [run, run, heval]
    split <;> exact ⟨rfl, rfl, hsink⟩
  | print items =>
    have hitems : Expr.evalAll n.store items = Expr.evalAll m.store items :=
      Expr.evalAll_of_agree h
    rw [run, run, hitems, hsink]
    split
    · exact ⟨rfl, rfl, hsink⟩
    · exact ⟨rfl, rfl, rfl⟩
  | unsupported => exact ⟨rfl, rfl, hsink⟩

/-- A variable gets the same value, for that depends on the names that are read. -/
theorem Statement.get?_run_of_agree (hfault : (s.run m).fault = none)
    (h : ∀ name ∈ s.names, n.store.get? name = m.store.get? name) (hs : s.assigned? = some name) :
    (s.run n).machine.store.get? name = (s.run m).machine.store.get? name := by
  cases s with
  | assign target e =>
    obtain rfl : target = name := Option.some.inj hs
    have heval : e.eval n.store = e.eval m.store :=
      Expr.eval_of_agree (by simpa [names, exprs] using h)
    obtain ⟨v, hv⟩ := eval_of_run hfault (List.mem_singleton_self e)
    simp [run, heval, hv, Store.get?_set]
  | print | unsupported => cases hs

end Statements

section Runs

variable {m n : Machine} {program rest : Program} {s : Statement} {name : String}

theorem Program.Agree.head (h : Agree (s :: rest) m.store n.store) :
    ∀ name ∈ s.names, n.store.get? name = m.store.get? name :=
  fun name hname => h 0 s rfl name hname (by simp)

/-- A name that the first statement assigns to is one more that the stores behind it agree on. -/
theorem Program.Agree.tail (hfault : (s.run m).fault = none)
    (h : Agree (s :: rest) m.store n.store) :
    Agree rest (s.run m).machine.store (s.run n).machine.store := by
  intro k t ht name hname hrest
  by_cases hs : s.assigned? = some name
  · exact Statement.get?_run_of_agree hfault h.head hs
  · rw [Statement.get?_run_of_ne hs, Statement.get?_run_of_ne hs]
    refine h (k + 1) t ht name hname ?_
    rw [List.take_succ_cons, List.filterMap_cons]
    cases hother : s.assigned? with
    | none => exact hrest
    | some other =>
      rw [hother, Option.some.injEq] at hs
      simpa [Ne.symm hs] using hrest

theorem Program.alike_run (hsink : n.sink = m.sink) (h : program.Agree m.store n.store) :
    (program.run m).Alike (program.run n) ∧ n.done program = m.done program ∧
      ∀ name ∈ (m.done program).filterMap Statement.assigned?,
        (program.run n).machine.store.get? name = (program.run m).machine.store.get? name := by
  induction program generalizing m n with
  | nil => exact ⟨⟨rfl, rfl, hsink⟩, rfl, by simp [Machine.done]⟩
  | cons s rest ih =>
    have hs := Statement.alike_run hsink h.head
    rw [run_cons, run_cons]
    cases hm : (s.run m).fault with
    | some fault =>
      have hn := hs.fault.trans hm
      rw [Outcome.andThen_of_fault hm, Outcome.andThen_of_fault hn, Machine.done_of_fault hm,
        Machine.done_of_fault hn]
      exact ⟨hs, rfl, by simp⟩
    | none =>
      have hn := hs.fault.trans hm
      obtain ⟨hrest, hdone, hassigned⟩ := ih hs.sink (h.tail hm)
      rw [Outcome.andThen_of_none hm, Outcome.andThen_of_none hn, Machine.done_of_none hm,
        Machine.done_of_none hn, hdone, hs.output]
      refine ⟨⟨hrest.fault, by rw [hrest.output], hrest.sink⟩, rfl, ?_⟩
      intro name hname
      by_cases hlater : name ∈ ((s.run m).machine.done rest).filterMap Statement.assigned?
      · exact hassigned name hlater
      · -- no later statement changes what this one assigns
        have hfirst : s.assigned? = some name := by
          obtain ⟨t, ht, htarget⟩ := List.mem_filterMap.mp hname
          rcases List.mem_cons.mp ht with rfl | ht
          · exact htarget
          · exact absurd (List.mem_filterMap.mpr ⟨t, ht, htarget⟩) hlater
        rw [get?_run_of_not_mem hlater, get?_run_of_not_mem (hdone ▸ hlater)]
        exact Statement.get?_run_of_agree hm h.head hfirst

end Runs

/-- Runs on stores that agree on the names which are read before they are assigned to write the same
and end in the same way, behind the same statements. Every name that one of these assigns to has one
value in the end, and all others are bound in each store as they were. -/
theorem run_of_agree {program : Program} {store other : Store} (h : program.Agree store other)
    (sink : Sink) :
    let m := Machine.mk store sink
    let n := Machine.mk other sink
    (program.run n).fault = (program.run m).fault ∧
    (program.run n).output = (program.run m).output ∧
    (program.run n).machine.sink = (program.run m).machine.sink ∧
    n.done program = m.done program ∧
    ∀ name,
      (name ∈ (m.done program).filterMap Statement.assigned? →
        ∃ v, (program.run m).machine.store.get? name = some v ∧
          (program.run n).machine.store.get? name = some v) ∧
      (name ∉ (m.done program).filterMap Statement.assigned? →
        (program.run m).machine.store.get? name = store.get? name ∧
        (program.run n).machine.store.get? name = other.get? name) := by
  intro m n
  obtain ⟨halike, hdone, hassigned⟩ := @Program.alike_run m n program rfl h
  refine ⟨halike.fault, halike.output, halike.sink, hdone, fun name => ⟨fun hname => ?_, ?_⟩⟩
  · have hbound := (Program.isSome_get?_run m program name).mpr (.inr hname)
    obtain ⟨v, hv⟩ := Option.isSome_iff_exists.mp hbound
    exact ⟨v, hv, (hassigned name hname).trans hv⟩
  · intro hname
    exact ⟨Program.get?_run_of_not_mem hname, Program.get?_run_of_not_mem (hdone ▸ hname)⟩

/-- Assigns to a name before it reads it, and reads another one that it assigns to afterwards. -/
def swapping : Program :=
  [.assign "a" (.var "b"), .assign "b" (.binary (.var "a") .multiply (.integer 2)),
   .print [.var "a", .var "b"], .unsupported "@end", .assign "c" (.integer 0)]

def fullStore : Store :=
  (((Store.empty.set "a" (.text "x")).2.set "b" (.integer 3)).2.set "c" (.text "y")).2

def threeAtB : Store := (Store.empty.set "b" (.integer 3)).2

theorem swapping_run :
    swapping.Agree fullStore threeAtB ∧
    (swapping.run ⟨threeAtB, .unlimited⟩).fault = some (.unsupportedStatement "@end") ∧
    (swapping.run ⟨threeAtB, .unlimited⟩).output = lineBytes "3 6" ∧
    (∃ v, (swapping.run ⟨fullStore, .unlimited⟩).machine.store.get? "a" = some v ∧
      (swapping.run ⟨threeAtB, .unlimited⟩).machine.store.get? "a" = some v) ∧
    (swapping.run ⟨fullStore, .unlimited⟩).machine.store.get? "c" = some (.text "y") ∧
    (swapping.run ⟨threeAtB, .unlimited⟩).machine.store.get? "c" = none := by
  have h : swapping.Agree fullStore threeAtB := by
    have hall : ∀ k : Fin 5, ∀ name ∈ swapping[k].names,
        name ∉ (swapping.take k).filterMap Statement.assigned? →
          threeAtB.get? name = fullStore.get? name := by decide +kernel
    intro k s hs
    obtain ⟨hk, rfl⟩ := List.getElem?_eq_some_iff.mp hs
    exact hall ⟨k, hk⟩
  obtain ⟨hfault, houtput, -, -, hnames⟩ := run_of_agree h .unlimited
  obtain ⟨hfull, hother⟩ := (hnames "c").2 (by decide +kernel)
  refine ⟨h, hfault.trans (by decide +kernel), houtput.trans (by decide +kernel),
    (hnames "a").1 (by decide +kernel), hfull.trans (by decide +kernel),
    hother.trans (by decide +kernel)⟩

end Tally
