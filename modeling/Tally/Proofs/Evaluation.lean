import Tally.Proofs.Overflow

/-! What an evaluation comes from. An operator makes of two values what their kinds, its own exact
result and a check for finite reals decide. An expression has a value if all that it reads and all
its operations have one, and its fault is that of one of these. -/

namespace Tally

/-- The number as a real. A text has none. -/
def Value.toReal? : Value → Option Float
  | integer n => some (realOfInteger n)
  | real x => some x
  | text _ => none

/-- One of the values is a real, or the operator makes reals of all numbers. -/
def Op.OnReals (op : Op) (l r : Value) : Prop :=
  op = .divide ∨ (∃ x, l = .real x) ∨ ∃ y, r = .real y

/-- What an operator makes of two values. -/
inductive Op.Applies (op : Op) : Value → Value → Except Fault Value → Prop where
  | leftText {s r} : Applies op (.text s) r (.error (.nonNumeric op s))
  | rightText {l s} (hl : ∀ t, l ≠ .text t) : Applies op l (.text s) (.error (.nonNumeric op s))
  | integer {m n k : Int64} (h : op.onIntegers? m.toInt n.toInt = some k.toInt) :
      Applies op (.integer m) (.integer n) (.ok (.integer k))
  | integerOverflow {m n : Int64} {k} (h : op.onIntegers? m.toInt n.toInt = some k)
      (hk : ¬ InRange k) : Applies op (.integer m) (.integer n) (.error (.integerOverflow m op n))
  | divisionByZero {l r x y} (hl : l.toReal? = some x) (hr : r.toReal? = some y)
      (hop : op = .divide) (hy : y == 0) : Applies op l r (.error .divisionByZero)
  | real {l r x y} (hl : l.toReal? = some x) (hr : r.toReal? = some y) (hreal : op.OnReals l r)
      (hzero : ¬ (op = .divide ∧ y == 0)) (h : (op.onReals x y).isFinite) :
      Applies op l r (.ok (.real (op.onReals x y)))
  | realOverflow {l r x y} (hl : l.toReal? = some x) (hr : r.toReal? = some y)
      (hreal : op.OnReals l r) (hzero : ¬ (op = .divide ∧ y == 0))
      (h : ¬ (op.onReals x y).isFinite) : Applies op l r (.error (.realOverflow x op y))

section Operators

variable {op : Op} {l r : Value} {m n : Int64} {x y : Float}

theorem Op.applies_applyReals (hl : l.toReal? = some x) (hr : r.toReal? = some y)
    (hreal : op.OnReals l r) : op.Applies l r (op.applyReals x y) := by
  rw [applyReals]
  split
  case isTrue hzero => exact .divisionByZero hl hr hzero.1 hzero.2
  case isFalse hzero =>
    split
    case isTrue hfinite => exact .real hl hr hreal hzero hfinite
    case isFalse hfinite => exact .realOverflow hl hr hreal hzero hfinite

theorem Op.eq_divide_of_onIntegers? {i j : Int} (h : op.onIntegers? i j = none) : op = .divide := by
  cases op with
  | divide => rfl
  | _ => cases h

theorem Op.applies_integers (op : Op) (m n : Int64) :
    op.Applies (.integer m) (.integer n) (op.apply (.integer m) (.integer n)) := by
  cases h : op.onIntegers? m.toInt n.toInt with
  | some k =>
    by_cases hk : InRange k
    · obtain ⟨i, hi, rfl⟩ := apply_of_inRange h hk
      rw [hi]
      exact .integer h
    · rw [apply_of_not_inRange h hk]
      exact .integerOverflow h hk
  | none =>
    rw [apply, applyIntegers, h]
    exact applies_applyReals rfl rfl (.inl (eq_divide_of_onIntegers? h))

theorem Op.applies_apply (op : Op) (l r : Value) : op.Applies l r (op.apply l r) := by
  cases l with
  | text s => exact .leftText
  | integer m =>
    cases r with
    | text t => exact .rightText (by simp)
    | integer n => exact applies_integers op m n
    | real y => exact applies_applyReals rfl rfl (.inr (.inr ⟨y, rfl⟩))
  | real x =>
    cases r with
    | text t => exact .rightText (by simp)
    | integer n => exact applies_applyReals rfl rfl (.inr (.inl ⟨x, rfl⟩))
    | real y => exact applies_applyReals rfl rfl (.inr (.inl ⟨x, rfl⟩))

theorem Op.isSome_toReal?_of_apply {v : Value} (h : op.apply l r = .ok v) :
    l.toReal?.isSome ∧ r.toReal?.isSome := by
  have happlies := op.applies_apply l r
  rw [h] at happlies
  cases happlies with
  | integer => exact ⟨rfl, rfl⟩
  | real hl hr => exact ⟨by rw [hl]; rfl, by rw [hr]; rfl⟩

end Operators

/-- The names that an expression reads, from left to right. -/
def Expr.names : Expr → List String
  | var name => [name]
  | text _ | integer _ => []
  | binary left _ right => left.names ++ right.names

/-- What the fault of an evaluation comes from: a name without a value, or an operation on the
values of its operands. -/
inductive Expr.Faults (store : Store) (e : Expr) : Fault → Prop where
  | unbound {name} (hname : name ∈ e.names) (h : store.get? name = none) :
      Faults store e (.undefinedVariable name)
  | operation {left op right l r fault} (he : .binary left op right ∈ e.operations)
      (hl : left.eval store = .ok l) (hr : right.eval store = .ok r)
      (h : op.apply l r = .error fault) : Faults store e fault

namespace Expr

variable {store other : Store} {e d left right : Expr} {op : Op} {name : String} {v : Value}
  {fault : Fault}

theorem eval_binary_eq_ok_iff : (binary left op right).eval store = .ok v ↔
    ∃ l r, left.eval store = .ok l ∧ right.eval store = .ok r ∧ op.apply l r = .ok v := by
  rw [eval]
  cases left.eval store with
  | error fault => simp
  | ok l => cases right.eval store <;> simp

theorem eval_var_eq_ok_iff : (var name).eval store = .ok v ↔ store.get? name = some v := by
  rw [eval]
  cases store.get? name <;> simp

/-- A name that is read has a value if the expression has one. -/
theorem bound_of_eval (h : e.eval store = .ok v) (hname : name ∈ e.names) :
    (store.get? name).isSome := by
  induction e generalizing v with
  | var other =>
    obtain rfl := List.mem_singleton.mp hname
    rw [eval_var_eq_ok_iff.mp h]
    rfl
  | text | integer => simp [names] at hname
  | binary left op right ihl ihr =>
    obtain ⟨l, r, hl, hr, -⟩ := eval_binary_eq_ok_iff.mp h
    rcases List.mem_append.mp hname with hname | hname
    · exact ihl hl hname
    · exact ihr hr hname

/-- So has every operation. -/
theorem eval_of_mem_operations (h : e.eval store = .ok v) (hd : d ∈ e.operations) :
    ∃ w, d.eval store = .ok w := by
  induction e generalizing v with
  | var | text | integer => simp [operations] at hd
  | binary left op right ihl ihr =>
    obtain ⟨l, r, hl, hr, -⟩ := eval_binary_eq_ok_iff.mp h
    simp only [operations, List.mem_append, List.mem_singleton] at hd
    rcases hd with (hd | hd) | rfl
    · exact ihl hl hd
    · exact ihr hr hd
    · exact ⟨v, h⟩

/-- A fault of a part is one of the whole. -/
theorem Faults.mono (h : d.Faults store fault) (hnames : d.names ⊆ e.names)
    (hoperations : d.operations ⊆ e.operations) : e.Faults store fault := by
  cases h with
  | unbound hname h => exact .unbound (hnames hname) h
  | operation hd hl hr h => exact .operation (hoperations hd) hl hr h

theorem faults_of_eval (h : e.eval store = .error fault) : e.Faults store fault := by
  induction e with
  | var name =>
    rw [eval] at h
    cases hget : store.get? name with
    | some v => simp [hget] at h
    | none =>
      rw [hget] at h
      cases h
      exact .unbound (by simp [names]) hget
  | text | integer => cases h
  | binary left op right ihl ihr =>
    rw [eval] at h
    cases hl : left.eval store with
    | error other =>
      rw [hl] at h
      cases h
      exact (ihl hl).mono (by simp [names]) (by simp [operations])
    | ok l =>
      rw [hl] at h
      cases hr : right.eval store with
      | error other =>
        rw [hr] at h
        cases h
        exact (ihr hr).mono (by simp [names]) (by simp [operations])
      | ok r =>
        rw [hr] at h
        exact .operation (by simp [operations]) hl hr h

theorem unbound_of_faults (h : e.Faults store (.undefinedVariable name)) :
    name ∈ e.names ∧ store.get? name = none := by
  generalize hfault : Fault.undefinedVariable name = fault at h
  cases h with
  | unbound hname h =>
    cases hfault
    exact ⟨hname, h⟩
  | @operation left op right l r fault he hl hr h =>
    subst hfault
    have happlies := op.applies_apply l r
    rw [h] at happlies
    cases happlies

end Expr

end Tally
