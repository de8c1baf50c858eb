import Tally.Proofs.Evaluation
import Tally.Proofs.Reals

/-! The outcomes of an operator. A text among the operands, a divisor that is zero, an exact result
out of range and a real result that is not finite each have their own fault, and without any of them
there is a result. It is the same whether the operands are tested as they are or as reals first. -/

namespace Tally

/-- The integer zero, or a real zero of either sign. -/
def Value.IsZero : Value → Prop
  | integer n => n = 0
  | real x => x = 0 ∨ x = -0
  | text _ => False

namespace Op

/-- The text among the operands, the left one if both are. -/
def Refuses (l r : Value) (s : String) : Prop :=
  l = .text s ∨ (∀ t, l ≠ .text t) ∧ r = .text s

def DividesByZero (op : Op) (l r : Value) : Prop :=
  (∀ t, l ≠ .text t) ∧ op = .divide ∧ r.IsZero

/-- The operands are these integers, and their exact result is none of the language. -/
def ExceedsIntegers (op : Op) (l r : Value) (m n : Int64) : Prop :=
  l = .integer m ∧ r = .integer n ∧ ∃ k, op.onIntegers? m.toInt n.toInt = some k ∧ ¬ InRange k

/-- The operands are these as reals, and their real result is not finite. -/
def ExceedsReals (op : Op) (l r : Value) (x y : Float) : Prop :=
  l.toReal? = some x ∧ r.toReal? = some y ∧ op.OnReals l r ∧ ¬ (op = .divide ∧ r.IsZero) ∧
    ¬ (op.onReals x y).isFinite

/-- The exact result of two integers, or the real result if an operand is a real or is divided. -/
def Results (op : Op) (l r v : Value) : Prop :=
  (∃ m n k : Int64, l = .integer m ∧ r = .integer n ∧
    op.onIntegers? m.toInt n.toInt = some k.toInt ∧ v = .integer k) ∨
  (∃ x y, l.toReal? = some x ∧ r.toReal? = some y ∧ op.OnReals l r ∧ v = .real (op.onReals x y))

/-- The result of reals, whatever the divisor is. -/
def checkedReals (op : Op) (x y : Float) : Except Fault Value :=
  if (op.onReals x y).isFinite then .ok (.real (op.onReals x y)) else .error (.realOverflow x op y)

/-- The outcome by tests in another order: both operands are taken as reals, then comes division,
and only then come integers as such. A division of integers that got as far would have none. -/
def outcomeByReals? (op : Op) (l r : Value) : Option (Except Fault Value) :=
  match l.toReal?, r.toReal? with
  | none, _ => some (.error (.nonNumeric op l.shown))
  | some _, none => some (.error (.nonNumeric op r.shown))
  | some x, some y =>
    if op = .divide then
      some (if y == 0 then .error .divisionByZero else op.checkedReals x y)
    else
      match l, r with
      | .integer m, .integer n =>
        (op.onIntegers? m.toInt n.toInt).map fun k =>
          if InRange k then .ok (.integer (.ofInt k)) else .error (.integerOverflow m op n)
      | _, _ => some (op.checkedReals x y)

section Outcomes

variable {op : Op} {l r v : Value} {x y : Float} {outcome : Except Fault Value}

theorem exists_toReal? (h : ∀ t, v ≠ .text t) : ∃ x, v.toReal? = some x := by
  cases v with
  | integer n => exact ⟨_, rfl⟩
  | real x => exact ⟨x, rfl⟩
  | text t => exact absurd rfl (h t)

theorem ne_text_of_toReal? (h : v.toReal? = some x) (t : String) : v ≠ .text t := by
  rintro rfl
  cases h

/-- The test for zero among reals is the one for zero as it is. -/
theorem beq_zero_iff (h : v.toReal? = some x) : x == 0 ↔ v.IsZero := by
  cases v with
  | integer n =>
    obtain rfl := Option.some.inj h
    exact realOfInteger_beq_zero_iff
  | real z =>
    obtain rfl := Option.some.inj h
    refine ⟨eq_zero_or_neg_zero_of_beq, ?_⟩
    rintro (rfl | rfl) <;> decide
  | text t => cases h

theorem apply_of_toReal? (hl : l.toReal? = some x) (hr : r.toReal? = some y)
    (hreal : op.OnReals l r) : op.apply l r = op.applyReals x y := by
  cases l with
  | text s => cases hl
  | real z =>
    obtain rfl := Option.some.inj hl
    cases r with
    | text t => cases hr
    | integer n | real w =>
      obtain rfl := Option.some.inj hr
      rfl
  | integer m =>
    obtain rfl := Option.some.inj hl
    cases r with
    | text t => cases hr
    | real w =>
      obtain rfl := Option.some.inj hr
      rfl
    | integer n =>
      obtain rfl := Option.some.inj hr
      obtain rfl | ⟨z, hz⟩ | ⟨z, hz⟩ := hreal
      · rfl
      · cases hz
      · cases hz

/-- What an operator makes of two values is the one outcome that applies. -/
theorem applies_iff : op.Applies l r outcome ↔ op.apply l r = outcome := by
  refine ⟨fun h => ?_, fun h => h ▸ applies_apply op l r⟩
  cases h with
  | leftText => rfl
  | rightText hl =>
    cases l with
    | text t => exact absurd rfl (hl t)
    | integer m | real x => rfl
  | @integer m n k hk =>
    obtain ⟨i, hi, hvalue⟩ := apply_of_inRange hk ⟨k.le_toInt, by have := k.toInt_lt; omega⟩
    rw [hi, Int64.toInt_inj.mp hvalue]
  | integerOverflow hk hrange => exact apply_of_not_inRange hk hrange
  | divisionByZero hl hr hop hy =>
    rw [apply_of_toReal? hl hr (.inl hop), applyReals, if_pos ⟨hop, hy⟩]
  | real hl hr hreal hzero hfinite =>
    rw [apply_of_toReal? hl hr hreal, applyReals, if_neg hzero, if_pos hfinite]
  | realOverflow hl hr hreal hzero hfinite =>
    rw [apply_of_toReal? hl hr hreal, applyReals, if_neg hzero, if_neg hfinite]

theorem apply_eq_nonNumeric_iff {o : Op} {s : String} :
    op.apply l r = .error (.nonNumeric o s) ↔ o = op ∧ Refuses l r s := by
  rw [← applies_iff]
  constructor
  · intro h
    cases h with
    | leftText => exact ⟨rfl, .inl rfl⟩
    | rightText hl => exact ⟨rfl, .inr ⟨hl, rfl⟩⟩
  · rintro ⟨rfl, rfl | ⟨hl, rfl⟩⟩
    · exact .leftText
    · exact .rightText hl

theorem apply_eq_divisionByZero_iff :
    op.apply l r = .error .divisionByZero ↔ op.DividesByZero l r := by
  rw [← applies_iff]
  constructor
  · intro h
    cases h with
    | divisionByZero hl hr hop hy =>
      exact ⟨ne_text_of_toReal? hl, hop, (beq_zero_iff hr).mp hy⟩
  · rintro ⟨hnumber, hop, hzero⟩
    obtain ⟨x, hl⟩ := exists_toReal? hnumber
    have hdivisor : ∀ t, r ≠ .text t := by
      rintro t rfl
      exact hzero
    obtain ⟨y, hr⟩ := exists_toReal? hdivisor
    exact .divisionByZero hl hr hop ((beq_zero_iff hr).mpr hzero)

theorem apply_eq_integerOverflow_iff {o : Op} {m n : Int64} :
    op.apply l r = .error (.integerOverflow m o n) ↔ o = op ∧ op.ExceedsIntegers l r m n := by
  rw [← applies_iff]
  constructor
  · intro h
    cases h with
    | integerOverflow hk hrange => exact ⟨rfl, rfl, rfl, _, hk, hrange⟩
  · rintro ⟨rfl, rfl, rfl, k, hk, hrange⟩
    exact .integerOverflow hk hrange

theorem apply_eq_realOverflow_iff {o : Op} :
    op.apply l r = .error (.realOverflow x o y) ↔ o = op ∧ op.ExceedsReals l r x y := by
  rw [← applies_iff]
  constructor
  · intro h
    cases h with
    | realOverflow hl hr hreal hzero hfinite =>
      rw [beq_zero_iff hr] at hzero
      exact ⟨rfl, hl, hr, hreal, hzero, hfinite⟩
  · rintro ⟨rfl, hl, hr, hreal, hzero, hfinite⟩
    rw [← beq_zero_iff hr] at hzero
    exact .realOverflow hl hr hreal hzero hfinite

theorem results_of_apply (h : op.apply l r = .ok v) : op.Results l r v := by
  rw [← applies_iff] at h
  cases h with
  | integer hk => exact .inl ⟨_, _, _, rfl, rfl, hk, rfl⟩
  | real hl hr hreal => exact .inr ⟨_, _, hl, hr, hreal, rfl⟩

theorem outcomeByReals?_of_onReals (hl : l.toReal? = some x) (hr : r.toReal? = some y)
    (hreal : op.OnReals l r) : op.outcomeByReals? l r = some (op.applyReals x y) := by
  rw [outcomeByReals?, hl, hr, applyReals]
  by_cases hop : op = .divide
  · by_cases hy : y == 0 <;> simp [hop, hy, checkedReals]
  · simp only [hop, false_and, if_false]
    obtain hdivide | ⟨z, rfl⟩ | ⟨z, rfl⟩ := hreal
    · exact absurd hdivide hop
    · rfl
    · cases l <;> rfl

/-- Where integers are looked at as such, the operator is none that leaves them. -/
theorem outcomeByReals?_integers (hop : op ≠ .divide) (m n : Int64) :
    op.outcomeByReals? (.integer m) (.integer n) = some (op.applyIntegers m n) := by
  obtain ⟨k, hk⟩ : ∃ k, op.onIntegers? m.toInt n.toInt = some k :=
    Option.ne_none_iff_exists'.mp (mt eq_divide_of_onIntegers? hop)
  simp only [outcomeByReals?, Value.toReal?, if_neg hop, hk, applyIntegers, Option.map_some,
    Int64.toInt_minValue, Int64.toInt_maxValue]
  rfl

/-- The order of the tests does not matter, and there is always an outcome. -/
theorem outcomeByReals?_eq (op : Op) (l r : Value) :
    op.outcomeByReals? l r = some (op.apply l r) := by
  cases l with
  | text s => rfl
  | integer m =>
    cases r with
    | text t => rfl
    | integer n =>
      by_cases hop : op = .divide
      · rw [outcomeByReals?_of_onReals rfl rfl (.inl hop), apply_of_toReal? rfl rfl (.inl hop)]
      · exact outcomeByReals?_integers hop m n
    | real y => exact outcomeByReals?_of_onReals rfl rfl (.inr (.inr ⟨y, rfl⟩))
  | real x =>
    cases r with
    | text t => rfl
    | integer n | real y => exact outcomeByReals?_of_onReals rfl rfl (.inr (.inl ⟨x, rfl⟩))

/-- Where nothing stands in the way there is a result. -/
theorem exists_apply_eq_ok (hrefuses : ∀ s, ¬ Refuses l r s) (hzero : ¬ op.DividesByZero l r)
    (hintegers : ∀ m n, ¬ op.ExceedsIntegers l r m n) (hreals : ∀ x y, ¬ op.ExceedsReals l r x y) :
    ∃ v, op.apply l r = .ok v := by
  cases h : op.apply l r with
  | ok v => exact ⟨v, rfl⟩
  | error fault =>
    exfalso
    have happlies := applies_iff.mpr h
    cases happlies with
    | leftText | rightText => exact hrefuses _ (apply_eq_nonNumeric_iff.mp h).2
    | divisionByZero => exact hzero (apply_eq_divisionByZero_iff.mp h)
    | integerOverflow => exact hintegers _ _ (apply_eq_integerOverflow_iff.mp h).2
    | realOverflow => exact hreals _ _ (apply_eq_realOverflow_iff.mp h).2

end Outcomes

end Op

/-- Each fault has its own condition. A text is refused, and the left one is named if both operands
are texts. Numbers are not divided by zero, be it the integer or a real of either sign. Integers
overflow if their exact result is out of range, and reals if theirs is not finite. Without any of
this there is a result, the exact one of integers or else the real one. The outcome is the same if
both operands are taken as reals first. -/
theorem apply_partition (op : Op) (l r : Value) :
    (∀ o s, op.apply l r = .error (.nonNumeric o s) ↔ o = op ∧ Op.Refuses l r s) ∧
    (op.apply l r = .error .divisionByZero ↔ op.DividesByZero l r) ∧
    (∀ m o n, op.apply l r = .error (.integerOverflow m o n) ↔
      o = op ∧ op.ExceedsIntegers l r m n) ∧
    (∀ x o y, op.apply l r = .error (.realOverflow x o y) ↔ o = op ∧ op.ExceedsReals l r x y) ∧
    ((∃ v, op.apply l r = .ok v) ↔
      (∀ s, ¬ Op.Refuses l r s) ∧ ¬ op.DividesByZero l r ∧
      (∀ m n, ¬ op.ExceedsIntegers l r m n) ∧ ∀ x y, ¬ op.ExceedsReals l r x y) ∧
    (∀ v, op.apply l r = .ok v → op.Results l r v) ∧
    op.outcomeByReals? l r = some (op.apply l r) := by
  refine ⟨fun o s => Op.apply_eq_nonNumeric_iff, Op.apply_eq_divisionByZero_iff,
    fun m o n => Op.apply_eq_integerOverflow_iff, fun x o y => Op.apply_eq_realOverflow_iff, ?_,
    fun v => Op.results_of_apply, op.outcomeByReals?_eq l r⟩
  constructor
  · rintro ⟨v, hv⟩
    refine ⟨?_, ?_, ?_, ?_⟩
    · intro s h
      cases hv.symm.trans (Op.apply_eq_nonNumeric_iff.mpr ⟨rfl, h⟩)
    · intro h
      cases hv.symm.trans (Op.apply_eq_divisionByZero_iff.mpr h)
    · intro m n h
      cases hv.symm.trans (Op.apply_eq_integerOverflow_iff.mpr ⟨rfl, h⟩)
    · intro x y h
      cases hv.symm.trans (Op.apply_eq_realOverflow_iff.mpr ⟨rfl, h⟩)
  · rintro ⟨hrefuses, hzero, hintegers, hreals⟩
    exact Op.exists_apply_eq_ok hrefuses hzero hintegers hreals

/-- Two texts, negative zero as a divisor, the least integer made less, infinity times zero, and a
division that comes out even. -/
theorem extremes_partition :
    Op.add.apply (.text "a") (.text "b") = .error (.nonNumeric .add "a") ∧
    Op.divide.apply (.integer 1) (.real (-0)) = .error .divisionByZero ∧
    Op.subtract.apply (.integer Int64.minValue) (.integer 1) =
      .error (.integerOverflow Int64.minValue .subtract 1) ∧
    Op.multiply.apply (.real (.ofBits 0x7ff0000000000000)) (.integer 0) =
      .error (.realOverflow (.ofBits 0x7ff0000000000000) .multiply 0) ∧
    Op.divide.apply (.integer 6) (.integer 2) = .ok (.real 3) ∧
    Op.divide.Results (.integer 6) (.integer 2) (.real 3) := by
  obtain ⟨hrefuses, -⟩ := apply_partition .add (.text "a") (.text "b")
  obtain ⟨-, hzero, -⟩ := apply_partition .divide (.integer 1) (.real (-0))
  obtain ⟨-, -, hintegers, -⟩ := apply_partition .subtract (.integer Int64.minValue) (.integer 1)
  obtain ⟨-, -, -, hreals, -⟩ :=
    apply_partition .multiply (.real (.ofBits 0x7ff0000000000000)) (.integer 0)
  obtain ⟨-, -, -, -, -, hresults, -⟩ := apply_partition .divide (.integer 6) (.integer 2)
  have hthree : Op.divide.apply (.integer 6) (.integer 2) = .ok (.real 3) := by decide +kernel
  refine ⟨?_, ?_, ?_, ?_, hthree, hresults _ hthree⟩
  · exact (hrefuses .add "a").mpr ⟨rfl, .inl rfl⟩
  · exact hzero.mpr ⟨by simp, rfl, .inr rfl⟩
  · exact (hintegers _ _ _).mpr ⟨rfl, rfl, rfl, _, rfl, by decide⟩
  · have hzeroTimes : ¬ (Op.multiply.onReals (.ofBits 0x7ff0000000000000) 0).isFinite := by
      decide +kernel
    exact (hreals _ _ _).mpr
      ⟨rfl, rfl, by decide +kernel, .inr (.inl ⟨_, rfl⟩), by simp, hzeroTimes⟩

end Tally
