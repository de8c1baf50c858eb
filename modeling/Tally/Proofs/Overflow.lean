import Mathlib.Algebra.Ring.Int.Defs
import Mathlib.Data.List.Infix
import Mathlib.Tactic.Common
import Tally.Run.Execution

/-! Overflow of integers. An expression over integers has its exact value if all its operations are
in range, and otherwise the first one that is not is reported with the exact values of its
operands. -/

namespace Tally

/-- The integers of the language. -/
def InRange (k : Int) : Prop := -2 ^ 63 ≤ k ∧ k ≤ 2 ^ 63 - 1

instance (k : Int) : Decidable (InRange k) := inferInstanceAs (Decidable (_ ∧ _))

namespace Expr

/-- Integers, variables that are bound to integers, and no division. -/
def Integral (store : Store) : Expr → Prop
  | var name => ∃ n, store.get? name = some (.integer n)
  | text _ => False
  | integer _ => True
  | binary left op right => left.Integral store ∧ op ≠ .divide ∧ right.Integral store

/-- The value among all integers, if the expression is one over integers. -/
def exact (store : Store) : Expr → Int
  | var name =>
    match store.get? name with
    | some (.integer n) => n.toInt
    | _ => 0
  | text _ => 0
  | integer n => n.toInt
  | binary left .add right => left.exact store + right.exact store
  | binary left .subtract right => left.exact store - right.exact store
  | binary left .multiply right => left.exact store * right.exact store
  | binary _ .divide _ => 0

/-- The parts that are operations, each behind those in its operands. -/
def operations : Expr → List Expr
  | binary left op right => left.operations ++ right.operations ++ [binary left op right]
  | _ => []

/-- All operations are in range. -/
def Bounded (store : Store) (e : Expr) : Prop := ∀ x ∈ e.operations, InRange (x.exact store)

end Expr

/-- The first of some expressions whose exact value is out of range. -/
def firstOutOfRange? (store : Store) (es : List Expr) : Option Expr :=
  es.find? fun e => ¬ InRange (e.exact store)

/-- What an evaluation comes to: the exact value, or an overflow in the operation that is out of
range. -/
inductive Expr.Settles (store : Store) (e : Expr) : Option Expr → Prop where
  | exact {n : Int64} (hn : n.toInt = e.exact store) (h : e.eval store = .ok (.integer n)) :
      Settles store e none
  | overflow {left op right} {m n : Int64} (hm : m.toInt = left.exact store)
      (hn : n.toInt = right.exact store) (h : e.eval store = .error (.integerOverflow m op n)) :
      Settles store e (some (.binary left op right))

section Operations

variable {store : Store} {e left right : Expr} {op : Op} {es others : List Expr} {m n : Int64}
  {k : Int}

theorem apply_of_inRange (h : op.onIntegers? m.toInt n.toInt = some k) (hk : InRange k) :
    ∃ r : Int64, op.apply (.integer m) (.integer n) = .ok (.integer r) ∧ r.toInt = k := by
  obtain ⟨hle, hge⟩ := hk
  refine ⟨.ofInt k, ?_, Int64.toInt_ofInt_of_le (by omega) (by omega)⟩
  simp only [Op.apply, Op.applyIntegers, h, Int64.toInt_minValue, Int64.toInt_maxValue]
  rw [if_pos ⟨hle, hge⟩]

theorem apply_of_not_inRange (h : op.onIntegers? m.toInt n.toInt = some k) (hk : ¬ InRange k) :
    op.apply (.integer m) (.integer n) = .error (.integerOverflow m op n) := by
  simp only [Op.apply, Op.applyIntegers, h, Int64.toInt_minValue, Int64.toInt_maxValue]
  exact if_neg hk

theorem firstOutOfRange?_append : firstOutOfRange? store (es ++ others) =
    (firstOutOfRange? store es).or (firstOutOfRange? store others) :=
  List.find?_append

theorem firstOutOfRange?_singleton :
    firstOutOfRange? store [e] = if InRange (e.exact store) then none else some e := by
  by_cases h : InRange (e.exact store) <;> simp [firstOutOfRange?, h]

theorem firstOutOfRange?_eq_none_iff :
    firstOutOfRange? store es = none ↔ ∀ e ∈ es, InRange (e.exact store) := by
  simp [firstOutOfRange?]

theorem firstOutOfRange?_eq_some_iff : firstOutOfRange? store es = some e ↔
    ∃ front rest, es = front ++ e :: rest ∧ (∀ x ∈ front, InRange (x.exact store)) ∧
      ¬ InRange (e.exact store) := by
  rw [firstOutOfRange?, List.find?_eq_some_iff_append]
  simp only [decide_not, Bool.not_eq_true', decide_eq_false_iff_not, Bool.not_not,
    decide_eq_true_eq]
  constructor
  · rintro ⟨he, front, rest, hes, hfront⟩
    exact ⟨front, rest, hes, hfront, he⟩
  · rintro ⟨front, rest, hes, hfront, he⟩
    exact ⟨he, front, rest, hes, hfront⟩

theorem onIntegers?_exact (h : (Expr.binary left op right).Integral store) :
    op.onIntegers? (left.exact store) (right.exact store) =
      some ((Expr.binary left op right).exact store) := by
  cases op with
  | divide => exact absurd rfl h.2.1
  | _ => rfl

/-- An operation is settled by its left operand, or else by the right one, or else by itself. -/
theorem settles_binary (hl : left.Settles store (firstOutOfRange? store left.operations))
    (hr : right.Settles store (firstOutOfRange? store right.operations))
    (hop : op.onIntegers? (left.exact store) (right.exact store) =
      some ((Expr.binary left op right).exact store)) :
    (Expr.binary left op right).Settles store
      (firstOutOfRange? store (Expr.binary left op right).operations) := by
  rw [Expr.operations, firstOutOfRange?_append, firstOutOfRange?_append, firstOutOfRange?_singleton]
  generalize firstOutOfRange? store left.operations = first at hl ⊢
  generalize firstOutOfRange? store right.operations = second at hr ⊢
  cases hl with
  | overflow hm hn h => exact .overflow hm hn (by rw [Expr.eval, h])
  | @exact m hm hleft =>
    cases hr with
    | overflow ha hb h => exact .overflow ha hb (by rw [Expr.eval, hleft, h])
    | @exact n hn hright =>
      have heval : (Expr.binary left op right).eval store = op.apply (.integer m) (.integer n) := by
        rw [Expr.eval, hleft, hright]
      rw [← hm, ← hn] at hop
      by_cases hrange : InRange ((Expr.binary left op right).exact store)
      · obtain ⟨k, hk, hvalue⟩ := apply_of_inRange hop hrange
        rw [if_pos hrange]
        exact .exact hvalue (heval.trans hk)
      · rw [if_neg hrange]
        exact .overflow hm hn (heval.trans (apply_of_not_inRange hop hrange))

theorem settles_of_integral (h : e.Integral store) :
    e.Settles store (firstOutOfRange? store e.operations) := by
  induction e with
  | var name =>
    obtain ⟨n, hn⟩ := h
    exact .exact (n := n) (by rw [Expr.exact, hn]) (by rw [Expr.eval, hn])
  | text => exact h.elim
  | integer n => exact .exact rfl rfl
  | binary left op right ihl ihr =>
    exact settles_binary (ihl h.1) (ihr h.2.2) (onIntegers?_exact h)

theorem Expr.Settles.eval_eq_ok_iff {first : Option Expr} {v : Value} (h : e.Settles store first) :
    e.eval store = .ok v ↔
      first = none ∧ ∃ n : Int64, v = .integer n ∧ n.toInt = e.exact store := by
  cases h with
  | @exact k hk h =>
    rw [h, Except.ok.injEq]
    constructor
    · rintro rfl
      exact ⟨rfl, k, rfl, hk⟩
    · rintro ⟨-, n, rfl, hn⟩
      rw [Int64.toInt_inj.mp (hk.trans hn.symm)]
  | overflow hm hn h => simp [h]

theorem Expr.Settles.eval_eq_error_iff {first : Option Expr} {fault : Fault}
    (h : e.Settles store first) :
    e.eval store = .error fault ↔
      ∃ left op right, ∃ m n : Int64, first = some (.binary left op right) ∧
        m.toInt = left.exact store ∧ n.toInt = right.exact store ∧
        fault = .integerOverflow m op n := by
  cases h with
  | exact hn h => simp [h]
  | @overflow left op right i j hi hj h =>
    rw [h, Except.error.injEq]
    constructor
    · rintro rfl
      exact ⟨left, op, right, i, j, rfl, hi, hj, rfl⟩
    · rintro ⟨_, _, _, m, n, ⟨⟩, hm, hn, rfl⟩
      rw [Int64.toInt_inj.mp (hi.trans hm.symm), Int64.toInt_inj.mp (hj.trans hn.symm)]

end Operations

/-- An expression over integers has a value exactly if all its operations are in range, and then it
is the exact one. Otherwise the evaluation overflows in the first operation, operands before what is
done with them and left before right, that is out of range, and the fault names the exact values of
its operands. -/
theorem eval_of_integral {store : Store} {e : Expr} (h : e.Integral store) :
    (∀ v, e.eval store = .ok v ↔ (∀ x ∈ e.operations, InRange (x.exact store)) ∧
      ∃ n : Int64, v = .integer n ∧ n.toInt = e.exact store) ∧
    ∀ fault, e.eval store = .error fault ↔
      ∃ front left op right rest, ∃ m n : Int64,
        e.operations = front ++ .binary left op right :: rest ∧
        (∀ x ∈ front, InRange (x.exact store)) ∧
        ¬ InRange ((Expr.binary left op right).exact store) ∧
        m.toInt = left.exact store ∧ n.toInt = right.exact store ∧
        fault = .integerOverflow m op n := by
  have hsettles := settles_of_integral h
  refine ⟨fun v => ?_, fun fault => ?_⟩
  · rw [hsettles.eval_eq_ok_iff, firstOutOfRange?_eq_none_iff]
  · rw [hsettles.eval_eq_error_iff]
    simp only [firstOutOfRange?_eq_some_iff]
    constructor
    · rintro ⟨left, op, right, m, n, ⟨front, rest, hes, hfront, hrange⟩, hm, hn, hfault⟩
      exact ⟨front, left, op, right, rest, m, n, hes, hfront, hrange, hm, hn, hfault⟩
    · rintro ⟨front, left, op, right, rest, m, n, hes, hfront, hrange, hm, hn, hfault⟩
      exact ⟨left, op, right, m, n, ⟨front, rest, hes, hfront, hrange⟩, hm, hn, hfault⟩

def largestStore : Store := (Store.empty.set "a" (.integer Int64.maxValue)).2

/-- `$a + 1 - 1`, which leaves the integers and would be back among them. -/
def overflowingSum : Expr :=
  .binary (.binary (.var "a") .add (.integer 1)) .subtract (.integer 1)

/-- `(-1 - $a) * 1`, the least integer. -/
def leastProduct : Expr :=
  .binary (.binary (.integer (-1)) .subtract (.var "a")) .multiply (.integer 1)

theorem overflowingSum_eval :
    (overflowingSum.Integral largestStore ∧ overflowingSum.exact largestStore = 2 ^ 63 - 1 ∧
      overflowingSum.eval largestStore =
        .error (.integerOverflow Int64.maxValue .add 1)) ∧
    leastProduct.Integral largestStore ∧
      leastProduct.eval largestStore = .ok (.integer Int64.minValue) := by
  have hget : largestStore.get? "a" = some (.integer Int64.maxValue) := by decide +kernel
  have hsum : overflowingSum.Integral largestStore :=
    ⟨⟨⟨_, hget⟩, by decide, trivial⟩, by decide, trivial⟩
  have hproduct : leastProduct.Integral largestStore :=
    ⟨⟨trivial, by decide, ⟨_, hget⟩⟩, by decide, trivial⟩
  refine ⟨⟨hsum, by decide +kernel, ?_⟩, hproduct, ?_⟩
  · refine ((eval_of_integral hsum).2 _).mpr
      ⟨[], .var "a", .add, .integer 1, [overflowingSum], Int64.maxValue, 1, rfl, by simp, ?_, ?_,
        rfl, rfl⟩
    · decide +kernel
    · decide +kernel
  · refine ((eval_of_integral hproduct).1 _).mpr ⟨?_, Int64.minValue, rfl, ?_⟩
    · decide +kernel
    · decide +kernel

end Tally
