import Tally.Proofs.Evaluation

/-! Kinds of values. The leaves of an expression and the divisions in it decide of what kind its value
is, and no operation takes a text. -/

namespace Tally

namespace Expr

/-- The text that a literal is, or that a variable is bound to. -/
def textLeaf? (store : Store) : Expr → Option String
  | text s => some s
  | var name =>
    match store.get? name with
    | some (.text s) => some s
    | _ => none
  | integer _ | binary .. => none

/-- The operand that is a text leaf, the left one if both are. -/
def textOperand? (store : Store) (left right : Expr) : Option String :=
  (left.textLeaf? store).or (right.textLeaf? store)

/-- There is a division in the expression, or a variable that is bound to a real. -/
def HoldsReal (store : Store) (e : Expr) : Prop :=
  (∃ left right, binary left .divide right ∈ e.operations) ∨
    ∃ name ∈ e.names, ∃ x, store.get? name = some (.real x)

variable {store : Store} {e left right : Expr} {op : Op} {v : Value} {s : String} {fault : Fault}

/-- Only leaves are texts. -/
theorem eval_eq_text_iff : e.eval store = .ok (.text s) ↔ e.textLeaf? store = some s := by
  cases e with
  | var name =>
    rw [eval_var_eq_ok_iff, textLeaf?]
    split <;> simp_all
  | text => simp [eval, textLeaf?]
  | integer => simp [eval, textLeaf?]
  | binary left op right =>
    rw [eval_binary_eq_ok_iff]
    constructor
    · rintro ⟨l, r, -, -, h⟩
      have happlies := op.applies_apply l r
      rw [h] at happlies
      cases happlies
    · intro h
      cases h

theorem holdsReal_binary : (binary left op right).HoldsReal store ↔
    op = .divide ∨ left.HoldsReal store ∨ right.HoldsReal store := by
  simp only [HoldsReal, operations, names, List.mem_append, List.mem_singleton, binary.injEq]
  constructor
  · rintro (⟨a, b, (h | h) | ⟨-, rfl, -⟩⟩ | ⟨name, h | h, hreal⟩)
    · exact .inr (.inl (.inl ⟨a, b, h⟩))
    · exact .inr (.inr (.inl ⟨a, b, h⟩))
    · exact .inl rfl
    · exact .inr (.inl (.inr ⟨name, h, hreal⟩))
    · exact .inr (.inr (.inr ⟨name, h, hreal⟩))
  · rintro (rfl | (⟨a, b, h⟩ | ⟨name, h, hreal⟩) | ⟨a, b, h⟩ | ⟨name, h, hreal⟩)
    · exact .inl ⟨left, right, .inr ⟨rfl, rfl, rfl⟩⟩
    · exact .inl ⟨a, b, .inl (.inl h)⟩
    · exact .inr ⟨name, .inl h, hreal⟩
    · exact .inl ⟨a, b, .inl (.inr h)⟩
    · exact .inr ⟨name, .inr h, hreal⟩

/-- A real anywhere makes reals of all operations above it. -/
theorem isReal_iff_of_eval (h : e.eval store = .ok v) :
    (∃ x, v = .real x) ↔ e.HoldsReal store := by
  induction e generalizing v with
  | var name =>
    rw [eval_var_eq_ok_iff] at h
    simp [HoldsReal, operations, names, h]
  | text | integer =>
    cases h
    simp [HoldsReal, operations, names]
  | binary left op right ihl ihr =>
    obtain ⟨l, r, hl, hr, hop⟩ := eval_binary_eq_ok_iff.mp h
    have happlies := op.applies_apply l r
    rw [holdsReal_binary, ← ihl hl, ← ihr hr]
    rw [hop] at happlies
    cases happlies with
    | integer hexact =>
      have hne : op ≠ .divide := by
        rintro rfl
        cases hexact
      simp [hne]
    | real _ _ hreal => exact iff_of_true ⟨_, rfl⟩ hreal

/-- An operation on a text fails, and so does all that it is part of. -/
theorem exists_fault_of_textOperand? (h : binary left op right ∈ e.operations)
    (htext : (textOperand? store left right).isSome) : ∃ fault, e.eval store = .error fault := by
  cases he : e.eval store with
  | error fault => exact ⟨fault, rfl⟩
  | ok v =>
    exfalso
    obtain ⟨w, hw⟩ := eval_of_mem_operations he h
    obtain ⟨l, r, hl, hr, hop⟩ := eval_binary_eq_ok_iff.mp hw
    obtain ⟨hnumber, hother⟩ := Op.isSome_toReal?_of_apply hop
    obtain ⟨s, hs⟩ := Option.isSome_iff_exists.mp htext
    rcases Option.or_eq_some_iff.mp hs with hs | ⟨-, hs⟩
    · rw [← eval_eq_text_iff, hl] at hs
      cases hs
      cases hnumber
    · rw [← eval_eq_text_iff, hr] at hs
      cases hs
      cases hother

/-- Only an operation on a text is refused for the kinds of its operands. -/
theorem exists_textOperand_of_eval (h : e.eval store = .error (.nonNumeric op s)) :
    ∃ left right, binary left op right ∈ e.operations ∧ textOperand? store left right = some s := by
  have hfaults := faults_of_eval h
  generalize hfault : Fault.nonNumeric op s = fault at hfaults
  cases hfaults with
  | unbound => cases hfault
  | @operation left other right l r _ he hl hr hop =>
    subst hfault
    have happlies := other.applies_apply l r
    rw [hop] at happlies
    cases happlies with
    | leftText =>
      exact ⟨left, right, he, by rw [textOperand?, eval_eq_text_iff.mp hl, Option.some_or]⟩
    | rightText hnumber =>
      have hleft : left.textLeaf? store = none := by
        rw [Option.eq_none_iff_forall_ne_some]
        intro t ht
        rw [← eval_eq_text_iff, hl] at ht
        exact hnumber t (Except.ok.inj ht)
      exact ⟨left, right, he, by rw [textOperand?, hleft, Option.none_or, eval_eq_text_iff.mp hr]⟩

end Expr

/-- The value of an expression is a text only if the expression is a leaf with that text. All others
are reals if there is a division or a variable with a real in the expression, and integers if not. An
operation with a text leaf as an operand fails, and only such an operation is refused as not numeric.
The fault then names its operator and describes the text, the left one of two. -/
theorem kind_of_eval (store : Store) (e : Expr) :
    (∀ v, e.eval store = .ok v →
      (∀ s, v = .text s ↔ e.textLeaf? store = some s) ∧
      ((∃ x, v = .real x) ↔ e.HoldsReal store) ∧
      ((∃ n, v = .integer n) ↔ e.textLeaf? store = none ∧ ¬ e.HoldsReal store)) ∧
    (∀ left op right, .binary left op right ∈ e.operations →
      (Expr.textOperand? store left right).isSome → ∃ fault, e.eval store = .error fault) ∧
    ∀ op s, e.eval store = .error (.nonNumeric op s) →
      (∃ left right, .binary left op right ∈ e.operations ∧
        Expr.textOperand? store left right = some s) ∧
      (Fault.nonNumeric op s).message = "Interpreter: operator '" ++ String.singleton op.symbol ++
        "' needs numeric operands, got " ++ (Value.text s).described := by
  refine ⟨?_, fun left op right => Expr.exists_fault_of_textOperand?, ?_⟩
  · intro v h
    have htext : ∀ s, v = .text s ↔ e.textLeaf? store = some s := by
      intro s
      rw [← Expr.eval_eq_text_iff, h, Except.ok.injEq]
    have hreal := Expr.isReal_iff_of_eval h
    refine ⟨htext, hreal, ?_⟩
    rw [← hreal, Option.eq_none_iff_forall_ne_some]
    simp only [ne_eq, ← htext]
    cases v <;> simp
  · intro op s h
    exact ⟨Expr.exists_textOperand_of_eval h, rfl⟩

def halfStore : Store :=
  ((Store.empty.set "h" (.real (.ofBits 0x3fe0000000000000))).2.set "t" (.text "x")).2

/-- `1 - ($h + 2)`, where the variable is bound to a half. -/
def halfDifference : Expr :=
  .binary (.integer 1) .subtract (.binary (.var "h") .add (.integer 2))

/-- `1 + "a" * $t`, where the variable is bound to a text, too. -/
def textProduct : Expr :=
  .binary (.integer 1) .add (.binary (.text "a") .multiply (.var "t"))

theorem halfDifference_kind :
    (halfDifference.eval halfStore = .ok (.real (.ofBits 0xbff8000000000000)) ∧
      halfDifference.HoldsReal halfStore ∧ halfDifference.textLeaf? halfStore = none) ∧
    (Expr.var "t").eval halfStore = .ok (.text "x") ∧
    (Expr.var "t").textLeaf? halfStore = some "x" ∧
    (∃ fault, textProduct.eval halfStore = .error fault) ∧
    textProduct.eval halfStore = .error (.nonNumeric .multiply "a") ∧
    ∃ left right, .binary left .multiply right ∈ textProduct.operations ∧
      Expr.textOperand? halfStore left right = some "a" := by
  obtain ⟨hhalf, -, -⟩ := kind_of_eval halfStore halfDifference
  obtain ⟨hleaf, -, -⟩ := kind_of_eval halfStore (.var "t")
  obtain ⟨-, hfails, hrefused⟩ := kind_of_eval halfStore textProduct
  have hvalue : halfDifference.eval halfStore = .ok (.real (.ofBits 0xbff8000000000000)) := by
    decide +kernel
  have htext : (Expr.var "t").eval halfStore = .ok (.text "x") := by decide +kernel
  have hfault : textProduct.eval halfStore = .error (.nonNumeric .multiply "a") := by decide +kernel
  obtain ⟨htexts, hreal, -⟩ := hhalf _ hvalue
  refine ⟨⟨hvalue, hreal.mp ⟨_, rfl⟩, ?_⟩, htext, ((hleaf _ htext).1 "x").mp rfl,
    hfails (.text "a") .multiply (.var "t") (by decide) (by decide +kernel), hfault,
    (hrefused _ _ hfault).1⟩
  rw [Option.eq_none_iff_forall_ne_some]
  intro s hs
  cases (htexts s).mpr hs

end Tally
