import Tally.Proofs.Cursor

/-! Expressions layer by layer. A sum is read as products with signs between them and a product as
operands, with one loop for each layer. This is what readings with a bound come to, and so no more
than three of them are ever open at once. -/

namespace Tally

namespace Reading

variable {α β : Type}

/-- Goes on behind the tokens that are passed. -/
def andThen (r : Reading α) (ts : List Token) (next : α → List Token → Reading β) : Reading β :=
  match r with
  | ⟨.error e, n⟩ => ⟨.error e, n⟩
  | ⟨.ok a, n⟩ => (next a (ts.drop n)).behind n

theorem andThen_behind (r : Reading α) (n : Nat) (ts : List Token)
    (next : α → List Token → Reading β) :
    (r.behind n).andThen ts next = (r.andThen (ts.drop n) next).behind n := by
  obtain ⟨_ | a, passed⟩ := r
  · rfl
  · simp [behind, andThen, Nat.add_assoc]

end Reading

/-- The operators between the terms of a sum. -/
def Kind.termOp? : Kind → Option Op
  | plus => some .add
  | minus => some .subtract
  | _ => none

/-- The operators between the factors of a product. -/
def Kind.factorOp? : Kind → Option Op
  | times => some .multiply
  | slash => some .divide
  | _ => none

namespace Expr

/-- A single operand. A token that is none is passed. -/
def readOperand : List Token → Reading Expr
  | [] => ⟨.error (.unexpectedEnd .expression), 0⟩
  | t :: _ =>
    match t.operand? with
    | none => ⟨.error (t.unexpected .expression), 1⟩
    | some e => ⟨.ok e, 1⟩

/-- While one of these operators is next, passes it, reads a part behind it and groups to the
left. -/
def readParts (op? : Kind → Option Op) (part : List Token → Reading Expr) (left : Expr) :
    List Token → Reading Expr
  | [] => ⟨.ok left, 0⟩
  | t :: ts =>
    match op? t.kind with
    | none => ⟨.ok left, 0⟩
    | some op =>
      match part ts with
      | ⟨.error e, n⟩ => ⟨.error e, n + 1⟩
      | ⟨.ok right, n⟩ => (readParts op? part (binary left op right) (ts.drop n)).behind (n + 1)
termination_by ts => ts.length

def readProduct (ts : List Token) : Reading Expr :=
  (readOperand ts).andThen ts (readParts Kind.factorOp? readOperand)

def readSum (ts : List Token) : Reading Expr :=
  (readProduct ts).andThen ts (readParts Kind.termOp? readProduct)

/-- The layer whose operators hold tighter than the bound. -/
def readLayer : Nat → List Token → Reading Expr
  | 0 => readSum
  | 1 => readProduct
  | _ + 2 => readOperand

/-- As `extend`, with another reader for the right operands, which may give up. -/
def extendWith (inner : Nat → List Token → Option (Reading Expr)) (bound : Nat) (left : Expr) :
    List Token → Option (Reading Expr)
  | [] => some ⟨.ok left, 0⟩
  | t :: ts =>
    match t.kind.op? with
    | none => some ⟨.ok left, 0⟩
    | some op =>
      if op.precedence ≤ bound then some ⟨.ok left, 0⟩
      else
        match inner op.precedence ts with
        | none => none
        | some ⟨.error e, n⟩ => some ⟨.error e, n + 1⟩
        | some ⟨.ok right, n⟩ =>
          (extendWith inner bound (binary left op right) (ts.drop n)).map (·.behind (n + 1))
termination_by ts => ts.length
decreasing_by exact Nat.lt_succ_of_le (List.drop_sublist n ts).length_le

/-- As `read`, but gives up where more than so many readings would be open, one inside the other. -/
def readWithin : Nat → Nat → List Token → Option (Reading Expr)
  | 0, _, _ => none
  | _ + 1, _, [] => some ⟨.error (.unexpectedEnd .expression), 0⟩
  | depth + 1, bound, t :: ts =>
    match t.operand? with
    | none => some ⟨.error (t.unexpected .expression), 1⟩
    | some left => (extendWith (readWithin depth) bound left ts).map (·.behind 1)

section Layers

variable {op? : Kind → Option Op} {part : List Token → Reading Expr} {kind : Kind}
  {inner : Nat → List Token → Option (Reading Expr)} {bound depth : Nat} {left : Expr} {t : Token}
  {ts : List Token} {op : Op}

theorem termOp?_eq_some_iff : kind.termOp? = some op ↔ kind.op? = some op ∧ op.precedence = 1 := by
  cases kind <;> cases op <;> decide

theorem factorOp?_eq_some_iff :
    kind.factorOp? = some op ↔ kind.op? = some op ∧ op.precedence = 2 := by
  cases kind <;> cases op <;> decide

theorem readParts_of_none (h : ∀ t ∈ ts.head?, op? t.kind = none) :
    readParts op? part left ts = ⟨.ok left, 0⟩ := by
  cases ts with
  | nil => rw [readParts]
  | cons t ts => rw [readParts, h t rfl]

theorem readParts_cons (h : op? t.kind = some op) :
    readParts op? part left (t :: ts) =
      match part ts with
      | ⟨.error e, n⟩ => ⟨.error e, n + 1⟩
      | ⟨.ok e, n⟩ => (readParts op? part (binary left op e) (ts.drop n)).behind (n + 1) := by
  rw [readParts, h]

/-- No operator holds tighter than those of a product. -/
theorem read_of_two_le (h : 2 ≤ bound) (ts : List Token) : read bound ts = readOperand ts := by
  have hstops : ∀ ts, Stops bound ts := fun ts t _ op _ => Nat.le_trans op.precedence_le_two h
  cases ts with
  | nil => rw [read, readOperand]
  | cons t ts =>
    rw [read, readOperand]
    cases t.operand? with
    | none => rfl
    | some e => simp [extend_of_stops (hstops ts), Reading.behind]

theorem extend_one (left : Expr) (ts : List Token) :
    extend 1 left ts = readParts Kind.factorOp? readOperand left ts := by
  fun_induction readParts Kind.factorOp? readOperand left ts with
  | case1 left => rw [extend]
  | case2 left t ts hnone =>
    refine extend_of_stops ?_
    rintro _ ⟨⟩ op hop
    by_contra hle
    have hprec := op.precedence_le_two
    have hfactor := factorOp?_eq_some_iff.mpr ⟨hop, by omega⟩
    simp [hnone] at hfactor
  | case3 left t ts op hfactor e n hpart =>
    obtain ⟨hop, hprec⟩ := factorOp?_eq_some_iff.mp hfactor
    rw [extend_cons hop (by omega), read_of_two_le (Nat.le_of_eq hprec.symm), hpart]
  | case4 left t ts op hfactor right n hpart ih =>
    obtain ⟨hop, hprec⟩ := factorOp?_eq_some_iff.mp hfactor
    rw [extend_cons hop (by omega), read_of_two_le (Nat.le_of_eq hprec.symm), hpart]
    simp only [ih]

theorem read_one (ts : List Token) : read 1 ts = readProduct ts := by
  cases ts with
  | nil => rw [read, readProduct, readOperand]; rfl
  | cons t ts =>
    rw [read, readProduct, readOperand]
    cases t.operand? with
    | none => rfl
    | some e =>
      simp only [extend_one]
      rfl

/-- What goes on with a sum goes on with its last product first. -/
theorem extend_zero (left : Expr) (ts : List Token) :
    extend 0 left ts = (extend 1 left ts).andThen ts (readParts Kind.termOp? readProduct) := by
  by_cases hstop : Stops 0 ts
  · have hnone : ∀ t ∈ ts.head?, t.kind.termOp? = none := by
      intro t ht
      rw [Option.eq_none_iff_forall_ne_some]
      intro op hop
      have hle := hstop t ht op (termOp?_eq_some_iff.mp hop).1
      have hpos := op.one_le_precedence
      omega
    rw [extend_of_stops hstop, extend_of_stops (stops_mono hstop (Nat.zero_le 1)), Reading.andThen,
      List.drop_zero, readParts_of_none hnone]
    rfl
  · simp only [Stops, not_forall, Nat.not_le] at hstop
    obtain ⟨t, ht, op, hop, hbound⟩ := hstop
    obtain ⟨ts, rfl⟩ := List.head?_eq_some_iff.mp ht
    have hprec := op.precedence_le_two
    by_cases hterm : op.precedence = 1
    · -- a sign ends the product, and the next one is its right operand
      have hstops : Stops 1 (t :: ts) := by
        rintro _ ⟨⟩ other hother
        rw [hop] at hother
        cases hother
        exact Nat.le_of_eq hterm
      rw [extend_cons hop hbound, extend_of_stops hstops, Reading.andThen, List.drop_zero,
        readParts_cons (termOp?_eq_some_iff.mpr ⟨hop, hterm⟩), hterm, ← read_one]
      rcases hread : read 1 ts with ⟨e | right, n⟩
      · simp [Reading.behind]
      · have hbehind := (readOff_of_read hread).stops
        simp only
        rw [extend_zero, extend_of_stops hbehind]
        simp [Reading.andThen, Reading.behind]
    · rw [extend_cons hop hbound, extend_cons hop (by omega)]
      rcases read op.precedence ts with ⟨e | right, n⟩
      · rfl
      · simp only
        rw [extend_zero, Reading.andThen_behind, List.drop_succ_cons]
termination_by ts.length

theorem read_zero (ts : List Token) : read 0 ts = readSum ts := by
  rw [readSum, ← read_one]
  cases ts with
  | nil => rw [read, read]; rfl
  | cons t ts =>
    rw [read, read]
    cases t.operand? with
    | none => rfl
    | some e => simp only [extend_zero, Reading.andThen_behind, List.drop_succ_cons, List.drop_zero]

theorem read_eq_readLayer (bound : Nat) (ts : List Token) : read bound ts = readLayer bound ts := by
  match bound with
  | 0 => exact read_zero ts
  | 1 => exact read_one ts
  | bound + 2 => exact read_of_two_le (Nat.le_add_left 2 bound) ts

theorem extendWith_eq
    (h : ∀ (op : Op) ts, bound < op.precedence →
      inner op.precedence ts = some (read op.precedence ts))
    (left : Expr) (ts : List Token) :
    extendWith inner bound left ts = some (extend bound left ts) := by
  fun_induction extendWith inner bound left ts with
  | case1 left => rw [extend]
  | case2 left t ts hnone => rw [extend, hnone]
  | case3 left t ts op hop hle => rw [extend, hop]; simp [hle]
  | case4 left t ts op hop hle hinner =>
    rw [h op ts (Nat.not_le.mp hle)] at hinner
    cases hinner
  | case5 left t ts op hop hle e n hinner =>
    rw [h op ts (Nat.not_le.mp hle)] at hinner
    rw [extend_cons hop (Nat.not_le.mp hle), Option.some.inj hinner]
  | case6 left t ts op hop hle right n hinner ih =>
    rw [h op ts (Nat.not_le.mp hle)] at hinner
    rw [extend_cons hop (Nat.not_le.mp hle), Option.some.inj hinner, ih]
    rfl

theorem readWithin_succ
    (h : ∀ (op : Op) ts, bound < op.precedence →
      readWithin depth op.precedence ts = some (read op.precedence ts)) (ts : List Token) :
    readWithin (depth + 1) bound ts = some (read bound ts) := by
  cases ts with
  | nil => rw [readWithin, read]
  | cons t ts =>
    rw [readWithin, read]
    cases t.operand? with
    | none => rfl
    | some left => simp [extendWith_eq h]

/-- A reading opens another one only with a larger bound, and none if the bound is two. -/
theorem readWithin_eq (h : 2 ≤ bound + depth) (ts : List Token) :
    readWithin (depth + 1) bound ts = some (read bound ts) := by
  induction depth generalizing bound ts with
  | zero =>
    refine readWithin_succ (fun op _ hbound => ?_) ts
    have hprec := op.precedence_le_two
    omega
  | succ depth ih => exact readWithin_succ (fun op rest hbound => ih (by omega) rest) ts

/-- Two are not enough for `1+2*3`. -/
example : readWithin 2 0 [⟨.integer, .integer 1, 0⟩, ⟨.plus, .text "+", 1⟩,
    ⟨.integer, .integer 2, 2⟩, ⟨.times, .text "*", 3⟩, ⟨.integer, .integer 3, 4⟩] = none := by cbv

end Layers

end Expr

open Tally.Expr

/-- To read an expression from where a cursor is gives the same as to read its layer there, which
is a loop over operands for a product and a loop over products for a sum, and gets as far, also if
an error ends it. However many tokens there are, no more than three readings are open at once. -/
theorem ask_expression_eq_readLayer (c : Cursor) (bound : Nat) :
    c.ask (.expression bound) =
      ((readLayer bound c.rest).result.map Cursor.Found.expression,
        { c with passed := c.passed + (readLayer bound c.rest).passed }) ∧
    readWithin 3 bound c.rest = some (readLayer bound c.rest) := by
  rw [← read_eq_readLayer]
  exact ⟨rfl, readWithin_eq (by omega) c.rest⟩

end Tally
