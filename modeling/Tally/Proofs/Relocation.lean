import Tally.Proofs.Expression

/-! Tokens at other places. Where tokens stand has no effect on what is read from them, only on
where an error is reported. -/

namespace Tally

/-- The same token at another place. -/
def Token.relocate (g : Nat → Nat) (t : Token) : Token := { t with offset := g t.offset }

def SyntaxError.relocate (g : Nat → Nat) : SyntaxError → SyntaxError
  | unexpectedToken expected found o => .unexpectedToken expected found (g o)
  | unexpectedEnd expected => .unexpectedEnd expected

def Reading.relocate {α : Type} (g : Nat → Nat) (r : Reading α) : Reading α :=
  ⟨r.result.mapError (SyntaxError.relocate g), r.passed⟩

section Places

variable {α β : Type} (g : Nat → Nat)

@[simp] theorem Token.kind_relocate (t : Token) : (t.relocate g).kind = t.kind := rfl

@[simp] theorem Token.text_relocate (t : Token) : (t.relocate g).text = t.text := rfl

@[simp] theorem Token.operand?_relocate (t : Token) : (t.relocate g).operand? = t.operand? := rfl

namespace Reading

theorem relocate_ok (a : α) (n : Nat) : relocate g ⟨.ok a, n⟩ = ⟨.ok a, n⟩ := rfl

theorem relocate_behind (n : Nat) (r : Reading α) :
    (r.behind n).relocate g = (r.relocate g).behind n := rfl

theorem relocate_map (f : α → β) (r : Reading α) :
    (r.map f).relocate g = (r.relocate g).map f := by
  obtain ⟨_ | a, n⟩ := r <;> rfl

end Reading

open Reading

namespace Expr

mutual

theorem read_relocate (bound : Nat) (ts : List Token) :
    read bound (ts.map (Token.relocate g)) = (read bound ts).relocate g := by
  cases ts with
  | nil =>
    rw [List.map_nil, read]
    rfl
  | cons t ts =>
    rw [List.map_cons, read, read, Token.operand?_relocate]
    cases t.operand? with
    | none => rfl
    | some left =>
      simp only
      rw [extend_relocate, relocate_behind]
termination_by ts.length

theorem extend_relocate (bound : Nat) (left : Expr) (ts : List Token) :
    extend bound left (ts.map (Token.relocate g)) = (extend bound left ts).relocate g := by
  cases ts with
  | nil =>
    rw [List.map_nil, extend]
    rfl
  | cons t ts =>
    rw [List.map_cons, extend, extend, Token.kind_relocate]
    cases t.kind.op? with
    | none => rfl
    | some op =>
      simp only
      split
      · rfl
      · rw [read_relocate]
        rcases read op.precedence ts with ⟨e | right, n⟩
        · rfl
        · simp only [relocate_ok]
          rw [← List.map_drop, extend_relocate, relocate_behind]
termination_by ts.length

end

theorem readList_relocate (ts : List Token) :
    readList (ts.map (Token.relocate g)) = (readList ts).relocate g := by
  have hok : ∀ {ts e n}, read 0 ts = ⟨.ok e, n⟩ →
      read 0 (ts.map (Token.relocate g)) = ⟨.ok e, n⟩ := by
    intro ts e n hread
    rw [read_relocate, hread, relocate_ok]
  fun_induction readList ts with
  | case1 ts e n hread =>
    rw [readList, read_relocate, hread]
    rfl
  | case2 ts e n hread hdrop =>
    rw [readList_of_read (hok hread), ← List.map_drop, hdrop]
    rfl
  | case3 ts e n hread c rest hdrop hcomma ih =>
    have hkind : (c.relocate g).kind = .comma := hcomma
    rw [readList_of_read (hok hread), ← List.map_drop, hdrop]
    simp only [List.map_cons]
    rw [if_pos hkind, ih, relocate_behind, relocate_map]
  | case4 ts e n hread c rest hdrop hcomma =>
    have hkind : (c.relocate g).kind ≠ .comma := hcomma
    rw [readList_of_read (hok hread), ← List.map_drop, hdrop]
    simp only [List.map_cons]
    rw [if_neg hkind]
    rfl

end Expr

namespace Statement

theorem readAssignment_relocate (name : String) (ts : List Token) :
    readAssignment name (ts.map (Token.relocate g)) = (readAssignment name ts).relocate g := by
  cases ts with
  | nil => rfl
  | cons t ts =>
    rw [List.map_cons, readAssignment_cons, readAssignment_cons, Token.kind_relocate]
    split
    · rw [Expr.read_relocate, relocate_behind, relocate_map]
    · rfl

theorem read?_relocate (t : Token) (ts : List Token) :
    read? (t.relocate g) (ts.map (Token.relocate g)) = (read? t ts).map (Reading.relocate g) := by
  rw [read?_eq, read?_eq, Token.kind_relocate, Token.text_relocate]
  split
  · rw [readAssignment_relocate]
    rfl
  · rw [Expr.readList_relocate, ← relocate_map]
    rfl
  · rfl
  · rfl

end Statement

namespace Program

theorem read_relocate (ts : List Token) :
    read (ts.map (Token.relocate g)) = (read ts).relocate g := by
  fun_induction readSteps ts with
  | case1 =>
    rw [List.map_nil, read_nil]
    rfl
  | case2 t ts ht ih =>
    rw [List.map_cons, read_cons, read_cons, Token.kind_relocate, if_pos ht, if_pos ht, ih,
      relocate_behind]
  | case3 t ts ht hread =>
    rw [List.map_cons, read_cons, read_cons, Token.kind_relocate, if_neg ht, if_neg ht,
      Statement.read?_relocate, hread]
    rfl
  | case4 t ts ht e n hread =>
    rw [List.map_cons, read_cons, read_cons, Token.kind_relocate, if_neg ht, if_neg ht,
      Statement.read?_relocate, hread]
    rfl
  | case5 t ts ht s n hread ih =>
    rw [List.map_cons, read_cons, read_cons, Token.kind_relocate, if_neg ht, if_neg ht,
      Statement.read?_relocate, hread]
    simp only [Option.map_some, relocate_ok]
    rw [← List.map_drop, ih, relocate_behind, relocate_map]

/-- Where the tokens stand has no effect on what is read from them, only on where an error is. -/
theorem ofTokens_relocate (ts : List Token) :
    ofTokens (ts.map (Token.relocate g)) = (ofTokens ts).mapError (SyntaxError.relocate g) := by
  rw [ofTokens, read_relocate]
  rfl

end Program

end Places

end Tally
