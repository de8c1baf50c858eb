import Mathlib.Data.List.TakeDrop
import Mathlib.Tactic.Common
import Tally.Program.Reading

/-! The trees that need no parentheses, and their reading. A tree is read back from tokens
with its contents, and every tree that is read is of this kind. -/

namespace Tally

/-- Whether the kind leaves open what a token says. -/
def Kind.carries : Kind → Bool
  | var | text | integer | directive => true
  | _ => false

def Op.kind : Op → Kind
  | add => .plus
  | subtract => .minus
  | multiply => .times
  | divide => .slash

/-- What counts of a token for a tree: its kind, and its payload if the kind leaves it open. -/
def Token.content (t : Token) : Kind × Option Payload :=
  (t.kind, if t.kind.carries then some t.payload else none)

namespace Expr

/-- What counts of the tokens of a tree, read from left to right. -/
def contents : Expr → List (Kind × Option Payload)
  | var name => [(.var, some (.text name))]
  | text value => [(.text, some (.text value))]
  | integer value => [(.integer, some (.integer value))]
  | binary left op right => left.contents ++ (op.kind, none) :: right.contents

def IsOperand : Expr → Prop
  | binary .. => False
  | _ => True

/-- Neither a sum nor a difference. -/
def IsProduct : Expr → Prop
  | binary _ .add _ | binary _ .subtract _ => False
  | _ => True

/-- Multiplication and division hold tighter, and what holds equally tight groups to the left. -/
def Canonical : Expr → Prop
  | binary left .multiply right | binary left .divide right =>
    left.Canonical ∧ left.IsProduct ∧ right.IsOperand
  | binary left .add right | binary left .subtract right =>
    left.Canonical ∧ right.Canonical ∧ right.IsProduct
  | _ => True

/-- How tightly a tree holds together. No operator splits an operand. -/
def tightness : Expr → Nat
  | binary _ op _ => op.precedence
  | _ => 3

end Expr

section Grades

variable {op : Op} {e left right : Expr} {t : Token}

theorem Op.one_le_precedence (op : Op) : 1 ≤ op.precedence := by cases op <;> decide

theorem Op.precedence_le_two (op : Op) : op.precedence ≤ 2 := by cases op <;> decide

@[simp] theorem Op.op?_kind (op : Op) : op.kind.op? = some op := by cases op <;> rfl

theorem Kind.op?_eq_some_iff {kind : Kind} : kind.op? = some op ↔ kind = op.kind := by
  cases kind <;> cases op <;> decide

theorem Token.content_of_not_carries {kind : Kind} (ht : t.kind = kind) (hc : ¬ kind.carries) :
    t.content = (kind, none) := by
  simp [content, ht, hc]

theorem Token.content_of_op (h : t.kind.op? = some op) : t.content = (op.kind, none) := by
  have hk := Kind.op?_eq_some_iff.mp h
  exact content_of_not_carries hk (by cases op <;> decide)

theorem Token.op?_of_content (h : t.content = (op.kind, none)) : t.kind.op? = some op := by
  have hk : t.kind = op.kind := congrArg Prod.fst h
  simp [hk]

theorem Expr.one_le_tightness (e : Expr) : 1 ≤ e.tightness := by
  cases e with
  | binary _ op _ => exact op.one_le_precedence
  | _ => simp [tightness]

theorem Expr.isProduct_iff : e.IsProduct ↔ 2 ≤ e.tightness := by
  cases e with
  | binary _ op _ => cases op <;> simp [IsProduct, tightness, Op.precedence]
  | _ => simp [IsProduct, tightness]

theorem Expr.isOperand_iff : e.IsOperand ↔ 2 < e.tightness := by
  cases e with
  | binary _ op _ => simpa [IsOperand, tightness] using op.precedence_le_two
  | _ => simp [IsOperand, tightness]

theorem Expr.canonical_of_isOperand (h : e.IsOperand) : e.Canonical := by
  cases e with
  | binary => exact h.elim
  | _ => trivial

theorem Expr.canonical_binary : (binary left op right).Canonical ↔
    left.Canonical ∧ right.Canonical ∧ op.precedence ≤ left.tightness ∧
      op.precedence < right.tightness := by
  have hleft := left.one_le_tightness
  have hright := @canonical_of_isOperand right
  cases op <;> simp only [Canonical, isProduct_iff, isOperand_iff, Op.precedence] at hright ⊢ <;>
    constructor <;> grind

/-- A token is read as an operand exactly if the operand has its contents. -/
theorem Token.operand?_eq_some_iff :
    t.operand? = some e ↔ e.IsOperand ∧ e.contents = [t.content] := by
  obtain ⟨kind, payload, offset⟩ := t
  cases e with
  | binary left op right =>
    simp only [Expr.IsOperand, false_and, iff_false]
    unfold operand?
    split <;> simp
  | _ =>
    cases kind <;> cases payload <;>
      simp [operand?, content, Kind.carries, Expr.contents, Expr.IsOperand, eq_comm]

end Grades

namespace Reading

variable {α : Type} {r : Reading α} {result : Except SyntaxError α} {a : α} {m n : Nat}

theorem behind_eq_iff : r.behind m = ⟨result, n⟩ ↔ ∃ k, r = ⟨result, k⟩ ∧ n = m + k := by
  obtain ⟨found, passed⟩ := r
  simp only [behind, Reading.mk.injEq]
  grind

theorem map_eq_ok_iff {β : Type} {f : α → β} {b : β} :
    r.map f = ⟨.ok b, n⟩ ↔ ∃ a, r = ⟨.ok a, n⟩ ∧ f a = b := by
  obtain ⟨_ | a, passed⟩ := r <;> simp [map, Except.map, and_comm]

end Reading

/-- The next token is no operator that holds tighter than the bound. -/
def Stops (bound : Nat) (ts : List Token) : Prop :=
  ∀ t ∈ ts.head?, ∀ op, t.kind.op? = some op → op.precedence ≤ bound

namespace Expr

variable {bound n : Nat} {e left : Expr} {t : Token} {op : Op} {ts rest tokens : List Token}

theorem stops_mono {b : Nat} (h : Stops bound ts) (hb : bound ≤ b) : Stops b ts :=
  fun t ht op hop => Nat.le_trans (h t ht op hop) hb

theorem extend_of_stops (h : Stops bound ts) : extend bound left ts = ⟨.ok left, 0⟩ := by
  cases ts with
  | nil => rw [extend]
  | cons t ts =>
    rw [extend]
    cases hop : t.kind.op? with
    | none => rfl
    | some op => simp [h t rfl op hop]

theorem extend_cons (ht : t.kind.op? = some op) (hb : bound < op.precedence) :
    extend bound left (t :: ts) =
      match read op.precedence ts with
      | ⟨.error e, n⟩ => ⟨.error e, n + 1⟩
      | ⟨.ok right, n⟩ => (extend bound (binary left op right) (ts.drop n)).behind (n + 1) := by
  rw [extend, ht]
  exact if_neg (Nat.not_le.mpr hb)

theorem read_operand (h : e.IsOperand) (ht : tokens.map Token.content = e.contents)
    (hlen : tokens.length = 1) :
    read bound (tokens ++ rest) = (extend bound e rest).behind tokens.length := by
  obtain ⟨t, rfl⟩ := List.length_eq_one_iff.mp hlen
  have hoperand := Token.operand?_eq_some_iff.mpr ⟨h, ht.symm⟩
  rw [List.singleton_append, read, hoperand]
  rfl

/-- A tree whose tokens come first is the left operand of what follows. -/
theorem read_of_contents (he : e.Canonical) (hb : min bound 2 < e.tightness)
    (ht : tokens.map Token.content = e.contents) (hs : Stops e.tightness rest) :
    read bound (tokens ++ rest) = (extend bound e rest).behind tokens.length := by
  induction e generalizing bound tokens rest with
  | binary left op right ihl ihr =>
    obtain ⟨hleft, hright, hlt, hrt⟩ := canonical_binary.mp he
    simp only [tightness] at hb hs
    obtain ⟨ls, os, rfl, hls, hos⟩ := List.map_eq_append_iff.mp ht
    obtain ⟨o, rs, rfl, ho, hrs⟩ := List.map_eq_cons_iff.mp hos
    have hop := Token.op?_of_content ho
    have hprec := op.precedence_le_two
    have hstops : Stops left.tightness (o :: (rs ++ rest)) := by
      rintro t ht other hother
      cases ht
      rw [hop] at hother
      cases hother
      exact hlt
    rw [List.append_assoc, List.cons_append, ihl hleft (by omega) hls hstops,
      extend_cons hop (by omega), ihr hright (by omega) hrs (stops_mono hs (by omega)),
      extend_of_stops hs]
    simp [Reading.behind, Nat.add_assoc]
  | _ => exact read_operand trivial ht (by simpa [contents] using congrArg List.length ht)

/-- What is read from tokens is canonical, has their contents, and goes on as far as it can. -/
structure ReadOff (bound : Nat) (ts : List Token) (e : Expr) (n : Nat) : Prop where
  le : n ≤ ts.length
  contents : e.contents = (ts.take n).map Token.content
  canonical : e.Canonical
  tight : min bound 2 < e.tightness
  stops : Stops bound (ts.drop n)

mutual

theorem readOff_of_read {bound n : Nat} {ts : List Token} {e : Expr}
    (h : read bound ts = ⟨.ok e, n⟩) : ReadOff bound ts e n := by
  cases ts with
  | nil => simp [read] at h
  | cons t ts =>
    rw [read] at h
    cases hoperand : t.operand? with
    | none => simp [hoperand] at h
    | some left =>
      obtain ⟨hleft, hcontents⟩ := Token.operand?_eq_some_iff.mp hoperand
      simp only [hoperand] at h
      obtain ⟨k, hk, rfl⟩ := Reading.behind_eq_iff.mp h
      have htight := isOperand_iff.mp hleft
      refine readOff_of_extend [t] hk hcontents (canonical_of_isOperand hleft) (by omega) ?_
      intro next _ op _
      have := op.precedence_le_two
      omega
termination_by ts.length

/-- The tree so far with its tokens in front of those that follow. -/
theorem readOff_of_extend {bound n : Nat} {ts : List Token} {left e : Expr} (ls : List Token)
    (h : extend bound left ts = ⟨.ok e, n⟩)
    (hcontents : left.contents = ls.map Token.content) (hleft : left.Canonical)
    (htight : min bound 2 < left.tightness) (hstops : Stops left.tightness ts) :
    ReadOff bound (ls ++ ts) e (ls.length + n) := by
  by_cases hstop : Stops bound ts
  · rw [extend_of_stops hstop] at h
    cases h
    exact ⟨by simp, by simpa using hcontents, hleft, htight, by simpa using hstop⟩
  · simp only [Stops, not_forall, Nat.not_le] at hstop
    obtain ⟨t, ht, op, hop, hbound⟩ := hstop
    obtain ⟨ts, rfl⟩ := List.head?_eq_some_iff.mp ht
    rw [extend_cons hop hbound] at h
    rcases hread : read op.precedence ts with ⟨result, m⟩
    cases result with
    | error error => simp [hread] at h
    | ok right =>
      simp only [hread] at h
      obtain ⟨k, hk, rfl⟩ := Reading.behind_eq_iff.mp h
      have hright := readOff_of_read hread
      have hprec := op.precedence_le_two
      have htight := hright.tight
      have hcanonical : (binary left op right).Canonical :=
        canonical_binary.mpr ⟨hleft, hright.canonical, hstops t rfl op hop, by omega⟩
      have hoff := readOff_of_extend (ls ++ t :: ts.take m) hk
        (by simp [Expr.contents, hcontents, hright.contents, Token.content_of_op hop]) hcanonical
        (by simp only [tightness]; omega) hright.stops
      have hlen := hright.le
      simpa [Nat.min_eq_left hlen, Nat.add_assoc, Nat.add_comm 1 m] using hoff
termination_by ts.length

end

end Expr

end Tally
