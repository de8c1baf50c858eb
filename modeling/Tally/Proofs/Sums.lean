import Mathlib.Algebra.BigOperators.Group.List.Basic
import Tally.Proofs.Chains
import Tally.Proofs.FirstFault
import Tally.Proofs.Spelling

/-! Sums of products of numerals. To print one is to print its exact value, or to overflow
where a result on the way is out of range. -/

namespace Tally

open Lexeme

/-- A numeral for an integer of the language. -/
structure Numeral where
  digits : List Char
  ne_nil : digits ≠ []
  digit : ∀ c ∈ digits, Digit c
  bounded : Nat.ofDigitChars 10 digits 0 < 2 ^ 63

structure Gap where
  chars : List Char
  blank : ∀ c ∈ chars, c = ' ' ∨ c = '\t'

/-- An operator and the numeral behind it. -/
structure Link where
  before : Gap
  op : Op
  integral : op ≠ .divide
  between : Gap
  numeral : Numeral

/-- A numeral, and those that it is multiplied with from left to right. -/
structure Term where
  head : Numeral
  factors : List Numeral

/-- A term, and those that are added to it or subtracted from it from left to right. -/
structure Terms where
  first : Term
  others : List (Op × Term)

namespace Numeral

def value (n : Numeral) : Int := Nat.ofDigitChars 10 n.digits 0

def tree (n : Numeral) : Expr := .integer (.ofNat (Nat.ofDigitChars 10 n.digits 0))

/-- The usual numeral for a natural number. -/
def ofNat (k : Nat) (h : k < 2 ^ 63) : Numeral where
  digits := Nat.toDigits 10 k
  ne_nil := Nat.toDigits_ne_nil
  digit _ := digit_of_mem_toDigits
  bounded := by rwa [Nat.ofDigitChars_ten_toDigits]

@[simp] theorem value_ofNat {k : Nat} (h : k < 2 ^ 63) : (ofNat k h).value = k := by
  simp [ofNat, value]

end Numeral

namespace Link

def text (l : Link) : List Char :=
  l.before.chars ++ l.op.symbol :: (l.between.chars ++ l.numeral.digits)

def contents (l : Link) : List (Kind × Option Payload) :=
  (l.op.kind, none) :: l.numeral.tree.contents

end Link

namespace Term

def product (t : Term) : Int := t.head.value * (t.factors.map Numeral.value).prod

/-- All products from the left are integers of the language. -/
def Bounded (t : Term) : Prop := ∀ part, part <+: t.factors → InRange (product ⟨t.head, part⟩)

def tree (t : Term) : Expr := t.head.tree.chain (t.factors.map fun n => (.multiply, n.tree))

end Term

/-- What a term adds to a sum. -/
def signed (t : Op × Term) : Int := if t.1 = .subtract then -t.2.product else t.2.product

namespace Terms

def total (s : Terms) : Int := s.first.product + (s.others.map signed).sum

/-- All products and all sums from the left are integers of the language. -/
structure Bounded (s : Terms) : Prop where
  first : s.first.Bounded
  others : ∀ t ∈ s.others, t.2.Bounded
  sums : ∀ part, part <+: s.others → InRange (total ⟨s.first, part⟩)

def tree (s : Terms) : Expr := s.first.tree.chain (s.others.map fun t => (t.1, t.2.tree))

end Terms

section Source

variable {gap : Gap} {n : Numeral} {l : Link} {links : List Link} {behind : List Char}

theorem Gap.spells (hb : ∀ c ∈ behind.head?, ¬ Blank c) : Spells gap.chars [] behind := by
  refine spells_gap (fun c hc => ?_) hb
  rcases gap.blank c hc with rfl | rfl <;> simp [Blank]

theorem Numeral.spells (hb : ∀ c ∈ behind.head?, ¬ Digit c) :
    Spells n.digits n.tree.contents behind :=
  spells_number ⟨n.ne_nil, n.digit, hb⟩ n.bounded

theorem Numeral.not_blank : ∀ c ∈ (n.digits ++ behind).head?, ¬ Blank c := by
  obtain ⟨d, ds, hds⟩ := List.exists_cons_of_ne_nil n.ne_nil
  have hdigit := n.digit d (by simp [hds])
  intro c hc
  rw [hds, List.cons_append, List.head?_cons, Option.mem_some] at hc
  subst hc
  exact not_blank_of_digit hdigit

theorem Op.not_blank (op : Op) : ¬ Blank op.symbol := by
  cases op <;> simp [symbol, Blank]

end Source

section Trees

variable {n : Numeral} {links : List Link} {e : Expr} {tail : List (Op × Expr)} {b : Nat}

end Trees

section Evaluation

variable {store : Store}

theorem Numeral.exact_tree (n : Numeral) : n.tree.exact store = n.value :=
  Int64.toInt_ofNat_of_lt n.bounded

theorem Term.product_head (t : Term) : t.head.tree.exact store = product ⟨t.head, []⟩ := by
  rw [Numeral.exact_tree]
  simp [product]

/-- Each factor multiplies the product so far. -/
theorem Term.product_concat (t : Term) : ∀ n ∈ t.factors, ∀ part,
    Op.onIntegers? .multiply (product ⟨t.head, part⟩) (n.tree.exact store) =
      some (product ⟨t.head, part ++ [n]⟩) := by
  intro n _ part
  rw [n.exact_tree]
  simp [Op.onIntegers?, product, Int.mul_assoc]

theorem Term.exact_tree (t : Term) : t.tree.exact store = t.product :=
  Expr.exact_chain (fun part => product ⟨t.head, part⟩) t.product_head t.product_concat

theorem Terms.total_first (s : Terms) : s.first.tree.exact store = total ⟨s.first, []⟩ := by
  rw [s.first.exact_tree]
  simp [total]

/-- Each term is added to the sum so far, or subtracted from it. -/
theorem Terms.total_concat {s : Terms} (hops : ∀ t ∈ s.others, t.1 = .add ∨ t.1 = .subtract) :
    ∀ t ∈ s.others, ∀ part, t.1.onIntegers? (total ⟨s.first, part⟩) (t.2.tree.exact store) =
      some (total ⟨s.first, part ++ [t]⟩) := by
  intro t ht part
  rw [t.2.exact_tree]
  rcases hops t ht with hop | hop <;>
    simp [hop, Op.onIntegers?, total, signed, Int.add_assoc, Int.sub_eq_add_neg]

theorem Terms.exact_tree {s : Terms} (hops : ∀ t ∈ s.others, t.1 = .add ∨ t.1 = .subtract) :
    s.tree.exact store = s.total :=
  Expr.exact_chain (fun part => total ⟨s.first, part⟩) s.total_first (total_concat hops)

end Evaluation

end Tally
