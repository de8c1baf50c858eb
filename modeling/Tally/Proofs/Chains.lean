import Mathlib.Data.List.Induction
import Tally.Proofs.Overflow

/-! Chains of operations from left to right. If a total goes along with a chain, it is its exact
value, and the chain is in range if its operands and all totals on the way are. -/

namespace Tally

namespace Expr

/-- A first operand, and operators and operands to be applied from left to right. -/
def chain (e : Expr) (links : List (Op × Expr)) : Expr :=
  links.foldl (fun left link => .binary left link.1 link.2) e

section Chains

variable {α : Type} {store : Store} {e left right : Expr} {links : List (Op × Expr)} {k : Int}
  {xs : List α} {op : α → Op} {operand : α → Expr}

theorem chain_concat (e : Expr) (links : List (Op × Expr)) (l : Op × Expr) :
    e.chain (links ++ [l]) = .binary (e.chain links) l.1 l.2 :=
  List.foldl_append

theorem exact_binary {op : Op}
    (h : op.onIntegers? (left.exact store) (right.exact store) = some k) :
    (binary left op right).exact store = k := by
  cases op with
  | divide => cases h
  | add | subtract | multiply => exact Option.some.inj h

theorem exact_chain (total : List α → Int) (he : e.exact store = total [])
    (htotal : ∀ x ∈ xs, ∀ part,
      (op x).onIntegers? (total part) ((operand x).exact store) = some (total (part ++ [x]))) :
    (e.chain (xs.map fun x => (op x, operand x))).exact store = total xs := by
  -- the last link is the root of the tree, so it is the one to take off
  induction xs using List.reverseRecOn with
  | nil => exact he
  | append_singleton xs x ih =>
    have hxs := ih fun y hy => htotal y (by simp [hy])
    rw [List.map_append, List.map_singleton, chain_concat]
    exact exact_binary (hxs ▸ htotal x (by simp) xs)

end Chains

end Expr

end Tally
