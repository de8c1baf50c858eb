import Tally.Value

/-! The values bound to variables. Stores that bind the same values to the same
names are equal. -/

namespace Tally

abbrev Binding := String × Value

/-- Names ascend by code points, and none occurs twice. -/
def Ascending (bindings : List Binding) : Prop :=
  bindings.Pairwise fun b c => b.1 < c.1

structure Store where
  bindings : List Binding
  ascending : Ascending bindings

namespace Store

variable {name : String} {value : Value} {bindings : List Binding}

instance : DecidableEq Store := fun s t =>
  decidable_of_iff (s.bindings = t.bindings) (by cases s; cases t; simp)

def empty : Store := ⟨[], .nil⟩

/-- Puts a binding into its place and gives the value that was bound before. -/
def place (name : String) (value : Value) : List Binding → Option Value × List Binding
  | [] => (none, [(name, value)])
  | (other, bound) :: rest =>
    if name < other then (none, (name, value) :: (other, bound) :: rest)
    else if other < name then
      ((place name value rest).1, (other, bound) :: (place name value rest).2)
    else (some bound, (name, value) :: rest)

theorem mem_place {b : Binding} (h : b ∈ (place name value bindings).2) :
    b = (name, value) ∨ b ∈ bindings := by
  induction bindings with
  | nil => simpa [place] using h
  | cons c rest ih =>
    simp only [place] at h
    split at h
    · simpa using h
    · split at h
      · obtain rfl | h := List.mem_cons.1 h
        · simp
        · obtain rfl | h := ih h <;> simp_all
      · obtain rfl | h := List.mem_cons.1 h <;> simp_all

theorem ascending_place (h : Ascending bindings) : Ascending (place name value bindings).2 := by
  induction bindings with
  | nil => exact List.pairwise_singleton ..
  | cons c rest ih =>
    obtain ⟨hfirst, hrest⟩ := List.pairwise_cons.1 h
    simp only [place]
    split
    case isTrue hlt =>
      refine List.pairwise_cons.2 ⟨fun b hb => ?_, h⟩
      obtain rfl | hb := List.mem_cons.1 hb
      · exact hlt
      · exact String.lt_trans hlt (hfirst b hb)
    case isFalse hge =>
      split
      case isTrue hgt =>
        refine List.pairwise_cons.2 ⟨fun b hb => ?_, ih hrest⟩
        obtain rfl | hb := mem_place hb
        · exact hgt
        · exact hfirst b hb
      case isFalse hle =>
        have : c.1 = name := String.le_antisymm (String.not_lt.1 hge) (String.not_lt.1 hle)
        exact List.pairwise_cons.2 ⟨fun b hb => this ▸ hfirst b hb, hrest⟩

/-- Binds the value and gives the one that it replaces. -/
def set (s : Store) (name : String) (value : Value) : Option Value × Store :=
  ((place name value s.bindings).1, ⟨(place name value s.bindings).2, ascending_place s.ascending⟩)

def get? (s : Store) (name : String) : Option Value := s.bindings.lookup name

/-- The number of names that are bound. -/
def size (s : Store) : Nat := s.bindings.length

def isEmpty (s : Store) : Bool := s.bindings.isEmpty

end Store

end Tally
