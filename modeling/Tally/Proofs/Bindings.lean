import Mathlib.Data.List.Dedup
import Mathlib.Data.List.Induction
import Mathlib.Tactic.Common
import Tally.Store

/-! Stores as maps. A store binds a name to the value in the last operation that set the name, and
what it lists depends on nothing else, not even on the order of the operations. -/

namespace Tally

namespace Store

/-- What a store binds, in the order of the names. -/
structure Lists (s : Store) (bindings : List Binding) : Prop where
  ascending : Ascending bindings
  mem_iff : ∀ name v, (name, v) ∈ bindings ↔ s.get? name = some v

/-- What can be asked of a store. -/
inductive Operation where
  | set (name : String) (value : Value)
  | get (name : String)
  | list
deriving DecidableEq

/-- What an operation gives. -/
inductive Answer where
  | value (found : Option Value)
  | bindings (listed : List Binding)
deriving DecidableEq

/-- Carries out an operation. -/
def perform (s : Store) : Operation → Answer × Store
  | .set name value => (.value (s.set name value).1, (s.set name value).2)
  | .get name => (.value (s.get? name), s)
  | .list => (.bindings s.bindings, s)

/-- The store behind some operations. -/
def after (s : Store) : List Operation → Store
  | [] => s
  | operation :: operations => (s.perform operation).2.after operations

/-- The name that an operation sets, and the value that it gets. -/
def Operation.binding? : Operation → Option Binding
  | set name value => some (name, value)
  | get _ | list => none

/-- The value in the last operation that sets the name. -/
def lastSet (name : String) (operations : List Operation) : Option Value :=
  (operations.filterMap Operation.binding?).reverse.lookup name

/-- The names that are set, as often as they are. -/
def namesSet (operations : List Operation) : List String :=
  (operations.filterMap Operation.binding?).map Prod.fst

variable {s t : Store} {name other : String} {value v : Value} {bindings others : List Binding}
  {operation : Operation} {operations : List Operation}

section Places

theorem lookup_cons : ((name, value) :: bindings).lookup other =
    if other = name then some value else bindings.lookup other := by
  by_cases h : other = name
  · simp [h]
  · simp [List.lookup_cons, h, beq_false_of_ne h]

/-- Only one name gets another value. -/
theorem lookup_place : (place name value bindings).2.lookup other =
    if other = name then some value else bindings.lookup other := by
  induction bindings with
  | nil => rw [place, lookup_cons]
  | cons b rest ih =>
    obtain ⟨first, bound⟩ := b
    rw [place]
    split
    case isTrue hlt => rw [lookup_cons]
    case isFalse hge =>
      split
      case isTrue hgt =>
        rw [lookup_cons, lookup_cons, ih]
        grind
      case isFalse hle =>
        obtain rfl : first = name := String.le_antisymm (String.not_lt.mp hge) (String.not_lt.mp hle)
        rw [lookup_cons, lookup_cons]
        grind

theorem lookup_eq_none_of_lt (h : ∀ b ∈ bindings, name < b.1) : bindings.lookup name = none := by
  rw [List.lookup_eq_none_iff]
  intro b hb
  exact bne_iff_ne.mpr (String.ne_of_lt (h b hb))

theorem previous_place (h : Ascending bindings) :
    (place name value bindings).1 = bindings.lookup name := by
  induction bindings with
  | nil => rfl
  | cons b rest ih =>
    obtain ⟨first, bound⟩ := b
    obtain ⟨hfirst, hrest⟩ := List.pairwise_cons.mp h
    rw [place]
    split
    case isTrue hlt =>
      refine (lookup_eq_none_of_lt ?_).symm
      intro c hc
      rcases List.mem_cons.mp hc with rfl | hc
      · exact hlt
      · exact String.lt_trans hlt (hfirst c hc)
    case isFalse hge =>
      split
      case isTrue hgt => rw [lookup_cons, if_neg (String.ne_of_lt hgt).symm, ih hrest]
      case isFalse hle =>
        obtain rfl : first = name := String.le_antisymm (String.not_lt.mp hge) (String.not_lt.mp hle)
        rw [lookup_cons, if_pos rfl]

theorem get?_set : (s.set name value).2.get? other =
    if other = name then some value else s.get? other := lookup_place

theorem previous_set : (s.set name value).1 = s.get? name := previous_place s.ascending

end Places

section Listings

theorem lists_bindings (s : Store) : s.Lists s.bindings := by
  refine ⟨s.ascending, fun name v => ⟨fun hmem => ?_, fun hget => ?_⟩⟩
  · obtain ⟨before, behind, hbindings⟩ := List.append_of_mem hmem
    have hascending := s.ascending
    rw [hbindings, Ascending, List.pairwise_append] at hascending
    have hother : ∀ b ∈ before, name != b.1 := by
      intro b hb
      have hlt := hascending.2.2 b hb (name, v) List.mem_cons_self
      exact bne_iff_ne.mpr (String.ne_of_lt hlt).symm
    exact List.lookup_eq_some_iff.mpr ⟨before, behind, hbindings, hother⟩
  · obtain ⟨before, behind, hbindings, -⟩ := List.lookup_eq_some_iff.mp hget
    simp [hbindings]

theorem nodup_of_ascending (h : Ascending bindings) : (bindings.map Prod.fst).Nodup :=
  List.pairwise_map.mpr (h.imp String.ne_of_lt)

/-- There is one way to list a store. -/
theorem Lists.unique (h : s.Lists bindings) (ho : s.Lists others) : bindings = others := by
  have hperm : bindings.Perm others := by
    refine (List.perm_ext_iff_of_nodup (nodup_of_ascending h.ascending).of_map
      (nodup_of_ascending ho.ascending).of_map).mpr ?_
    rintro ⟨name, v⟩
    rw [h.mem_iff, ho.mem_iff]
  refine List.Perm.eq_of_pairwise ?_ h.ascending ho.ascending hperm
  intro b c _ _ hbc hcb
  exact absurd (String.lt_trans hbc hcb) (String.lt_irrefl _)

theorem bindings_eq_of_get? (h : ∀ name, t.get? name = s.get? name) : t.bindings = s.bindings := by
  have hlists : s.Lists t.bindings := by
    refine ⟨t.ascending, ?_⟩
    intro name v
    rw [t.lists_bindings.mem_iff, h]
  exact hlists.unique s.lists_bindings

/-- Whatever order the bindings come in, sorted by their names they are what the store lists. -/
theorem mergeSort_eq_bindings (hnames : (others.map Prod.fst).Nodup)
    (h : ∀ name v, (name, v) ∈ others ↔ s.get? name = some v) :
    others.mergeSort (fun b c => b.1 ≤ c.1) = s.bindings := by
  have hperm := List.mergeSort_perm others fun b c => decide (b.1 ≤ c.1)
  have hle : (others.mergeSort fun b c => b.1 ≤ c.1).Pairwise fun b c => b.1 ≤ c.1 := by
    simpa using @List.pairwise_mergeSort Binding (fun b c => b.1 ≤ c.1)
      (by simpa using fun _ _ _ _ _ _ => String.le_trans)
      (by simpa using fun _ _ _ _ => String.le_total _ _) others
  have hne : (others.mergeSort fun b c => b.1 ≤ c.1).Pairwise fun b c => b.1 ≠ c.1 :=
    List.pairwise_map.mp ((hperm.map Prod.fst).nodup_iff.mpr hnames)
  have hlists : s.Lists (others.mergeSort fun b c => b.1 ≤ c.1) := by
    constructor
    · refine (hle.and hne).imp ?_
      rintro b c ⟨hle, hne⟩
      exact String.not_le.mp fun hge => hne (String.le_antisymm hle hge)
    · intro name v
      rw [hperm.mem_iff, h]
  exact hlists.unique s.lists_bindings

theorem codePoints_lt (h : name < other) :
    name.toList.map Char.toNat < other.toList.map Char.toNat :=
  List.map_lt (fun _ _ => id) (String.lt_iff.mp h)

/-- As many names are bound as there are different ones in a list of them. -/
theorem size_eq_of_names {names : List String}
    (h : ∀ name, name ∈ names ↔ (s.get? name).isSome) : s.size = names.dedup.length := by
  have hperm : (s.bindings.map Prod.fst).Perm names.dedup := by
    refine (List.perm_ext_iff_of_nodup (nodup_of_ascending s.ascending) names.nodup_dedup).mpr ?_
    intro name
    rw [List.mem_dedup, h, Option.isSome_iff_exists]
    simp [s.lists_bindings.mem_iff]
  rw [size, ← hperm.length_eq, List.length_map]

end Listings

section Histories

theorem after_append : s.after (operations ++ [operation]) =
    ((s.after operations).perform operation).2 := by
  induction operations generalizing s with
  | nil => rfl
  | cons first operations ih => exact ih

theorem get?_perform : (s.perform operation).2.get? name =
    match operation.binding? with
    | some (other, value) => if name = other then some value else s.get? name
    | none => s.get? name := by
  cases operation with
  | set other value => exact get?_set
  | get | list => rfl

theorem lastSet_append : lastSet name (operations ++ [operation]) =
    match operation.binding? with
    | some (other, value) => if name = other then some value else lastSet name operations
    | none => lastSet name operations := by
  rw [lastSet, List.filterMap_append, List.reverse_append]
  cases operation with
  | set other value => exact lookup_cons
  | get | list => rfl

/-- A store binds a name to the value that was set last. -/
theorem get?_after (name : String) (operations : List Operation) :
    (empty.after operations).get? name = lastSet name operations := by
  induction operations using List.reverseRecOn with
  | nil => rfl
  | append_singleton operations operation ih =>
    rw [after_append, get?_perform, lastSet_append, ih]

theorem mem_namesSet_iff : name ∈ namesSet operations ↔ (lastSet name operations).isSome := by
  rw [Option.isSome_iff_ne_none, ne_eq, lastSet, List.lookup_eq_none_iff, namesSet]
  simp

/-- So it binds as many names as were set. -/
theorem size_after (operations : List Operation) :
    (empty.after operations).size = (namesSet operations).dedup.length := by
  refine size_eq_of_names ?_
  intro name
  rw [mem_namesSet_iff, get?_after]

end Histories

end Store

open Store

/-- What a store gives behind any operations. A name is bound to the value that was set last, which
is also what setting the name once more gives. All names that were set are listed once, in the order
of their code points, with these values, and it is the list of them in any order that is sorted by
names. Other operations that bind the same values lead to the same list. -/
theorem answers_of_operations (operations : List Operation) :
    let s := empty.after operations
    (∀ name value, s.perform (.get name) = (.value (lastSet name operations), s) ∧
      (s.perform (.set name value)).1 = (s.perform (.get name)).1) ∧
    s.size = (namesSet operations).dedup.length ∧ (s.isEmpty ↔ s.size = 0) ∧
    (∃ listed, s.perform .list = (.bindings listed, s) ∧
      (listed.map fun b => b.1.toList.map Char.toNat).Pairwise (· < ·) ∧
      (listed.map Prod.fst).Nodup ∧
      (∀ name v, (name, v) ∈ listed ↔ lastSet name operations = some v) ∧
      ∀ entries : List Binding, (entries.map Prod.fst).Nodup →
        (∀ name v, (name, v) ∈ entries ↔ lastSet name operations = some v) →
        entries.mergeSort (fun b c => b.1 ≤ c.1) = listed) ∧
    ∀ others, (∀ name, (empty.after others).get? name = s.get? name) →
      ((empty.after others).perform .list).1 = (s.perform .list).1 := by
  intro s
  have hget : ∀ name, s.get? name = lastSet name operations := fun name => get?_after name operations
  refine ⟨?_, size_after operations, ?_, ?_, ?_⟩
  · intro name value
    rw [perform, perform, previous_set, hget]
    exact ⟨rfl, rfl⟩
  · simp [isEmpty, size]
  · refine ⟨s.bindings, rfl, ?_, nodup_of_ascending s.ascending, ?_, ?_⟩
    · exact List.pairwise_map.mpr (s.ascending.imp codePoints_lt)
    · intro name v
      rw [s.lists_bindings.mem_iff, hget]
    · intro entries hnames hentries
      refine mergeSort_eq_bindings hnames ?_
      intro name v
      rw [hentries, hget]
  · intro others hothers
    rw [perform, perform, bindings_eq_of_get? hothers]

/-- Some names are set twice. One name begins another one, one is empty and one is not ASCII. -/
def overwriting : List Operation :=
  [.set "ab" (.integer 1), .set "é" (.text "x"), .list, .set "a" (.integer 2), .get "b",
   .set "" (.text ""), .set "ab" (.text "y")]

/-- Leads to the same values in another order. -/
def reordered : List Operation :=
  [.set "" (.text ""), .set "a" (.integer 3), .set "ab" (.text "y"), .set "a" (.integer 2),
   .set "é" (.text "x")]

theorem overwriting_answers :
    let s := empty.after overwriting
    let listed := [("", .text ""), ("a", .integer 2), ("ab", .text "y"), ("é", .text "x")]
    s.perform (.get "ab") = (.value (some (.text "y")), s) ∧
    (s.perform (.set "a" (.integer 4))).1 = .value (some (.integer 2)) ∧ s.size = 4 ∧
    s.perform .list = (.bindings listed, s) ∧
    List.mergeSort [("é", .text "x"), ("ab", .text "y"), ("", .text ""), ("a", .integer 2)]
      (fun b c : Binding => b.1 ≤ c.1) = listed ∧
    (∀ name, (empty.after reordered).get? name = s.get? name) ∧
    ((empty.after reordered).perform .list).1 = .bindings listed := by
  intro s listed
  obtain ⟨hvalues, hsize, -, ⟨found, hlist, -, -, hmem, hsorted⟩, hothers⟩ :=
    answers_of_operations overwriting
  obtain rfl : found = listed := by
    have hbindings : (empty.after overwriting).bindings = listed := by decide +kernel
    rw [perform, hbindings] at hlist
    exact (Answer.bindings.inj (Prod.mk.inj hlist).1).symm
  have hsame : ∀ name, (empty.after reordered).get? name = s.get? name := by
    have hover : (overwriting.filterMap Operation.binding?).reverse = [("ab", .text "y"),
        ("", .text ""), ("a", .integer 2), ("é", .text "x"), ("ab", .integer 1)] := rfl
    have hre : (reordered.filterMap Operation.binding?).reverse = [("é", .text "x"),
        ("a", .integer 2), ("ab", .text "y"), ("a", .integer 3), ("", .text "")] := rfl
    intro name
    rw [get?_after, get?_after, lastSet, lastSet, hover, hre]
    simp only [lookup_cons]
    split_ifs <;> simp_all
  refine ⟨(hvalues "ab" (.text "")).1, ?_, ?_, hlist, ?_, hsame, ?_⟩
  · rw [(hvalues "a" (.integer 4)).2, (hvalues "a" (.integer 4)).1]
    rfl
  · rw [hsize]
    decide
  · refine hsorted _ (by decide) ?_
    intro name v
    rw [← hmem]
    exact List.Perm.mem_iff (by decide)
  · rw [hothers _ hsame, hlist]

end Tally
