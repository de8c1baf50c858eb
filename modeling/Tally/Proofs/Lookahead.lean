import Tally.Proofs.Grammar

/-! What a reading depends on: the tokens that it passes and the kind of the next one. A program is
read behind another one as if it stood alone. -/

namespace Tally

/-- The second tokens begin as the first ones do, or else nothing goes on with them. -/
def Resumes (ts others : List Token) : Prop := others.head? = ts.head? ∨ Follows others

section Lookahead

variable {bound n : Nat} {ts us others : List Token} {t : Token} {e : Expr} {es : List Expr}
  {s : Statement} {program : Program}

theorem resumes_append (ts : List Token) (hus : Follows us) : Resumes ts (ts ++ us) := by
  cases ts with
  | nil => exact .inr hus
  | cons t ts => exact .inl rfl

theorem resumes_of_append (ts us : List Token) : Resumes (ts ++ us) ts := by
  cases ts with
  | nil => exact .inr (by simp [Follows])
  | cons t ts => exact .inl rfl

theorem stops_of_resumes (h : Stops bound ts) (hr : Resumes ts others) : Stops bound others := by
  rcases hr with hhead | hfollows
  · intro t ht
    exact h t (hhead ▸ ht)
  · exact Expr.stops_mono (stops_of_follows hfollows) (Nat.zero_le bound)

theorem not_comma_of_resumes (h : ∀ t ∈ ts.head?, t.kind ≠ .comma) (hr : Resumes ts others) :
    ∀ t ∈ others.head?, t.kind ≠ .comma := by
  rcases hr with hhead | hfollows
  · rwa [hhead]
  · exact not_comma_of_follows hfollows

theorem stops_tightness (h : Stops bound ts) (ht : min bound 2 < e.tightness) :
    Stops e.tightness ts := by
  intro t hmem op hop
  have hle := h t hmem op hop
  have hprec := op.precedence_le_two
  omega

namespace Expr

/-- An expression is read in the same way whatever stands behind it, unless that goes on
with it. -/
theorem read_take (h : read bound ts = ⟨.ok e, n⟩) (hr : Resumes (ts.drop n) others) :
    read bound (ts.take n ++ others) = ⟨.ok e, n⟩ := by
  have hoff := readOff_of_read h
  have hstops := stops_of_resumes hoff.stops hr
  rw [read_of_contents hoff.canonical hoff.tight hoff.contents.symm
    (stops_tightness hstops hoff.tight), extend_of_stops hstops]
  simp [Reading.behind, hoff.le]

theorem readList_take_of_read (h : read 0 ts = ⟨.ok e, n⟩)
    (hcomma : ∀ t ∈ (ts.drop n).head?, t.kind ≠ .comma) (hr : Resumes (ts.drop n) others) :
    readList (ts.take n ++ others) = ⟨.ok [e], n⟩ := by
  have hnot := not_comma_of_resumes hcomma hr
  have hlen : (ts.take n).length = n := List.length_take_of_le (readOff_of_read h).le
  rw [readList_of_read (read_take h hr), List.drop_left' hlen]
  cases others with
  | nil => rfl
  | cons t others => simp [hnot t rfl]

theorem readList_take (h : readList ts = ⟨.ok es, n⟩) (hr : Resumes (ts.drop n) others) :
    readList (ts.take n ++ others) = ⟨.ok es, n⟩ := by
  fun_induction readList ts generalizing es n with
  | case1 ts e m hread => simp at h
  | case2 ts e m hread hdrop =>
    cases h
    exact readList_take_of_read hread (by simp [hdrop]) hr
  | case3 ts e m hread c rest hdrop hcomma ih =>
    obtain ⟨k, hk, rfl⟩ := Reading.behind_eq_iff.mp h
    obtain ⟨es, hrest, rfl⟩ := Reading.map_eq_ok_iff.mp hk
    have htake : ts.take (m + 1 + k) = ts.take m ++ c :: rest.take k := by
      rw [Nat.add_assoc, List.take_add, hdrop, Nat.add_comm 1, List.take_succ_cons]
    have hbehind : ts.drop (m + 1 + k) = rest.drop k := by
      rw [Nat.add_assoc, ← List.drop_drop, hdrop, Nat.add_comm 1, List.drop_succ_cons]
    have hlen : (ts.take m).length = m := List.length_take_of_le (readOff_of_read hread).le
    have hfirst := @read_take 0 m ts (c :: (rest.take k ++ others)) e hread (.inl (by simp [hdrop]))
    rw [htake, List.append_assoc, List.cons_append, readList_of_read hfirst, List.drop_left' hlen]
    simp [hcomma, ih hrest (hbehind ▸ hr), Reading.map, Except.map, Reading.behind]
  | case4 ts e m hread c rest hdrop hcomma =>
    cases h
    exact readList_take_of_read hread (by simpa [hdrop] using hcomma) hr

end Expr

namespace Statement

theorem read?_eq_none_iff : read? t ts = none ↔ t.kind ∉ [.var, .print, .directive] := by
  rw [read?_eq]
  split <;> simp_all

theorem follows_of_read? {r : Reading Statement} (h : read? t ts = some r) : Follows (t :: ts) := by
  have hkind : t.kind ∈ [.var, .print, .directive] := by
    by_contra hnone
    simp [read?_eq_none_iff.mpr hnone] at h
  intro u hu
  cases hu
  exact List.mem_cons_of_mem _ hkind

/-- The same for a statement, with the tokens behind its first one. -/
theorem read?_take (h : read? t ts = some ⟨.ok s, n⟩) :
    n ≤ ts.length ∧
      ∀ others, Resumes (ts.drop n) others → read? t (ts.take n ++ others) = some ⟨.ok s, n⟩ := by
  simp only [read?_eq] at h ⊢
  split at h
  case h_1 ht =>
    cases ts with
    | nil => simp [readAssignment] at h
    | cons o ts =>
      rw [readAssignment_cons] at h
      split at h
      case isFalse => simp at h
      case isTrue ho =>
        obtain ⟨k, hk, rfl⟩ := Reading.behind_eq_iff.mp (Option.some.inj h)
        obtain ⟨e, hread, rfl⟩ := Reading.map_eq_ok_iff.mp hk
        have hle := (Expr.readOff_of_read hread).le
        refine ⟨by simp; omega, ?_⟩
        intro others hr
        rw [Nat.add_comm 1, List.drop_succ_cons] at hr
        simp [Nat.add_comm 1, readAssignment_cons, ho, Expr.read_take hread hr, Reading.map,
          Except.map, Reading.behind]
  case h_2 ht =>
    obtain ⟨es, hread, rfl⟩ := Reading.map_eq_ok_iff.mp (Option.some.inj h)
    refine ⟨(contents_of_readList hread).1, ?_⟩
    intro others hr
    simp [Expr.readList_take hread hr, Reading.map, Except.map]
  case h_3 ht =>
    cases h
    exact ⟨by simp, fun others _ => rfl⟩
  case h_4 => simp at h

/-- The same behind the last statement of a program. -/
theorem read?_append (h : read? t ts = some ⟨.ok s, n⟩) (hus : Follows us) :
    n ≤ ts.length ∧ read? t (ts ++ us) = some ⟨.ok s, n⟩ := by
  obtain ⟨hle, hlocal⟩ := read?_take h
  have hfirst := hlocal _ (resumes_append (ts.drop n) hus)
  rw [← List.append_assoc, List.take_append_drop] at hfirst
  exact ⟨hle, hfirst⟩

end Statement

namespace Reading

variable {α β : Type}

theorem behind_behind (m k : Nat) (r : Reading α) : (r.behind k).behind m = r.behind (m + k) := by
  simp [behind, Nat.add_assoc]

theorem map_behind (f : α → β) (k : Nat) (r : Reading α) :
    (r.behind k).map f = (r.map f).behind k := rfl

theorem map_map {γ : Type} (f : α → β) (g : β → γ) (r : Reading α) :
    (r.map f).map g = r.map fun a => g (f a) := by
  obtain ⟨_ | a, passed⟩ := r <;> rfl

end Reading

namespace Program

theorem follows_of_read (h : read ts = ⟨.ok program, n⟩) : Follows ts := by
  intro t ht
  obtain ⟨ts, rfl⟩ := List.head?_eq_some_iff.mp ht
  by_cases hend : t.kind = .lineEnd
  · simp [hend]
  · cases hread : Statement.read? t ts with
    | none => simp [read_of_none hend hread] at h
    | some r => exact Statement.follows_of_read? hread t rfl

/-- Behind a whole program another one is read as if it stood alone. -/
theorem read_append (h : read ts = ⟨.ok program, n⟩) (hus : Follows us) :
    read (ts ++ us) = ((read us).map (program ++ ·)).behind ts.length := by
  fun_induction readSteps ts generalizing program n with
  | case1 =>
    rw [read_nil] at h
    cases h
    rcases hread : read us with ⟨_ | _, _⟩ <;>
      simp [hread, Reading.behind, Reading.map, Except.map]
  | case2 t ts ht ih =>
    rw [read_of_lineEnd ht] at h
    obtain ⟨k, hk, -⟩ := Reading.behind_eq_iff.mp h
    rw [List.cons_append, read_of_lineEnd ht, ih hk, Reading.behind_behind, Nat.add_comm 1,
      List.length_cons]
  | case3 t ts ht hread => simp [read_of_none ht hread] at h
  | case4 t ts ht e m hread => simp [read_of_error hread] at h
  | case5 t ts ht s m hread ih =>
    rw [read_of_ok hread] at h
    obtain ⟨k, hk, -⟩ := Reading.behind_eq_iff.mp h
    obtain ⟨program, hrest, rfl⟩ := Reading.map_eq_ok_iff.mp hk
    obtain ⟨hle, hfirst⟩ := Statement.read?_append hread hus
    rw [List.cons_append, read_of_ok hfirst]
    have hlen : m + 1 + (ts.drop m).length = (t :: ts).length := by
      rw [List.length_drop, List.length_cons]
      omega
    rw [List.drop_append_of_le_length hle, ih hrest, Reading.map_behind, Reading.map_map,
      Reading.behind_behind, hlen]
    rfl

end Program

end Lookahead

end Tally
