import Tally.Proofs.Expression

/-! The grammar of programs. Programs are read from exactly the token lists that are items
in a row, and from each item but the line ends comes one statement. -/

namespace Tally

inductive IsItem : List Token → Prop where
  | lineEnd {t} (h : t.kind = .lineEnd) : IsItem [t]
  | assignment {v e ts} (hv : v.kind = .var) (he : e.kind = .equal) (hts : IsExpression ts) :
      IsItem (v :: e :: ts)
  | print {p ts} (hp : p.kind = .print) (hts : IsExpressionList ts) : IsItem (p :: ts)
  | directive {t} (h : t.kind = .directive) : IsItem [t]

/-- Tokens as items in a row. -/
structure Decomposition (ts : List Token) (items : List (List Token)) : Prop where
  covers : items.flatten = ts
  isItem : ∀ item ∈ items, IsItem item

namespace Statement

/-- What counts of the tokens of a statement, read from left to right. -/
def contents : Statement → List (Kind × Option Payload)
  | assign name value => (.var, some (.text name)) :: (.equal, none) :: value.contents
  | print items => (.print, none) :: Expr.listContents items
  | unsupported directive => [(.directive, some (.text directive))]

def Canonical : Statement → Prop
  | assign _ value => value.Canonical
  | print items => items ≠ [] ∧ ∀ e ∈ items, e.Canonical
  | unsupported _ => True

/-- The statement that an item stands for. -/
structure Reads (item : List Token) (s : Statement) : Prop where
  contents : s.contents = item.map Token.content
  canonical : s.Canonical

end Statement

/-- The items that stand for statements. -/
def statementItems (items : List (List Token)) : List (List Token) :=
  items.filter fun item => item.map Token.kind ≠ [.lineEnd]

section Statements

variable {item other ts us rest : List Token} {items others : List (List Token)}
  {t : Token} {kind : Kind} {s : Statement} {program : Program} {n : Nat}

/-- Where an item ends: at the end or before a token that begins another item. -/
def Follows (ts : List Token) : Prop :=
  ∀ t ∈ ts.head?, t.kind ∈ [.lineEnd, .var, .print, .directive]

theorem stops_of_follows (h : Follows ts) : Stops 0 ts := by
  intro t ht op hop
  have hkind := Kind.op?_eq_some_iff.mp hop
  have hmem := h t ht
  cases op <;> simp [hkind, Op.kind] at hmem

theorem not_comma_of_follows (h : Follows ts) : ∀ t ∈ ts.head?, t.kind ≠ .comma := by
  intro t ht hkind
  simpa [hkind] using h t ht

theorem isItem_of_reads (h : s.Reads item) : IsItem item := by
  have hc := h.contents
  cases s with
  | assign name value =>
    obtain ⟨v, vs, rfl, hv, hvs⟩ := List.map_eq_cons_iff.mp hc.symm
    obtain ⟨o, os, rfl, ho, hos⟩ := List.map_eq_cons_iff.mp hvs
    exact .assignment (congrArg Prod.fst hv) (congrArg Prod.fst ho)
      (isExpression_of_contents hos.symm)
  | print es =>
    obtain ⟨p, ps, rfl, hp, hps⟩ := List.map_eq_cons_iff.mp hc.symm
    exact .print (congrArg Prod.fst hp) (isExpressionList_of_contents h.canonical.1 hps.symm)
  | unsupported directive =>
    obtain ⟨d, rfl, hd⟩ := List.map_eq_singleton_iff.mp hc.symm
    exact .directive (congrArg Prod.fst hd)

theorem payload_of_content {payload : Payload} (h : t.content = (kind, some payload)) :
    t.payload = payload := by
  have hp := congrArg Prod.snd h
  simp only [Token.content, Option.ite_none_right_eq_some, Option.some.injEq] at hp
  exact hp.2

/-- An item is read as the statement it stands for, whatever item comes next. -/
theorem read?_of_reads (h : s.Reads item) (hrest : Follows rest) :
    ∃ t ts, item = t :: ts ∧ Statement.read? t (ts ++ rest) = some ⟨.ok s, ts.length⟩ := by
  have hc := h.contents
  have hstops := stops_of_follows hrest
  cases s with
  | assign name value =>
    obtain ⟨v, vs, rfl, hv, hvs⟩ := List.map_eq_cons_iff.mp hc.symm
    obtain ⟨o, os, rfl, ho, hos⟩ := List.map_eq_cons_iff.mp hvs
    have hvkind : v.kind = .var := congrArg Prod.fst hv
    have hokind : o.kind = .equal := congrArg Prod.fst ho
    have htext : v.text = name := by rw [Token.text, payload_of_content hv]
    have hread := read_of_contents_of_stops h.canonical hos hstops
    refine ⟨v, o :: os, rfl, ?_⟩
    simp [Statement.read?_eq, hvkind, Statement.readAssignment_cons, hokind, hread, htext,
      Reading.behind, Reading.map, Except.map, Nat.add_comm]
  | print es =>
    obtain ⟨p, ps, rfl, hp, hps⟩ := List.map_eq_cons_iff.mp hc.symm
    have hpkind : p.kind = .print := congrArg Prod.fst hp
    have hread := readList_of_contents h.canonical.1 h.canonical.2 hps hstops
      (not_comma_of_follows hrest)
    refine ⟨p, ps, rfl, ?_⟩
    simp [Statement.read?_eq, hpkind, hread, Reading.map, Except.map]
  | unsupported directive =>
    obtain ⟨d, rfl, hd⟩ := List.map_eq_singleton_iff.mp hc.symm
    have hdkind : d.kind = .directive := congrArg Prod.fst hd
    have htext : d.text = directive := by rw [Token.text, payload_of_content hd]
    exact ⟨d, [], rfl, by simp [Statement.read?_eq, hdkind, htext]⟩

theorem content_of_agrees (ha : t.Agrees) (ht : t.kind = kind) (hc : kind.carries)
    (hi : kind ≠ .integer) : t.content = (kind, some (.text t.text)) := by
  subst ht
  cases hp : t.payload with
  | integer n => exact (hi (ha.mpr ⟨n, hp⟩)).elim
  | text value => simp [Token.content, hc, Token.text, hp]

/-- A statement is read from an item that it stands for. -/
theorem reads_of_read? (ha : t.Agrees) (h : Statement.read? t ts = some ⟨.ok s, n⟩) :
    n ≤ ts.length ∧ s.Reads (t :: ts.take n) := by
  rw [Statement.read?_eq] at h
  split at h
  case h_1 ht =>
    have hcontent := content_of_agrees ha ht rfl (by decide)
    cases ts with
    | nil => simp [Statement.readAssignment] at h
    | cons o ts =>
      rw [Statement.readAssignment_cons] at h
      split at h
      case isFalse => simp at h
      case isTrue ho =>
        obtain ⟨k, hk, rfl⟩ := Reading.behind_eq_iff.mp (Option.some.inj h)
        obtain ⟨e, hread, rfl⟩ := Reading.map_eq_ok_iff.mp hk
        have hoff := Expr.readOff_of_read hread
        have hle := hoff.le
        have hequal := Token.content_of_not_carries ho (by decide)
        refine ⟨by simp; omega, ?_, hoff.canonical⟩
        simp [Statement.contents, hcontent, hequal, hoff.contents, Nat.add_comm 1]
  case h_2 ht =>
    obtain ⟨es, hread, rfl⟩ := Reading.map_eq_ok_iff.mp (Option.some.inj h)
    obtain ⟨hle, hne, hes, hcontents⟩ := contents_of_readList hread
    refine ⟨hle, ?_, hne, hes⟩
    simp [Statement.contents, Token.content_of_not_carries ht (by decide), hcontents]
  case h_3 ht =>
    cases h
    exact ⟨by simp, by simp [Statement.contents, content_of_agrees ha ht rfl (by decide)], trivial⟩
  case h_4 => simp at h

theorem follows_of_isItem (h : ∀ item ∈ items, IsItem item) : Follows items.flatten := by
  cases items with
  | nil => simp [Follows]
  | cons item items =>
    rintro t ht
    cases h item (by simp) <;> simp_all

theorem exists_reads (ha : ∀ t ∈ item, t.Agrees) (h : IsItem item)
    (hne : item.map Token.kind ≠ [.lineEnd]) : ∃ s : Statement, s.Reads item := by
  cases h with
  | lineEnd h => simp [h] at hne
  | @assignment v o ts hv ho hts =>
    obtain ⟨e, he, hcontents⟩ := exists_canonical (fun t ht => ha t (by simp [ht])) hts
    refine ⟨.assign v.text e, ?_, he⟩
    simp [Statement.contents, content_of_agrees (ha v (by simp)) hv rfl (by decide),
      Token.content_of_not_carries ho (by decide), hcontents]
  | @print p ts hp hts =>
    obtain ⟨es, hne, hes, hcontents⟩ := exists_canonical_list (fun t ht => ha t (by simp [ht])) hts
    refine ⟨.print es, ?_, hne, hes⟩
    simp [Statement.contents, Token.content_of_not_carries hp (by decide), hcontents]
  | @directive t ht =>
    exact ⟨.unsupported t.text,
      by simp [Statement.contents, content_of_agrees (ha t (by simp)) ht rfl (by decide)], trivial⟩

theorem statementItems_lineEnd (ht : t.kind = .lineEnd) :
    statementItems ([t] :: items) = statementItems items := by
  simp [statementItems, ht]

theorem statementItems_cons (h : item.map Token.kind ≠ [.lineEnd]) :
    statementItems (item :: items) = item :: statementItems items := by
  simp [statementItems, h]

theorem kinds_of_reads (h : s.Reads item) : item.map Token.kind ≠ [.lineEnd] := by
  have hnil : Follows [] := by simp [Follows]
  obtain ⟨t, ts, rfl, hread⟩ := read?_of_reads h hnil
  simp [Statement.ne_lineEnd_of_read? hread]

/-- Items are read as the statements they stand for. -/
theorem read_of_items (h : ∀ item ∈ items, IsItem item)
    (hr : List.Forall₂ Statement.Reads (statementItems items) program) :
    Program.read items.flatten = ⟨.ok program, items.flatten.length⟩ := by
  induction items generalizing program with
  | nil =>
    cases hr
    rw [List.flatten_nil, Program.read_nil]
    rfl
  | cons item items ih =>
    have hitems : ∀ item ∈ items, IsItem item := fun i hi => h i (by simp [hi])
    by_cases hkinds : item.map Token.kind = [.lineEnd]
    · obtain ⟨t, rfl, ht⟩ := List.map_eq_singleton_iff.mp hkinds
      rw [statementItems_lineEnd ht] at hr
      rw [List.flatten_cons, List.singleton_append, Program.read_of_lineEnd ht, ih hitems hr]
      simp [Reading.behind, Nat.add_comm]
    · rw [statementItems_cons hkinds] at hr
      cases hr with
      | cons hs hr =>
        obtain ⟨t, ts, rfl, hread⟩ := read?_of_reads hs (follows_of_isItem hitems)
        rw [List.flatten_cons, List.cons_append, Program.read_of_ok hread, List.drop_left,
          ih hitems hr]
        simp [Reading.behind, Reading.map, Except.map, Nat.add_assoc, Nat.add_comm 1]

theorem items_of_read (ha : ∀ t ∈ ts, t.Agrees) (h : Program.read ts = ⟨.ok program, n⟩) :
    ∃ items, Decomposition ts items ∧
      List.Forall₂ Statement.Reads (statementItems items) program := by
  fun_induction Program.readSteps ts generalizing program n with
  | case1 =>
    rw [Program.read_nil] at h
    cases h
    exact ⟨[], ⟨rfl, by simp⟩, .nil⟩
  | case2 t ts ht ih =>
    rw [Program.read_of_lineEnd ht] at h
    obtain ⟨k, hk, -⟩ := Reading.behind_eq_iff.mp h
    obtain ⟨items, ⟨rfl, hitems⟩, hreads⟩ := ih (fun u hu => ha u (by simp [hu])) hk
    refine ⟨[t] :: items, ⟨rfl, ?_⟩, by rwa [statementItems_lineEnd ht]⟩
    exact List.forall_mem_cons.mpr ⟨.lineEnd ht, hitems⟩
  | case3 t ts ht hread => simp [Program.read_of_none ht hread] at h
  | case4 t ts ht e m hread => simp [Program.read_of_error hread] at h
  | case5 t ts ht s m hread ih =>
    rw [Program.read_of_ok hread] at h
    obtain ⟨k, hk, -⟩ := Reading.behind_eq_iff.mp h
    obtain ⟨program, hrest, rfl⟩ := Reading.map_eq_ok_iff.mp hk
    obtain ⟨hle, hs⟩ := reads_of_read? (ha t (by simp)) hread
    obtain ⟨items, ⟨hcovers, hitems⟩, hreads⟩ :=
      ih (fun u hu => ha u (by simp [List.mem_of_mem_drop hu])) hrest
    refine ⟨(t :: ts.take m) :: items, ⟨by simp [hcovers], ?_⟩, ?_⟩
    · exact List.forall_mem_cons.mpr ⟨isItem_of_reads hs, hitems⟩
    · rw [statementItems_cons (kinds_of_reads hs)]
      exact .cons hs hreads

theorem exists_program (ha : ∀ item ∈ items, ∀ t ∈ item, t.Agrees)
    (h : ∀ item ∈ items, IsItem item) :
    ∃ program : Program, List.Forall₂ Statement.Reads (statementItems items) program := by
  induction items with
  | nil => exact ⟨[], .nil⟩
  | cons item items ih =>
    obtain ⟨hitem, hitems⟩ := List.forall_mem_cons.mp h
    obtain ⟨haitem, haitems⟩ := List.forall_mem_cons.mp ha
    obtain ⟨program, hprogram⟩ := ih haitems hitems
    by_cases hkinds : item.map Token.kind = [.lineEnd]
    · obtain ⟨t, rfl, ht⟩ := List.map_eq_singleton_iff.mp hkinds
      exact ⟨program, by rwa [statementItems_lineEnd ht]⟩
    · obtain ⟨s, hs⟩ := exists_reads haitem hitem hkinds
      rw [statementItems_cons hkinds]
      exact ⟨s :: program, .cons hs hprogram⟩

/-- Where an item ends can be told from its first token and what is read behind it. -/
theorem exists_head (ha : ∀ t ∈ item, t.Agrees) (h : IsItem item) :
    ∃ t rest, item = t :: rest ∧ ((t.kind = .lineEnd ∧ rest = []) ∨ (t.kind ≠ .lineEnd ∧
      ∃ s, ∀ ts, Follows ts → Statement.read? t (rest ++ ts) = some ⟨.ok s, rest.length⟩)) := by
  by_cases hkinds : item.map Token.kind = [.lineEnd]
  · obtain ⟨t, rfl, ht⟩ := List.map_eq_singleton_iff.mp hkinds
    exact ⟨t, [], rfl, .inl ⟨ht, rfl⟩⟩
  · obtain ⟨s, hs⟩ := exists_reads ha h hkinds
    have hnil : Follows [] := by simp [Follows]
    obtain ⟨t, rest, rfl, hfirst⟩ := read?_of_reads hs hnil
    refine ⟨t, rest, rfl, .inr ⟨Statement.ne_lineEnd_of_read? hfirst, s, fun ts hts => ?_⟩⟩
    obtain ⟨u, us, he, hread⟩ := read?_of_reads hs hts
    cases he
    exact hread

/-- The first item of tokens ends in one place only. -/
theorem item_unique (ha : ∀ t ∈ item, t.Agrees) (hb : ∀ t ∈ other, t.Agrees) (hi : IsItem item)
    (ho : IsItem other) (hts : Follows ts) (hus : Follows us) (h : item ++ ts = other ++ us) :
    item = other ∧ ts = us := by
  obtain ⟨t, rest, rfl, hrest⟩ := exists_head ha hi
  obtain ⟨u, rest', rfl, hrest'⟩ := exists_head hb ho
  rw [List.cons_append, List.cons_append] at h
  obtain ⟨rfl, htail⟩ := List.cons.inj h
  have hlen : rest.length = rest'.length := by
    rcases hrest with ⟨ht, rfl⟩ | ⟨ht, s, hs⟩ <;> rcases hrest' with ⟨hu, rfl⟩ | ⟨hu, s', hs'⟩
    · rfl
    · exact (hu ht).elim
    · exact (ht hu).elim
    · have hread := hs ts hts
      rw [htail, hs' us hus] at hread
      exact congrArg Reading.passed (Option.some.inj hread).symm
  obtain ⟨rfl, rfl⟩ := List.append_inj htail hlen
  exact ⟨rfl, rfl⟩

theorem decomposition_unique (ha : ∀ t ∈ ts, t.Agrees) (h : Decomposition ts items)
    (ho : Decomposition ts others) : items = others := by
  induction items generalizing others ts with
  | nil =>
    cases others with
    | nil => rfl
    | cons other others =>
      have hnil := h.covers.trans ho.covers.symm
      cases ho.isItem other (by simp) <;> simp at hnil
  | cons item items ih =>
    cases others with
    | nil =>
      have hnil := ho.covers.trans h.covers.symm
      cases h.isItem item (by simp) <;> simp at hnil
    | cons other others =>
      obtain ⟨rfl, hi⟩ := h
      obtain ⟨hcovers, ho⟩ := ho
      obtain ⟨hitem, hitems⟩ := List.forall_mem_cons.mp hi
      obtain ⟨hother, hothers⟩ := List.forall_mem_cons.mp ho
      have hb : ∀ t ∈ other, t.Agrees := fun t ht => ha t (by rw [← hcovers]; simp [ht])
      obtain ⟨rfl, hrest⟩ := item_unique (fun t ht => ha t (by simp [ht])) hb hitem hother
        (follows_of_isItem hitems) (follows_of_isItem hothers) (by simpa using hcovers.symm)
      have hafter : ∀ t ∈ items.flatten, t.Agrees :=
        fun t ht => ha t (by rw [List.flatten_cons]; exact List.mem_append_right item ht)
      rw [ih hafter ⟨rfl, hitems⟩ ⟨hrest.symm, hothers⟩]

theorem Program.ofTokens_eq_iff {result : Except SyntaxError Program} :
    ofTokens ts = result ↔ ∃ n, read ts = ⟨result, n⟩ := by
  rcases hread : read ts with ⟨found, n⟩
  simp [ofTokens, hread]

end Statements

/-- Programs are read from exactly the token lists that are items in a row. There is one way
to cut them, and the program has one canonical statement for every item but the line ends. -/
theorem ofTokens_eq_ok_iff_items (ts : List Token) (ha : ∀ t ∈ ts, t.Agrees) :
    (∀ program, Program.ofTokens ts = .ok program ↔ ∃ items, Decomposition ts items ∧
      List.Forall₂ Statement.Reads (statementItems items) program) ∧
    ((∃ program, Program.ofTokens ts = .ok program) ↔ ∃ items, Decomposition ts items) ∧
    ∀ items others, Decomposition ts items → Decomposition ts others → items = others := by
  have hiff : ∀ program, Program.ofTokens ts = .ok program ↔ ∃ items, Decomposition ts items ∧
      List.Forall₂ Statement.Reads (statementItems items) program := by
    intro program
    constructor
    · intro h
      obtain ⟨n, hread⟩ := Program.ofTokens_eq_iff.mp h
      exact items_of_read ha hread
    · rintro ⟨items, ⟨rfl, hitems⟩, hreads⟩
      exact Program.ofTokens_eq_iff.mpr ⟨_, read_of_items hitems hreads⟩
  refine ⟨hiff, ⟨?_, ?_⟩, fun items others => decomposition_unique ha⟩
  · rintro ⟨program, h⟩
    obtain ⟨items, hitems, -⟩ := (hiff program).mp h
    exact ⟨items, hitems⟩
  · rintro ⟨items, hitems⟩
    have hagrees : ∀ item ∈ items, ∀ t ∈ item, t.Agrees := by
      intro item hitem t ht
      exact ha t (by rw [← hitems.covers]; exact List.mem_flatten.mpr ⟨item, hitem, ht⟩)
    obtain ⟨program, hreads⟩ := exists_program hagrees hitems.isItem
    exact ⟨program, (hiff program).mpr ⟨items, hitems, hreads⟩⟩

/-- `$a = 1 + 2 * 3` and, behind a line end, `PRINT $a, "b"`. -/
def sampleTokens : List Token :=
  [⟨.var, .text "a", 0⟩, ⟨.equal, .text "=", 3⟩, ⟨.integer, .integer 1, 5⟩, ⟨.plus, .text "+", 7⟩,
   ⟨.integer, .integer 2, 9⟩, ⟨.times, .text "*", 11⟩, ⟨.integer, .integer 3, 13⟩,
   ⟨.lineEnd, .text "\n", 14⟩, ⟨.print, .text "PRINT", 15⟩, ⟨.var, .text "a", 21⟩,
   ⟨.comma, .text ",", 23⟩, ⟨.text, .text "b", 25⟩]

def sampleProgram : Program :=
  [.assign "a" (.binary (.integer 1) .add (.binary (.integer 2) .multiply (.integer 3))),
   .print [.var "a", .text "b"]]

theorem sampleTokens_items : (∀ t ∈ sampleTokens, t.Agrees) ∧
    ∃ items, Decomposition sampleTokens items ∧
      List.Forall₂ Statement.Reads (statementItems items) sampleProgram := by
  have ha : ∀ t ∈ sampleTokens, t.Agrees := by simp [sampleTokens, Token.Agrees]
  have hread : Program.ofTokens sampleTokens = .ok sampleProgram := by cbv
  exact ⟨ha, ((ofTokens_eq_ok_iff_items sampleTokens ha).1 sampleProgram).mp hread⟩

end Tally
