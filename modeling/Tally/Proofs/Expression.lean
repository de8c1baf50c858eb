import Tally.Proofs.Canonical

/-! Expressions as token lists. Tokens are an expression exactly if some canonical tree has
their contents, and the same for lists of expressions behind commas. -/

namespace Tally

/-- The payload is an integer exactly if the kind says so. -/
def Token.Agrees (t : Token) : Prop := t.kind = .integer ↔ ∃ n, t.payload = .integer n

/-- An operand, and more of them behind operators. -/
inductive IsExpression : List Token → Prop where
  | operand {t} (h : t.kind ∈ [.var, .text, .integer]) : IsExpression [t]
  | more {ts o t} (h : IsExpression ts) (ho : o.kind ∈ [.plus, .minus, .times, .slash])
      (ht : t.kind ∈ [.var, .text, .integer]) : IsExpression (ts ++ [o, t])

/-- An expression, and more of them behind commas. -/
inductive IsExpressionList : List Token → Prop where
  | one {ts} (h : IsExpression ts) : IsExpressionList ts
  | more {ts c rest} (h : IsExpression ts) (hc : c.kind = .comma) (hr : IsExpressionList rest) :
      IsExpressionList (ts ++ c :: rest)

/-- The contents of expressions with commas between them. -/
def Expr.listContents (es : List Expr) : List (Kind × Option Payload) :=
  List.intercalate [(.comma, none)] (es.map Expr.contents)

section Expressions

variable {ts ls rs : List Token} {t o : Token} {e operand : Expr} {op : Op}

theorem isExpression_append (hl : IsExpression ls) (ho : o.kind ∈ [.plus, .minus, .times, .slash])
    (hr : IsExpression rs) : IsExpression (ls ++ o :: rs) := by
  induction hr with
  | operand ht => exact .more hl ho ht
  | more h hop ht ih => simpa using IsExpression.more ih hop ht

theorem isExpression_of_contents (h : e.contents = ts.map Token.content) : IsExpression ts := by
  induction e generalizing ts with
  | binary left op right ihl ihr =>
    obtain ⟨ls, os, rfl, hls, hos⟩ := List.map_eq_append_iff.mp h.symm
    obtain ⟨o, rs, rfl, ho, hrs⟩ := List.map_eq_cons_iff.mp hos
    have hkind := congrArg Prod.fst ho
    refine isExpression_append (ihl hls.symm) ?_ (ihr hrs.symm)
    cases op <;> simp_all [Token.content, Op.kind]
  | _ =>
    obtain ⟨t, rfl, ht⟩ := List.map_eq_singleton_iff.mp h.symm
    have hkind := congrArg Prod.fst ht
    exact .operand (by simp_all [Token.content])

/-- One more operand at the end of a canonical tree. -/
def Expr.snoc : Expr → Op → Expr → Expr
  | .binary left o right, op, operand =>
    if o.precedence < op.precedence then .binary left o (right.snoc op operand)
    else .binary (.binary left o right) op operand
  | e, op, operand => .binary e op operand

theorem contents_snoc :
    (e.snoc op operand).contents = e.contents ++ (op.kind, none) :: operand.contents := by
  fun_induction Expr.snoc e op operand <;> simp_all [Expr.contents]

theorem tightness_snoc : (e.snoc op operand).tightness = min e.tightness op.precedence := by
  have := op.precedence_le_two
  cases e with
  | binary left o right =>
    rw [Expr.snoc]
    split <;> simp only [Expr.tightness] <;> omega
  | _ =>
    simp only [Expr.snoc, Expr.tightness]
    omega

theorem canonical_snoc (he : e.Canonical) (ho : operand.IsOperand) :
    (e.snoc op operand).Canonical := by
  have htight := Expr.isOperand_iff.mp ho
  have hprec := op.precedence_le_two
  have hoperand := Expr.canonical_of_isOperand ho
  induction e with
  | binary left o right _ ih =>
    obtain ⟨hl, hr, hlt, hrt⟩ := Expr.canonical_binary.mp he
    rw [Expr.snoc]
    split
    · refine Expr.canonical_binary.mpr ⟨hl, ih hr, hlt, ?_⟩
      rw [tightness_snoc]
      omega
    · exact Expr.canonical_binary.mpr ⟨he, hoperand, by simp only [Expr.tightness]; omega, by omega⟩
  | _ =>
    rw [Expr.snoc]
    · exact Expr.canonical_binary.mpr ⟨he, hoperand, by simp only [Expr.tightness]; omega, by omega⟩
    · simp

theorem exists_operand (ha : t.Agrees) (ht : t.kind ∈ [.var, .text, .integer]) :
    ∃ e : Expr, e.IsOperand ∧ e.contents = [t.content] := by
  obtain ⟨kind, payload, offset⟩ := t
  simp only [List.mem_cons, List.not_mem_nil, or_false] at ht
  rcases ht with rfl | rfl | rfl <;> cases payload <;> simp [Token.Agrees] at ha
  · exact ⟨.var _, trivial, rfl⟩
  · exact ⟨.text _, trivial, rfl⟩
  · exact ⟨.integer _, trivial, rfl⟩

theorem exists_canonical (hts : ∀ t ∈ ts, t.Agrees) (h : IsExpression ts) :
    ∃ e : Expr, e.Canonical ∧ e.contents = ts.map Token.content := by
  induction h with
  | @operand t ht =>
    obtain ⟨e, he, hcontents⟩ := exists_operand (hts t (by simp)) ht
    exact ⟨e, Expr.canonical_of_isOperand he, hcontents⟩
  | @more ts o t _ ho ht ih =>
    obtain ⟨e, he, hcontents⟩ := ih fun u hu => hts u (by simp [hu])
    obtain ⟨a, ha, hacontents⟩ := exists_operand (hts t (by simp)) ht
    obtain ⟨op, hop⟩ : ∃ op, o.kind.op? = some op := by
      simp only [List.mem_cons, List.not_mem_nil, or_false] at ho
      rcases ho with h | h | h | h <;> simp [h, Kind.op?]
    refine ⟨e.snoc op a, canonical_snoc he ha, ?_⟩
    simp [contents_snoc, hcontents, hacontents, Token.content_of_op hop]

end Expressions

section Lists

variable {ts rest : List Token} {t : Token} {e : Expr} {es : List Expr} {n : Nat}

@[simp] theorem listContents_singleton : Expr.listContents [e] = e.contents := by
  simp [Expr.listContents]

theorem listContents_cons (h : es ≠ []) :
    Expr.listContents (e :: es) = e.contents ++ (.comma, none) :: Expr.listContents es := by
  obtain ⟨d, es, rfl⟩ := List.exists_cons_of_ne_nil h
  simp [Expr.listContents, List.intercalate_cons_cons]

theorem isExpressionList_of_contents (hes : es ≠ [])
    (h : Expr.listContents es = ts.map Token.content) : IsExpressionList ts := by
  induction es generalizing ts with
  | nil => exact (hes rfl).elim
  | cons e es ih =>
    by_cases hnil : es = []
    · subst hnil
      exact .one (isExpression_of_contents (by simpa using h))
    · rw [listContents_cons hnil] at h
      obtain ⟨ls, os, rfl, hls, hos⟩ := List.map_eq_append_iff.mp h.symm
      obtain ⟨o, rs, rfl, ho, hrs⟩ := List.map_eq_cons_iff.mp hos
      exact .more (isExpression_of_contents hls.symm) (congrArg Prod.fst ho) (ih hnil hrs.symm)

theorem exists_canonical_list (hts : ∀ t ∈ ts, t.Agrees) (h : IsExpressionList ts) :
    ∃ es : List Expr, es ≠ [] ∧ (∀ e ∈ es, e.Canonical) ∧
      Expr.listContents es = ts.map Token.content := by
  induction h with
  | one h =>
    obtain ⟨e, he, hcontents⟩ := exists_canonical hts h
    exact ⟨[e], by simp, by simpa using he, by simpa using hcontents⟩
  | @more ts c rest h hc _ ih =>
    obtain ⟨e, he, hcontents⟩ := exists_canonical (fun t ht => hts t (by simp [ht])) h
    obtain ⟨es, hne, hes, hescontents⟩ := ih fun t ht => hts t (by simp [ht])
    refine ⟨e :: es, by simp, by simpa using ⟨he, hes⟩, ?_⟩
    have hcomma := Token.content_of_not_carries hc (by decide)
    simp [listContents_cons hne, hcontents, hescontents, hcomma]

/-- A canonical tree is read back from tokens with its contents. -/
theorem read_of_contents_of_stops (he : e.Canonical) (ht : ts.map Token.content = e.contents)
    (hs : Stops 0 rest) : Expr.read 0 (ts ++ rest) = ⟨.ok e, ts.length⟩ := by
  have htight := e.one_le_tightness
  rw [Expr.read_of_contents he (by omega) ht (Expr.stops_mono hs (by omega)),
    Expr.extend_of_stops hs]
  rfl

theorem readList_of_read (h : Expr.read 0 ts = ⟨.ok e, n⟩) :
    Expr.readList ts =
      match ts.drop n with
      | [] => ⟨.ok [e], n⟩
      | t :: rest =>
        if t.kind = .comma then ((Expr.readList rest).map (e :: ·)).behind (n + 1)
        else ⟨.ok [e], n⟩ := by
  rw [Expr.readList]
  simp only [h]
  split <;> simp [*]

/-- The expressions are read back from tokens with their contents. -/
theorem readList_of_contents (hes : es ≠ []) (hcanonical : ∀ e ∈ es, e.Canonical)
    (hts : ts.map Token.content = Expr.listContents es) (hstop : Stops 0 rest)
    (hcomma : ∀ t ∈ rest.head?, t.kind ≠ .comma) :
    Expr.readList (ts ++ rest) = ⟨.ok es, ts.length⟩ := by
  induction es generalizing ts with
  | nil => exact (hes rfl).elim
  | cons e es ih =>
    have he := hcanonical e (by simp)
    by_cases hnil : es = []
    · subst hnil
      have hread := read_of_contents_of_stops he (by simpa using hts) hstop
      rw [readList_of_read hread, List.drop_left]
      cases rest with
      | nil => rfl
      | cons t rest => simp [hcomma t rfl]
    · rw [listContents_cons hnil] at hts
      obtain ⟨ls, os, rfl, hls, hos⟩ := List.map_eq_append_iff.mp hts
      obtain ⟨o, rs, rfl, ho, hrs⟩ := List.map_eq_cons_iff.mp hos
      have hkind : o.kind = .comma := congrArg Prod.fst ho
      have hstops : Stops 0 (o :: (rs ++ rest)) := by
        rintro t ht op hop
        cases ht
        simp [hkind, Kind.op?] at hop
      have hread := read_of_contents_of_stops he hls hstops
      rw [List.append_assoc, List.cons_append, readList_of_read hread, List.drop_left]
      simp only [hkind, if_true, ih hnil (fun d hd => hcanonical d (by simp [hd])) hrs]
      simp [Reading.behind, Reading.map, Except.map, Nat.add_assoc, Nat.add_comm 1]

/-- What is read as expressions has the contents of the tokens passed. -/
theorem contents_of_readList (h : Expr.readList ts = ⟨.ok es, n⟩) :
    n ≤ ts.length ∧ es ≠ [] ∧ (∀ e ∈ es, e.Canonical) ∧
      Expr.listContents es = (ts.take n).map Token.content := by
  fun_induction Expr.readList ts generalizing es n with
  | case1 ts e m hread => simp at h
  | case2 ts e m hread hdrop =>
    cases h
    have hoff := Expr.readOff_of_read hread
    exact ⟨hoff.le, by simp, by simpa using hoff.canonical, by simpa using hoff.contents⟩
  | case3 ts e m hread c rest hdrop hcomma ih =>
    have hoff := Expr.readOff_of_read hread
    obtain ⟨k, hk, rfl⟩ := Reading.behind_eq_iff.mp h
    obtain ⟨es, hrest, rfl⟩ := Reading.map_eq_ok_iff.mp hk
    obtain ⟨hk, hne, hes, hcontents⟩ := ih hrest
    have htake : ts.take (m + 1 + k) = ts.take m ++ c :: rest.take k := by
      rw [Nat.add_assoc, List.take_add, hdrop, Nat.add_comm 1, List.take_succ_cons]
    have hlen : ts.length - m = rest.length + 1 := by
      rw [← List.length_drop, hdrop, List.length_cons]
    refine ⟨by omega, by simp, by simpa using ⟨hoff.canonical, hes⟩, ?_⟩
    have hcontent := Token.content_of_not_carries hcomma (by decide)
    simp [htake, listContents_cons hne, hoff.contents, hcontents, hcontent]
  | case4 ts e m hread c rest hdrop hcomma =>
    cases h
    have hoff := Expr.readOff_of_read hread
    exact ⟨hoff.le, by simp, by simpa using hoff.canonical, by simpa using hoff.contents⟩

end Lists

end Tally
