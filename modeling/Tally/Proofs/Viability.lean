import Tally.Proofs.Cursor

/-! Where a reading breaks off. The tokens in front of the place of an error can still go on to a
program, and with the token at that place they cannot. -/

namespace Tally

namespace Reading

variable {α β : Type}

theorem map_id (r : Reading α) : r.map id = r := by
  obtain ⟨_ | a, n⟩ := r <;> rfl

@[simp] theorem result_behind (n : Nat) (r : Reading α) : (r.behind n).result = r.result := rfl

@[simp] theorem result_map_eq_error_iff {f : α → β} {r : Reading α} {e : SyntaxError} :
    (r.map f).result = .error e ↔ r.result = .error e := by
  obtain ⟨_ | a, n⟩ := r <;> simp [map, Except.map]

end Reading

/-- Tokens that give what was expected. -/
def Expectation.completion : Expectation → List Token
  | statement => []
  | var => [⟨.var, .text "", 0⟩, ⟨.equal, .text "=", 0⟩, ⟨.integer, .integer 0, 0⟩]
  | equalSign => [⟨.equal, .text "=", 0⟩, ⟨.integer, .integer 0, 0⟩]
  | print => [⟨.print, .text "PRINT", 0⟩, ⟨.integer, .integer 0, 0⟩]
  | directive => [⟨.directive, .text "", 0⟩]
  | expression => [⟨.integer, .integer 0, 0⟩]

section Breaking

variable {α β : Type} {f : List Token → Reading α} {g : List Token → Reading β}
  {ts us p q : List Token} {e : SyntaxError} {x : Expectation}

/-- A reading fails behind the tokens `p` because `x` was expected there, and what stands there
instead is the end or a token that nothing makes up for. With `x` it succeeds. -/
structure BreaksOff (f : List Token → Reading α) (ts : List Token) (e : SyntaxError)
    (p : List Token) (x : Expectation) : Prop where
  completes : ∃ a, f (p ++ x.completion) = ⟨.ok a, (p ++ x.completion).length⟩
  cause : (ts = p ∧ e = .unexpectedEnd x ∧ x ≠ .statement) ∨
    ∃ t rest, ts = p ++ t :: rest ∧ e = t.unexpected x ∧
      ∀ us, (f (p ++ t :: us)).result = .error e

/-- What is read from some tokens decides what is read with others in front. -/
structure Carries (f : List Token → Reading α) (g : List Token → Reading β)
    (q us : List Token) : Prop where
  ok : ∀ a, f us = ⟨.ok a, us.length⟩ → ∃ b, g (q ++ us) = ⟨.ok b, (q ++ us).length⟩
  error : ∀ e n, f us = ⟨.error e, n⟩ → (g (q ++ us)).result = .error e

theorem carries_of_map {k : α → β} (h : g (q ++ us) = ((f us).map k).behind q.length) :
    Carries f g q us := by
  constructor
  · intro a ha
    refine ⟨k a, ?_⟩
    rw [h, ha, List.length_append]
    rfl
  · intro e n he
    rw [h, he]
    rfl

theorem carries_of_behind {f g : List Token → Reading α}
    (h : g (q ++ us) = (f us).behind q.length) : Carries f g q us := by
  apply carries_of_map (k := id)
  rw [h, Reading.map_id]

namespace BreaksOff

theorem lift (h : BreaksOff f ts e p x)
    (hc : ∀ us, us.head? = ts.head? ∨ us = p ++ x.completion → Carries f g q us) :
    BreaksOff g (q ++ ts) e (q ++ p) x := by
  obtain ⟨⟨a, ha⟩, hcause⟩ := h
  constructor
  · rw [List.append_assoc]
    exact (hc _ (.inr rfl)).ok a ha
  · rcases hcause with ⟨rfl, he, hx⟩ | ⟨t, rest, rfl, he, herror⟩
    · exact .inl ⟨rfl, he, hx⟩
    · refine .inr ⟨t, rest, by simp, he, ?_⟩
      intro us
      have hhead : (p ++ t :: us).head? = (p ++ t :: rest).head? := by cases p <;> rfl
      rw [List.append_assoc]
      exact (hc _ (.inl hhead)).error e (f (p ++ t :: us)).passed (by rw [← herror us])

theorem resumes (h : BreaksOff f ts e p x) (hp : p ≠ [] ∨ x = .statement)
    (hus : us.head? = ts.head? ∨ us = p ++ x.completion) : Resumes ts us := by
  rcases hus with hhead | rfl
  · exact .inl hhead
  · cases p with
    | nil =>
      obtain rfl := hp.resolve_left (fun hnil => hnil rfl)
      exact .inr (by simp [Expectation.completion, Follows])
    | cons u p =>
      rcases h.cause with ⟨rfl, -⟩ | ⟨t, rest, rfl, -⟩ <;> exact .inl rfl

end BreaksOff

end Breaking

namespace Expr

theorem read_completion (bound : Nat) :
    read bound Expectation.expression.completion = ⟨.ok (.integer 0), 1⟩ := by
  simp [Expectation.completion, read, extend, Token.operand?, Reading.behind]

mutual

theorem exists_breaksOff_read {bound : Nat} {ts : List Token} {e : SyntaxError}
    (h : (read bound ts).result = .error e) : ∃ p x, BreaksOff (read bound) ts e p x := by
  cases ts with
  | nil =>
    rw [read] at h
    cases h
    exact ⟨[], .expression, ⟨_, read_completion bound⟩, .inl ⟨rfl, rfl, by decide⟩⟩
  | cons t ts =>
    cases ht : t.operand? with
    | none =>
      have hread : ∀ us, read bound (t :: us) = ⟨.error (t.unexpected .expression), 1⟩ := by
        intro us
        rw [read, ht]
      rw [hread] at h
      cases h
      refine ⟨[], .expression, ⟨_, read_completion bound⟩, .inr ⟨t, ts, rfl, rfl, ?_⟩⟩
      intro us
      rw [List.nil_append, hread]
    | some left =>
      have hread : ∀ us, read bound (t :: us) = (extend bound left us).behind 1 := by
        intro us
        rw [read, ht]
      rw [hread] at h
      obtain ⟨p, x, -, hbreaks⟩ := exists_breaksOff_extend h
      refine ⟨t :: p, x, hbreaks.lift (q := [t]) ?_⟩
      intro us _
      exact carries_of_behind (hread us)
termination_by ts.length

theorem exists_breaksOff_extend {bound : Nat} {left : Expr} {ts : List Token} {e : SyntaxError}
    (h : (extend bound left ts).result = .error e) :
    ∃ p x, p ≠ [] ∧ BreaksOff (extend bound left) ts e p x := by
  by_cases hstop : Stops bound ts
  · simp [extend_of_stops hstop] at h
  · simp only [Stops, not_forall, Nat.not_le] at hstop
    obtain ⟨t, ht, op, hop, hbound⟩ := hstop
    obtain ⟨ts, rfl⟩ := List.head?_eq_some_iff.mp ht
    have hextend := fun us => (extend_cons hop hbound : extend bound left (t :: us) = _)
    rw [hextend] at h
    rcases hread : read op.precedence ts with ⟨error | right, n⟩
    · -- the right operand breaks off
      simp only [hread] at h
      cases h
      obtain ⟨p, x, hbreaks⟩ := exists_breaksOff_read (congrArg Reading.result hread)
      refine ⟨t :: p, x, by simp, hbreaks.lift (q := [t]) ?_⟩
      intro us _
      constructor
      · intro right hright
        exact ⟨binary left op right, by simp [hextend, hright, extend, Reading.behind]⟩
      · intro e m he
        simp [hextend, he]
    · simp only [hread] at h
      have hle := (readOff_of_read hread).le
      obtain ⟨p, x, hp, hbreaks⟩ := exists_breaksOff_extend h
      have hts : t :: ts = (t :: ts.take n) ++ ts.drop n := by simp
      rw [hts]
      refine ⟨(t :: ts.take n) ++ p, x, by simp, hbreaks.lift ?_⟩
      intro us hus
      have hright := read_take hread (hbreaks.resumes (.inl hp) hus)
      have hlen : (ts.take n).length = n := List.length_take_of_le hle
      apply carries_of_behind
      rw [List.cons_append, hextend, hright]
      simp [List.drop_left' hlen, hlen]
termination_by ts.length

end

theorem exists_breaksOff_readList {ts : List Token} {e : SyntaxError}
    (h : (readList ts).result = .error e) : ∃ p x, BreaksOff readList ts e p x := by
  fun_induction readList ts with
  | case1 ts error n hread =>
    cases h
    obtain ⟨p, x, hbreaks⟩ := exists_breaksOff_read (congrArg Reading.result hread)
    refine ⟨p, x, hbreaks.lift (q := []) ?_⟩
    intro us _
    constructor
    · intro a ha
      refine ⟨[a], ?_⟩
      rw [List.nil_append, readList_of_read ha, List.drop_length]
    · intro e m he
      rw [List.nil_append, readList, he]
  | case2 => cases h
  | case3 ts a n hread c rest hdrop hcomma ih =>
    have hlen : (ts.take n).length = n := List.length_take_of_le (readOff_of_read hread).le
    have hts : ts = (ts.take n ++ [c]) ++ rest := by
      rw [List.append_assoc, List.singleton_append, ← hdrop, List.take_append_drop]
    obtain ⟨p, x, hbreaks⟩ := ih (by simpa using h)
    rw [hts]
    refine ⟨(ts.take n ++ [c]) ++ p, x, hbreaks.lift ?_⟩
    intro us _
    have hfirst : read 0 (ts.take n ++ c :: us) = ⟨.ok a, n⟩ :=
      read_take hread (.inl (by simp [hdrop]))
    apply carries_of_map (k := (a :: ·))
    rw [List.append_assoc, List.singleton_append, readList_of_read hfirst, List.drop_left' hlen]
    simp [hcomma, hlen]
  | case4 => cases h

end Expr

namespace Statement

theorem exists_breaksOff_readAssignment {name : String} {ts : List Token} {e : SyntaxError}
    (h : (readAssignment name ts).result = .error e) :
    ∃ p x, BreaksOff (readAssignment name) ts e p x := by
  have hcompletes : readAssignment name Expectation.equalSign.completion =
      ⟨.ok (.assign name (.integer 0)), 2⟩ := by
    have hread := Expr.read_completion 0
    simp only [Expectation.completion] at hread ⊢
    simp [readAssignment_cons, hread, Reading.map, Reading.behind, Except.map]
  cases ts with
  | nil =>
    cases h
    exact ⟨[], .equalSign, ⟨_, hcompletes⟩, .inl ⟨rfl, rfl, by decide⟩⟩
  | cons t ts =>
    by_cases ht : t.kind = .equal
    · have hcons : ∀ us, readAssignment name (t :: us) =
          ((Expr.read 0 us).map (assign name)).behind 1 := by
        intro us
        rw [readAssignment_cons, if_pos ht]
      rw [hcons] at h
      obtain ⟨p, x, hbreaks⟩ := Expr.exists_breaksOff_read (by simpa using h)
      exact ⟨t :: p, x, hbreaks.lift (q := [t]) fun us _ => carries_of_map (hcons us)⟩
    · have hcons : ∀ us, readAssignment name (t :: us) = ⟨.error (t.unexpected .equalSign), 1⟩ := by
        intro us
        rw [readAssignment_cons, if_neg ht]
      rw [hcons] at h
      cases h
      refine ⟨[], .equalSign, ⟨_, hcompletes⟩, .inr ⟨t, ts, rfl, rfl, ?_⟩⟩
      intro us
      rw [List.nil_append, hcons]

/-- What breaks off behind the first token of a statement. -/
theorem exists_breaksOff_read? {t : Token} {ts : List Token} {e : SyntaxError} {n : Nat}
    (h : read? t ts = some ⟨.error e, n⟩) :
    ∃ f : List Token → Reading Statement, (∀ us, read? t us = some (f us)) ∧
      ∃ p x, BreaksOff f ts e p x := by
  simp only [read?_eq] at h ⊢
  split at h
  case h_1 ht =>
    refine ⟨readAssignment t.text, fun us => rfl, exists_breaksOff_readAssignment ?_⟩
    rw [Option.some.inj h]
  case h_2 ht =>
    have hread := congrArg Reading.result (Option.some.inj h)
    obtain ⟨p, x, hbreaks⟩ := Expr.exists_breaksOff_readList (by simpa using hread)
    refine ⟨fun us => (Expr.readList us).map print, fun us => rfl, p, x, hbreaks.lift (q := []) ?_⟩
    intro us _
    apply carries_of_map (k := print)
    simp [Reading.behind]
  case h_3 ht => cases h
  case h_4 => cases h

end Statement

namespace Program

variable {ts : List Token}

/-- Where a statement is expected, the tokens so far are a whole program. -/
theorem exists_breaksOff {e : SyntaxError} (h : (read ts).result = .error e) :
    ∃ p x, (p ≠ [] ∨ x = .statement) ∧ BreaksOff read ts e p x := by
  fun_induction readSteps ts with
  | case1 => simp at h
  | case2 t ts ht ih =>
    rw [read_of_lineEnd ht] at h
    obtain ⟨p, x, -, hbreaks⟩ := ih h
    refine ⟨t :: p, x, .inl (by simp), hbreaks.lift (q := [t]) ?_⟩
    intro us _
    apply carries_of_behind
    rw [List.singleton_append, read_of_lineEnd ht]
    rfl
  | case3 t ts ht hread =>
    rw [read_of_none ht hread] at h
    cases h
    refine ⟨[], .statement, .inr rfl, ⟨⟨[], read_nil⟩, .inr ⟨t, ts, rfl, rfl, ?_⟩⟩⟩
    · intro us
      have hnone : Statement.read? t us = none :=
        Statement.read?_eq_none_iff.mpr (Statement.read?_eq_none_iff.mp hread)
      rw [List.nil_append, read_of_none ht hnone]
  | case4 t ts ht error n hread =>
    rw [read_of_error hread] at h
    cases h
    obtain ⟨f, hf, p, x, hbreaks⟩ := Statement.exists_breaksOff_read? hread
    refine ⟨t :: p, x, .inl (by simp), hbreaks.lift (q := [t]) ?_⟩
    intro us _
    constructor
    · intro s hs
      refine ⟨[s], ?_⟩
      rw [List.singleton_append, read_of_ok ((hf _).trans (congrArg some hs)), List.drop_length,
        read_nil]
      rfl
    · intro e m he
      rw [List.singleton_append, read_of_error ((hf _).trans (congrArg some he))]
  | case5 t ts ht s n hread ih =>
    rw [read_of_ok hread] at h
    obtain ⟨hle, htake⟩ := Statement.read?_take hread
    obtain ⟨p, x, hp, hbreaks⟩ := ih (by simpa using h)
    -- the statement ends where it did only if the completion does not go on with it
    have hlen : (ts.take n).length = n := List.length_take_of_le hle
    have hts : t :: ts = (t :: ts.take n) ++ ts.drop n := by simp
    rw [hts]
    refine ⟨(t :: ts.take n) ++ p, x, .inl (by simp), hbreaks.lift ?_⟩
    intro us hus
    apply carries_of_map (k := (s :: ·))
    rw [List.cons_append, read_of_ok (htake us (hbreaks.resumes hp hus)), List.drop_left' hlen]
    simp [hlen]

/-- Of all that can be expected, only three things ever turn out to be missing. -/
theorem shown_of_unexpectedToken {x : Expectation} {kind : Kind} {o : Nat}
    (h : ofTokens ts = .error (.unexpectedToken x kind o)) :
    x.shown ∈ ["a statement", "'='", "an expression"] := by
  obtain ⟨n, hread⟩ := ofTokens_eq_iff.mp h
  obtain ⟨k, t, -, -, -, ⟨hx, -⟩ | ⟨rfl, -⟩⟩ := (halts_of_read hread).of_unexpectedToken
  · obtain rfl | rfl : x = .equalSign ∨ x = .expression := by simpa using hx
    all_goals decide
  · decide

/-- At the end it is not a statement. -/
theorem shown_of_unexpectedEnd {x : Expectation} (h : ofTokens ts = .error (.unexpectedEnd x)) :
    x.shown ∈ ["'='", "an expression"] := by
  obtain ⟨n, hread⟩ := ofTokens_eq_iff.mp h
  obtain ⟨hx, -⟩ := (halts_of_read hread).of_unexpectedEnd
  obtain rfl | rfl : x = .equalSign ∨ x = .expression := by simpa using hx
  all_goals decide

end Program

/-- An error is at the first token with which no program can go on, and what was read up to it can
still become a program, also where the error is at the end. -/
theorem ofTokens_eq_error (ts : List Token) :
    (∀ expected found offset,
      Program.ofTokens ts = .error (.unexpectedToken expected found offset) →
      expected.shown ∈ ["a statement", "'='", "an expression"] ∧
      ∃ k t, ts[k]? = some t ∧ t.kind = found ∧ t.offset = offset ∧
        (∃ vs program, Program.ofTokens (ts.take k ++ vs) = .ok program) ∧
        ∀ us, Program.ofTokens (ts.take (k + 1) ++ us) =
          .error (.unexpectedToken expected found offset)) ∧
    ∀ expected, Program.ofTokens ts = .error (.unexpectedEnd expected) →
      expected.shown ∈ ["'='", "an expression"] ∧
      ∃ vs, vs ≠ [] ∧ ∃ program, Program.ofTokens (ts ++ vs) = .ok program := by
  constructor
  · intro expected found offset h
    obtain ⟨p, x, -, ⟨program, hok⟩, hcause⟩ := Program.exists_breaksOff h
    rcases hcause with ⟨-, he, -⟩ | ⟨t, rest, rfl, he, herror⟩
    · cases he
    · cases he
      refine ⟨Program.shown_of_unexpectedToken h, p.length, t, by simp, rfl, rfl, ?_, ?_⟩
      · refine ⟨expected.completion, program, ?_⟩
        rw [List.take_left, Program.ofTokens, hok]
      · intro us
        rw [Program.ofTokens, List.take_length_add_append]
        simpa using herror us
  · intro expected h
    obtain ⟨p, x, -, ⟨program, hok⟩, hcause⟩ := Program.exists_breaksOff h
    rcases hcause with ⟨rfl, he, hx⟩ | ⟨t, rest, rfl, he, -⟩
    · cases he
      refine ⟨Program.shown_of_unexpectedEnd h, expected.completion, ?_, program, ?_⟩
      · cases expected <;> simp_all [Expectation.completion]
      · rw [Program.ofTokens, hok]
    · cases he

/-- `PRINT 1, =`, where the comma calls for an expression. -/
def danglingTokens : List Token :=
  [⟨.print, .text "PRINT", 0⟩, ⟨.integer, .integer 1, 6⟩, ⟨.comma, .text ",", 7⟩,
   ⟨.equal, .text "=", 9⟩]

theorem danglingTokens_eq_error :
    Program.ofTokens danglingTokens = .error (.unexpectedToken .expression .equal 9) ∧
    (∃ k t, danglingTokens[k]? = some t ∧ t.kind = .equal ∧ t.offset = 9 ∧
      (∃ vs program, Program.ofTokens (danglingTokens.take k ++ vs) = .ok program) ∧
      ∀ us, Program.ofTokens (danglingTokens.take (k + 1) ++ us) =
        .error (.unexpectedToken .expression .equal 9)) ∧
    Program.ofTokens (danglingTokens.take 3) = .error (.unexpectedEnd .expression) ∧
    ∃ vs, vs ≠ [] ∧ ∃ program, Program.ofTokens (danglingTokens.take 3 ++ vs) = .ok program := by
  have htoken : Program.ofTokens danglingTokens =
      .error (.unexpectedToken .expression .equal 9) := by cbv
  have hend : Program.ofTokens (danglingTokens.take 3) = .error (.unexpectedEnd .expression) := by
    cbv
  exact ⟨htoken, ((ofTokens_eq_error danglingTokens).1 _ _ _ htoken).2, hend,
    ((ofTokens_eq_error (danglingTokens.take 3)).2 _ hend).2⟩

end Tally
