import Tally.Proofs.Lookahead

/-! Readers that are asked again and again. Expressions and programs may be read from the same
tokens in any order and also after errors, each from where the last reading has got to. -/

namespace Tally

/-- Tokens, of which so many are passed. -/
structure Cursor where
  tokens : List Token
  passed : Nat
deriving DecidableEq

/-- What can be read. -/
inductive Cursor.Call where
  | expression (bound : Nat)
  | program
deriving DecidableEq

/-- What a call gives. -/
inductive Cursor.Found where
  | expression (e : Expr)
  | program (program : Program)
deriving DecidableEq

namespace Cursor

def ofTokens (tokens : List Token) : Cursor := ⟨tokens, 0⟩

def rest (c : Cursor) : List Token := c.tokens.drop c.passed

/-- What a call reads from the rest of the tokens. -/
def Call.read (ts : List Token) : Call → Reading Found
  | expression bound => (Expr.read bound ts).map .expression
  | program => (Program.read ts).map .program

/-- The answer to a call, and the cursor behind what it passed. -/
def ask (c : Cursor) (call : Call) : Except SyntaxError Found × Cursor :=
  ((call.read c.rest).result, { c with passed := c.passed + (call.read c.rest).passed })

/-- The cursor behind some calls. -/
def after (c : Cursor) : List Call → Cursor
  | [] => c
  | call :: calls => (c.ask call).2.after calls

end Cursor

namespace Reading

variable {α β : Type} {r : Reading α} {f : α → β} {e : SyntaxError} {n : Nat}

theorem map_eq_error_iff : r.map f = ⟨.error e, n⟩ ↔ r = ⟨.error e, n⟩ := by
  obtain ⟨_ | a, passed⟩ := r <;> simp [map, Except.map]

end Reading

/-- Where a reading inside a statement has got to if it fails: to the end, or behind the token that
is not what was expected. An equal sign or an expression was. -/
inductive Breaks (ts : List Token) : SyntaxError → Nat → Prop where
  | atEnd {x} (hx : x ∈ [.equalSign, .expression]) : Breaks ts (.unexpectedEnd x) ts.length
  | behind {k t x} (ht : ts[k]? = some t) (hx : x ∈ [.equalSign, .expression]) :
      Breaks ts (t.unexpected x) (k + 1)

/-- Where any reading has got to if it fails. It stays in front of a token that begins no
statement. -/
inductive Halts (ts : List Token) : SyntaxError → Nat → Prop where
  | inside {e n} (h : Breaks ts e n) : Halts ts e n
  | before {k t} (ht : ts[k]? = some t) (hkind : t.kind ∉ [.lineEnd, .var, .print, .directive]) :
      Halts ts (t.unexpected .statement) k

section Halting

variable {ts rest : List Token} {t : Token} {e : SyntaxError} {n k bound : Nat}

theorem getElem?_length_add (ls rest : List Token) (k : Nat) :
    (ls ++ rest)[ls.length + k]? = rest[k]? := by
  rw [List.getElem?_append_right (Nat.le_add_right _ _), Nat.add_sub_cancel_left]

theorem Breaks.append (h : Breaks rest e n) (ls : List Token) :
    Breaks (ls ++ rest) e (ls.length + n) := by
  cases h with
  | atEnd hx =>
    rw [← List.length_append]
    exact .atEnd hx
  | behind ht hx => exact .behind ((getElem?_length_add ls rest _).trans ht) hx

theorem Halts.append (h : Halts rest e n) (ls : List Token) :
    Halts (ls ++ rest) e (ls.length + n) := by
  cases h with
  | inside h => exact .inside (h.append ls)
  | before ht hkind => exact .before ((getElem?_length_add ls rest _).trans ht) hkind

theorem Breaks.cons (h : Breaks ts e n) (t : Token) : Breaks (t :: ts) e (n + 1) := by
  simpa [Nat.add_comm 1] using h.append [t]

theorem Halts.cons (h : Halts ts e n) (t : Token) : Halts (t :: ts) e (n + 1) := by
  simpa [Nat.add_comm 1] using h.append [t]

theorem Breaks.drop (h : Breaks (ts.drop k) e n) (hk : k ≤ ts.length) : Breaks ts e (k + n) := by
  simpa [hk] using h.append (ts.take k)

theorem Halts.drop (h : Halts (ts.drop k) e n) (hk : k ≤ ts.length) : Halts ts e (k + n) := by
  simpa [hk] using h.append (ts.take k)

theorem not_breaks_statement {kind : Kind} {o : Nat} :
    ¬ Breaks ts (.unexpectedToken .statement kind o) n := by
  intro h
  cases h with
  | behind _ hx => simp at hx

theorem Halts.le (h : Halts ts e n) : n ≤ ts.length := by
  cases h with
  | inside h =>
    cases h with
    | atEnd => exact Nat.le_refl _
    | behind ht => exact (List.getElem?_eq_some_iff.mp ht).1
  | before ht => exact Nat.le_of_lt (List.getElem?_eq_some_iff.mp ht).1

theorem Halts.of_unexpectedEnd {x : Expectation} (h : Halts ts (.unexpectedEnd x) n) :
    x ∈ [.equalSign, .expression] ∧ n = ts.length := by
  cases h with
  | inside h =>
    cases h with
    | atEnd hx => exact ⟨hx, rfl⟩

theorem Halts.of_unexpectedToken {x : Expectation} {kind : Kind} {o : Nat}
    (h : Halts ts (.unexpectedToken x kind o) n) :
    ∃ k t, ts[k]? = some t ∧ t.kind = kind ∧ t.offset = o ∧
      (x ∈ [.equalSign, .expression] ∧ n = k + 1 ∨
        x = .statement ∧ n = k ∧ t.kind ∉ [.lineEnd, .var, .print, .directive]) := by
  cases h with
  | inside h =>
    cases h with
    | behind ht hx => exact ⟨_, _, ht, rfl, rfl, .inl ⟨hx, rfl⟩⟩
  | before ht hkind => exact ⟨_, _, ht, rfl, rfl, .inr ⟨rfl, rfl, hkind⟩⟩

namespace Expr

mutual

theorem breaks_of_read {bound n : Nat} {ts : List Token} {e : SyntaxError}
    (h : read bound ts = ⟨.error e, n⟩) : Breaks ts e n := by
  cases ts with
  | nil =>
    rw [read] at h
    cases h
    exact .atEnd (by decide)
  | cons t ts =>
    rw [read] at h
    cases ht : t.operand? with
    | none =>
      simp only [ht] at h
      cases h
      exact .behind rfl (by decide)
    | some left =>
      simp only [ht] at h
      obtain ⟨k, hk, rfl⟩ := Reading.behind_eq_iff.mp h
      rw [Nat.add_comm]
      exact (breaks_of_extend hk).cons t
termination_by ts.length

theorem breaks_of_extend {bound n : Nat} {left : Expr} {ts : List Token} {e : SyntaxError}
    (h : extend bound left ts = ⟨.error e, n⟩) : Breaks ts e n := by
  by_cases hstop : Stops bound ts
  · simp [extend_of_stops hstop] at h
  · simp only [Stops, not_forall, Nat.not_le] at hstop
    obtain ⟨t, ht, op, hop, hbound⟩ := hstop
    obtain ⟨ts, rfl⟩ := List.head?_eq_some_iff.mp ht
    rw [extend_cons hop hbound] at h
    rcases hread : read op.precedence ts with ⟨error | right, m⟩
    · simp only [hread] at h
      cases h
      exact (breaks_of_read hread).cons t
    · simp only [hread] at h
      obtain ⟨k, hk, rfl⟩ := Reading.behind_eq_iff.mp h
      have hrest := (breaks_of_extend hk).drop (readOff_of_read hread).le
      rw [Nat.add_right_comm]
      exact hrest.cons t
termination_by ts.length

end

theorem breaks_of_readList {ts : List Token} {e : SyntaxError} {n : Nat}
    (h : readList ts = ⟨.error e, n⟩) : Breaks ts e n := by
  fun_induction readList ts generalizing n with
  | case1 ts error m hread =>
    cases h
    exact breaks_of_read hread
  | case2 => cases h
  | case3 ts a m hread c rest hdrop hcomma ih =>
    obtain ⟨k, hk, rfl⟩ := Reading.behind_eq_iff.mp h
    have hrest : Breaks (ts.drop m) e (k + 1) := by
      rw [hdrop]
      exact (ih (Reading.map_eq_error_iff.mp hk)).cons c
    rw [Nat.add_assoc, Nat.add_comm 1]
    exact hrest.drop (readOff_of_read hread).le
  | case4 => cases h

end Expr

theorem Statement.breaks_of_read? {t : Token} {ts : List Token} {e : SyntaxError} {n : Nat}
    (h : read? t ts = some ⟨.error e, n⟩) : Breaks ts e n := by
  rw [read?_eq] at h
  split at h
  case h_1 ht =>
    cases ts with
    | nil =>
      cases h
      exact .atEnd (by decide)
    | cons o ts =>
      rw [readAssignment_cons] at h
      split at h
      case isTrue ho =>
        obtain ⟨k, hk, rfl⟩ := Reading.behind_eq_iff.mp (Option.some.inj h)
        rw [Nat.add_comm]
        exact (Expr.breaks_of_read (Reading.map_eq_error_iff.mp hk)).cons o
      case isFalse ho =>
        cases h
        exact .behind rfl (by decide)
  case h_2 ht => exact Expr.breaks_of_readList (Reading.map_eq_error_iff.mp (Option.some.inj h))
  case h_3 ht => cases h
  case h_4 => cases h

theorem Program.halts_of_read {ts : List Token} {e : SyntaxError} {n : Nat}
    (h : read ts = ⟨.error e, n⟩) : Halts ts e n := by
  fun_induction readSteps ts generalizing n with
  | case1 => simp at h
  | case2 t ts ht ih =>
    rw [read_of_lineEnd ht] at h
    obtain ⟨k, hk, rfl⟩ := Reading.behind_eq_iff.mp h
    rw [Nat.add_comm]
    exact (ih hk).cons t
  | case3 t ts ht hread =>
    rw [read_of_none ht hread] at h
    cases h
    refine .before rfl ?_
    have hkind := Statement.read?_eq_none_iff.mp hread
    simp_all
  | case4 t ts ht error m hread =>
    rw [read_of_error hread] at h
    cases h
    exact (Halts.inside (Statement.breaks_of_read? hread)).cons t
  | case5 t ts ht s m hread ih =>
    rw [read_of_ok hread] at h
    obtain ⟨k, hk, rfl⟩ := Reading.behind_eq_iff.mp h
    have hrest := (ih (Reading.map_eq_error_iff.mp hk)).drop (Statement.read?_take hread).1
    rw [Nat.add_right_comm]
    exact hrest.cons t

end Halting

theorem Expr.odd_length_contents (e : Expr) : e.contents.length % 2 = 1 := by
  induction e with
  | binary left op right ihl ihr =>
    rw [contents, List.length_append, List.length_cons]
    omega
  | _ => rfl

/-- Where no statement begins, nothing is passed. -/
theorem Program.read_of_kind {t : Token} (h : t.kind ∉ [.lineEnd, .var, .print, .directive])
    (ts : List Token) : read (t :: ts) = ⟨.error (t.unexpected .statement), 0⟩ := by
  obtain ⟨hline, hbegins⟩ := not_or.mp (mt List.mem_cons.mpr h)
  exact read_of_none hline (Statement.read?_eq_none_iff.mpr hbegins)

namespace Cursor

variable {c : Cursor} {ts : List Token} {call : Call} {calls : List Call} {found : Found}
  {e : SyntaxError} {n bound : Nat}

section Steps

theorem Call.halts_of_read (h : call.read ts = ⟨.error e, n⟩) : Halts ts e n := by
  cases call with
  | expression bound => exact .inside (Expr.breaks_of_read (Reading.map_eq_error_iff.mp h))
  | program => exact Program.halts_of_read (Reading.map_eq_error_iff.mp h)

/-- A program that is read is read to the end. -/
theorem Call.read_program (h : Call.program.read ts = ⟨.ok found, n⟩) :
    (∃ program, found = .program program) ∧ n = ts.length := by
  obtain ⟨program, hread, rfl⟩ := Reading.map_eq_ok_iff.mp h
  have hnil : Follows [] := by simp [Follows]
  have hwhole := Program.read_append hread hnil
  rw [List.append_nil, hread, Program.read_nil] at hwhole
  exact ⟨⟨program, rfl⟩, congrArg Reading.passed hwhole⟩

theorem Call.passed_read_le (call : Call) (ts : List Token) :
    (call.read ts).passed ≤ ts.length := by
  rcases h : call.read ts with ⟨e | found, n⟩
  · exact (halts_of_read h).le
  · cases call with
    | expression bound =>
      obtain ⟨e, hread, -⟩ := Reading.map_eq_ok_iff.mp h
      exact (Expr.readOff_of_read hread).le
    | program => exact Nat.le_of_eq (read_program h).2

theorem read_eq (c : Cursor) (call : Call) :
    call.read c.rest = ⟨(c.ask call).1, (call.read c.rest).passed⟩ := rfl

theorem passed_ask_le (hc : c.passed ≤ c.tokens.length) (call : Call) :
    (c.ask call).2.passed ≤ c.tokens.length := by
  have hle := call.passed_read_le c.rest
  rw [rest, List.length_drop] at hle
  simp only [ask]
  rw [rest]
  omega

theorem halts_of_ask (hc : c.passed ≤ c.tokens.length) (h : (c.ask call).1 = .error e) :
    Halts c.tokens e (c.ask call).2.passed := by
  have hread := c.read_eq call
  rw [h] at hread
  exact (Call.halts_of_read hread).drop hc

theorem ask_expression (h : (c.ask (.expression bound)).1 = .ok found) :
    ∃ e read, found = .expression e ∧ c.rest = read ++ (c.ask (.expression bound)).2.rest ∧
      (c.ask (.expression bound)).2.passed = c.passed + read.length ∧
      read.map Token.content = e.contents ∧ Stops bound (c.ask (.expression bound)).2.rest := by
  have hread := c.read_eq (.expression bound)
  rw [h] at hread
  obtain ⟨e, he, rfl⟩ := Reading.map_eq_ok_iff.mp hread
  have hoff := Expr.readOff_of_read he
  have hrest : (c.ask (.expression bound)).2.rest =
      c.rest.drop (Call.read c.rest (.expression bound)).passed := by
    rw [rest, rest, List.drop_drop]
    rfl
  refine ⟨e, c.rest.take _, rfl, ?_, ?_, hoff.contents.symm, ?_⟩
  · rw [hrest, List.take_append_drop]
  · rw [List.length_take_of_le hoff.le]
    rfl
  · rw [hrest]
    exact hoff.stops

theorem ask_program (hc : c.passed ≤ c.tokens.length) (h : (c.ask .program).1 = .ok found) :
    (∃ program, found = .program program) ∧ (c.ask .program).2.passed = c.tokens.length := by
  have hread := c.read_eq .program
  rw [h] at hread
  obtain ⟨hprogram, hpassed⟩ := Call.read_program hread
  refine ⟨hprogram, ?_⟩
  simp only [ask, hpassed]
  rw [rest, List.length_drop]
  omega

/-- In front of a token that begins no statement a cursor stays. -/
theorem ask_program_of_kind {t : Token} (ht : c.tokens[c.passed]? = some t)
    (h : t.kind ∉ [.lineEnd, .var, .print, .directive]) :
    c.ask .program = (.error (t.unexpected .statement), c) := by
  obtain ⟨hlt, rfl⟩ := List.getElem?_eq_some_iff.mp ht
  have hread : Call.program.read c.rest = ⟨.error (c.tokens[c.passed].unexpected .statement), 0⟩ := by
    rw [rest, List.drop_eq_getElem_cons hlt, Call.read, Program.read_of_kind h]
    rfl
  rw [ask, hread]
  rfl

end Steps

section Calls

theorem after_append (c : Cursor) (calls later : List Call) :
    c.after (calls ++ later) = (c.after calls).after later := by
  induction calls generalizing c with
  | nil => rfl
  | cons call calls ih => exact ih _

@[simp] theorem tokens_after (c : Cursor) (calls : List Call) :
    (c.after calls).tokens = c.tokens := by
  induction calls generalizing c with
  | nil => rfl
  | cons call calls ih => exact ih _

theorem passed_le_after (c : Cursor) (calls : List Call) : c.passed ≤ (c.after calls).passed := by
  induction calls generalizing c with
  | nil => exact Nat.le_refl _
  | cons call calls ih => exact Nat.le_trans (Nat.le_add_right _ _) (ih (c.ask call).2)

theorem passed_after_le (hc : c.passed ≤ c.tokens.length) (calls : List Call) :
    (c.after calls).passed ≤ c.tokens.length := by
  induction calls generalizing c with
  | nil => exact hc
  | cons call calls ih => exact ih (passed_ask_le hc call)

end Calls

end Cursor

open Cursor

/-- What becomes of a cursor. It goes on in the tokens and stays among them. An expression that is
read has the contents of the tokens passed, which are an odd number, and ends where no operator goes
on with it. A program that is read ends at the end. After an error the cursor is at the end or behind
the token that was not expected, or in front of it if it begins no statement, and then reading a
program once more changes nothing. -/
theorem passed_of_calls (ts : List Token) (calls : List Call) :
    let c := (ofTokens ts).after calls
    (∀ later, c.passed ≤ ((ofTokens ts).after (calls ++ later)).passed ∧
      ((ofTokens ts).after (calls ++ later)).passed ≤ ts.length) ∧
    (∀ bound found, (c.ask (.expression bound)).1 = .ok found →
      ∃ e read, found = .expression e ∧ c.rest = read ++ (c.ask (.expression bound)).2.rest ∧
        (c.ask (.expression bound)).2.passed = c.passed + read.length ∧ read.length % 2 = 1 ∧
        read.map Token.content = e.contents ∧ Stops bound (c.ask (.expression bound)).2.rest) ∧
    (∀ found, (c.ask .program).1 = .ok found →
      (∃ program, found = .program program) ∧ (c.ask .program).2.passed = ts.length) ∧
    (∀ call x, (c.ask call).1 = .error (.unexpectedEnd x) → (c.ask call).2.passed = ts.length) ∧
    (∀ call, ∀ x ∈ [.expression, .equalSign], ∀ kind o,
      (c.ask call).1 = .error (.unexpectedToken x kind o) →
      ∃ k t, (c.ask call).2.passed = k + 1 ∧ ts[k]? = some t ∧ t.kind = kind ∧ t.offset = o) ∧
    ∀ call kind o, (c.ask call).1 = .error (.unexpectedToken .statement kind o) →
      (∃ t, ts[(c.ask call).2.passed]? = some t ∧ t.kind = kind ∧ t.offset = o) ∧
      (c.ask call).2.ask .program = c.ask call := by
  intro c
  have hts : c.tokens = ts := tokens_after (ofTokens ts) calls
  have hc : c.passed ≤ c.tokens.length := by
    rw [hts]
    exact passed_after_le (Nat.zero_le ts.length) calls
  refine ⟨?_, ?_, ?_, ?_, ?_, ?_⟩
  · intro later
    refine ⟨?_, passed_after_le (Nat.zero_le ts.length) _⟩
    rw [after_append]
    exact c.passed_le_after later
  · intro bound found h
    obtain ⟨e, read, hfound, hrest, hpassed, hcontents, hstops⟩ := ask_expression h
    refine ⟨e, read, hfound, hrest, hpassed, ?_, hcontents, hstops⟩
    rw [← List.length_map, hcontents]
    exact e.odd_length_contents
  · intro found h
    rw [← hts]
    exact ask_program hc h
  · intro call x h
    rw [← hts]
    exact (halts_of_ask hc h).of_unexpectedEnd.2
  · intro call x hx kind o h
    obtain ⟨k, t, ht, hkind, ho, ⟨-, hpassed⟩ | ⟨rfl, -⟩⟩ := (halts_of_ask hc h).of_unexpectedToken
    · exact ⟨k, t, hpassed, hts ▸ ht, hkind, ho⟩
    · simp at hx
  · intro call kind o h
    obtain ⟨k, t, ht, rfl, rfl, ⟨hx, -⟩ | ⟨-, hpassed, hbegins⟩⟩ :=
      (halts_of_ask hc h).of_unexpectedToken
    · simp at hx
    · refine ⟨⟨t, ?_, rfl, rfl⟩, ?_⟩
      · rw [hpassed, ← hts, ht]
      · have ht' : (c.ask call).2.tokens[(c.ask call).2.passed]? = some t := by rwa [hpassed]
        exact (ask_program_of_kind ht' hbegins).trans (Prod.ext h.symm rfl)

/-- `1*$a+` and a text token whose payload is a number, and then `= PRINT`. -/
def scatteredTokens : List Token :=
  [⟨.integer, .integer 1, 0⟩, ⟨.times, .text "*", 1⟩, ⟨.var, .text "a", 2⟩, ⟨.plus, .text "+", 4⟩,
   ⟨.text, .integer 5, 5⟩, ⟨.equal, .text "=", 8⟩, ⟨.print, .text "PRINT", 10⟩]

theorem scatteredTokens_passed :
    (let c := ofTokens scatteredTokens;
      (c.ask (.expression 1)).1 =
        .ok (.expression (.binary (.integer 1) .multiply (.var "a"))) ∧
      (c.ask (.expression 1)).2.passed = 3 ∧ Stops 1 (c.ask (.expression 1)).2.rest) ∧
    (let c := (ofTokens scatteredTokens).after [.expression 1];
      (c.ask .program).1 = .error (.unexpectedToken .statement .plus 4) ∧
      (c.ask .program).2.ask .program = c.ask .program) ∧
    (let c := (ofTokens scatteredTokens).after [.expression 1, .program, .expression 0];
      (c.ask (.expression 255)).1 = .error (.unexpectedToken .expression .text 5) ∧
      ∃ k t, (c.ask (.expression 255)).2.passed = k + 1 ∧ scatteredTokens[k]? = some t ∧
        t.kind = .text ∧ t.offset = 5) ∧
    (let c := (ofTokens scatteredTokens).after
        [.expression 1, .expression 0, .expression 0, .expression 0];
      (c.ask .program).1 = .error (.unexpectedEnd .expression) ∧ (c.ask .program).2.passed = 7) ∧
    (let c := (ofTokens scatteredTokens).after
        [.expression 1, .expression 0, .expression 0, .expression 0, .program];
      (c.ask .program).1 = .ok (.program []) ∧ (c.ask .program).2.passed = 7) := by
  obtain ⟨-, hexpression, -, -, -, -⟩ := passed_of_calls scatteredTokens []
  obtain ⟨-, -, -, -, -, hstatement⟩ := passed_of_calls scatteredTokens [.expression 1]
  obtain ⟨-, -, -, -, hbehind, -⟩ :=
    passed_of_calls scatteredTokens [.expression 1, .program, .expression 0]
  obtain ⟨-, -, -, hend, -, -⟩ := passed_of_calls scatteredTokens
    [.expression 1, .expression 0, .expression 0, .expression 0]
  obtain ⟨-, -, hprogram, -, -, -⟩ := passed_of_calls scatteredTokens
    [.expression 1, .expression 0, .expression 0, .expression 0, .program]
  have hproduct : ((ofTokens scatteredTokens).ask (.expression 1)).1 =
      .ok (.expression (.binary (.integer 1) .multiply (.var "a"))) := by decide +kernel
  have hplus : (((ofTokens scatteredTokens).after [.expression 1]).ask .program).1 =
      .error (.unexpectedToken .statement .plus 4) := by decide +kernel
  have htext : (((ofTokens scatteredTokens).after [.expression 1, .program, .expression 0]).ask
      (.expression 255)).1 = .error (.unexpectedToken .expression .text 5) := by decide +kernel
  have hprint : (((ofTokens scatteredTokens).after
      [.expression 1, .expression 0, .expression 0, .expression 0]).ask .program).1 =
        .error (.unexpectedEnd .expression) := by decide +kernel
  have hnil : (((ofTokens scatteredTokens).after
      [.expression 1, .expression 0, .expression 0, .expression 0, .program]).ask .program).1 =
        .ok (.program []) := by decide +kernel
  refine ⟨⟨hproduct, ?_⟩, ⟨hplus, (hstatement _ _ _ hplus).2⟩,
    ⟨htext, hbehind _ _ (by decide) _ _ htext⟩, ⟨hprint, hend _ _ hprint⟩,
    ⟨hnil, (hprogram _ hnil).2⟩⟩
  obtain ⟨e, read, he, -, hpassed, -, hcontents, hstops⟩ := hexpression 1 _ hproduct
  refine ⟨?_, hstops⟩
  cases he
  have hlength := congrArg List.length hcontents
  rw [List.length_map] at hlength
  exact hpassed.trans (by rw [hlength]; rfl)

end Tally
