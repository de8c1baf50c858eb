import Tally.Proofs.Diagnosis
import Tally.Proofs.Names
import Tally.Run.Trace

/-! What is reported about the passes over a text. The events are those of the steps that were done
before the first failure, and say how far each pass has got. -/

namespace Tally

open Lexeme Segment

/-- All passes over a text, the last one on a fresh machine. -/
def traceText (text : String) (sink : Sink) : Traced Machine :=
  ((traceTokens text).andThen traceProgram).andThen (traceRun (.fresh sink))

/-- No statement is read from the front of the tokens. The reading fails behind so many of them. -/
inductive Statement.Fails : List Token → SyntaxError → Nat → Prop where
  | start {t ts} (ht : t.kind ∉ [.lineEnd, .var, .print, .directive]) :
      Fails (t :: ts) (t.unexpected .statement) 0
  | inside {t ts e n} (h : read? t ts = some ⟨.error e, n⟩) : Fails (t :: ts) e (n + 1)

/-- The events of all passes over a text. The first failure ends them: behind the segments of a
text, behind the statements of the tokens, or behind the statement of a program that faults. -/
inductive Logs (text : String) (sink : Sink) : List Event → Prop where
  | lexicalError {segments behind e} (h : Token.ofText text = .error e)
      (htext : text.toList = textOf segments ++ behind) (hfit : Fit behind segments)
      (hstuck : Stuck behind) (he : e.offset = (textOf segments).length) :
      Logs text sink ((tokensOf 0 segments).map .tokenRead)
  | syntaxError {passed rest parsed e n} (htokens : Token.ofText text = .ok (passed ++ rest))
      (h : Program.read (passed ++ rest) = ⟨.error e, passed.length + n⟩)
      (hpassed : Program.ofTokens passed = .ok parsed) (hrest : Statement.Fails rest e n) :
      Logs text sink ((passed ++ rest).map .tokenRead ++ [.tokensFinished (passed ++ rest).length] ++
        parsed.map .statementRead)
  | fault {tokens program k s fault} (htokens : Token.ofText text = .ok tokens)
      (hprogram : Program.ofTokens tokens = .ok program)
      (h : (Machine.fresh sink).FirstFault program k s fault) :
      Logs text sink (tokens.map .tokenRead ++ [.tokensFinished tokens.length] ++
        program.map .statementRead ++ [.statementsFinished program.length] ++
        (program.take (k + 1)).map .statementStarted)
  | success {tokens program} (htokens : Token.ofText text = .ok tokens)
      (hprogram : Program.ofTokens tokens = .ok program)
      (h : (program.run (.fresh sink)).fault = none) :
      Logs text sink (tokens.map .tokenRead ++ [.tokensFinished tokens.length] ++
        program.map .statementRead ++ [.statementsFinished program.length] ++
        program.map .statementStarted ++
        [.runFinished program.length (program.filterMap Statement.assigned?).dedup.length])

/-- What the events with this message say under this name, in their order. -/
def details (message name : String) (events : List Event) : List String :=
  events.filterMap fun e => if e.message = message then e.fields.lookup name else none

/-- The program of a text, if it runs on a fresh machine without a fault. -/
def finished? (text : String) (sink : Sink) : Option Program :=
  (Program.ofText text).toOption.filter fun program => (program.run (.fresh sink)).fault = none

/-- The events are about these tokens and statements, in their order, and give their texts. A pass
over the text that succeeds gives its numbers once, and no other one does. -/
structure Tells (text : String) (sink : Sink) (events : List Event) (tokens : List Token)
    (statements started : Program) : Prop where
  tokens_read : events.filter (·.message = "lexed token") = tokens.map .tokenRead
  statements_read : events.filter (·.message = "parsed statement") = statements.map .statementRead
  statements_started :
    events.filter (·.message = "executing statement") = started.map .statementStarted
  token_texts : details "lexed token" "token" events = tokens.map Token.shown
  token_offsets : details "lexed token" "offset" events = tokens.map fun t => toString t.offset
  statement_texts : details "parsed statement" "statement" events = statements.map Statement.shown
  started_texts : details "executing statement" "statement" events = started.map Statement.shown
  token_count : details "lexing finished" "count" events =
    (Token.ofText text).toOption.toList.map fun tokens => toString tokens.length
  statement_count : details "parsing finished" "count" events =
    (Program.ofText text).toOption.toList.map fun program => toString program.length
  run_count : details "interpretation finished" "statements" events =
    (finished? text sink).toList.map fun program => toString program.length
  variable_count : details "interpretation finished" "variables" events =
    (finished? text sink).toList.map fun program =>
      toString (program.filterMap Statement.assigned?).dedup.length

/-- The log of a text in which these tokens and statements were read and these ones started. -/
def logOf (text : String) (sink : Sink) (tokens : List Token) (statements started : Program) :
    List Event :=
  tokens.map .tokenRead ++
    (Token.ofText text).toOption.toList.map (fun tokens => .tokensFinished tokens.length) ++
    statements.map .statementRead ++
    (Program.ofText text).toOption.toList.map
      (fun program => .statementsFinished program.length) ++
    started.map .statementStarted ++
    (finished? text sink).toList.map fun program =>
      .runFinished program.length (program.filterMap Statement.assigned?).dedup.length

section Tokens

variable {s : Segment} {segments : List Segment} {behind text : List Char} {table : List Rule}
  {scanner : Scanner} {tokens : List Token}

theorem Scanner.done_of_tokens (h : scanner.tokens table = .ok tokens) :
    (scanner.tokenSteps table).done = tokens := by
  rw [Scanner.tokens] at h
  cases hending : (scanner.tokenSteps table).ending with
  | error e => simp [hending, Except.map] at h
  | ok => simpa [hending, Except.map] using h

theorem Segment.Fits.done_tokenSteps (h : s.Fits behind) (o : Nat) :
    (Scanner.tokenSteps rules ⟨s.text ++ behind, o⟩).done =
      (s.meaning.map fun m => (⟨m.1, m.2, o⟩ : Token)).toList ++
        (Scanner.tokenSteps rules ⟨behind, o + s.text.length⟩).done := by
  obtain ⟨c, cs, htext, hstep⟩ := h.step_eq
  rw [htext, List.cons_append, Scanner.tokenSteps, hstep, step, htext]
  cases s.meaning <;> simp [Nat.add_comm 1]

theorem done_tokenSteps (h : Fit behind segments) (o : Nat) :
    (Scanner.tokenSteps rules ⟨textOf segments ++ behind, o⟩).done =
      tokensOf o segments ++
        (Scanner.tokenSteps rules ⟨behind, o + (textOf segments).length⟩).done := by
  induction segments generalizing o with
  | nil => rfl
  | cons s rest ih =>
    obtain ⟨hs, hrest⟩ := h
    rw [textOf_cons, List.append_assoc, hs.done_tokenSteps, ih hrest, tokensOf, List.append_assoc,
      List.length_append, Nat.add_assoc]

theorem done_tokenSteps_of_stuck (h : Stuck text) (o : Nat) :
    (Scanner.tokenSteps rules ⟨text, o⟩).done = [] := by
  cases text with
  | nil => rw [Scanner.tokenSteps]
  | cons c cs =>
    obtain ⟨e, n, hstep⟩ := step_of_stuck h o
    rw [Scanner.tokenSteps, hstep]

end Tokens

section Statements

variable {ts us passed rest : List Token} {parsed program : Program} {e : SyntaxError} {n : Nat}

/-- Inside a statement no statement is expected. -/
theorem Statement.Fails.eq_zero {kind : Kind} {o : Nat}
    (h : Fails ts (.unexpectedToken .statement kind o) n) : n = 0 := by
  cases h with
  | start => rfl
  | inside hread => exact (not_breaks_statement (breaks_of_read? hread)).elim

namespace Program

theorem done_of_read (h : read ts = ⟨.ok program, n⟩) : (readSteps ts).done = program := by
  obtain ⟨-, -, hdone⟩ := Reading.map_eq_ok_iff.mp h
  exact hdone

theorem done_of_ofTokens (h : ofTokens ts = .ok program) : (readSteps ts).done = program := by
  obtain ⟨n, hn⟩ := ofTokens_eq_iff.mp h
  exact done_of_read hn

/-- Behind a whole program the steps go on as if the other tokens stood alone. -/
theorem done_readSteps_append (h : read ts = ⟨.ok parsed, n⟩) (hus : Follows us) :
    (readSteps (ts ++ us)).done = parsed ++ (readSteps us).done := by
  fun_induction readSteps ts generalizing parsed n with
  | case1 =>
    rw [read_nil] at h
    cases h
    rfl
  | case2 t ts ht ih =>
    rw [read_of_lineEnd ht] at h
    obtain ⟨k, hk, -⟩ := Reading.behind_eq_iff.mp h
    rw [List.cons_append, readSteps, if_pos ht, Steps.done_map, ih hk]
  | case3 t ts ht hread => simp [read_of_none ht hread] at h
  | case4 t ts ht e m hread => simp [read_of_error hread] at h
  | case5 t ts ht s m hread ih =>
    rw [read_of_ok hread] at h
    obtain ⟨k, hk, -⟩ := Reading.behind_eq_iff.mp h
    obtain ⟨others, hrest, rfl⟩ := Reading.map_eq_ok_iff.mp hk
    obtain ⟨hle, hfirst⟩ := Statement.read?_append hread hus
    rw [List.cons_append, readSteps, if_neg ht, hfirst]
    simp only [Steps.done_after, Steps.done_map]
    rw [List.drop_append_of_le_length hle, ih hrest, List.cons_append]

theorem done_readSteps_of_fails (h : Statement.Fails ts e n) : (readSteps ts).done = [] := by
  cases h with
  | start ht =>
    obtain ⟨hline, hbegins⟩ := not_or.mp (mt List.mem_cons.mpr ht)
    rw [readSteps, if_neg hline, Statement.read?_eq_none_iff.mpr hbegins]
  | @inside t ts e n h =>
    rw [readSteps, if_neg (Statement.ne_lineEnd_of_read? h), h]

/-- Where reading a program fails, a program is in front of the statement that fails, and its
statements are those that were read. -/
theorem exists_fails (h : read ts = ⟨.error e, n⟩) :
    ∃ passed rest parsed k, ts = passed ++ rest ∧ ofTokens passed = .ok parsed ∧
      Statement.Fails rest e k ∧ n = passed.length + k ∧ (readSteps ts).done = parsed := by
  have hnil : ofTokens [] = .ok [] := by rw [ofTokens, read_nil]
  fun_induction readSteps ts generalizing n with
  | case1 => simp at h
  | case2 t ts ht ih =>
    rw [read_of_lineEnd ht] at h
    obtain ⟨m, hm, rfl⟩ := Reading.behind_eq_iff.mp h
    obtain ⟨passed, rest, parsed, k, rfl, hpassed, hfails, rfl, hdone⟩ := ih hm
    refine ⟨t :: passed, rest, parsed, k, rfl, ?_, hfails, ?_, hdone⟩
    · rw [ofTokens, read_of_lineEnd ht]
      exact hpassed
    · rw [List.length_cons, Nat.add_comm, Nat.add_right_comm]
  | case3 t ts ht hread =>
    rw [read_of_none ht hread] at h
    cases h
    have hkind : t.kind ∉ [.lineEnd, .var, .print, .directive] :=
      List.not_mem_cons_of_ne_of_not_mem ht (Statement.read?_eq_none_iff.mp hread)
    exact ⟨[], t :: ts, [], 0, rfl, hnil, .start hkind, rfl, rfl⟩
  | case4 t ts ht error m hread =>
    rw [read_of_error hread] at h
    cases h
    exact ⟨[], t :: ts, [], m + 1, rfl, hnil, .inside hread, (Nat.zero_add _).symm, rfl⟩
  | case5 t ts ht s m hread ih =>
    rw [read_of_ok hread] at h
    obtain ⟨j, hj, rfl⟩ := Reading.behind_eq_iff.mp h
    obtain ⟨passed, rest, parsed, k, hsplit, hpassed, hfails, rfl, hdone⟩ :=
      ih (Reading.map_eq_error_iff.mp hj)
    obtain ⟨hle, htake⟩ := Statement.read?_take hread
    have hlen : (ts.take m).length = m := List.length_take_of_le hle
    -- the statement ends where it did, also if nothing is behind it now
    have hfirst := htake passed (hsplit ▸ resumes_of_append passed rest)
    refine ⟨t :: (ts.take m ++ passed), rest, s :: parsed, k, ?_, ?_, hfails, ?_, ?_⟩
    · rw [List.cons_append, List.append_assoc, ← hsplit, List.take_append_drop]
    · rw [ofTokens] at hpassed
      rw [ofTokens, read_of_ok hfirst, List.drop_left' hlen]
      simp [Reading.behind, Reading.map, hpassed, Except.map]
    · rw [List.length_cons, List.length_append, hlen]
      omega
    · rw [Steps.done_after, Steps.done_map, hdone]

/-- All statements in front of the one that fails were read. -/
theorem done_readSteps_of_split (h : read (passed ++ rest) = ⟨.error e, passed.length + n⟩)
    (hpassed : ofTokens passed = .ok parsed) (hrest : Statement.Fails rest e n) :
    (readSteps (passed ++ rest)).done = parsed := by
  cases hrest with
  | @inside t ts e n hread =>
    obtain ⟨k, hk⟩ := ofTokens_eq_iff.mp hpassed
    rw [done_readSteps_append hk (Statement.follows_of_read? hread),
      done_readSteps_of_fails (.inside hread), List.append_nil]
  | @start t ts ht =>
    obtain ⟨others, us, found, k, hsplit, hothers, hfails, hk, hdone⟩ := exists_fails h
    obtain rfl := hfails.eq_zero
    obtain ⟨rfl, -⟩ := List.append_inj hsplit hk
    rw [hpassed] at hothers
    cases hothers
    exact hdone

end Program

end Statements

section Runs

variable {m : Machine} {program : Program} {k : Nat} {s : Statement} {fault : Fault}

/-- Statements are started up to the first one that faults. -/
theorem Machine.FirstFault.done_runSteps (h : m.FirstFault program k s fault) :
    (program.runSteps m).done = program.take (k + 1) := by
  induction program generalizing m k with
  | nil => simpa using h.statement
  | cons t rest ih =>
    cases k with
    | zero =>
      obtain ⟨rfl, hfault⟩ := firstFault_zero_iff.mp h
      simp [Program.runSteps, hfault]
    | succ k =>
      obtain ⟨ht, hrest⟩ := firstFault_succ_iff.mp h
      simp [Program.runSteps, ht, ih hrest]

theorem Program.done_runSteps_of_none (h : (program.run m).fault = none) :
    (program.runSteps m).done = program := by
  induction program generalizing m with
  | nil => rfl
  | cons s rest ih =>
    rw [run_cons] at h
    cases hs : (s.run m).fault with
    | some fault => simp [Outcome.andThen_of_fault hs, hs] at h
    | none =>
      rw [Outcome.andThen_of_none hs] at h
      simp [runSteps, hs, ih h]

theorem Program.size_run {sink : Sink} (h : (program.run (.fresh sink)).fault = none) :
    (program.run (.fresh sink)).machine.store.size =
      (program.filterMap Statement.assigned?).dedup.length := by
  refine Store.size_eq_of_names fun name => ?_
  rw [isSome_get?_run, Machine.done_eq_self h]
  simp [Machine.Binds, Machine.fresh, Store.empty, Store.get?]

end Runs

section Passes

variable {α β : Type} {a : α} {f : α → Traced β} {traced : Traced α} {failure : Failure}
  {text : String} {sink : Sink} {tokens : List Token} {program : Program} {m : Machine}
  {events : List Event}

theorem Traced.andThen_of_error (h : traced.result = .error failure) :
    traced.andThen f = ⟨traced.events, .error failure⟩ := by
  rw [andThen, h]

theorem Traced.andThen_of_ok (h : traced.result = .ok a) :
    traced.andThen f = ⟨traced.events ++ (f a).events, (f a).result⟩ := by
  rw [andThen, h]

theorem Traced.andThen_assoc {γ : Type} (traced : Traced α) (f : α → Traced β) (g : β → Traced γ) :
    (traced.andThen f).andThen g = traced.andThen fun a => (f a).andThen g := by
  obtain ⟨events, _ | a⟩ := traced
  · rfl
  · cases hresult : (f a).result <;> simp [andThen, hresult]

theorem traceTokens_of_error {e : LexicalError} (h : Token.ofText text = .error e) :
    traceTokens text =
      ⟨((Scanner.ofText text).tokenSteps rules).done.map .tokenRead, .error (.lexical e)⟩ := by
  rw [traceTokens, h]
  rfl

theorem traceTokens_of_ok (h : Token.ofText text = .ok tokens) :
    traceTokens text =
      ⟨tokens.map .tokenRead ++ [.tokensFinished tokens.length], .ok tokens⟩ := by
  rw [traceTokens, h, Scanner.done_of_tokens h]
  rfl

theorem traceProgram_of_error {e : SyntaxError} (h : Program.ofTokens tokens = .error e) :
    traceProgram tokens =
      ⟨(Program.readSteps tokens).done.map .statementRead, .error (.structural e)⟩ := by
  rw [traceProgram, h]
  rfl

theorem traceProgram_of_ok (h : Program.ofTokens tokens = .ok program) :
    traceProgram tokens =
      ⟨program.map .statementRead ++ [.statementsFinished program.length], .ok program⟩ := by
  rw [traceProgram, h, Program.done_of_ofTokens h]
  rfl

theorem Machine.FirstFault.traceRun_eq {k : Nat} {s : Statement} {fault : Fault}
    (h : m.FirstFault program k s fault) :
    traceRun m program =
      ⟨(program.take (k + 1)).map .statementStarted, .error (.runtime fault)⟩ := by
  rw [traceRun, h.done_runSteps, Outcome.result, h.fault_eq]
  rfl

theorem traceRun_of_none (h : (program.run m).fault = none) :
    traceRun m program =
      ⟨program.map .statementStarted ++
          [.runFinished program.length (program.run m).machine.store.size],
        .ok (program.run m).machine⟩ := by
  rw [traceRun, Program.done_runSteps_of_none h, Outcome.result, h]
  rfl

/-- The log of a text is that of its passes, which fail as they do without a log. -/
theorem Logs.traceText_eq (h : Logs text sink events) : (traceText text sink).events = events ∧
    ∀ f, (traceText text sink).result = .error f ↔ diagnose text sink = some f := by
  rw [traceText, diagnose, Program.ofText]
  cases h with
  | lexicalError h htext hfit hstuck =>
    rw [traceTokens_of_error h, Traced.andThen_of_error rfl, Traced.andThen_of_error rfl, h,
      Scanner.ofText, htext, done_tokenSteps hfit, done_tokenSteps_of_stuck hstuck]
    simp
  | syntaxError htokens h hpassed hrest =>
    have hprogram := Program.ofTokens_eq_iff.mpr ⟨_, h⟩
    rw [Traced.andThen_assoc, traceTokens_of_ok htokens, Traced.andThen_of_ok rfl,
      traceProgram_of_error hprogram, Traced.andThen_of_error rfl,
      Program.done_readSteps_of_split h hpassed hrest]
    simp [htokens, hprogram, Except.mapError]
  | fault htokens hprogram h =>
    rw [Traced.andThen_assoc, traceTokens_of_ok htokens, Traced.andThen_of_ok rfl,
      traceProgram_of_ok hprogram, Traced.andThen_of_ok rfl, h.traceRun_eq]
    simp [htokens, hprogram, h.fault_eq, Except.mapError]
  | success htokens hprogram h =>
    rw [Traced.andThen_assoc, traceTokens_of_ok htokens, Traced.andThen_of_ok rfl,
      traceProgram_of_ok hprogram, Traced.andThen_of_ok rfl, traceRun_of_none h,
      Program.size_run h]
    simp [htokens, hprogram, h, Except.mapError]

theorem exists_logs (text : String) (sink : Sink) : ∃ events, Logs text sink events := by
  cases htokens : Token.ofText text with
  | error e =>
    obtain ⟨segments, c, cs, n, htext, hfit, hstuck, hstep⟩ := exists_fit_of_error htokens
    exact ⟨_, .lexicalError htokens htext hfit hstuck (Scanner.offset_of_failed hstep)⟩
  | ok tokens =>
    cases hprogram : Program.ofTokens tokens with
    | error e =>
      obtain ⟨n, hread⟩ := Program.ofTokens_eq_iff.mp hprogram
      obtain ⟨passed, rest, parsed, k, rfl, hpassed, hfails, hk, -⟩ := Program.exists_fails hread
      exact ⟨_, .syntaxError htokens (hk ▸ hread) hpassed hfails⟩
    | ok program =>
      cases hfault : (program.run (.fresh sink)).fault with
      | none => exact ⟨_, .success htokens hprogram hfault⟩
      | some fault =>
        obtain ⟨k, s, hfirst⟩ := exists_firstFault hfault
        exact ⟨_, .fault htokens hprogram hfirst⟩

theorem Logs.tokensFinished_iff (h : Logs text sink events) (n : Nat) :
    .tokensFinished n ∈ events ↔ (∃ tokens, Token.ofText text = .ok tokens) ∧
      n = events.countP (·.message = "lexed token") := by
  cases h with
  | lexicalError h => simp [h]
  | syntaxError htokens | fault htokens | success htokens =>
    simp [-List.map_take, htokens, List.countP_map, Function.comp_def, Event.message]

theorem Logs.statementsFinished_iff (h : Logs text sink events) (n : Nat) :
    .statementsFinished n ∈ events ↔ (∃ program, Program.ofText text = .ok program) ∧
      n = events.countP (·.message = "parsed statement") := by
  simp only [Program.ofText_eq_ok_iff]
  cases h with
  | lexicalError h => simp [h]
  | syntaxError htokens h => simp [htokens, Program.ofTokens_eq_iff.mpr ⟨_, h⟩]
  | fault htokens hprogram | success htokens hprogram =>
    simp [-List.map_take, htokens, hprogram, List.countP_map, Function.comp_def, Event.message]

theorem Logs.runFinished_iff (h : Logs text sink events) (n k : Nat) :
    .runFinished n k ∈ events ↔ ∃ program, Program.ofText text = .ok program ∧
      (program.run (.fresh sink)).fault = none ∧ n = program.length ∧
      k = (program.filterMap Statement.assigned?).dedup.length := by
  simp only [Program.ofText_eq_ok_iff]
  cases h with
  | lexicalError h => simp [h]
  | syntaxError htokens h => simp [htokens, Program.ofTokens_eq_iff.mpr ⟨_, h⟩]
  | fault htokens hprogram h => simp [-List.map_take, htokens, hprogram, h.fault_eq]
  | success htokens hprogram h => simp [htokens, hprogram, h]

/-- In every log statements are started in the order in which they were read. -/
theorem Logs.exists_eq_logOf (h : Logs text sink events) :
    ∃ tokens statements started, started <+: statements ∧
      events = logOf text sink tokens statements started := by
  cases h with
  | @lexicalError segments behind e h =>
    refine ⟨tokensOf 0 segments, [], [], List.prefix_rfl, ?_⟩
    simp [logOf, finished?, Program.ofText, h, Except.toOption]
  | @syntaxError passed rest parsed e n htokens h =>
    have hprogram := Program.ofTokens_eq_iff.mpr ⟨_, h⟩
    refine ⟨passed ++ rest, parsed, [], List.nil_prefix, ?_⟩
    simp [logOf, finished?, Program.ofText, htokens, hprogram, Except.mapError, Except.toOption]
  | @fault tokens program k s fault htokens hprogram h =>
    refine ⟨tokens, program, program.take (k + 1), List.take_prefix (k + 1) program, ?_⟩
    simp [logOf, finished?, Program.ofText, htokens, hprogram, Except.mapError, Except.toOption,
      h.fault_eq]
  | @success tokens program htokens hprogram h =>
    refine ⟨tokens, program, program, List.prefix_rfl, ?_⟩
    simp [logOf, finished?, Program.ofText, htokens, hprogram, Except.mapError, Except.toOption,
      Option.filter, h]

theorem details_eq (message name : String) (events : List Event) :
    details message name events =
      (events.filter (·.message = message)).filterMap (·.fields.lookup name) := by
  simp [details, List.filterMap_filter]

/-- What all events of a kind say if they have this message. -/
theorem details_of_filter {message name : String} {event : α → Event} {text : α → String}
    {as : List α} (h : events.filter (·.message = message) = as.map event)
    (hfield : ∀ a, (event a).fields.lookup name = some (text a)) :
    details message name events = as.map text := by
  rw [details_eq, h, List.filterMap_map, ← List.filterMap_eq_map]
  exact List.filterMap_congr fun a _ => hfield a

theorem tells_logOf (text : String) (sink : Sink) (tokens : List Token)
    (statements started : Program) :
    Tells text sink (logOf text sink tokens statements started) tokens statements started := by
  have htokens : (logOf text sink tokens statements started).filter
      (·.message = "lexed token") = tokens.map .tokenRead := by
    simp [logOf, List.filter_map, Function.comp_def, Event.message]
  have hlexed : (logOf text sink tokens statements started).filter
      (·.message = "lexing finished") =
        (Token.ofText text).toOption.toList.map fun tokens => .tokensFinished tokens.length := by
    simp [logOf, List.filter_map, Function.comp_def, Event.message]
  have hstatements : (logOf text sink tokens statements started).filter
      (·.message = "parsed statement") = statements.map .statementRead := by
    simp [logOf, List.filter_map, Function.comp_def, Event.message]
  have hparsed : (logOf text sink tokens statements started).filter
      (·.message = "parsing finished") = (Program.ofText text).toOption.toList.map
        fun program => .statementsFinished program.length := by
    simp [logOf, List.filter_map, Function.comp_def, Event.message]
  have hstarted : (logOf text sink tokens statements started).filter
      (·.message = "executing statement") = started.map .statementStarted := by
    simp [logOf, List.filter_map, Function.comp_def, Event.message]
  have hran : (logOf text sink tokens statements started).filter
      (·.message = "interpretation finished") = (finished? text sink).toList.map fun program =>
        .runFinished program.length (program.filterMap Statement.assigned?).dedup.length := by
    simp [logOf, List.filter_map, Function.comp_def, Event.message]
  exact {
    tokens_read := htokens
    statements_read := hstatements
    statements_started := hstarted
    token_texts := details_of_filter htokens fun _ => rfl
    token_offsets := details_of_filter htokens fun _ => rfl
    statement_texts := details_of_filter hstatements fun _ => rfl
    started_texts := details_of_filter hstarted fun _ => rfl
    token_count := details_of_filter hlexed fun _ => rfl
    statement_count := details_of_filter hparsed fun _ => rfl
    run_count := details_of_filter hran fun _ => rfl
    variable_count := details_of_filter hran fun _ => rfl }

end Passes

/-- The log of a text is what was done in all passes, and in no other order: tokens were read up to
the first lexical error, statements up to the first syntax error, and started up to the first fault.
The events that end a pass are there exactly if it succeeds, with the numbers of what was done.
Every event gives the texts of its token or its statement, and a statement is told by the same text
when it is read and when it is started. The log does not change how a text fails. -/
theorem logs_of_text (text : String) (sink : Sink) :
    let traced := traceText text sink
    (∀ events, traced.events = events ↔ Logs text sink events) ∧
    (∀ f, traced.result = .error f ↔ diagnose text sink = some f) ∧
    (∀ n, .tokensFinished n ∈ traced.events ↔ (∃ tokens, Token.ofText text = .ok tokens) ∧
      n = traced.events.countP (·.message = "lexed token")) ∧
    (∀ n, .statementsFinished n ∈ traced.events ↔
      (∃ program, Program.ofText text = .ok program) ∧
      n = traced.events.countP (·.message = "parsed statement")) ∧
    (∀ n k, .runFinished n k ∈ traced.events ↔ ∃ program, Program.ofText text = .ok program ∧
      (program.run (.fresh sink)).fault = none ∧ n = program.length ∧
      k = (program.filterMap Statement.assigned?).dedup.length) ∧
    (∃ tokens statements started, started <+: statements ∧
      Tells text sink traced.events tokens statements started) ∧
    details "executing statement" "statement" traced.events <+:
      details "parsed statement" "statement" traced.events := by
  intro traced
  obtain ⟨events, hlogs⟩ := exists_logs text sink
  obtain ⟨hevents, hresult⟩ := hlogs.traceText_eq
  rw [← hevents] at hlogs
  obtain ⟨tokens, statements, started, hprefix, hlog⟩ := hlogs.exists_eq_logOf
  have htells := tells_logOf text sink tokens statements started
  rw [← hlog] at htells
  refine ⟨?_, hresult, hlogs.tokensFinished_iff, hlogs.statementsFinished_iff,
    hlogs.runFinished_iff, ⟨tokens, statements, started, hprefix, htells⟩, ?_⟩
  · intro others
    constructor
    · rintro rfl
      exact hlogs
    · exact fun h => h.traceText_eq.1
  · rw [htells.started_texts, htells.statement_texts]
    exact hprefix.map Statement.shown

/-- Assigns to one variable and shows another one, which is not bound. -/
def reportedText : String := "$a=1;PRINT $b"

theorem reportedText_logs :
    Logs "$a?" .unlimited [.tokenRead ⟨.var, .text "a", 0⟩] ∧
    Logs "PRINT 1;PRINT" .unlimited
      [.tokenRead ⟨.print, .text "PRINT", 0⟩, .tokenRead ⟨.integer, .integer 1, 6⟩,
       .tokenRead ⟨.lineEnd, .text ";", 7⟩, .tokenRead ⟨.print, .text "PRINT", 8⟩,
       .tokensFinished 4, .statementRead (.print [.integer 1])] ∧
    Logs reportedText .unlimited
      [.tokenRead ⟨.var, .text "a", 0⟩, .tokenRead ⟨.equal, .text "=", 2⟩,
       .tokenRead ⟨.integer, .integer 1, 3⟩, .tokenRead ⟨.lineEnd, .text ";", 4⟩,
       .tokenRead ⟨.print, .text "PRINT", 5⟩, .tokenRead ⟨.var, .text "b", 11⟩, .tokensFinished 6,
       .statementRead (.assign "a" (.integer 1)), .statementRead (.print [.var "b"]),
       .statementsFinished 2, .statementStarted (.assign "a" (.integer 1)),
       .statementStarted (.print [.var "b"])] ∧
    diagnose reportedText .unlimited = some (.runtime (.undefinedVariable "b")) ∧
    (∃ program, Program.ofText "$a=1;$a=2" = .ok program ∧
      (program.run (.fresh .unlimited)).fault = none ∧ 2 = program.length ∧
      1 = (program.filterMap Statement.assigned?).dedup.length) ∧
    details "lexing finished" "count" (traceText reportedText .unlimited).events = ["6"] ∧
    details "interpretation finished" "variables" (traceText reportedText .unlimited).events = [] ∧
    details "interpretation finished" "variables" (traceText "$a=1;$a=2" .unlimited).events =
      ["1"] := by
  obtain ⟨hlexical, -⟩ := logs_of_text "$a?" .unlimited
  obtain ⟨hreading, -⟩ := logs_of_text "PRINT 1;PRINT" .unlimited
  obtain ⟨hfault, hresult, -, -, -, ⟨_, _, _, -, htells⟩, -⟩ := logs_of_text reportedText .unlimited
  obtain ⟨-, -, -, -, hfinished, ⟨_, _, _, -, hnumbers⟩, -⟩ := logs_of_text "$a=1;$a=2" .unlimited
  refine ⟨(hlexical _).mp (by decide +kernel), (hreading _).mp (by decide +kernel),
    (hfault _).mp (by decide +kernel), (hresult _).mp (by decide +kernel),
    (hfinished 2 1).mp (by decide +kernel), ?_, ?_, ?_⟩
  · rw [htells.token_count]
    decide +kernel
  · rw [htells.variable_count]
    decide +kernel
  · rw [hnumbers.variable_count]
    decide +kernel

end Tally
