import Mathlib.Algebra.Group.Nat.Defs
import Mathlib.Data.List.TakeWhile
import Mathlib.Tactic.Common
import Tally.Lexeme.Rule

/-! What each form of lexeme stands for. A form reaches exactly to the end of one of
its lexemes, and no two rules of the language begin with the same character. -/

namespace Tally.Lexeme

/-- A run that the text behind it does not go on with. -/
structure MaximalRun (accepts : Char → Prop) (run behind : List Char) : Prop where
  ne_nil : run ≠ []
  accepted : ∀ c ∈ run, accepts c
  ended : ∀ c ∈ behind.head?, ¬ accepts c

theorem MaximalRun.congr {accepts others : Char → Prop} {run behind : List Char}
    (h : MaximalRun accepts run behind) (ha : ∀ c, accepts c ↔ others c) :
    MaximalRun others run behind := by
  rwa [← funext fun c => propext (ha c)]

/-- One character of a text literal as it is written. -/
inductive LiteralChar where
  | plain (c : Char)
  | escaped (c : Char)
deriving DecidableEq

namespace LiteralChar

def char : LiteralChar → Char
  | plain c | escaped c => c

/-- The characters of a literal between its delimiters. -/
def written : List LiteralChar → List Char
  | [] => []
  | plain c :: body => c :: written body
  | escaped c :: body => '\\' :: c :: written body

/-- Neither a delimiter nor a backslash stands for itself. -/
def Valid (delimiter : Char) : LiteralChar → Prop
  | plain c => c ≠ '\\' ∧ c ≠ delimiter
  | escaped _ => True

end LiteralChar

/-- The lexemes of a form, in front of the text behind them. -/
def Form.Matches (form : Form) (lexeme behind : List Char) : Prop :=
  match form with
  | .run accepts => MaximalRun (accepts ·) lexeme behind
  | .oneOf characters => ∃ c ∈ characters, lexeme = [c]
  | .word first others => lexeme = first :: others
  | .sigil mark accepts => ∃ name, MaximalRun (accepts ·) name behind ∧ lexeme = mark :: name
  | .comment mark =>
    ∃ body, '\n' ∉ body ∧ (lexeme = mark :: (body ++ ['\n']) ∨ lexeme = mark :: body ∧ behind = [])
  | .quoted delimiter =>
    delimiter ≠ '\\' ∧ ∃ body : List LiteralChar, (∀ u ∈ body, u.Valid delimiter) ∧
      lexeme = delimiter :: (LiteralChar.written body ++ [delimiter])

section Reach

variable {accepts : Char → Bool} {c delimiter : Char} {run cs behind : List Char} {n : Nat}

theorem takeWhile_append_of_ended (h : ∀ c ∈ run, accepts c)
    (he : ∀ c ∈ behind.head?, ¬ accepts c) : (run ++ behind).takeWhile accepts = run := by
  rw [List.takeWhile_append_of_pos h]
  cases behind with
  | nil => simp
  | cons d ds => simp [he d rfl]

theorem dropWhile_ended (accepts : Char → Bool) (cs : List Char) :
    ∀ c ∈ (cs.dropWhile accepts).head?, ¬ accepts c := by
  intro c hc
  have h := List.head?_dropWhile_not accepts cs
  simp only [Option.mem_def] at hc
  simpa [hc] using h

theorem accepted_takeWhile (h : c ∈ cs.takeWhile accepts) : accepts c :=
  List.mem_takeWhile_imp h

theorem throughNewline_append (h : '\n' ∉ run) (behind : List Char) :
    throughNewline (run ++ '\n' :: behind) = run.length + 1 := by
  induction run with
  | nil => simp [throughNewline]
  | cons c run ih =>
    obtain ⟨hc, hrun⟩ := not_or.mp (mt List.mem_cons.mpr h)
    simp [throughNewline, Ne.symm hc, ih hrun]

theorem throughNewline_eq_length (h : '\n' ∉ run) : throughNewline run = run.length := by
  induction run with
  | nil => rfl
  | cons c run ih =>
    obtain ⟨hc, hrun⟩ := not_or.mp (mt List.mem_cons.mpr h)
    simp [throughNewline, Ne.symm hc, ih hrun]

theorem throughNewline_sound (cs : List Char) :
    ∃ body, '\n' ∉ body ∧
      ((∃ behind, cs = body ++ '\n' :: behind ∧ throughNewline cs = body.length + 1) ∨
        cs = body ∧ throughNewline cs = body.length) := by
  by_cases h : '\n' ∈ cs
  · obtain ⟨body, behind, rfl, hbody⟩ := List.eq_append_cons_of_mem h
    exact ⟨body, hbody, .inl ⟨behind, rfl, throughNewline_append hbody behind⟩⟩
  · exact ⟨cs, h, .inr ⟨rfl, throughNewline_eq_length h⟩⟩

theorem throughClosing_closing (h : delimiter ≠ '\\') :
    throughClosing delimiter (delimiter :: cs) = some 1 := by
  rw [throughClosing.eq_def]
  simp [h]

theorem throughClosing_plain (hback : c ≠ '\\') (hclose : c ≠ delimiter) :
    throughClosing delimiter (c :: cs) = (throughClosing delimiter cs).map (· + 1) := by
  rw [throughClosing.eq_def]
  simp [hback, hclose]

theorem throughClosing_escaped :
    throughClosing delimiter ('\\' :: c :: cs) = (throughClosing delimiter cs).map (· + 2) := by
  rw [throughClosing.eq_def]
  simp

/-- The closing delimiter behind a body is the one that the scanner comes to. -/
theorem throughClosing_written {body : List LiteralChar} (h : ∀ u ∈ body, u.Valid delimiter) :
    throughClosing delimiter (LiteralChar.written body ++ behind) =
      (throughClosing delimiter behind).map (· + (LiteralChar.written body).length) := by
  induction body with
  | nil => simp [LiteralChar.written]
  | cons u body ih =>
    obtain ⟨hu, hbody⟩ := List.forall_mem_cons.mp h
    cases u with
    | plain c =>
      obtain ⟨hback, hclose⟩ := hu
      simp [LiteralChar.written, throughClosing_plain hback hclose, ih hbody, Function.comp_def,
        Nat.add_assoc]
    | escaped c =>
      simp [LiteralChar.written, throughClosing_escaped, ih hbody, Function.comp_def,
        Nat.add_assoc]

theorem throughClosing_append {body : List LiteralChar} (hd : delimiter ≠ '\\')
    (h : ∀ u ∈ body, u.Valid delimiter) :
    throughClosing delimiter (LiteralChar.written body ++ delimiter :: behind) =
      some ((LiteralChar.written body).length + 1) := by
  rw [throughClosing_written h, throughClosing_closing hd, Option.map_some, Nat.add_comm]

theorem throughClosing_sound (h : throughClosing delimiter cs = some n) :
    delimiter ≠ '\\' ∧ ∃ (body : List LiteralChar) (behind : List Char),
      (∀ u ∈ body, u.Valid delimiter) ∧ cs = LiteralChar.written body ++ delimiter :: behind ∧
      n = (LiteralChar.written body).length + 1 := by
  fun_induction throughClosing delimiter cs generalizing n with
  | case1 => simp at h
  | case2 => simp at h
  | case3 d rest ih =>
    obtain ⟨m, hm, rfl⟩ := Option.map_eq_some_iff.mp h
    obtain ⟨hd, body, behind, hv, rfl, rfl⟩ := ih hm
    exact ⟨hd, .escaped d :: body, behind, by simpa [LiteralChar.Valid] using hv,
      by simp [LiteralChar.written], by simp [LiteralChar.written]⟩
  | case4 rest hd => exact ⟨hd, [], rest, by simp, rfl, by simpa [LiteralChar.written] using h.symm⟩
  | case5 c rest hback hclose ih =>
    obtain ⟨m, hm, rfl⟩ := Option.map_eq_some_iff.mp h
    obtain ⟨hd, body, behind, hv, rfl, rfl⟩ := ih hm
    exact ⟨hd, .plain c :: body, behind, by simpa [LiteralChar.Valid, hback, hclose] using hv,
      by simp [LiteralChar.written], by simp [LiteralChar.written]⟩

/-- A form reaches to the end of its lexeme. -/
theorem Form.extent_of_matches {form : Form} (h : form.Matches (c :: run) behind) :
    form.extent c (run ++ behind) = some (.closed run.length) := by
  cases form with
  | run accepts =>
    obtain ⟨-, hall, hend⟩ := h
    have htake := takeWhile_append_of_ended (fun d hd => hall d (List.mem_cons_of_mem c hd)) hend
    simp [extent, hall c (by simp), htake]
  | oneOf characters =>
    obtain ⟨d, hd, he⟩ := h
    obtain ⟨rfl, rfl⟩ := List.cons.inj he
    simp [extent, hd]
  | word first others =>
    obtain ⟨rfl, rfl⟩ := List.cons.inj h
    simp [extent]
  | sigil mark accepts =>
    obtain ⟨name, ⟨hne, hall, hend⟩, he⟩ := h
    obtain ⟨rfl, rfl⟩ := List.cons.inj he
    have htake := takeWhile_append_of_ended hall hend
    simp [extent, htake, hne]
  | comment mark =>
    obtain ⟨body, hbody, he | ⟨he, rfl⟩⟩ := h
    · obtain ⟨rfl, rfl⟩ := List.cons.inj he
      simp [extent, throughNewline_append hbody]
    · obtain ⟨rfl, rfl⟩ := List.cons.inj he
      simp [extent, throughNewline_eq_length hbody]
  | quoted delimiter =>
    obtain ⟨hd, body, hbody, he⟩ := h
    obtain ⟨rfl, rfl⟩ := List.cons.inj he
    simp [extent, throughClosing_append hd hbody]

/-- How far a form reaches is one of its lexemes. -/
theorem Form.matches_of_extent {form : Form} (h : form.extent c cs = some (.closed n)) :
    ∃ run behind, cs = run ++ behind ∧ run.length = n ∧ form.Matches (c :: run) behind := by
  cases form with
  | run accepts =>
    obtain ⟨hc, rfl⟩ : accepts c ∧ (cs.takeWhile accepts).length = n := by simpa [extent] using h
    refine ⟨_, _, List.takeWhile_append_dropWhile.symm, rfl, by simp, ?_,
      dropWhile_ended accepts cs⟩
    intro d hd
    rcases List.mem_cons.mp hd with rfl | hd
    · exact hc
    · exact accepted_takeWhile hd
  | oneOf characters =>
    obtain ⟨hc, rfl⟩ : c ∈ characters ∧ 0 = n := by simpa [extent] using h
    exact ⟨[], cs, rfl, rfl, c, hc, rfl⟩
  | word first others =>
    obtain ⟨⟨rfl, behind, rfl⟩, rfl⟩ : (c = first ∧ others <+: cs) ∧ others.length = n := by
      simpa [extent] using h
    exact ⟨others, behind, rfl, rfl, rfl⟩
  | sigil mark accepts =>
    obtain ⟨⟨rfl, hne⟩, rfl⟩ :
        (c = mark ∧ cs.takeWhile accepts ≠ []) ∧ (cs.takeWhile accepts).length = n := by
      simpa only [extent, Option.ite_none_right_eq_some, Option.some.injEq,
        Extent.closed.injEq] using h
    exact ⟨_, _, List.takeWhile_append_dropWhile.symm, rfl, _,
      ⟨hne, fun d hd => accepted_takeWhile hd, dropWhile_ended accepts cs⟩, rfl⟩
  | comment mark =>
    obtain ⟨rfl, rfl⟩ : c = mark ∧ throughNewline cs = n := by simpa [extent] using h
    obtain ⟨body, hbody, ⟨behind, rfl, hn⟩ | ⟨rfl, hn⟩⟩ := throughNewline_sound cs
    · exact ⟨body ++ ['\n'], behind, by simp, by simp [hn], body, hbody, .inl rfl⟩
    · exact ⟨cs, [], by simp, hn.symm, cs, hbody, .inr ⟨rfl, rfl⟩⟩
  | quoted delimiter =>
    simp only [extent, Option.ite_none_right_eq_some] at h
    obtain ⟨rfl, h⟩ := h
    cases hm : throughClosing c cs with
    | none => simp [hm] at h
    | some m =>
      obtain ⟨hd, body, behind, hv, rfl, rfl⟩ := throughClosing_sound hm
      refine ⟨LiteralChar.written body ++ [c], behind, by simp, ?_, hd, body, hv, rfl⟩
      simpa [hm] using h

end Reach

/-- What the rules of the language are, with the symbols as one case. -/
inductive Listed : Rule → Prop where
  | blanks : Listed ⟨.run isBlank, .skip⟩
  | comment : Listed ⟨.comment '%', .skip⟩
  | symbol {characters kind} (h : symbol characters kind ∈ rules) : Listed (symbol characters kind)
  | directive : Listed ⟨.sigil '@' isNameChar, .emit .directive .verbatim⟩
  | var : Listed ⟨.sigil '$' isNameChar, .emit .var .behindSigil⟩
  | literal : Listed ⟨.quoted '"', .emit .text .unquoted⟩
  | number : Listed ⟨.run Char.isDigit, .emit .integer .number⟩
  | print : Listed ⟨.word 'P' ['R', 'I', 'N', 'T'], .emit .print .verbatim⟩

section Table

variable {table : List Rule} {rule : Rule} {c : Char} {cs : List Char}

theorem listed_of_mem (hr : rule ∈ rules) : Listed rule := by
  have hmem := hr
  simp only [rules, List.mem_cons, List.not_mem_nil, or_false] at hmem
  rcases hmem with rfl | rfl | rfl | rfl | rfl | rfl | rfl | rfl | rfl | rfl | rfl | rfl | rfl | rfl
  · exact .blanks
  · exact .comment
  · exact .symbol hr
  · exact .directive
  · exact .symbol hr
  · exact .symbol hr
  · exact .symbol hr
  · exact .symbol hr
  · exact .symbol hr
  · exact .symbol hr
  · exact .var
  · exact .literal
  · exact .number
  · exact .print

/-- The character that a lexeme of the form may begin with. -/
def Form.Begins (form : Form) (c : Char) : Prop :=
  match form with
  | .run accepts => accepts c
  | .oneOf characters => c ∈ characters
  | .word first _ => c = first
  | .sigil mark _ | .comment mark | .quoted mark => c = mark

theorem Form.extent_eq_none {form : Form} (h : ¬ form.Begins c) : form.extent c cs = none := by
  cases form <;> simp_all [extent, Begins]

/-- No character begins lexemes of two rules. -/
def Apart (table : List Rule) : Prop :=
  table.Pairwise fun r s => ∀ c, r.form.Begins c → ¬ s.form.Begins c

/-- The order of a table whose rules are apart does not matter. -/
theorem firstMatch_eq (ht : Apart table) (hr : rule ∈ table) (hc : rule.form.Begins c) :
    firstMatch table c cs = (rule.form.extent c cs).map (rule, ·) := by
  induction table with
  | nil => simp at hr
  | cons first table ih =>
    obtain ⟨hfirst, ht⟩ := List.pairwise_cons.mp ht
    rcases List.mem_cons.mp hr with rfl | hr
    · have hrest : firstMatch table c cs = none := by
        rw [firstMatch, List.findSome?_eq_none_iff]
        intro other hother
        simp [Form.extent_eq_none (hfirst other hother c hc)]
      rw [firstMatch] at hrest ⊢
      cases he : rule.form.extent c cs <;> simp [he, hrest]
    · have hnone : first.form.extent c cs = none :=
        Form.extent_eq_none fun hf => hfirst rule hr c hf hc
      rw [firstMatch, List.findSome?_cons, hnone]
      exact ih ht hr

theorem rule_of_firstMatch {extent : Extent} (h : firstMatch table c cs = some (rule, extent)) :
    rule ∈ table ∧ rule.form.extent c cs = some extent := by
  obtain ⟨r, hr, hext⟩ := List.exists_of_findSome?_eq_some h
  obtain ⟨_, hext, he⟩ := Option.map_eq_some_iff.mp hext
  cases he
  exact ⟨hr, hext⟩

theorem rules_apart : Apart rules := by
  have hdigit : ∀ c : Char, c.isDigit = true → ¬c = 'P' := by
    rintro c hc rfl
    exact absurd hc (by decide)
  simpa [Apart, rules, symbol, Form.Begins, isBlank, or_imp, forall_and] using hdigit

end Table

section Conversion

theorem unescape_written {body : List LiteralChar} (h : ∀ u ∈ body, u.Valid '"') :
    unescape (LiteralChar.written body) = body.map LiteralChar.char := by
  induction body with
  | nil => rfl
  | cons u body ih =>
    have hu := h u (by simp)
    have ih := ih fun v hv => h v (by simp [hv])
    cases u with
    | plain c =>
      rw [LiteralChar.written, unescape.eq_def]
      simp [hu.1, ih, LiteralChar.char]
    | escaped c =>
      rw [LiteralChar.written, unescape.eq_def]
      simp [ih, LiteralChar.char]

theorem payload?_number (digits : List Char) :
    Conversion.number.payload? digits =
      if Nat.ofDigitChars 10 digits 0 < 2 ^ 63 then
        some (.integer (.ofNat (Nat.ofDigitChars 10 digits 0)))
      else none := by
  have hmax : Int64.maxValue.toInt = 2 ^ 63 - 1 := by decide
  simp only [Conversion.payload?, hmax]
  congr 1
  simp only [eq_iff_iff]
  omega

/-- What becomes of a lexeme by a rule: layout or a token, or nothing if it has no payload. -/
def Rule.result? (rule : Rule) (lexeme : List Char) : Option (Option (Kind × Payload)) :=
  match rule.action with
  | .skip => some none
  | .emit kind conversion => (conversion.payload? lexeme).map fun payload => some (kind, payload)

end Conversion

end Tally.Lexeme
