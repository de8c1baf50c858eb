import Tally.Proofs.Offsets

/-! Scanners that are asked again and again. A scanner may be asked for a token in two ways, in any
order and also after errors. What it has left tells all later answers. -/

namespace Tally

open Lexeme

namespace Scanner

/-- The two ways to ask for a token. -/
inductive Call where
  | next
  | nextOrClose
deriving DecidableEq

/-- The answer to a call, and the scanner behind it. -/
def ask (s : Scanner) : Call → Answer × Scanner
  | .next => s.next rules
  | .nextOrClose => s.nextOrClose rules

/-- The scanner behind some calls. -/
def after (s : Scanner) : List Call → Scanner
  | [] => s
  | call :: calls => (s.ask call).2.after calls

/-- What the calls give, one after the other. -/
def answers (s : Scanner) : List Call → List Answer
  | [] => []
  | call :: calls => (s.ask call).1 :: (s.ask call).2.answers calls

def Answer.token? : Answer → Option Token
  | .ok token => token
  | .error _ => none

/-- The tokens in the answers before the first one that is an error or says that there is no more
token. The error takes their place. -/
def collect : List Answer → Except LexicalError (List Token)
  | .ok (some t) :: answers => (collect answers).map (t :: ·)
  | .error e :: _ => .error e
  | .ok none :: _ | [] => .ok []

/-- What a step says of its offset, with so many characters behind the first. -/
def Step.Bounded (offset length : Nat) : Step → Prop
  | blank more => more ≤ length
  | token t more => t.offset = offset ∧ more ≤ length
  | failed (.integerOutOfRange literal o) passed =>
    o = offset ∧ passed = literal.length ∧ passed ≤ length + 1
  | failed e passed => e.offset = offset ∧ passed = 0

/-- What may come of asking for a token: after some layout there is no more text, or a rule gives a
token, or the rules fail. -/
inductive Advances (s : Scanner) : Answer → Scanner → Prop where
  | ended : Advances s (.ok none) s.closed
  | token {n o more c cs t} (h : s.behind n = ⟨c :: cs, o⟩)
      (hstep : step rules c cs o = .token t more) :
      Advances s (.ok (some t)) (s.behind (n + (1 + more)))
  | failed {n o passed c cs e} (h : s.behind n = ⟨c :: cs, o⟩)
      (hstep : step rules c cs o = .failed e passed) :
      Advances s (.error e) (s.behind (n + passed))

variable {s t : Scanner} {c : Char} {cs : List Char} {o k n : Nat} {answer : Answer}
  {calls : List Call} {e : LexicalError} {token : Token}

section Steps

theorem step_bounded (table : List Rule) (c : Char) (cs : List Char) (o : Nat) :
    (step table c cs o).Bounded o cs.length := by
  have hstep := steps_step table c cs o
  generalize step table c cs o = outcome at hstep ⊢
  cases hstep with
  | @stays e ho he =>
    cases e with
    | integerOutOfRange literal p => exact absurd rfl (he literal p)
    | unexpectedCharacter d p => exact ⟨ho, rfl⟩
    | unterminatedString d p => exact ⟨ho, rfl⟩
  | layout hr hcs hm haction => simp [Step.Bounded, hcs]
  | token hr hcs hm haction hpayload => simp [Step.Bounded, hcs]
  | outOfRange hr hcs hm haction hpayload => simp [Step.Bounded, hcs, Nat.add_comm 1]

theorem behind_behind (s : Scanner) (m n : Nat) : (s.behind m).behind n = s.behind (m + n) := by
  simp [behind, Nat.add_assoc]

theorem closed_behind (h : k ≤ s.rest.length) : (s.behind k).closed = s.closed := by
  rw [closed, closed, behind_behind]
  congr 1
  simp [behind]
  omega

theorem Advances.of_behind (h : (s.behind k).Advances answer t) (hk : k ≤ s.rest.length) :
    s.Advances answer t := by
  cases h with
  | ended =>
    rw [closed_behind hk]
    exact .ended
  | token h hstep =>
    rw [behind_behind] at h ⊢
    rw [← Nat.add_assoc]
    exact .token h hstep
  | failed h hstep =>
    rw [behind_behind] at h ⊢
    rw [← Nat.add_assoc]
    exact .failed h hstep

theorem advances_next (s : Scanner) : s.Advances (s.next rules).1 (s.next rules).2 := by
  fun_induction next rules s with
  | case1 o => exact .ended
  | case2 c cs o more hstep ih =>
    have hbound := step_bounded rules c cs o
    rw [hstep] at hbound
    rw [← behind_cons c] at ih ⊢
    refine ih.of_behind ?_
    simp [Step.Bounded] at hbound ⊢
    omega
  | case3 c cs o t more hstep =>
    have h := @Advances.token ⟨c :: cs, o⟩ 0 o more c cs t (by simp [behind]) hstep
    rwa [Nat.zero_add, behind_cons] at h
  | case4 c cs o e passed hstep =>
    have h := @Advances.failed ⟨c :: cs, o⟩ 0 o passed c cs e (by simp [behind]) hstep
    simpa [behind] using h

/-- A scanner goes on in its text, and not beyond the end. -/
theorem Advances.exists_behind (h : s.Advances answer t) :
    ∃ k, k ≤ s.rest.length ∧ t = s.behind k := by
  cases h with
  | ended => exact ⟨s.rest.length, Nat.le_refl _, rfl⟩
  | @token n o more c cs t h hstep =>
    have hbound := step_bounded rules c cs o
    rw [hstep] at hbound
    have hlen := congrArg (fun u => u.rest.length) h
    simp [behind, Step.Bounded] at hlen hbound
    exact ⟨n + (1 + more), by omega, rfl⟩
  | @failed n o passed c cs e h hstep =>
    have hbound := step_bounded rules c cs o
    rw [hstep] at hbound
    have hpassed : passed ≤ cs.length + 1 := by
      cases e <;> simp [Step.Bounded] at hbound <;> omega
    have hlen := congrArg (fun u => u.rest.length) h
    simp [behind] at hlen
    exact ⟨n + passed, by omega, rfl⟩

/-- A token lies between the places before and behind it. -/
theorem Advances.token_offset (h : s.Advances (.ok (some token)) t) :
    s.offset ≤ token.offset ∧ token.offset < t.offset := by
  cases h with
  | @token n o more c cs _ h hstep =>
    have hbound := step_bounded rules c cs o
    rw [hstep] at hbound
    have hoffset := congrArg (fun u => u.offset) h
    simp [behind, Step.Bounded] at hoffset hbound ⊢
    omega

theorem Advances.rest_of_ended (h : s.Advances (.ok none) t) : t.rest = [] := by
  cases h with
  | ended => simp [closed, behind]

/-- An error leaves the scanner in front of the text that it is about, or behind it if that is a
number out of range. -/
theorem Advances.of_error (h : s.Advances (.error e) t) :
    (∃ literal, e = .integerOutOfRange literal e.offset ∧ t.offset = e.offset + literal.length) ∨
      (∀ literal o, e ≠ .integerOutOfRange literal o) ∧ t.next rules = (.error e, t) := by
  cases h with
  | @failed n o passed c cs _ h hstep =>
    have hbound := step_bounded rules c cs o
    rw [hstep] at hbound
    have hoffset : s.offset + n = o := congrArg (fun u => u.offset) h
    have hstays : passed = 0 → (s.behind (n + passed)).next rules =
        (.error e, s.behind (n + passed)) := by
      rintro rfl
      rw [Nat.add_zero, h, next, hstep]
      rfl
    cases e with
    | integerOutOfRange literal p =>
      obtain ⟨rfl, hpassed, -⟩ := hbound
      refine .inl ⟨literal, rfl, ?_⟩
      simp [behind, LexicalError.offset]
      omega
    | unexpectedCharacter d p => exact .inr ⟨by simp, hstays hbound.2⟩
    | unterminatedString d p => exact .inr ⟨by simp, hstays hbound.2⟩

end Steps

section Calls

theorem nextOrClose_of_ok {token : Option Token} (h : (s.next rules).1 = .ok token) :
    s.nextOrClose rules = s.next rules := by
  rcases hnext : s.next rules with ⟨_ | token, t⟩
  · simp [hnext] at h
  · simp [nextOrClose, hnext]

theorem nextOrClose_of_error (h : (s.next rules).1 = .error e) :
    s.nextOrClose rules = (.error e, (s.next rules).2.closed) := by
  rcases hnext : s.next rules with ⟨other | token, t⟩
  · rw [hnext] at h
    cases h
    simp [nextOrClose, hnext]
  · simp [hnext] at h

/-- Both ways to ask give the same answer. They differ in what is left after an error. -/
theorem ask_cases (s : Scanner) (call : Call) :
    (s.ask call).1 = (s.next rules).1 ∧
      ((s.ask call).2 = (s.next rules).2 ∨
        (∃ e, (s.next rules).1 = .error e) ∧ (s.ask call).2 = s.closed) := by
  cases call with
  | next => exact ⟨rfl, .inl rfl⟩
  | nextOrClose =>
    rw [ask]
    cases hnext : (s.next rules).1 with
    | ok token =>
      rw [nextOrClose_of_ok hnext]
      exact ⟨hnext, .inl rfl⟩
    | error e =>
      rw [nextOrClose_of_error hnext]
      obtain ⟨k, hk, hbehind⟩ := (advances_next s).exists_behind
      refine ⟨rfl, .inr ⟨⟨e, rfl⟩, ?_⟩⟩
      simp only
      rw [hbehind, closed_behind hk]

theorem exists_behind_ask (s : Scanner) (call : Call) :
    ∃ k, k ≤ s.rest.length ∧ (s.ask call).2 = s.behind k := by
  obtain ⟨-, h | ⟨-, h⟩⟩ := s.ask_cases call
  · rw [h]
    exact (advances_next s).exists_behind
  · exact ⟨s.rest.length, Nat.le_refl _, h⟩

theorem exists_behind_after (s : Scanner) (calls : List Call) :
    ∃ k, k ≤ s.rest.length ∧ s.after calls = s.behind k := by
  induction calls generalizing s with
  | nil => exact ⟨0, by omega, by simp [after, behind]⟩
  | cons call calls ih =>
    obtain ⟨k, hk, hask⟩ := s.exists_behind_ask call
    obtain ⟨l, hl, hafter⟩ := ih (s.ask call).2
    rw [hask] at hl hafter
    refine ⟨k + l, ?_, ?_⟩
    · simp [behind] at hl
      omega
    · rw [after, hask, hafter, behind_behind]

theorem after_append (s : Scanner) (calls later : List Call) :
    s.after (calls ++ later) = (s.after calls).after later := by
  induction calls generalizing s with
  | nil => rfl
  | cons call calls ih => exact ih _

theorem token?_eq_some_iff : answer.token? = some token ↔ answer = .ok (some token) := by
  rcases answer with e | t <;> simp [Answer.token?]

theorem ask_token (call : Call) (h : (s.ask call).1.token? = some token) :
    s.offset ≤ token.offset ∧ token.offset < (s.ask call).2.offset := by
  have hadvances := advances_next s
  obtain ⟨hanswer, hbehind | ⟨⟨e, he⟩, -⟩⟩ := s.ask_cases call
  · rw [hanswer, token?_eq_some_iff] at h
    rw [h] at hadvances
    rw [hbehind]
    exact hadvances.token_offset
  · simp [hanswer, he, Answer.token?] at h

theorem offset_le_of_mem_answers (h : token ∈ (s.answers calls).filterMap Answer.token?) :
    s.offset ≤ token.offset := by
  induction calls generalizing s with
  | nil => simp [answers] at h
  | cons call calls ih =>
    obtain ⟨answer, hmem, htoken⟩ := List.mem_filterMap.mp h
    rcases List.mem_cons.mp hmem with rfl | hmem
    · exact (ask_token call htoken).1
    · have hrest := ih (List.mem_filterMap.mpr ⟨answer, hmem, htoken⟩)
      obtain ⟨k, -, hask⟩ := s.exists_behind_ask call
      rw [hask] at hrest
      simp [behind] at hrest
      omega

theorem pairwise_offset_answers (s : Scanner) (calls : List Call) :
    ((s.answers calls).filterMap Answer.token?).Pairwise fun t u => t.offset < u.offset := by
  induction calls generalizing s with
  | nil => exact .nil
  | cons call calls ih =>
    rw [answers]
    cases htoken : (s.ask call).1.token? with
    | none =>
      rw [List.filterMap_cons_none htoken]
      exact ih _
    | some t =>
      rw [List.filterMap_cons_some htoken]
      refine List.pairwise_cons.mpr ⟨?_, ih _⟩
      intro u hu
      have hlt := (ask_token call htoken).2
      have hle := offset_le_of_mem_answers hu
      omega

/-- Where nothing is left, there is no more token. -/
theorem answers_of_rest_eq_nil (h : s.rest = []) :
    ∀ answer ∈ s.answers calls, answer = .ok none := by
  obtain ⟨rest, o⟩ := s
  obtain rfl : rest = [] := h
  have hask : ∀ call, ask ⟨[], o⟩ call = (.ok none, ⟨[], o⟩) := by
    intro call
    cases call <;> simp [ask, nextOrClose, next]
  induction calls with
  | nil => simp [answers]
  | cons call calls ih => simpa [answers, hask] using ih

theorem rest_of_ask_ended (call : Call) (h : (s.ask call).1 = .ok none) :
    (s.ask call).2.rest = [] := by
  have hadvances := advances_next s
  obtain ⟨hanswer, hbehind | ⟨⟨e, he⟩, -⟩⟩ := s.ask_cases call
  · rw [← hanswer, h] at hadvances
    rw [hbehind]
    exact hadvances.rest_of_ended
  · simp [← hanswer, h] at he

theorem rest_of_nextOrClose_error (h : (s.nextOrClose rules).1 = .error e) :
    (s.nextOrClose rules).2.rest = [] := by
  have hanswer := (s.ask_cases .nextOrClose).1
  rw [ask, h] at hanswer
  rw [nextOrClose_of_error hanswer.symm]
  simp [closed, behind]

/-- A scanner that is stuck stays so until it is closed. -/
theorem answers_of_stuck (h : t.next rules = (.error e, t)) (n : Nat) :
    t.answers (List.replicate n .next ++ [.nextOrClose]) = List.replicate (n + 1) (.error e) := by
  induction n with
  | zero =>
    have hclose := nextOrClose_of_error (s := t) (e := e) (by rw [h])
    simp [answers, ask, hclose]
  | succ n ih => simp [List.replicate_succ, answers, ask, h, ih]

/-- Asked again, a scanner gives the same error until it is closed, except for a number out of
range. -/
theorem answers_of_error (h : (s.next rules).1 = .error e)
    (hrange : ∀ literal o, e ≠ .integerOutOfRange literal o) (n : Nat) :
    (s.next rules).2.answers (List.replicate n .next ++ [.nextOrClose]) =
      List.replicate (n + 1) (.error e) := by
  have hadvances := advances_next s
  rw [h] at hadvances
  rcases hadvances.of_error with ⟨literal, he, -⟩ | ⟨-, hstuck⟩
  · exact absurd he (hrange literal e.offset)
  · exact answers_of_stuck hstuck n

theorem offset_of_integerOutOfRange {literal : String}
    (h : (s.next rules).1 = .error (.integerOutOfRange literal o)) :
    (s.next rules).2.offset = o + literal.length := by
  have hadvances := advances_next s
  rw [h] at hadvances
  rcases hadvances.of_error with ⟨other, he, hoffset⟩ | ⟨hrange, -⟩
  · obtain ⟨rfl, -⟩ := LexicalError.integerOutOfRange.inj he
    exact hoffset
  · exact absurd rfl (hrange literal o)

theorem answers_shift (n : Nat) (s : Scanner) (calls : List Call) :
    (s.shift n).answers calls = (s.answers calls).map (Answer.relocate (· + n)) := by
  have hclosed : ∀ t : Scanner, (t.shift n).closed = t.closed.shift n := by
    intro t
    simp [closed, shift, behind, Nat.add_right_comm]
  have hask : ∀ (s : Scanner) call, (s.shift n).ask call =
      (Answer.relocate (· + n) (s.ask call).1, (s.ask call).2.shift n) := by
    intro s call
    cases call with
    | next => exact next_shift n s
    | nextOrClose =>
      rw [ask, ask]
      cases hnext : (s.next rules).1 with
      | ok token =>
        have hshift : ((s.shift n).next rules).1 = .ok (token.map (Token.relocate (· + n))) := by
          rw [next_shift, hnext]
          rfl
        rw [nextOrClose_of_ok hnext, nextOrClose_of_ok hshift, next_shift]
      | error e =>
        have hshift : ((s.shift n).next rules).1 = .error (e.relocate (· + n)) := by
          rw [next_shift, hnext]
          rfl
        rw [nextOrClose_of_error hnext, nextOrClose_of_error hshift, next_shift]
        simp only [hclosed]
        rfl
  induction calls generalizing s with
  | nil => rfl
  | cons call calls ih => simp [answers, hask, ih]

theorem tokens_eq (s : Scanner) :
    s.tokens rules =
      match s.next rules with
      | (.error e, _) => .error e
      | (.ok none, _) => .ok []
      | (.ok (some t), u) => (u.tokens rules).map (t :: ·) := by
  fun_induction next rules s with
  | case1 o => rw [tokens_nil]
  | case2 c cs o more hstep ih => rw [tokens_cons, hstep, ← ih]
  | case3 c cs o t more hstep => rw [tokens_cons, hstep]
  | case4 c cs o e passed hstep => rw [tokens_cons, hstep]

/-- Asked often enough, a scanner gives all its tokens, or those before an error and the error. -/
theorem collect_answers (h : s.rest.length < n) :
    collect (s.answers (List.replicate n .nextOrClose)) = s.tokens rules := by
  induction n generalizing s with
  | zero => omega
  | succ n ih =>
    have hadvances := advances_next s
    rw [List.replicate_succ, answers, tokens_eq, ask]
    rcases hnext : s.next rules with ⟨e | _ | t, u⟩
    · simp [nextOrClose, hnext, collect]
    · simp [nextOrClose, hnext, collect]
    · rw [hnext] at hadvances
      obtain ⟨k, hk, hbehind⟩ := hadvances.exists_behind
      have hoffset := hadvances.token_offset
      have hshorter : u.rest.length < n := by
        simp only at hbehind hoffset
        rw [hbehind] at hoffset ⊢
        simp [behind] at hoffset ⊢
        omega
      simp only [nextOrClose, hnext, collect]
      rw [ih hshorter]

/-- What calls leave is what a scanner of the remaining text alone begins with, but for where that
text stands. -/
theorem after_ofText (text : String) (calls : List Call) :
    ((ofText text).after calls).offset ≤ text.length ∧
      (ofText text).after calls =
        shift ((ofText text).after calls).offset
          (ofText (String.ofList (text.toList.drop ((ofText text).after calls).offset))) := by
  obtain ⟨k, hk, hafter⟩ := (ofText text).exists_behind_after calls
  rw [ofText, String.length_toList] at hk
  rw [hafter]
  constructor
  · simpa [behind, ofText] using hk
  · simp [behind, ofText, shift]

end Calls

end Scanner

open Scanner

/-- What calls of one scanner give. The place never goes back and stays in the text, and tokens
stand in the order of the text. After the end, and after an error that closes the scanner, there is
no more token. Other errors are given again until the scanner is closed, except for a number out of
range, behind which the text is read as if it stood alone. -/
theorem answers_of_calls (text : String) (calls : List Call) :
    let s := (ofText text).after calls
    (∀ later, s.offset ≤ ((ofText text).after (calls ++ later)).offset ∧
      ((ofText text).after (calls ++ later)).offset ≤ text.length) ∧
    (((ofText text).answers calls).filterMap Answer.token?).Pairwise
      (fun t u => t.offset < u.offset) ∧
    (∀ call later, (s.ask call).1 = .ok none →
      ∀ answer ∈ (s.ask call).2.answers later, answer = .ok none) ∧
    (∀ e later, (s.ask .nextOrClose).1 = .error e →
      ∀ answer ∈ (s.ask .nextOrClose).2.answers later, answer = .ok none) ∧
    (∀ e n, (s.ask .next).1 = .error e → (∀ literal o, e ≠ .integerOutOfRange literal o) →
      (s.ask .next).2.answers (List.replicate n .next ++ [.nextOrClose]) =
        List.replicate (n + 1) (.error e)) ∧
    (∀ literal o later, (s.ask .next).1 = .error (.integerOutOfRange literal o) →
      (s.ask .next).2.answers later =
        ((ofText (String.ofList (text.toList.drop (o + literal.length)))).answers later).map
          (Answer.relocate (· + (o + literal.length)))) ∧
    ∀ n, text.length < n →
      collect ((ofText text).answers (List.replicate n .nextOrClose)) = Token.ofText text := by
  intro s
  refine ⟨?_, pairwise_offset_answers _ _, ?_, ?_, ?_, ?_, ?_⟩
  · intro later
    obtain ⟨k, -, hlater⟩ := s.exists_behind_after later
    refine ⟨?_, (after_ofText text (calls ++ later)).1⟩
    rw [after_append, hlater]
    exact Nat.le_add_right s.offset k
  · intro call later h
    exact answers_of_rest_eq_nil (rest_of_ask_ended call h)
  · intro e later h
    exact answers_of_rest_eq_nil (rest_of_nextOrClose_error h)
  · intro e n h hrange
    exact answers_of_error h hrange n
  · intro literal o later h
    have hoffset : (s.ask .next).2.offset = o + literal.length := offset_of_integerOutOfRange h
    have hafter := (after_ofText text (calls ++ [.next])).2
    rw [after_append] at hafter
    change (s.ask .next).2 = shift (s.ask .next).2.offset
      (ofText (String.ofList (text.toList.drop (s.ask .next).2.offset))) at hafter
    rw [hoffset] at hafter
    rw [hafter, answers_shift]
  · intro n hn
    refine collect_answers ?_
    rwa [ofText, String.length_toList]

/-- A number out of range, and then a character that begins no lexeme. -/
def faultyText : String := "9999999999999999999?"

theorem faultyText_answers :
    (((ofText faultyText).ask .next).1 =
        .error (.integerOutOfRange "9999999999999999999" 0) ∧
      ((ofText faultyText).ask .next).2.answers [.next, .nextOrClose, .next] =
        [.error (.unexpectedCharacter '?' 19), .error (.unexpectedCharacter '?' 19), .ok none]) ∧
    (let s := (ofText faultyText).after [.next];
      (s.ask .next).1 = .error (.unexpectedCharacter '?' 19) ∧
      (s.ask .next).2.answers [.next, .next, .nextOrClose] =
        List.replicate 3 (.error (.unexpectedCharacter '?' 19)) ∧
      (s.ask .nextOrClose).1 = .error (.unexpectedCharacter '?' 19) ∧
      ∀ answer ∈ (s.ask .nextOrClose).2.answers [.next, .nextOrClose], answer = .ok none) ∧
    (let s := (ofText faultyText).after [.nextOrClose];
      (s.ask .next).1 = .ok none ∧
      ∀ answer ∈ (s.ask .next).2.answers [.nextOrClose, .next], answer = .ok none) ∧
    collect ((ofText faultyText).answers (List.replicate 21 .nextOrClose)) =
      .error (.integerOutOfRange "9999999999999999999" 0) := by
  obtain ⟨-, -, -, -, -, hrange, hcollect⟩ := answers_of_calls faultyText []
  obtain ⟨-, -, -, hclosed, hstuck, -, -⟩ := answers_of_calls faultyText [.next]
  obtain ⟨-, -, hended, -, -, -, -⟩ := answers_of_calls faultyText [.nextOrClose]
  have hfirst : ((ofText faultyText).ask .next).1 =
      .error (.integerOutOfRange "9999999999999999999" 0) := by decide +kernel
  have hsecond : (((ofText faultyText).after [.next]).ask .next).1 =
      .error (.unexpectedCharacter '?' 19) := by decide +kernel
  have hclose : (((ofText faultyText).after [.next]).ask .nextOrClose).1 =
      .error (.unexpectedCharacter '?' 19) := by decide +kernel
  have hend : (((ofText faultyText).after [.nextOrClose]).ask .next).1 = .ok none := by
    decide +kernel
  refine ⟨⟨hfirst, ?_⟩, ⟨hsecond, ?_, hclose, ?_⟩, ⟨hend, ?_⟩, ?_⟩
  · have hlater := hrange "9999999999999999999" 0 [.next, .nextOrClose, .next] hfirst
    exact hlater.trans (by decide +kernel)
  · exact hstuck _ 2 hsecond (by simp)
  · exact hclosed _ _ hclose
  · exact hended _ _ hend
  · rw [hcollect 21 (by decide)]
    decide +kernel

end Tally
