import Tally.Proofs.Calls

/-! Scanning by positions. The text is kept as a whole, together with the position that is reached
in it, and a rule counts the characters that it takes from there. Slices and accesses are checked,
and the turns of the loop over layout are limited. None of this ever gets in the way: every slice is
one of the text, every turn goes on in it, and what comes out is what a scanner gives. -/

namespace Tally

open Lexeme

namespace Lexeme

/-- The characters between two positions, if the text has these positions in this order. -/
def slice? (cs : List Char) (first last : Nat) : Option (List Char) :=
  if first ≤ last ∧ last ≤ cs.length then some ((cs.drop first).take (last - first)) else none

/-- The position behind the closing delimiter, if there is one from this position on. A backslash is
passed together with the character behind it, be there one or not. -/
def closingFrom (delimiter : Char) (cs : List Char) (i : Nat) : Option Nat :=
  if h : i < cs.length then
    if cs[i] = '\\' then closingFrom delimiter cs (i + 2)
    else if cs[i] = delimiter then some (i + 1)
    else closingFrom delimiter cs (i + 1)
  else none
termination_by cs.length - i

/-- How many characters at the front of the text are a lexeme of the form, if there is one. -/
def Form.scan (form : Form) (cs : List Char) (offset : Nat) : Except LexicalError (Option Nat) :=
  match form with
  | .run accepts =>
    let n := (cs.takeWhile accepts).length
    .ok (if 0 < n then some n else none)
  | .oneOf characters => .ok ((cs.head?.filter (· ∈ characters)).map fun _ => 1)
  | .word first others =>
    let n := (first :: others).length
    .ok (if cs.take n = first :: others then some n else none)
  | .sigil mark accepts =>
    match cs with
    | [] => .ok none
    | c :: behind =>
      let n := (behind.takeWhile accepts).length
      .ok (if c = mark ∧ 0 < n then some (n + 1) else none)
  | .comment mark =>
    .ok (if cs.head? = some mark then some ((cs.idxOf? '\n').elim cs.length (· + 1)) else none)
  | .quoted delimiter =>
    if cs.head? = some delimiter then
      match closingFrom delimiter cs 1 with
      | some n => .ok (some n)
      | none => .error (.unterminatedString delimiter offset)
    else .ok none

/-- What a scan finds where the form has this extent. It counts the first character too. -/
def Extent.scanned (offset : Nat) : Option Extent → Except LexicalError (Option Nat)
  | none => .ok none
  | some (.closed more) => .ok (some (1 + more))
  | some (.unclosed delimiter) => .error (.unterminatedString delimiter offset)

/-- The first rule that finds a lexeme, and how many characters it takes. An error ends the
search. -/
def scanAll (cs : List Char) (offset : Nat) :
    List Rule → Except LexicalError (Option (Rule × Nat))
  | [] => .ok none
  | rule :: table =>
    match rule.form.scan cs offset with
    | .error e => .error e
    | .ok (some n) => .ok (some (rule, n))
    | .ok none => scanAll cs offset table

/-- The conversion takes a character off an end of the lexeme. -/
def Conversion.Trims : Conversion → Prop
  | behindSigil | unquoted => True
  | verbatim | number => False

/-- The payload of a lexeme, if the part that the conversion reads is a slice of it. -/
def Conversion.decode? (conversion : Conversion) (lexeme : List Char) : Option (Option Payload) :=
  match conversion with
  | .behindSigil =>
    (slice? lexeme 1 lexeme.length).map fun name => some (.text (String.ofList name))
  | .unquoted =>
    (slice? lexeme 1 (lexeme.length - 1)).map fun body =>
      some (.text (String.ofList (unescape body)))
  | .verbatim | .number => some (conversion.payload? lexeme)

end Lexeme

/-- A text and a position in it. -/
structure Pointer where
  text : List Char
  position : Nat
deriving DecidableEq

namespace Pointer

def ofText (text : String) : Pointer := ⟨text.toList, 0⟩

/-- The scanner that has the rest of the text to read. -/
def scanner (p : Pointer) : Scanner := ⟨p.text.drop p.position, p.position⟩

def ahead (p : Pointer) (n : Nat) : Pointer := { p with position := p.position + n }

/-- The pointer is in the text, at the place where the scanner is. -/
structure At (p : Pointer) (text : List Char) (s : Scanner) : Prop where
  text_eq : p.text = text
  position_le : p.position ≤ text.length
  scanner_eq : p.scanner = s

/-- What comes of a turn of the loop over layout. -/
inductive Turn where
  /-- Layout was passed. -/
  | again (p : Pointer)
  | ends (answer : Scanner.Answer) (p : Pointer)

/-- The rule that matches at the position, and how many characters it takes. -/
def match? (p : Pointer) : Option (Except LexicalError (Rule × Nat)) := do
  let rest ← slice? p.text p.position p.text.length
  match scanAll rest p.position rules with
  | .error e => some (.error e)
  | .ok (some found) => some (.ok found)
  | .ok none =>
    let c ← rest[0]?
    some (.error (.unexpectedCharacter c p.position))

/-- One turn of the loop. There is none if a slice or an access is out of range. -/
def turn? (p : Pointer) : Option Turn :=
  if p.position < p.text.length then do
    match ← p.match? with
    | .error e => some (.ends (.error e) p)
    | .ok (rule, n) =>
      match rule.action with
      | .skip => some (.again (p.ahead n))
      | .emit kind conversion =>
        let lexeme ← slice? p.text p.position (p.position + n)
        match ← conversion.decode? lexeme with
        | some payload => some (.ends (.ok (some ⟨kind, payload, p.position⟩)) (p.ahead n))
        | none =>
          some (.ends (.error (.integerOutOfRange (String.ofList lexeme) p.position)) (p.ahead n))
  else some (.ends (.ok none) p)

/-- The answer that the loop comes to within so many turns, and the pointer behind it. -/
def next? (p : Pointer) : Nat → Option (Scanner.Answer × Pointer)
  | 0 => none
  | turns + 1 => do
    match ← p.turn? with
    | .again q => q.next? turns
    | .ends answer q => some (answer, q)

/-- The answer to a call. The loop has one turn for each character that is left, and one more. -/
def ask? (p : Pointer) : Scanner.Call → Option (Scanner.Answer × Pointer)
  | .next => p.next? (p.text.length - p.position + 1)
  | .nextOrClose => do
    match ← p.next? (p.text.length - p.position + 1) with
    | (.error e, q) => some (.error e, { q with position := q.text.length })
    | (.ok token, q) => some (.ok token, q)

/-- The pointer behind some calls. -/
def after? (p : Pointer) : List Scanner.Call → Option Pointer
  | [] => some p
  | call :: calls => do
    let (_, q) ← p.ask? call
    q.after? calls

end Pointer

namespace Lexeme

section Scans

variable {form : Form} {rule : Rule} {table : List Rule} {conversion : Conversion} {kind : Kind}
  {delimiter c : Char} {cs lexeme : List Char} {i first last o n more : Nat}

theorem slice?_eq (h : first ≤ last) (hlast : last ≤ cs.length) :
    slice? cs first last = some ((cs.drop first).take (last - first)) :=
  if_pos ⟨h, hlast⟩

theorem map_add_map_add (i k : Nat) (n : Option Nat) :
    (n.map (· + k)).map (i + ·) = n.map (i + k + ·) := by
  rw [Option.map_map]
  congr 1
  funext m
  simp only [Function.comp_apply]
  omega

/-- Looking by positions for the closing delimiter finds the one that is found along the text. -/
theorem closingFrom_eq (delimiter : Char) (cs : List Char) (i : Nat) :
    closingFrom delimiter cs i = (throughClosing delimiter (cs.drop i)).map (i + ·) := by
  fun_induction closingFrom delimiter cs i with
  | case1 i h hc ih =>
    rw [ih, List.drop_eq_getElem_cons h, hc]
    by_cases hnext : i + 1 < cs.length
    · rw [List.drop_eq_getElem_cons hnext, throughClosing_escaped, map_add_map_add]
    · -- the backslash is the last character, and the next position is beyond the end
      rw [List.drop_eq_nil_of_le (by omega : cs.length ≤ i + 1),
        List.drop_eq_nil_of_le (by omega : cs.length ≤ i + 2)]
      simp [throughClosing]
  | case2 i h hback hclose =>
    rw [List.drop_eq_getElem_cons h, hclose, throughClosing_closing (hclose ▸ hback)]
    rfl
  | case3 i h hback hclose ih =>
    rw [ih, List.drop_eq_getElem_cons h, throughClosing_plain hback hclose, map_add_map_add]
  | case4 i h =>
    rw [List.drop_eq_nil_of_le (by omega)]
    rfl

theorem Form.scan_nil (form : Form) (o : Nat) : form.scan [] o = .ok none := by
  cases form <;> simp [scan]

theorem elim_idxOf?_newline (cs : List Char) :
    (cs.idxOf? '\n').elim cs.length (· + 1) = throughNewline cs := by
  induction cs with
  | nil => rfl
  | cons c cs ih =>
    rw [List.idxOf?_cons, throughNewline]
    by_cases hc : c = '\n'
    · simp [hc]
    · rw [if_neg hc, if_neg (by simpa using hc), ← ih]
      cases cs.idxOf? '\n' <;> rfl

/-- Scanning by positions finds what the form extends over along the text. -/
theorem Form.scan_cons (h : form ≠ .comment '\n') (c : Char) (cs : List Char) (o : Nat) :
    form.scan (c :: cs) o = Extent.scanned o (form.extent c cs) := by
  cases form with
  | run accepts =>
    by_cases hc : accepts c <;> simp [scan, extent, Extent.scanned, hc, Nat.add_comm]
  | oneOf characters =>
    by_cases hc : c ∈ characters <;> simp [scan, extent, Extent.scanned, hc]
  | word first others =>
    have hiff : (c :: cs).take (first :: others).length = first :: others ↔
        c = first ∧ others <+: cs := by
      rw [List.length_cons, List.take_succ_cons, List.cons_eq_cons, List.prefix_iff_eq_take,
        eq_comm (a := others)]
    simp only [scan, extent, hiff]
    split
    · rw [List.length_cons, Nat.add_comm]
      rfl
    · rfl
  | sigil mark accepts =>
    simp only [scan, extent, List.length_pos_iff]
    split
    · rw [Nat.add_comm]
      rfl
    · rfl
  | comment mark =>
    simp only [scan, extent, elim_idxOf?_newline, List.head?_cons, Option.some.injEq]
    split
    case isTrue hc =>
      have hnewline : c ≠ '\n' := fun hnewline => h (by rw [← hc, hnewline])
      rw [throughNewline, if_neg hnewline, Nat.add_comm]
      rfl
    case isFalse => rfl
  | quoted mark =>
    simp only [scan, extent, closingFrom_eq, List.head?_cons, Option.some.injEq]
    split
    case isTrue hc =>
      subst hc
      cases hclosing : throughClosing c cs <;> simp [Extent.scanned, hclosing]
    case isFalse => rfl

/-- What is found are the characters of a lexeme, at least one. -/
theorem Form.exists_matches_of_scan (hform : form ≠ .comment '\n')
    (h : form.scan cs o = .ok (some n)) :
    ∃ c run behind, cs = c :: run ++ behind ∧ n = 1 + run.length ∧
      form.Matches (c :: run) behind := by
  cases cs with
  | nil => simp [scan_nil] at h
  | cons c cs =>
    rw [scan_cons hform] at h
    cases hextent : form.extent c cs with
    | none => simp [hextent, Extent.scanned] at h
    | some extent =>
      cases extent with
      | unclosed delimiter => simp [hextent, Extent.scanned] at h
      | closed more =>
        obtain ⟨run, behind, rfl, rfl, hm⟩ := matches_of_extent hextent
        exact ⟨c, run, behind, rfl, by simpa [hextent, Extent.scanned] using h.symm, hm⟩

theorem scanAll_cons (h : ∀ rule ∈ table, rule.form ≠ .comment '\n') :
    scanAll (c :: cs) o table =
      match firstMatch table c cs with
      | none => .ok none
      | some (rule, .closed more) => .ok (some (rule, 1 + more))
      | some (_, .unclosed delimiter) => .error (.unterminatedString delimiter o) := by
  induction table with
  | nil => rfl
  | cons rule table ih =>
    obtain ⟨hrule, htable⟩ := List.forall_mem_cons.mp h
    rw [scanAll, Form.scan_cons hrule, firstMatch, List.findSome?_cons]
    cases hextent : rule.form.extent c cs with
    | none => exact ih htable
    | some extent => cases extent <;> rfl

theorem ne_comment_newline (hr : rule ∈ rules) : rule.form ≠ .comment '\n' := by
  cases listed_of_mem hr <;> simp [symbol]

/-- Only lexemes with a mark in front or between delimiters are trimmed. -/
theorem ne_nil_of_trims (hr : rule ∈ rules) (haction : rule.action = .emit kind conversion)
    (htrims : conversion.Trims) {run behind : List Char}
    (hm : rule.form.Matches (c :: run) behind) : run ≠ [] := by
  cases listed_of_mem hr with
  | var =>
    obtain ⟨name, hname, heq⟩ := hm
    obtain ⟨-, rfl⟩ := List.cons.inj heq
    exact hname.ne_nil
  | literal =>
    obtain ⟨-, body, -, heq⟩ := hm
    obtain ⟨-, rfl⟩ := List.cons.inj heq
    simp
  | blanks | comment => cases haction
  | symbol | directive | number | print =>
    cases haction
    exact htrims.elim

theorem Conversion.decode?_eq (h : conversion.Trims → 2 ≤ lexeme.length) :
    conversion.decode? lexeme = some (conversion.payload? lexeme) := by
  cases conversion with
  | verbatim => rfl
  | number => rfl
  | behindSigil =>
    have hlength := h trivial
    rw [decode?, slice?_eq (by omega) (by omega)]
    simp [payload?, List.take_of_length_le]
  | unquoted =>
    have hlength := h trivial
    rw [decode?, slice?_eq (by omega) (by omega)]
    simp [payload?, List.dropLast_eq_take]

end Scans

end Lexeme

open Scanner

/-- The number of characters that a step passes. -/
def Scanner.Step.passed : Step → Nat
  | blank more | token _ more => 1 + more
  | failed _ passed => passed

theorem Scanner.passed_step_le (table : List Rule) (c : Char) (cs : List Char) (o : Nat) :
    (step table c cs o).passed ≤ (c :: cs).length := by
  have hbound := step_bounded table c cs o
  rw [List.length_cons]
  cases hstep : step table c cs o with
  | blank more =>
    rw [hstep] at hbound
    simp [Step.Bounded, Step.passed] at hbound ⊢
    omega
  | token t more =>
    rw [hstep] at hbound
    simp [Step.Bounded, Step.passed] at hbound ⊢
    omega
  | failed e passed =>
    rw [hstep] at hbound
    cases e <;> simp [Step.Bounded, Step.passed] at hbound ⊢ <;> omega

namespace Pointer

/-- The turn of the loop that a step of the scanner is. -/
def Turn.ofStep (p : Pointer) : Step → Turn
  | .blank more => .again (p.ahead (1 + more))
  | .token t more => .ends (.ok (some t)) (p.ahead (1 + more))
  | .failed e passed => .ends (.error e) (p.ahead passed)

section Turns

variable {p q : Pointer} {s : Scanner} {c : Char} {cs text : List Char} {o n turns : Nat}

theorem slice?_rest (h : p.position ≤ p.text.length) :
    slice? p.text p.position p.text.length = some p.scanner.rest := by
  rw [slice?_eq h (Nat.le_refl _), scanner, List.take_of_length_le (by simp)]

theorem length_of_scanner (h : p.scanner = ⟨c :: cs, o⟩) :
    p.position = o ∧ p.text.length = o + 1 + cs.length := by
  obtain ⟨hrest, rfl⟩ := Scanner.mk.inj h
  have hlength := congrArg List.length hrest
  simp at hlength
  omega

theorem match?_eq (h : p.scanner = ⟨c :: cs, o⟩) :
    p.match? =
      some (match firstMatch rules c cs with
        | none => .error (.unexpectedCharacter c o)
        | some (rule, .closed more) => .ok (rule, 1 + more)
        | some (_, .unclosed delimiter) => .error (.unterminatedString delimiter o)) := by
  obtain ⟨ho, hlength⟩ := length_of_scanner h
  rw [match?, slice?_rest (by omega), h, ho]
  simp only [Option.bind_eq_bind, Option.bind_some,
    scanAll_cons fun rule hr => ne_comment_newline hr]
  cases firstMatch rules c cs with
  | none => rfl
  | some found =>
    obtain ⟨rule, extent⟩ := found
    cases extent <;> rfl

/-- A turn is a step of the scanner. -/
theorem turn?_eq (h : p.scanner = ⟨c :: cs, o⟩) :
    p.turn? = some (Turn.ofStep p (step rules c cs o)) := by
  obtain ⟨ho, hlength⟩ := length_of_scanner h
  rw [turn?, if_pos (by omega), match?_eq h, step]
  cases hfirst : firstMatch rules c cs with
  | none => rfl
  | some found =>
    obtain ⟨rule, extent⟩ := found
    obtain ⟨hr, hextent⟩ := rule_of_firstMatch hfirst
    cases extent with
    | unclosed delimiter => rfl
    | closed more =>
      obtain ⟨run, behind, rfl, rfl, hm⟩ := Form.matches_of_extent hextent
      cases haction : rule.action with
      | skip => simp [haction, Turn.ofStep]
      | emit kind conversion =>
        have hlexeme : slice? p.text p.position (p.position + (1 + run.length)) =
            some (c :: run) := by
          rw [List.length_append] at hlength
          rw [slice?_eq (by omega) (by omega), Nat.add_sub_cancel_left,
            show p.text.drop p.position = c :: (run ++ behind) from congrArg Scanner.rest h,
            Nat.add_comm 1, List.take_succ_cons, List.take_left]
        have hdecode : conversion.decode? (c :: run) = some (conversion.payload? (c :: run)) := by
          refine Conversion.decode?_eq fun htrims => ?_
          have hrun := List.length_pos_iff.mpr (ne_nil_of_trims hr haction htrims hm)
          rw [List.length_cons]
          omega
        simp only [Option.bind_eq_bind, Option.bind_some, haction, hlexeme, hdecode, List.take_left]
        rw [ho]
        cases conversion.payload? (c :: run) <;> rfl

theorem turn?_of_end (h : p.position = p.text.length) : p.turn? = some (.ends (.ok none) p) := by
  rw [turn?, if_neg (by omega)]

theorem At.ahead (h : p.At text s) (hn : n ≤ s.rest.length) :
    (p.ahead n).At text (s.behind n) := by
  obtain ⟨rfl, hle, rfl⟩ := h
  refine ⟨rfl, ?_, ?_⟩
  · simp [scanner] at hn
    simp only [Pointer.ahead]
    omega
  · simp [scanner, behind, Pointer.ahead, List.drop_drop]

theorem At.length_eq (h : p.At text s) : text.length - p.position = s.rest.length := by
  obtain ⟨rfl, -, rfl⟩ := h
  simp [scanner]

theorem At.closed (h : p.At text s) : At { p with position := p.text.length } text s.closed := by
  have hahead := h.ahead (Nat.le_refl s.rest.length)
  have hlength := h.length_eq
  have hle := h.position_le
  rw [← h.text_eq] at hlength hle
  have hend : p.ahead s.rest.length = { p with position := p.text.length } := by
    rw [Pointer.ahead, ← hlength]
    congr 1
    omega
  rwa [hend] at hahead

theorem At.exists_cons (h : p.At text s) (hlt : p.position < text.length) :
    ∃ c cs o, s = ⟨c :: cs, o⟩ := by
  obtain ⟨rfl, -, rfl⟩ := h
  exact ⟨_, _, _, by rw [scanner, List.drop_eq_getElem_cons hlt]⟩

/-- In the text a turn is never out of range, and if the loop is not over, it has gone on. -/
theorem At.exists_turn (h : p.At text s) :
    ∃ turn, p.turn? = some turn ∧
      ∀ q, turn = .again q → p.position < q.position ∧ q.At text q.scanner := by
  rcases Nat.lt_or_eq_of_le h.position_le with hlt | heq
  · obtain ⟨c, cs, o, rfl⟩ := h.exists_cons hlt
    refine ⟨_, turn?_eq h.scanner_eq, ?_⟩
    have hpassed := passed_step_le rules c cs o
    cases hstep : step rules c cs o with
    | token | failed => simp [Turn.ofStep]
    | blank more =>
      rw [hstep] at hpassed
      rintro q ⟨⟩
      have hahead := h.ahead hpassed
      refine ⟨?_, hahead.text_eq, hahead.position_le, rfl⟩
      change p.position < p.position + (1 + more)
      omega
  · refine ⟨_, turn?_of_end (h.text_eq ▸ heq), by simp⟩

/-- In one turn for each character that is left, and one more, the loop comes to the answer of the
scanner. -/
theorem At.next? (h : p.At text s) (hturns : s.rest.length < turns) :
    ∃ q, p.next? turns = some ((s.next rules).1, q) ∧ q.At text (s.next rules).2 := by
  induction turns generalizing p s with
  | zero => omega
  | succ turns ih =>
    obtain ⟨rest, o⟩ := s
    cases rest with
    | nil =>
      have hend : p.position = p.text.length := by
        have hlength := h.length_eq
        have hle := h.position_le
        rw [h.text_eq]
        simp at hlength
        omega
      rw [Pointer.next?, turn?_of_end hend, Scanner.next]
      exact ⟨p, rfl, h⟩
    | cons c cs =>
      have hpassed := passed_step_le rules c cs o
      rw [Pointer.next?, turn?_eq h.scanner_eq, Scanner.next]
      cases hstep : step rules c cs o with
      | blank more =>
        rw [hstep] at hpassed
        have hahead := h.ahead hpassed
        rw [Step.passed, behind_cons] at hahead
        exact ih hahead (by simp at hturns ⊢; omega)
      | token t more =>
        rw [hstep] at hpassed
        have hahead := h.ahead hpassed
        rw [Step.passed, behind_cons] at hahead
        exact ⟨_, rfl, hahead⟩
      | failed e passed =>
        rw [hstep] at hpassed
        exact ⟨_, rfl, h.ahead hpassed⟩

theorem At.ask? (h : p.At text s) (call : Call) :
    ∃ q, p.ask? call = some ((s.ask call).1, q) ∧ q.At text (s.ask call).2 := by
  obtain ⟨q, hnext, hq⟩ := h.next? (Nat.lt_succ_self s.rest.length)
  have hleft : p.text.length - p.position = s.rest.length := h.text_eq ▸ h.length_eq
  cases call with
  | next =>
    rw [Pointer.ask?, hleft]
    exact ⟨q, hnext, hq⟩
  | nextOrClose =>
    rw [Pointer.ask?, hleft, hnext, ask]
    cases hanswer : (s.next rules).1 with
    | ok token =>
      rw [nextOrClose_of_ok hanswer, hanswer]
      exact ⟨q, rfl, hq⟩
    | error e =>
      rw [nextOrClose_of_error hanswer]
      exact ⟨_, rfl, hq.closed⟩

/-- The pointer and the scanner stay together. -/
theorem At.after? (h : p.At text s) (calls : List Call) :
    ∃ q, p.after? calls = some q ∧ q.At text (s.after calls) := by
  induction calls generalizing p s with
  | nil => exact ⟨p, rfl, h⟩
  | cons call calls ih =>
    obtain ⟨q, hask, hq⟩ := h.ask? call
    rw [Pointer.after?, hask]
    exact ih hq

end Turns

end Pointer

/-- By positions a rule finds what it finds along the text. It takes at least one character and none
that is not there, and two or more if the lexeme is trimmed then. With a pointer in the text, a turn
of the loop takes no slice that is out of range, and goes on towards the end unless it is the last
one. So a pointer that is asked for tokens, in any way and any number of times, always comes to an
answer, which is the one of a scanner, and stays in the text. -/
theorem pointer_of_calls :
    (∀ rule ∈ rules, ∀ c behind o,
      rule.form.scan (c :: behind) o = Extent.scanned o (rule.form.extent c behind)) ∧
    (∀ rule ∈ rules, ∀ cs o n, rule.form.scan cs o = .ok (some n) →
      1 ≤ n ∧ n ≤ cs.length ∧
      ∀ kind conversion, rule.action = .emit kind conversion → conversion.Trims → 2 ≤ n) ∧
    (∀ p : Pointer, p.position ≤ p.text.length → ∃ turn, p.turn? = some turn ∧
      ∀ q, turn = .again q →
        q.text = p.text ∧ p.position < q.position ∧ q.position ≤ p.text.length) ∧
    ∀ text calls, ∃ p, (Pointer.ofText text).after? calls = some p ∧
      p.At text.toList ((Scanner.ofText text).after calls) ∧
      ∀ call, ∃ q, p.ask? call = some ((((Scanner.ofText text).after calls).ask call).1, q) ∧
        q.At text.toList (((Scanner.ofText text).after calls).ask call).2 := by
  refine ⟨fun rule hr => Form.scan_cons (ne_comment_newline hr), ?_, ?_, ?_⟩
  · intro rule hr cs o n hscan
    have hform := ne_comment_newline hr
    obtain ⟨c, run, behind, rfl, rfl, hm⟩ := Form.exists_matches_of_scan hform hscan
    refine ⟨by omega, by simp; omega, ?_⟩
    intro kind conversion haction htrims
    have hrun := List.length_pos_iff.mpr (ne_nil_of_trims hr haction htrims hm)
    omega
  · intro p hp
    have hat : p.At p.text p.scanner := ⟨rfl, hp, rfl⟩
    obtain ⟨turn, hturn, hagain⟩ := hat.exists_turn
    refine ⟨turn, hturn, ?_⟩
    intro q hq
    obtain ⟨hlt, hqat⟩ := hagain q hq
    exact ⟨hqat.text_eq, hlt, hqat.position_le⟩
  · intro text calls
    have hstart : (Pointer.ofText text).At text.toList (Scanner.ofText text) :=
      ⟨rfl, Nat.zero_le _, rfl⟩
    obtain ⟨p, hafter, hp⟩ := hstart.after? calls
    exact ⟨p, hafter, hp, hp.ask?⟩

/-- A variable, and then a quote and a backslash with nothing behind it. -/
def danglingText : String := "$a\"\\"

theorem danglingText_pointer :
    ((Form.quoted '"').scan ['"', '\\', '"', '"', ';'] 0 = .ok (some 4) ∧
      4 ≤ ['"', '\\', '"', '"', ';'].length ∧ 2 ≤ 4) ∧
    (∃ q, Pointer.turn? ⟨[' ', '"'], 0⟩ = some (.again q) ∧ 0 < q.position ∧ q.position ≤ 2) ∧
    ∃ p q, (Pointer.ofText danglingText).after? [.next, .next] = some p ∧
      p.At danglingText.toList ⟨['"', '\\'], 2⟩ ∧
      p.ask? .nextOrClose = some (.error (.unterminatedString '"' 2), q) ∧
      q.At danglingText.toList ⟨[], 4⟩ := by
  obtain ⟨-, hscans, hturns, hcalls⟩ := pointer_of_calls
  have hscan : (Form.quoted '"').scan ['"', '\\', '"', '"', ';'] 0 = .ok (some 4) := by
    decide +kernel
  have hafter : (Scanner.ofText danglingText).after [.next, .next] = ⟨['"', '\\'], 2⟩ := by
    decide +kernel
  have hask : ask ⟨['"', '\\'], 2⟩ .nextOrClose =
      (.error (.unterminatedString '"' 2), ⟨[], 4⟩) := by decide +kernel
  have hr : (⟨.quoted '"', .emit .text .unquoted⟩ : Rule) ∈ rules := by simp [rules]
  obtain ⟨-, hlength, htrimmed⟩ := hscans _ hr _ 0 4 hscan
  refine ⟨⟨hscan, hlength, htrimmed _ _ rfl trivial⟩, ?_, ?_⟩
  · obtain ⟨turn, hturn, hagain⟩ := hturns ⟨[' ', '"'], 0⟩ (by decide)
    have hblank : Pointer.turn? ⟨[' ', '"'], 0⟩ = some (.again ⟨[' ', '"'], 1⟩) := rfl
    obtain rfl := Option.some.inj (hturn.symm.trans hblank)
    exact ⟨_, hblank, (hagain _ rfl).2⟩
  · obtain ⟨p, hp, hat, hasks⟩ := hcalls danglingText [.next, .next]
    obtain ⟨q, hq, hqat⟩ := hasks .nextOrClose
    rw [hafter] at hat hq hqat
    rw [hask] at hq hqat
    exact ⟨p, q, hp, hat, hq, hqat⟩

end Tally
