import Mathlib.Tactic.Ring
import Tally.Proofs.Layout
import Tally.Proofs.RoundTrip

/-! Numerals. All digits in a row are read as one integer, whose value counts every digit by its
place, and only a value beyond the largest integer is refused. -/

namespace Tally

open Lexeme Segment

/-- The value of some digits, of which the last one counts ones. -/
def placeValue : List Char → Nat
  | [] => 0
  | c :: cs => (c.toNat - '0'.toNat) * 10 ^ cs.length + placeValue cs

section Values

variable {digits behind : List Char}

/-- Digits taken one after the other come to the same value as by their places. -/
theorem ofDigitChars_eq (digits : List Char) (k : Nat) :
    Nat.ofDigitChars 10 digits k = k * 10 ^ digits.length + placeValue digits := by
  induction digits generalizing k with
  | nil => simp [placeValue]
  | cons c cs ih =>
    rw [Nat.ofDigitChars_cons, ih, placeValue, List.length_cons, Nat.pow_succ]
    ring

theorem ofDigitChars_zero (digits : List Char) :
    Nat.ofDigitChars 10 digits 0 = placeValue digits := by
  rw [ofDigitChars_eq, Nat.zero_mul, Nat.zero_add]

/-- Zeros in front do not count, however many there are. -/
theorem placeValue_zeros (k : Nat) (digits : List Char) :
    placeValue (List.replicate k '0' ++ digits) = placeValue digits := by
  induction k with
  | zero => rfl
  | succ k ih => simp [List.replicate_succ, placeValue, ih]

theorem placeValue_toDigits (n : Nat) : placeValue (Nat.toDigits 10 n) = n := by
  rw [← ofDigitChars_zero]
  exact Nat.ofDigitChars_ten_toDigits

end Values

namespace Segment

variable {s : Segment} {digits behind : List Char} {kind : Kind} {payload : Payload}

/-- The next token is that of the segment in front, if it has one. -/
theorem Fits.next_eq (h : s.Fits behind) (hs : s.meaning = some (kind, payload)) (o : Nat) :
    Scanner.next rules ⟨s.text ++ behind, o⟩ =
      (.ok (some ⟨kind, payload, o⟩), ⟨behind, o + s.text.length⟩) := by
  obtain ⟨c, cs, htext, hstep⟩ := h.step_eq
  have hstep := hstep o
  rw [step, hs, htext, List.tail_cons] at hstep
  rw [htext, List.cons_append, Scanner.next, hstep]
  simp [Nat.add_comm 1]

theorem TooLarge.next_eq (h : TooLarge digits behind) (o : Nat) :
    Scanner.next rules ⟨digits ++ behind, o⟩ =
      (.error (.integerOutOfRange (String.ofList digits) o), ⟨behind, o + digits.length⟩) := by
  obtain ⟨c, cs, rfl⟩ := List.exists_cons_of_ne_nil h.run.ne_nil
  rw [List.cons_append, Scanner.next, h.step_eq]
  simp [Nat.add_comm 1]

end Segment

section Numbers

variable {digits behind : List Char} {n : Int64}

/-- The number in front of a text is its first token, and the other tokens are those behind it. -/
theorem reads_number (h : MaximalRun Digit digits behind) (hn : n.toInt = placeValue digits)
    (o : Nat) :
    Scanner.next rules ⟨digits ++ behind, o⟩ =
        (.ok (some ⟨.integer, .integer n, o⟩), ⟨behind, o + digits.length⟩) ∧
      Scanner.tokens rules ⟨digits ++ behind, o⟩ =
        (Scanner.tokens rules ⟨behind, o + digits.length⟩).map
          (⟨.integer, .integer n, o⟩ :: ·) := by
  have hlt := n.toInt_lt
  have hvalue : Nat.ofDigitChars 10 digits 0 < 2 ^ 63 := by
    rw [ofDigitChars_zero]
    omega
  have hpayload : Int64.ofNat (Nat.ofDigitChars 10 digits 0) = n := by
    rw [← Int64.toInt_inj, Int64.toInt_ofNat_of_lt hvalue, ofDigitChars_zero, hn]
  have hfits := Fits.number h hvalue
  rw [hpayload] at hfits
  exact ⟨hfits.next_eq rfl o, hfits.tokens_eq o⟩

theorem tooLarge_of_placeValue (h : MaximalRun Digit digits behind)
    (hlarge : 2 ^ 63 ≤ placeValue digits) : TooLarge digits behind :=
  ⟨h, by rwa [ofDigitChars_zero]⟩

theorem ofText_shown_integer (h : 0 ≤ n.toInt) :
    Token.ofText (Expr.integer n).shown = .ok [⟨.integer, .integer n, 0⟩] := by
  have hrun : MaximalRun Digit (Nat.toDigits 10 n.toInt.toNat) [] :=
    ⟨Nat.toDigits_ne_nil, fun c => digit_of_mem_toDigits, by simp⟩
  have hn : n.toInt = placeValue (Nat.toDigits 10 n.toInt.toNat) := by
    rw [placeValue_toDigits, Int.toNat_of_nonneg h]
  have htokens := (reads_number hrun hn 0).2
  rw [Token.ofText, Scanner.ofText, Expr.shown, toList_toString h,
    ← List.append_nil (Nat.toDigits _ _), htokens, Scanner.tokens_nil]
  rfl

end Numbers

/-- All digits in a row, up to another character or the end of the text, are one integer with the
value of these digits by their places, or a number out of range if the value is beyond the largest
integer. Zeros in front do not count for this. Every integer that is not negative is read back from
its shown text. -/
theorem integer_of_digits :
    (∀ k digits, placeValue (List.replicate k '0' ++ digits) = placeValue digits) ∧
    (∀ digits behind o, digits ≠ [] → (∀ c ∈ digits, Digit c) → (∀ c ∈ behind.head?, ¬ Digit c) →
      (placeValue digits ≤ 2 ^ 63 - 1 → ∃ n : Int64, n.toInt = placeValue digits ∧
        Scanner.next rules ⟨digits ++ behind, o⟩ =
          (.ok (some ⟨.integer, .integer n, o⟩), ⟨behind, o + digits.length⟩) ∧
        Scanner.tokens rules ⟨digits ++ behind, o⟩ =
          (Scanner.tokens rules ⟨behind, o + digits.length⟩).map
            (⟨.integer, .integer n, o⟩ :: ·)) ∧
      (2 ^ 63 - 1 < placeValue digits →
        Scanner.next rules ⟨digits ++ behind, o⟩ =
          (.error (.integerOutOfRange (String.ofList digits) o), ⟨behind, o + digits.length⟩) ∧
        Scanner.tokens rules ⟨digits ++ behind, o⟩ =
          .error (.integerOutOfRange (String.ofList digits) o))) ∧
    ∀ n : Int64, 0 ≤ n.toInt →
      Token.ofText (Expr.integer n).shown = .ok [⟨.integer, .integer n, 0⟩] := by
  refine ⟨placeValue_zeros, ?_, fun n => ofText_shown_integer⟩
  intro digits behind o hne hdigits hbehind
  have hrun : MaximalRun Digit digits behind := ⟨hne, hdigits, hbehind⟩
  constructor
  · intro hle
    have hn : (Int64.ofNat (placeValue digits)).toInt = placeValue digits :=
      Int64.toInt_ofNat_of_lt (by omega)
    exact ⟨_, hn, reads_number hrun hn o⟩
  · intro hlt
    have hlarge : TooLarge digits behind := tooLarge_of_placeValue hrun (by omega)
    exact ⟨hlarge.next_eq o, hlarge.tokens_eq o⟩

/-- The largest integer, and the number behind it. -/
theorem largest_of_digits :
    (∃ n : Int64, n.toInt = 2 ^ 63 - 1 ∧
      Scanner.next rules ⟨List.replicate 50 '0' ++ "9223372036854775807".toList ++ ['x'], 3⟩ =
        (.ok (some ⟨.integer, .integer n, 3⟩), ⟨['x'], 72⟩)) ∧
    Scanner.tokens rules ⟨"09223372036854775808".toList ++ ['$'], 3⟩ =
      .error (.integerOutOfRange "09223372036854775808" 3) ∧
    Token.ofText "9223372036854775807" = .ok [⟨.integer, .integer Int64.maxValue, 0⟩] := by
  obtain ⟨hfront, hdigits, hshown⟩ := integer_of_digits
  have hzeros :
      placeValue (List.replicate 50 '0' ++ "9223372036854775807".toList) = 2 ^ 63 - 1 := by
    rw [hfront]
    decide +kernel
  obtain ⟨n, hn, hnext, -⟩ := (hdigits (List.replicate 50 '0' ++ "9223372036854775807".toList) ['x']
    3 (by simp) (by simp [Digit]) (by simp [Digit])).1 (by rw [hzeros])
  obtain ⟨-, htokens⟩ := (hdigits "09223372036854775808".toList ['$'] 3 (by simp) (by simp [Digit])
    (by simp [Digit])).2 (by decide +kernel)
  exact ⟨⟨n, by rw [hn, hzeros]; rfl, hnext⟩, htokens, hshown Int64.maxValue (by decide)⟩

end Tally
