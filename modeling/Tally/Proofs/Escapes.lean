import Tally.Proofs.RoundTrip

/-! Escapes in text literals. The scanner that looks for the closing quote, the removal of the
escapes and the showing of a text go by the same units: a character that stands for itself, or a
backslash with the character behind it. -/

namespace Tally

open Lexeme

namespace Lexeme.LiteralChar

/-- A backslash, if there is one, is in front of a quote or of another backslash. -/
def Minimal : LiteralChar → Prop
  | plain _ => True
  | escaped c => c = '"' ∨ c = '\\'

variable {delimiter : Char} {u : LiteralChar} {body units : List LiteralChar}

/-- There is one way to take a body for units. -/
theorem written_inj (h : ∀ u ∈ body, u.Valid delimiter) (hu : ∀ u ∈ units, u.Valid delimiter)
    (heq : written units = written body) : units = body := by
  induction body generalizing units with
  | nil =>
    cases units with
    | nil => rfl
    | cons v units => cases v <;> simp [written] at heq
  | cons u body ih =>
    obtain ⟨hfirst, hbody⟩ := List.forall_mem_cons.mp h
    cases units with
    | nil => cases u <;> simp [written] at heq
    | cons v units =>
      obtain ⟨hv, hunits⟩ := List.forall_mem_cons.mp hu
      cases u <;> cases v <;> simp only [written, List.cons.injEq] at heq
      case plain.plain c d =>
        obtain ⟨rfl, hrest⟩ := heq
        rw [ih hbody hunits hrest]
      case escaped.escaped c d =>
        obtain ⟨-, rfl, hrest⟩ := heq
        rw [ih hbody hunits hrest]
      case plain.escaped c d => exact absurd heq.1.symm hfirst.1
      case escaped.plain c d => exact absurd heq.1 hv.1

/-- No body ends in a backslash that takes nothing with it: it would take the closing quote. -/
theorem written_ne_dangling (h : ∀ u ∈ body, u.Valid '"') (hu : ∀ u ∈ units, u.Valid '"') :
    written body ≠ written units ++ ['\\'] := by
  intro heq
  have hbody := @throughClosing_written '"' ['"'] body h
  have hunits := @throughClosing_written '"' ['\\', '"'] units hu
  rw [heq, List.append_assoc, List.cons_append, List.nil_append, hunits] at hbody
  simp [throughClosing] at hbody

theorem shown_char_iff (h : u.Valid '"') : shown u.char = u ↔ u.Minimal := by
  cases u with
  | plain c => simp [char, shown, h.1, h.2, Minimal]
  | escaped c =>
    rw [char, shown, Minimal]
    split
    case isTrue hc => simp [hc]
    case isFalse hc => simp [hc]

end Lexeme.LiteralChar

open LiteralChar

/-- In front of any text these characters are scanned as one literal, and this is its value. -/
def Denotes (lexeme : List Char) (value : String) : Prop :=
  (∀ behind, ∃ rest, lexeme = '"' :: rest ∧
    (Form.quoted '"').extent '"' (rest ++ behind) = some (.closed rest.length)) ∧
  Conversion.unquoted.payload? lexeme = some (.text value)

section Literals

variable {body : List LiteralChar} {lexeme cs : List Char} {value : String} {more : Nat}

theorem denotes_written (h : ∀ u ∈ body, u.Valid '"') :
    Denotes ('"' :: (written body ++ ['"'])) (String.ofList (body.map char)) := by
  refine ⟨fun behind => ⟨_, rfl, ?_⟩, ?_⟩
  · have hthrough := @throughClosing_append '"' behind body (by decide) h
    simp [Form.extent, hthrough]
  · simp [Conversion.payload?, unescape_written h]

theorem Denotes.unescape_eq (h : Denotes lexeme value) :
    unescape lexeme.tail.dropLast = value.toList := by
  have hvalue := h.2
  simp only [Conversion.payload?, Option.some.injEq, Payload.text.injEq] at hvalue
  rw [← hvalue, String.toList_ofList]

theorem denotes_shown (value : String) : Denotes (Expr.text value).shown.toList value := by
  have hdenotes := denotes_written (valid_of_shown value)
  have hchars : char ∘ shown = id := funext char_shown
  rw [List.map_map, hchars, List.map_id, String.ofList_toList] at hdenotes
  rw [Expr.shown, toList_literal]
  exact hdenotes

theorem shown_eq_iff (h : ∀ u ∈ body, u.Valid '"') :
    (Expr.text (String.ofList (body.map char))).shown.toList = '"' :: (written body ++ ['"']) ↔
      ∀ u ∈ body, u.Minimal := by
  calc
    _ ↔ written ((body.map char).map shown) = written body := by
      rw [Expr.shown, toList_literal, String.toList_ofList, List.cons_inj_right,
        List.append_cancel_right_eq]
    _ ↔ (body.map char).map shown = body := by
      refine ⟨written_inj h ?_, congrArg written⟩
      rw [← @String.toList_ofList (body.map char)]
      exact valid_of_shown _
    _ ↔ body.map (fun u => shown u.char) = body.map id := by
      rw [List.map_map, List.map_id]
      rfl
    _ ↔ ∀ u ∈ body, shown u.char = u := List.map_inj_left
    _ ↔ ∀ u ∈ body, u.Minimal := forall₂_congr fun u hu => shown_char_iff (h u hu)

theorem exists_units (h : (Form.quoted '"').extent '"' cs = some (.closed more)) :
    ∃ (body : List LiteralChar) (behind : List Char), (∀ u ∈ body, u.Valid '"') ∧
      cs = written body ++ '"' :: behind ∧ more = (written body).length + 1 := by
  obtain ⟨run, behind, rfl, rfl, -, body, hbody, heq⟩ := Form.matches_of_extent h
  obtain rfl := (List.cons.inj heq).2
  exact ⟨body, behind, hbody, by simp, by simp⟩

end Literals

/-- What is scanned as a text literal is a quote, units and another quote, in one way only, and no
backslash is left over between the units and the closing quote. The value has one character for each
unit. Any value as it is shown is scanned as one literal for this value, in front of any text. So
the value of a literal that was scanned has a shown form that denotes the same value, and the
literal was that form itself exactly if it escapes nothing but quotes and backslashes. -/
theorem denotes_of_extent :
    (∀ cs more, (Form.quoted '"').extent '"' cs = some (.closed more) →
      ∃ body : List LiteralChar, (∀ u ∈ body, u.Valid '"') ∧
        ∃ behind, cs = written body ++ '"' :: behind ∧ more = (written body).length + 1 ∧
        (∀ units : List LiteralChar, (∀ u ∈ units, u.Valid '"') →
          (written units = written body → units = body) ∧
          written body ≠ written units ++ ['\\']) ∧
        unescape (written body) = body.map char ∧
        let lexeme := '"' :: cs.take more
        let value := String.ofList (unescape (written body))
        Denotes lexeme value ∧ Denotes (Expr.text value).shown.toList value ∧
        ((Expr.text value).shown.toList = lexeme ↔ ∀ u ∈ body, u.Minimal)) ∧
    ∀ value, Denotes (Expr.text value).shown.toList value ∧
      unescape (Expr.text value).shown.toList.tail.dropLast = value.toList := by
  refine ⟨fun cs more h => ?_, fun value => ⟨denotes_shown value, (denotes_shown value).unescape_eq⟩⟩
  obtain ⟨body, behind, hbody, rfl, rfl⟩ := exists_units h
  have htake : (written body ++ '"' :: behind).take ((written body).length + 1) =
      written body ++ ['"'] := by
    rw [List.take_length_add_append, List.take_succ_cons, List.take_zero]
  refine ⟨body, hbody, behind, rfl, rfl, fun units hunits => ?_, unescape_written hbody, ?_⟩
  · exact ⟨written_inj hbody hunits, written_ne_dangling hbody hunits⟩
  · rw [htake, unescape_written hbody]
    exact ⟨denotes_written hbody, denotes_shown _, shown_eq_iff hbody⟩

/-- Behind the opening quote come an escaped letter, an escaped backslash, an escaped quote and the
closing quote, and then more. -/
def escapedText : List Char := ['\\', 'a', '\\', '\\', '\\', '"', '"', '\\', '"']

theorem escapedText_denotes :
    (Form.quoted '"').extent '"' escapedText = some (.closed 7) ∧
    Denotes ('"' :: escapedText.take 7) "a\\\"" ∧
    (Expr.text "a\\\"").shown.toList = "\"a\\\\\\\"\"".toList ∧
    Denotes "\"a\\\\\\\"\"".toList "a\\\"" := by
  have hextent : (Form.quoted '"').extent '"' escapedText = some (.closed 7) := by decide
  obtain ⟨body, -, behind, hcs, hmore, hunits, hchars, hlexeme, -, -⟩ :=
    denotes_of_extent.1 escapedText 7 hextent
  have hbody : [LiteralChar.escaped 'a', .escaped '\\', .escaped '"'] = body := by
    refine (hunits _ (by simp [Valid])).1 ?_
    have hlength : (written body).length = 6 := by omega
    calc
      _ = escapedText.take 6 := rfl
      _ = (written body ++ '"' :: behind).take (written body).length := by rw [← hcs, hlength]
      _ = written body := List.take_left
  subst hbody
  have hshown : (Expr.text "a\\\"").shown.toList = "\"a\\\\\\\"\"".toList := by decide
  exact ⟨hextent, hlexeme, hshown, hshown ▸ (denotes_of_extent.2 "a\\\"").1⟩

end Tally
