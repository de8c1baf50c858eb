import Tally.Proofs.WellFormed

/-! Programs as they are shown. A well-formed program is read back from its shown text without
the parentheses. -/

namespace Tally

open Lexeme

mutual

/-- The text without the parentheses that are outside its text literals. -/
def withoutParens : List Char → List Char
  | [] => []
  | c :: cs =>
    if c = '"' then c :: keepLiteral cs
    else if c = '(' ∨ c = ')' then withoutParens cs
    else c :: withoutParens cs

/-- As `withoutParens`, but from inside a text literal. -/
def keepLiteral : List Char → List Char
  | [] => []
  | '\\' :: c :: cs => '\\' :: c :: keepLiteral cs
  | c :: cs => if c = '"' then c :: withoutParens cs else c :: keepLiteral cs

end

/-- The statements as they are shown, one to a line, without their parentheses. -/
def Program.bareText (program : Program) : String :=
  String.ofList (withoutParens (String.intercalate "\n" (program.map Statement.shown)).toList)

section Parentheses

/-- Without its parentheses the first text is the second one, whatever follows. -/
def Sheds (text bare : List Char) : Prop :=
  ∀ behind, withoutParens (text ++ behind) = bare ++ withoutParens behind

variable {text others bare : List Char} {c : Char} {body : List LiteralChar} {value : String}

theorem Sheds.append {more : List Char} (h : Sheds text bare) (ho : Sheds others more) :
    Sheds (text ++ others) (bare ++ more) := by
  intro behind
  rw [List.append_assoc, h, ho, List.append_assoc]

theorem sheds_parens (h : c = '(' ∨ c = ')') : Sheds [c] [] := by
  intro behind
  rcases h with rfl | rfl <;> simp [withoutParens]

theorem sheds_plain (h : ∀ c ∈ text, c ∉ ['"', '(', ')']) : Sheds text text := by
  intro behind
  induction text with
  | nil => rfl
  | cons c text ih =>
    obtain ⟨hc, htext⟩ := List.forall_mem_cons.mp h
    simp only [List.mem_cons, List.not_mem_nil, or_false, not_or] at hc
    simp [withoutParens, hc, ih htext]

theorem sheds_of_accepted {accepts : Char → Prop} (ha : ∀ c ∈ ['"', '(', ')'], ¬ accepts c)
    (h : ∀ c ∈ text, accepts c) : Sheds text text := by
  apply sheds_plain
  intro c hc hmem
  exact ha c hmem (h c hc)

theorem keepLiteral_written (h : ∀ u ∈ body, u.Valid '"') (behind : List Char) :
    keepLiteral (LiteralChar.written body ++ '"' :: behind) =
      LiteralChar.written body ++ '"' :: withoutParens behind := by
  induction body with
  | nil => simp [LiteralChar.written, keepLiteral]
  | cons u body ih =>
    obtain ⟨hu, hbody⟩ := List.forall_mem_cons.mp h
    cases u with
    | plain c =>
      obtain ⟨hback, hclose⟩ := hu
      have hkeep := ih hbody
      simp only [LiteralChar.written, List.cons_append]
      rw [keepLiteral, if_neg hclose, hkeep]
      -- a plain character does not take the next one with it
      intro d ds hd
      exact (hback hd).elim
    | escaped c => simp [LiteralChar.written, keepLiteral, ih hbody]

theorem sheds_intercalate {α : Type} {xs : List α} {f g : α → List Char} {sep : List Char}
    (hsep : Sheds sep sep) (h : ∀ x ∈ xs, Sheds (f x) (g x)) :
    Sheds (List.intercalate sep (xs.map f)) (List.intercalate sep (xs.map g)) := by
  induction xs with
  | nil => exact fun _ => rfl
  | cons x xs ih =>
    obtain ⟨hx, hxs⟩ := List.forall_mem_cons.mp h
    cases xs with
    | nil => simpa using hx
    | cons y ys =>
      simp only [List.map_cons, List.intercalate_cons_cons]
      exact (hx.append hsep).append (ih hxs)

end Parentheses

namespace Lexeme.LiteralChar

/-- A character as it stands in a shown literal. -/
def shown (c : Char) : LiteralChar := if c = '"' ∨ c = '\\' then .escaped c else .plain c

theorem valid_shown (c : Char) : (shown c).Valid '"' := by
  rw [shown]
  split
  case isTrue => trivial
  case isFalse h => exact ⟨fun hc => h (.inr hc), fun hc => h (.inl hc)⟩

theorem char_shown (c : Char) : (shown c).char = c := by
  rw [shown]
  split <;> rfl

theorem written_shown (cs : List Char) :
    written (cs.map shown) = cs.flatMap fun c => if c = '"' ∨ c = '\\' then ['\\', c] else [c] := by
  induction cs with
  | nil => rfl
  | cons c cs ih =>
    rw [List.map_cons, List.flatMap_cons, ← ih, shown]
    split <;> rfl

end Lexeme.LiteralChar

namespace Expr

/-- The shown tree without its parentheses. -/
def bare : Expr → List Char
  | binary left op right => left.bare ++ ' ' :: op.symbol :: ' ' :: right.bare
  | e => e.shown.toList

end Expr

namespace Statement

def bare : Statement → List Char
  | assign name value => '$' :: name.toList ++ ' ' :: '=' :: ' ' :: value.bare
  | print items =>
    ['P', 'R', 'I', 'N', 'T', ' '] ++ List.intercalate [',', ' '] (items.map Expr.bare)
  | unsupported directive => directive.toList

end Statement

section Display

variable {behind : List Char} {c : Char} {name value : String} {e : Expr} {s : Statement}

theorem toList_literal (value : String) : (Expr.literal value).toList =
    '"' :: (LiteralChar.written (value.toList.map LiteralChar.shown) ++ ['"']) := by
  simp [Expr.literal, LiteralChar.written_shown]

theorem valid_of_shown (value : String) :
    ∀ u ∈ value.toList.map LiteralChar.shown, u.Valid '"' := by
  intro u hu
  obtain ⟨c, -, rfl⟩ := List.mem_map.mp hu
  exact LiteralChar.valid_shown c

theorem sheds_literal (value : String) :
    Sheds (Expr.literal value).toList (Expr.literal value).toList := by
  intro behind
  rw [toList_literal]
  simp [withoutParens, keepLiteral_written (valid_of_shown value)]

theorem IsName.sheds (h : IsName name) : Sheds name.toList name.toList :=
  sheds_of_accepted (by simp [NameChar]) h.2

theorem toList_toString {n : Int} (h : 0 ≤ n) : (toString n).toList = Nat.toDigits 10 n.toNat := by
  obtain ⟨k, rfl⟩ := Int.eq_ofNat_of_zero_le h
  simp [toString, Int.repr]

theorem Op.sheds (op : Op) : Sheds [op.symbol] [op.symbol] :=
  sheds_plain (by cases op <;> simp [symbol])

theorem Expr.sheds_shown (h : e.Writable) : Sheds e.shown.toList e.bare := by
  induction e with
  | var name =>
    have hmark : Sheds ['$'] ['$'] := sheds_plain (by simp)
    simpa [Expr.bare, Expr.shown] using hmark.append h.sheds
  | text value => exact sheds_literal value
  | integer value =>
    have hdigit : ∀ c ∈ ['"', '(', ')'], ¬ Digit c := by simp [Digit]
    apply sheds_of_accepted hdigit
    intro c hc
    rw [Expr.shown, toList_toString h] at hc
    exact digit_of_mem_toDigits hc
  | binary left op right ihl ihr =>
    have hgap : Sheds [' '] [' '] := sheds_plain (by simp)
    have hparts := (((sheds_parens (.inl rfl)).append (ihl h.1)).append
      ((hgap.append op.sheds).append hgap)).append ((ihr h.2).append (sheds_parens (.inr rfl)))
    simpa [Expr.shown, Expr.bare] using hparts

theorem Statement.sheds_shown (h : s.WellFormed) : Sheds s.shown.toList s.bare := by
  cases s with
  | assign name value =>
    have hmark : Sheds ['$'] ['$'] := sheds_plain (by simp)
    have hequal : Sheds " = ".toList " = ".toList := sheds_plain (by simp)
    have hparts := (hmark.append h.1.sheds).append (hequal.append (Expr.sheds_shown h.2.1))
    simpa [shown, bare] using hparts
  | print items =>
    have hword : Sheds "PRINT ".toList "PRINT ".toList := sheds_plain (by simp)
    have hlist : Sheds (List.intercalate [',', ' '] (items.map fun e => e.shown.toList))
        (List.intercalate [',', ' '] (items.map Expr.bare)) :=
      sheds_intercalate (sheds_plain (by simp)) fun e he => Expr.sheds_shown (h.2 e he).1
    obtain ⟨e, es, rfl⟩ := List.exists_cons_of_ne_nil h.1
    have hparts := hword.append hlist
    simpa [shown, bare, Function.comp_def] using hparts
  | unsupported directive =>
    obtain ⟨name, hname, rfl⟩ := h
    have hmark : Sheds ['@'] ['@'] := sheds_plain (by simp)
    simpa [shown, bare] using hmark.append hname.sheds

/-- Nothing that a name or a number would go on with. -/
def Clear (behind : List Char) : Prop := ∀ c ∈ behind.head?, ¬ NameChar c ∧ ¬ Digit c

theorem IsName.maximalRun (h : IsName name) (hb : Clear behind) :
    MaximalRun NameChar name.toList behind :=
  ⟨by simpa using h.1, h.2, fun c hc => (hb c hc).1⟩

theorem spells_integer {n : Int64} (h : 0 ≤ n.toInt) (hb : Clear behind) :
    Spells (toString n.toInt).toList [(.integer, some (.integer n))] behind := by
  have hlt := n.toInt_lt
  have hvalue : Nat.ofDigitChars 10 (Nat.toDigits 10 n.toInt.toNat) 0 = n.toInt.toNat :=
    Nat.ofDigitChars_ten_toDigits
  have hn : Int64.ofNat n.toInt.toNat = n := by
    rw [← Int64.toInt_inj, Int64.toInt_ofNat_of_lt (by omega)]
    omega
  have hrun : MaximalRun Digit (Nat.toDigits 10 n.toInt.toNat) behind :=
    ⟨Nat.toDigits_ne_nil, fun c => digit_of_mem_toDigits, fun c hc => (hb c hc).2⟩
  have hspells := spells_number hrun (by omega)
  rwa [hvalue, hn, ← toList_toString h] at hspells

/-- No tree begins with a blank. -/
theorem Expr.exists_bare (h : e.Writable) : ∃ c cs, e.bare = c :: cs ∧ ¬ Blank c := by
  induction e with
  | var name => exact ⟨'$', name.toList, by simp [Expr.bare, Expr.shown], by simp [Blank]⟩
  | text value => exact ⟨'"', _, toList_literal value, by simp [Blank]⟩
  | integer value =>
    obtain ⟨c, cs, hcs⟩ := List.exists_cons_of_ne_nil (@Nat.toDigits_ne_nil value.toInt.toNat 10)
    have hmem : c ∈ Nat.toDigits 10 value.toInt.toNat := hcs ▸ List.mem_cons_self
    have hdigit := digit_of_mem_toDigits hmem
    exact ⟨c, cs, by rw [← hcs]; exact toList_toString h, not_blank_of_digit hdigit⟩
  | binary left op right ihl ihr =>
    obtain ⟨c, cs, hcs, hc⟩ := ihl h.1
    exact ⟨c, _, by rw [Expr.bare, hcs, List.cons_append], hc⟩

theorem spells_space (h : e.Writable) : Spells [' '] [] (e.bare ++ behind) := by
  obtain ⟨c, cs, hcs, hc⟩ := e.exists_bare h
  exact spells_gap (by simp [Blank]) (by simpa [hcs] using hc)

theorem spells_shown_literal (value : String) :
    Spells (Expr.literal value).toList [(.text, some (.text value))] behind := by
  have hchars : (value.toList.map LiteralChar.shown).map LiteralChar.char = value.toList := by
    simp [Function.comp_def, LiteralChar.char_shown]
  have hspells := @spells_literal behind _ (valid_of_shown value)
  rwa [hchars, String.ofList_toList, ← toList_literal] at hspells

/-- A tree without its parentheses spells its contents. -/
theorem Expr.spells_bare (h : e.Writable) (hb : Clear behind) :
    Spells e.bare e.contents behind := by
  induction e generalizing behind with
  | var name => simpa [Expr.bare, Expr.shown, Expr.contents] using spells_var (h.maximalRun hb)
  | text value => exact spells_shown_literal value
  | integer value => exact spells_integer h hb
  | binary left op right ihl ihr =>
    have hspace : Spells [' '] [] (op.symbol :: ' ' :: right.bare ++ behind) :=
      spells_gap (by simp [Blank]) (by cases op <;> simp [Op.symbol, Blank])
    have hop : Spells [op.symbol] [(op.kind, none)] (' ' :: right.bare ++ behind) := spells_op op
    have hclear : Clear (' ' :: op.symbol :: ' ' :: right.bare ++ behind) := by
      simp [Clear, NameChar, Digit]
    have hparts := (ihl h.1 hclear).append
      (hspace.append (hop.append ((spells_space h.2).append (ihr h.2 hb))))
    simpa [Expr.bare, Expr.contents] using hparts

theorem exists_intercalate {α : Type} (sep x : List α) (xs : List (List α)) :
    ∃ more, List.intercalate sep (x :: xs) = x ++ more := by
  cases xs with
  | nil => exact ⟨[], by simp⟩
  | cons y ys => exact ⟨_, by rw [List.intercalate_cons_cons, List.append_assoc]⟩

theorem spells_intercalate {α : Type} {xs : List α} {f : α → List Char}
    {g : α → List (Kind × Option Payload)} {sep : List Char} {cs : List (Kind × Option Payload)}
    (hf : ∀ x ∈ xs, ∀ behind, Clear behind → Spells (f x) (g x) behind)
    (hsep : ∀ x ∈ xs, ∀ behind, Spells sep cs (f x ++ behind))
    (hclear : ∀ behind, Clear (sep ++ behind)) (hb : Clear behind) :
    Spells (List.intercalate sep (xs.map f)) (List.intercalate cs (xs.map g)) behind := by
  induction xs with
  | nil => exact spells_nil
  | cons x xs ih =>
    obtain ⟨hx, hxs⟩ := List.forall_mem_cons.mp hf
    obtain ⟨-, hseps⟩ := List.forall_mem_cons.mp hsep
    cases xs with
    | nil => simpa using hx behind hb
    | cons y ys =>
      obtain ⟨more, hmore⟩ := exists_intercalate sep (f y) (ys.map f)
      have hgap := hseps y (by simp) (more ++ behind)
      rw [← List.append_assoc, ← hmore] at hgap
      have htail := hgap.append (ih hxs hseps)
      have hhead := hx _ (hclear (List.intercalate sep (f y :: ys.map f) ++ behind))
      rw [← List.append_assoc] at hhead
      simpa [List.intercalate_cons_cons] using hhead.append htail

theorem Statement.spells_bare (h : s.WellFormed) (hb : Clear behind) :
    Spells s.bare s.contents behind := by
  cases s with
  | assign name value =>
    obtain ⟨hname, hvalue, -⟩ := h
    have hclear : Clear (' ' :: '=' :: ' ' :: value.bare ++ behind) := by
      simp [Clear, NameChar, Digit]
    have hspace : Spells [' '] [] ('=' :: ' ' :: value.bare ++ behind) :=
      spells_gap (by simp [Blank]) (by simp [Blank])
    have hequal : Spells ['='] [(.equal, none)] (' ' :: value.bare ++ behind) :=
      spells_symbol (by simp [symbols])
    have hparts := (spells_var (hname.maximalRun hclear)).append (hspace.append
      (hequal.append ((spells_space hvalue).append (Expr.spells_bare hvalue hb))))
    simpa [bare, contents] using hparts
  | print items =>
    obtain ⟨hne, hitems⟩ := h
    have hcomma : ∀ e ∈ items, ∀ behind, Spells [',', ' '] [(.comma, none)] (e.bare ++ behind) := by
      intro e he behind
      have hsymbol : Spells [','] [(.comma, none)] ([' '] ++ (e.bare ++ behind)) :=
        spells_symbol (by simp [symbols])
      exact hsymbol.append (spells_space (hitems e he).1)
    have hlist : Spells (List.intercalate [',', ' '] (items.map Expr.bare))
        (Expr.listContents items) behind :=
      spells_intercalate (fun e he _ => Expr.spells_bare (hitems e he).1) hcomma
        (by simp [Clear, NameChar, Digit]) hb
    obtain ⟨e, es, rfl⟩ := List.exists_cons_of_ne_nil hne
    obtain ⟨more, hmore⟩ := exists_intercalate [',', ' '] e.bare (es.map Expr.bare)
    have hspace := @spells_space (more ++ behind) _ (hitems e (by simp)).1
    rw [← List.append_assoc, ← hmore] at hspace
    have hparts := spells_print.append (hspace.append hlist)
    simpa [bare, contents] using hparts
  | unsupported directive =>
    obtain ⟨name, hname, rfl⟩ := h
    simpa [bare, contents] using spells_directive (hname.maximalRun hb)

theorem ofText_bareText {program : Program} (h : ∀ s ∈ program, s.WellFormed) :
    Program.ofText program.bareText = .ok program := by
  have hbare : withoutParens (String.intercalate "\n" (program.map Statement.shown)).toList =
      List.intercalate ['\n'] (program.map Statement.bare) := by
    have hsheds : Sheds (List.intercalate ['\n'] (program.map fun s => s.shown.toList))
        (List.intercalate ['\n'] (program.map Statement.bare)) :=
      sheds_intercalate (sheds_plain (by simp)) fun s hs => s.sheds_shown (h s hs)
    simpa [withoutParens, String.toList_intercalate, Function.comp_def] using hsheds []
  have hspells :
      Spells (List.intercalate ['\n'] (program.map Statement.bare)) program.contents [] :=
    spells_intercalate (fun s hs _ => s.spells_bare (h s hs))
      (fun _ _ _ => spells_symbol (by simp [symbols])) (by simp [Clear, NameChar, Digit])
      (by simp [Clear])
  rw [Program.bareText, hbare]
  exact Program.ofText_of_spells (fun s hs => Statement.canonical_of_wellFormed (h s hs)) hspells

end Display

/-- What is read from a text is well formed, and what is well formed is read from its bare
text. -/
theorem wellFormed_ofText_and_ofText_bareText :
    (∀ text program, Program.ofText text = .ok program → ∀ s ∈ program, s.WellFormed) ∧
    ∀ program : Program, (∀ s ∈ program, s.WellFormed) →
      Program.ofText program.bareText = .ok program := by
  constructor
  · intro text program h
    exact wellFormed_of_ofText h
  · intro program h
    exact ofText_bareText h

/-- `$a_b = "(" - 1 * 2`, `@LOOP` and `PRINT $a_b, "\")"`. -/
def sampleStatements : Program :=
  [.assign "a_b" (.binary (.text "(") .subtract (.binary (.integer 1) .multiply (.integer 2))),
   .unsupported "@LOOP", .print [.var "a_b", .text "\")"]]

theorem sampleStatements_read : (∀ s ∈ sampleStatements, s.WellFormed) ∧
    Program.ofText "$a_b = \"(\" - 1 * 2\n@LOOP\nPRINT $a_b, \"\\\")\"" = .ok sampleStatements := by
  have hname : IsName "a_b" := ⟨by decide, by simp [NameChar]⟩
  have hloop : IsName "LOOP" := ⟨by decide, by simp [NameChar]⟩
  have hwell : ∀ s ∈ sampleStatements, s.WellFormed := by
    intro s hs
    simp only [sampleStatements, List.mem_cons, List.not_mem_nil, or_false] at hs
    rcases hs with rfl | rfl | rfl
    · exact ⟨hname, by simp [Expr.Writable],
        by simp [Expr.Canonical, Expr.IsProduct, Expr.IsOperand]⟩
    · exact ⟨"LOOP", hloop, rfl⟩
    · exact ⟨by simp, by simp [Expr.Writable, hname, Expr.Canonical]⟩
  have hbare : sampleStatements.bareText =
      "$a_b = \"(\" - 1 * 2\n@LOOP\nPRINT $a_b, \"\\\")\"" := by decide
  have hread := wellFormed_ofText_and_ofText_bareText.2 sampleStatements hwell
  rw [hbare] at hread
  exact ⟨wellFormed_ofText_and_ofText_bareText.1 _ _ hread, hread⟩

end Tally
