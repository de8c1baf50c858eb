import Tally.Command.Response
import Tally.Proofs.RoundTrip

/-! Shown programs are unambiguous. The text in which the statements of a program are shown, one
behind the other, is that of no other program. -/

namespace Tally

open Lexeme

/-- All names in the tree can be written. Numbers, texts and shapes may be any. -/
def Expr.Named : Expr → Prop
  | var name => IsName name
  | text _ | integer _ => True
  | binary left _ right => left.Named ∧ right.Named

def Statement.Named : Statement → Prop
  | assign name value => IsName name ∧ value.Named
  | print items => ∀ e ∈ items, e.Named
  | unsupported directive => ∃ name, IsName name ∧ directive = "@" ++ name

/-- The statements as they are shown, each with a newline behind it. -/
def Program.shownText (program : Program) : String :=
  String.join (program.map fun s => s.shown ++ "\n")

section Words

variable {behind rest : List Char} {name other value text : String}

/-- A text begins with one maximal run only. -/
theorem Lexeme.MaximalRun.unique {accepts : Char → Prop} {run more : List Char}
    (h : MaximalRun accepts run behind) (ho : MaximalRun accepts more rest)
    (heq : run ++ behind = more ++ rest) : run = more ∧ behind = rest := by
  classical
  have hrun := @takeWhile_append_of_ended (accepts ·) run behind (by simpa using h.accepted)
    (by simpa using h.ended)
  have hmore := @takeWhile_append_of_ended (accepts ·) more rest (by simpa using ho.accepted)
    (by simpa using ho.ended)
  rw [heq, hmore] at hrun
  subst hrun
  exact ⟨rfl, List.append_cancel_left heq⟩

theorem IsName.append_inj (h : IsName name) (ho : IsName other) (hb : Clear behind)
    (hr : Clear rest) (heq : name.toList ++ behind = other.toList ++ rest) :
    name = other ∧ behind = rest := by
  obtain ⟨hname, hbehind⟩ := (h.maximalRun hb).unique (ho.maximalRun hr) heq
  exact ⟨String.toList_inj.mp hname, hbehind⟩

theorem maximalRun_toDigits (n : Nat) (hb : Clear behind) :
    MaximalRun Digit (Nat.toDigits 10 n) behind :=
  ⟨Nat.toDigits_ne_nil, fun _ => digit_of_mem_toDigits, fun c hc => (hb c hc).2⟩

theorem toDigits_append_inj {m n : Nat} (hb : Clear behind) (hr : Clear rest)
    (h : Nat.toDigits 10 m ++ behind = Nat.toDigits 10 n ++ rest) : m = n ∧ behind = rest := by
  obtain ⟨hdigits, hbehind⟩ := (maximalRun_toDigits m hb).unique (maximalRun_toDigits n hr) h
  refine ⟨?_, hbehind⟩
  calc
    m = Nat.ofDigitChars 10 (Nat.toDigits 10 m) 0 := Nat.ofDigitChars_ten_toDigits.symm
    _ = Nat.ofDigitChars 10 (Nat.toDigits 10 n) 0 := by rw [hdigits]
    _ = n := Nat.ofDigitChars_ten_toDigits

/-- A negative number has a sign in front of its digits. -/
theorem toList_toString_int (n : Int) : (toString n).toList =
    (if n < 0 then ['-'] else []) ++ Nat.toDigits 10 n.natAbs := by
  cases n <;> simp [toString, Int.repr]

theorem exists_toDigits (n : Nat) : ∃ c cs, Nat.toDigits 10 n = c :: cs ∧ Digit c := by
  obtain ⟨c, cs, hcs⟩ := List.exists_cons_of_ne_nil (@Nat.toDigits_ne_nil n 10)
  have hmem : c ∈ Nat.toDigits 10 n := hcs ▸ List.mem_cons_self
  exact ⟨c, cs, hcs, digit_of_mem_toDigits hmem⟩

theorem toDigits_ne_sign {n : Nat} (text : List Char) :
    Nat.toDigits 10 n ++ rest ≠ '-' :: text := by
  obtain ⟨c, cs, hcs, hc⟩ := exists_toDigits n
  rw [hcs, List.cons_append]
  rintro ⟨⟩
  exact absurd hc (by simp [Digit])

theorem toString_append_inj {m n : Int} (hb : Clear behind) (hr : Clear rest)
    (h : (toString m).toList ++ behind = (toString n).toList ++ rest) : m = n ∧ behind = rest := by
  rw [toList_toString_int, toList_toString_int, List.append_assoc, List.append_assoc] at h
  by_cases hm : m < 0 <;> by_cases hn : n < 0 <;> simp only [hm, hn, if_true, if_false,
    List.cons_append, List.nil_append] at h
  · obtain ⟨habs, hbehind⟩ := toDigits_append_inj hb hr (List.cons.inj h).2
    exact ⟨by omega, hbehind⟩
  · exact absurd h.symm (toDigits_ne_sign _)
  · exact absurd h (toDigits_ne_sign _)
  · obtain ⟨habs, hbehind⟩ := toDigits_append_inj hb hr h
    exact ⟨by omega, hbehind⟩

theorem literal_append (value : String) (behind : List Char) :
    (Expr.literal value).toList ++ behind =
      '"' :: (LiteralChar.written (value.toList.map LiteralChar.shown) ++ '"' :: behind) := by
  simp [toList_literal]

/-- A literal ends at its closing quote, whatever quotes and backslashes are in it. -/
theorem literal_append_inj
    (h : (Expr.literal value).toList ++ behind = (Expr.literal text).toList ++ rest) :
    value = text ∧ behind = rest := by
  rw [literal_append, literal_append] at h
  have hbody := (List.cons.inj h).2
  -- The quote that closes is found at the same length in both texts, so that they have the same
  -- body, and what is unescaped from it is the value.
  have hvalue := @throughClosing_append '"' behind _ (by decide) (valid_of_shown value)
  have htext := @throughClosing_append '"' rest _ (by decide) (valid_of_shown text)
  rw [hbody, htext] at hvalue
  have hlength := Nat.add_right_cancel (Option.some.inj hvalue)
  obtain ⟨hwritten, hbehind⟩ := List.append_inj hbody hlength.symm
  have hchars := congrArg unescape hwritten
  rw [unescape_written (valid_of_shown value), unescape_written (valid_of_shown text), List.map_map,
    List.map_map] at hchars
  have hid : LiteralChar.char ∘ LiteralChar.shown = id := funext LiteralChar.char_shown
  rw [hid, List.map_id, List.map_id] at hchars
  exact ⟨String.toList_inj.mp hchars, (List.cons.inj hbehind).2⟩

end Words

section Trees

variable {behind rest : List Char} {e d left right : Expr} {op : Op} {c : Char}

/-- The characters that a tree of the form begins with. -/
def Expr.Opens (c : Char) : Expr → Prop
  | var _ => c = '$'
  | text _ => c = '"'
  | integer _ => c = '-' ∨ Digit c
  | binary .. => c = '('

theorem Expr.opens_shown (e : Expr) : ∃ c cs, e.shown.toList = c :: cs ∧ e.Opens c := by
  cases e with
  | var name => exact ⟨'$', name.toList, by simp [Expr.shown], rfl⟩
  | text value => exact ⟨'"', _, toList_literal value, rfl⟩
  | integer n =>
    obtain ⟨c, cs, hcs, hc⟩ := exists_toDigits n.toInt.natAbs
    rw [Expr.shown, toList_toString_int, hcs]
    split
    · exact ⟨'-', c :: cs, rfl, .inl rfl⟩
    · exact ⟨c, cs, rfl, .inr hc⟩
  | binary left op right => exact ⟨'(', _, by simp [Expr.shown]; rfl, rfl⟩

/-- Texts of trees that begin with the same character are of trees of the same form. -/
theorem Expr.opens_same (h : e.shown.toList ++ behind = d.shown.toList ++ rest) :
    ∃ c, e.Opens c ∧ d.Opens c := by
  obtain ⟨c, cs, he, hc⟩ := e.opens_shown
  obtain ⟨b, bs, hd, hb⟩ := d.opens_shown
  rw [he, hd] at h
  obtain ⟨rfl, -⟩ := List.cons.inj h
  exact ⟨c, hc, hb⟩

theorem Op.symbol_inj {op other : Op} (h : op.symbol = other.symbol) : op = other := by
  cases op <;> cases other <;> first | rfl | exact absurd h (by decide)

theorem Expr.shown_binary_append (left right : Expr) (op : Op) (behind : List Char) :
    (binary left op right).shown.toList ++ behind =
      '(' :: (left.shown.toList ++ ' ' :: op.symbol :: ' ' ::
        (right.shown.toList ++ ')' :: behind)) := by
  simp [Expr.shown]

/-- No word goes on with what stands behind a word in a shown statement. -/
theorem clear_separator (h : c ∈ [' ', ')', ',', '\n']) (behind : List Char) :
    Clear (c :: behind) := by
  have hseparators : ∀ c ∈ [' ', ')', ',', '\n'], ¬ NameChar c ∧ ¬ Digit c := by
    simp [NameChar, Digit]
  rintro d ⟨⟩
  exact hseparators c h

/-- A shown tree determines the tree, and where it ends in front of any text that its last word does
not go on with. -/
theorem Expr.shown_append_inj (he : e.Named) (hd : d.Named) (hb : Clear behind) (hr : Clear rest)
    (h : e.shown.toList ++ behind = d.shown.toList ++ rest) : e = d ∧ behind = rest := by
  -- The text behind is generalised: behind the left part of a tree stand the operator and the right
  -- part, and behind the right part the closing parenthesis.
  induction e generalizing d behind rest with
  | var name =>
    cases d with
    | var other =>
      have hnames : name.toList ++ behind = other.toList ++ rest := by
        simpa [Expr.shown] using h
      obtain ⟨rfl, hbehind⟩ := IsName.append_inj he hd hb hr hnames
      exact ⟨rfl, hbehind⟩
    | _ =>
      obtain ⟨c, hc, hopens⟩ := opens_same h
      simp_all [Opens, Digit]
  | text value =>
    cases d with
    | text other =>
      obtain ⟨rfl, hbehind⟩ := literal_append_inj h
      exact ⟨rfl, hbehind⟩
    | _ =>
      obtain ⟨c, hc, hopens⟩ := opens_same h
      simp_all [Opens, Digit]
  | integer m =>
    cases d with
    | integer n =>
      obtain ⟨hvalue, hbehind⟩ := toString_append_inj hb hr h
      exact ⟨congrArg integer (Int64.toInt_inj.mp hvalue), hbehind⟩
    | _ =>
      obtain ⟨c, hc, hopens⟩ := opens_same h
      rcases hc with rfl | hc <;> simp_all [Opens, Digit]
  | binary left op right ihl ihr =>
    cases d with
    | binary first other second =>
      have hspace := clear_separator (c := ' ') (by simp)
      have hclose := clear_separator (c := ')') (by simp)
      rw [shown_binary_append, shown_binary_append] at h
      obtain ⟨rfl, hop⟩ := ihl he.1 hd.1 (hspace _) (hspace _) (List.cons.inj h).2
      obtain ⟨hsymbol, hright⟩ := List.cons.inj (List.cons.inj hop).2
      obtain rfl := Op.symbol_inj hsymbol
      obtain ⟨rfl, hbehind⟩ := ihr he.2 hd.2 (hclose _) (hclose _) (List.cons.inj hright).2
      exact ⟨rfl, (List.cons.inj hbehind).2⟩
    | _ =>
      obtain ⟨c, hc, hopens⟩ := opens_same h
      simp_all [Opens, Digit]

end Trees

section Statements

variable {behind rest : List Char} {s t : Statement} {items others : List Expr} {p q : Program}

/-- The items of a list behind the first one. -/
def Expr.furtherText (items : List Expr) : List Char :=
  items.flatMap fun e => ',' :: ' ' :: e.shown.toList

theorem Expr.toList_intercalate_shown (e : Expr) (items : List Expr) :
    (String.intercalate ", " ((e :: items).map Expr.shown)).toList =
      e.shown.toList ++ furtherText items := by
  rw [String.toList_intercalate]
  induction items generalizing e with
  | nil => simp [furtherText]
  | cons d items ih => simp_all [furtherText, List.intercalate_cons_cons]

theorem clear_furtherText (items : List Expr) (behind : List Char) :
    Clear (Expr.furtherText items ++ '\n' :: behind) := by
  cases items with
  | nil => exact clear_separator (by simp) _
  | cons e items => exact clear_separator (by simp) _

/-- A newline ends a list, and no item goes over it but for a text in its quotes. -/
theorem Expr.furtherText_append_inj (hi : ∀ e ∈ items, e.Named) (ho : ∀ e ∈ others, e.Named)
    (h : furtherText items ++ '\n' :: behind = furtherText others ++ '\n' :: rest) :
    items = others ∧ behind = rest := by
  induction items generalizing others with
  | nil =>
    cases others with
    | nil => exact ⟨rfl, (List.cons.inj h).2⟩
    | cons d others => simp [furtherText] at h
  | cons e items ih =>
    cases others with
    | nil => simp [furtherText] at h
    | cons d others =>
      obtain ⟨he, hitems⟩ := List.forall_mem_cons.mp hi
      obtain ⟨hd, hothers⟩ := List.forall_mem_cons.mp ho
      have heq : e.shown.toList ++ (furtherText items ++ '\n' :: behind) =
          d.shown.toList ++ (furtherText others ++ '\n' :: rest) := by
        simpa [furtherText] using h
      obtain ⟨rfl, hfurther⟩ :=
        shown_append_inj he hd (clear_furtherText _ _) (clear_furtherText _ _) heq
      obtain ⟨rfl, hbehind⟩ := ih hitems hothers hfurther
      exact ⟨rfl, hbehind⟩

theorem Statement.shown_assign_append (name : String) (value : Expr) (behind : List Char) :
    (assign name value).shown.toList ++ behind =
      '$' :: (name.toList ++ ' ' :: ("= ".toList ++ (value.shown.toList ++ behind))) := by
  simp [shown]

theorem Statement.shown_print_append (e : Expr) (items : List Expr) (behind : List Char) :
    (print (e :: items)).shown.toList ++ behind =
      "PRINT".toList ++ ' ' :: (e.shown.toList ++ (Expr.furtherText items ++ behind)) := by
  have hlist := e.toList_intercalate_shown items
  simp_all [shown]

/-- The character that a statement of the form begins with. -/
def Statement.opener : Statement → Char
  | assign .. => '$'
  | print _ => 'P'
  | unsupported _ => '@'

theorem Statement.exists_shown (h : s.Named) : ∃ cs, s.shown.toList = s.opener :: cs := by
  cases s with
  | assign name value => exact ⟨_, by simp [shown, opener]; rfl⟩
  | print items => cases items <;> exact ⟨_, by simp [shown, opener]; rfl⟩
  | unsupported directive =>
    obtain ⟨name, -, rfl⟩ := h
    exact ⟨name.toList, by simp [shown, opener]⟩

theorem Statement.print_append_inj {items others : List Expr} (hi : ∀ e ∈ items, e.Named)
    (ho : ∀ e ∈ others, e.Named)
    (h : (print items).shown.toList ++ '\n' :: behind =
      (print others).shown.toList ++ '\n' :: rest) :
    items = others ∧ behind = rest := by
  cases items with
  | nil =>
    cases others with
    | nil => exact ⟨rfl, (List.cons.inj (List.append_cancel_left h)).2⟩
    | cons d others =>
      rw [shown_print_append] at h
      exact absurd (List.cons.inj (List.append_cancel_left h)).1 (by decide)
  | cons e items =>
    cases others with
    | nil =>
      rw [shown_print_append] at h
      exact absurd (List.cons.inj (List.append_cancel_left h)).1 (by decide)
    | cons d others =>
      obtain ⟨he, hitems⟩ := List.forall_mem_cons.mp hi
      obtain ⟨hd, hothers⟩ := List.forall_mem_cons.mp ho
      rw [shown_print_append, shown_print_append] at h
      have heq := (List.cons.inj (List.append_cancel_left h)).2
      obtain ⟨rfl, hfurther⟩ :=
        Expr.shown_append_inj he hd (clear_furtherText _ _) (clear_furtherText _ _) heq
      obtain ⟨rfl, hbehind⟩ := Expr.furtherText_append_inj hitems hothers hfurther
      exact ⟨rfl, hbehind⟩

/-- A shown statement with a newline behind it determines the statement, and where it ends. -/
theorem Statement.shown_append_inj (hs : s.Named) (ht : t.Named)
    (h : s.shown.toList ++ '\n' :: behind = t.shown.toList ++ '\n' :: rest) :
    s = t ∧ behind = rest := by
  have hspace := clear_separator (c := ' ') (by simp)
  have hend := clear_separator (c := '\n') (by simp)
  have hopener : s.opener = t.opener := by
    obtain ⟨cs, hcs⟩ := exists_shown hs
    obtain ⟨ds, hds⟩ := exists_shown ht
    rw [hcs, hds] at h
    exact (List.cons.inj h).1
  cases s with
  | assign name value =>
    cases t with
    | assign other second =>
      rw [shown_assign_append, shown_assign_append] at h
      obtain ⟨rfl, hvalues⟩ := IsName.append_inj hs.1 ht.1 (hspace _) (hspace _) (List.cons.inj h).2
      have hvalues := List.append_cancel_left (List.cons.inj hvalues).2
      obtain ⟨rfl, hbehind⟩ := Expr.shown_append_inj hs.2 ht.2 (hend _) (hend _) hvalues
      exact ⟨rfl, (List.cons.inj hbehind).2⟩
    | _ => simp [opener] at hopener
  | print items =>
    cases t with
    | print others =>
      obtain ⟨rfl, hbehind⟩ := print_append_inj hs ht h
      exact ⟨rfl, hbehind⟩
    | _ => simp [opener] at hopener
  | unsupported directive =>
    cases t with
    | unsupported other =>
      obtain ⟨name, hname, rfl⟩ := hs
      obtain ⟨second, hsecond, rfl⟩ := ht
      have hnames : name.toList ++ '\n' :: behind = second.toList ++ '\n' :: rest := by
        simpa [shown] using h
      obtain ⟨rfl, hbehind⟩ := IsName.append_inj hname hsecond (hend _) (hend _) hnames
      exact ⟨rfl, (List.cons.inj hbehind).2⟩
    | _ => simp [opener] at hopener

end Statements

section Programs

variable {s : Statement} {p q : Program}

theorem Program.toList_shownText_cons (s : Statement) (p : Program) :
    (shownText (s :: p)).toList = s.shown.toList ++ '\n' :: (shownText p).toList := by
  simp [shownText]

theorem Program.prefix_of_shownText {behind : List Char} (hp : ∀ s ∈ p, s.Named)
    (hq : ∀ s ∈ q, s.Named) (h : p.shownText.toList ++ behind = q.shownText.toList) : p <+: q := by
  induction p generalizing q with
  | nil => exact List.nil_prefix
  | cons s p ih =>
    rw [toList_shownText_cons] at h
    cases q with
    | nil => simp [shownText] at h
    | cons t q =>
      obtain ⟨hs, hstatements⟩ := List.forall_mem_cons.mp hp
      obtain ⟨ht, hothers⟩ := List.forall_mem_cons.mp hq
      rw [toList_shownText_cons, List.append_assoc, List.cons_append] at h
      obtain ⟨rfl, hbehind⟩ := Statement.shown_append_inj hs ht h
      exact List.cons_prefix_cons.mpr ⟨rfl, ih hstatements hothers hbehind⟩

theorem Program.prefix_iff_shownText (hp : ∀ s ∈ p, s.Named) (hq : ∀ s ∈ q, s.Named) :
    p.shownText.toList <+: q.shownText.toList ↔ p <+: q := by
  constructor
  · rintro ⟨behind, h⟩
    exact prefix_of_shownText hp hq h
  · rintro ⟨others, rfl⟩
    exact ⟨(shownText others).toList, by simp [shownText]⟩

theorem Program.eq_of_shownText (hp : ∀ s ∈ p, s.Named) (hq : ∀ s ∈ q, s.Named)
    (h : p.shownText = q.shownText) : p = q := by
  have hpq := (prefix_iff_shownText hp hq).mp (h ▸ List.prefix_rfl)
  have hqp := (prefix_iff_shownText hq hp).mp (h ▸ List.prefix_rfl)
  exact hpq.eq_of_length_le hqp.length_le

/-- Different texts have different bytes. -/
theorem textBytes_inj {s t : String} (h : textBytes s = textBytes t) : s = t := by
  have hbytes : s.toList.utf8Encode = t.toList.utf8Encode := congrArg List.toByteArray h
  rwa [← String.toByteArray_ofList, ← String.toByteArray_ofList, String.toByteArray_inj,
    String.ofList_toList, String.ofList_toList] at hbytes

theorem Command.dump_shown (p : Program) :
    dump true (p.map Statement.shown) = textBytes p.shownText := by
  induction p with
  | nil => rfl
  | cons s p ih => simp_all [dump, lineBytes, textBytes, Program.shownText]

end Programs

/-- The dump of a program in which every name can be written is that of no other such program,
whatever its texts, its numbers, its lists and the shapes of its trees are. The text of one program
is the beginning of the text of another one only if the statements of the one are the first ones of
the other. -/
theorem dump_shown_inj {p q : Program} (hp : ∀ s ∈ p, s.Named) (hq : ∀ s ∈ q, s.Named) :
    (Command.dump true (p.map Statement.shown) = Command.dump true (q.map Statement.shown) ↔
      p = q) ∧
    (p.shownText = q.shownText ↔ p = q) ∧
    (p.shownText.toList <+: q.shownText.toList ↔ p <+: q) := by
  have htext : p.shownText = q.shownText ↔ p = q := by
    constructor
    · exact Program.eq_of_shownText hp hq
    · rintro rfl
      rfl
  refine ⟨?_, htext, Program.prefix_iff_shownText hp hq⟩
  rw [Command.dump_shown, Command.dump_shown, ← htext]
  constructor
  · exact textBytes_inj
  · intro h
    rw [h]

/-- A text with what looks like the end of it, of a list and of a statement, and a sign behind an
operator. -/
def joinedTexts : Program :=
  [.print [.text "a\", \"b\"\nPRINT"], .assign "x" (.binary (.integer 1) .subtract (.integer (-1)))]

def separateTexts : Program :=
  [.print [.text "a", .text "b"], .print [],
    .assign "x" (.binary (.integer 1) .subtract (.integer (-1)))]

theorem joinedTexts_ne_separateTexts :
    (∀ s ∈ joinedTexts, s.Named) ∧ (∀ s ∈ separateTexts, s.Named) ∧
    Command.dump true (joinedTexts.map Statement.shown) ≠
      Command.dump true (separateTexts.map Statement.shown) ∧
    joinedTexts.shownText = "PRINT \"a\\\", \\\"b\\\"\nPRINT\"\n$x = (1 - -1)\n" ∧
    separateTexts.shownText = "PRINT \"a\", \"b\"\nPRINT\n$x = (1 - -1)\n" := by
  have hname : IsName "x" := ⟨by decide, by simp [NameChar]⟩
  have hjoined : ∀ s ∈ joinedTexts, s.Named := by
    simp [joinedTexts, Statement.Named, Expr.Named, hname]
  have hseparate : ∀ s ∈ separateTexts, s.Named := by
    simp [separateTexts, Statement.Named, Expr.Named, hname]
  have hne : joinedTexts ≠ separateTexts := by decide
  exact ⟨hjoined, hseparate, mt (dump_shown_inj hjoined hseparate).1.mp hne, by decide +kernel,
    by decide +kernel⟩

end Tally
