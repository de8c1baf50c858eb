import Tally.Proofs.Stages

/-! What a command line asks for. Its arguments give items from left to right, up to where the reading
ends, and from these it follows which one of a usage error, help, the version and a program it is. A
program is named in one way only. -/

namespace Tally.Command

/-- What is given by an argument, or by one and its value. -/
inductive Item where
  | path (name : String)
  | flag (flag : Flag)
  | setting (setting : Setting) (value : String)
deriving DecidableEq

namespace Item

/-- What may be given once only. -/
inductive Key where
  | path
  | flag (flag : Flag)
  | setting (setting : Setting)
deriving DecidableEq

def key : Item → Key
  | path _ => .path
  | flag f => .flag f
  | setting s _ => .setting s

def path? : Item → Option String
  | path name => some name
  | _ => none

def value? (setting : Setting) : Item → Option String
  | .setting s value => if s = setting then some value else none
  | _ => none

end Item

/-- How the reading of arguments ends. -/
inductive Stop where
  | finished
  | help
  | version
  | malformed
deriving DecidableEq

/-- The items that arguments give from left to right, and how the reading of them ends. -/
inductive Gives : List String → List Item → Stop → Prop where
  | nil : Gives [] [] .finished
  | path {arg rest name items stop} (h : Argument.ofString arg = .positional name)
      (hrest : Gives rest items stop) : Gives (arg :: rest) (.path name :: items) stop
  | flag {arg rest flag items stop} (h : Argument.ofString arg = .flag flag)
      (hrest : Gives rest items stop) : Gives (arg :: rest) (.flag flag :: items) stop
  | attached {arg rest setting value items stop}
      (h : Argument.ofString arg = .setting setting (some value)) (hrest : Gives rest items stop) :
      Gives (arg :: rest) (.setting setting value :: items) stop
  | detached {arg rest setting value items stop}
      (h : Argument.ofString arg = .setting setting none) (hvalue : isValue value)
      (hrest : Gives rest items stop) :
      Gives (arg :: value :: rest) (.setting setting value :: items) stop
  | missing {arg rest setting} (h : Argument.ofString arg = .setting setting none)
      (hvalue : ∀ value ∈ rest.head?, ¬ isValue value) : Gives (arg :: rest) [] .malformed
  | separator {arg rest} (h : Argument.ofString arg = .separator) :
      Gives (arg :: rest) (rest.map .path) .finished
  | help {arg rest} (h : Argument.ofString arg = .help) : Gives (arg :: rest) [] .help
  | version {arg rest} (h : Argument.ofString arg = .version) : Gives (arg :: rest) [] .version
  | unknown {arg rest} (h : Argument.ofString arg = .unknown) : Gives (arg :: rest) [] .malformed

/-- Nothing is given twice, and every path has a name. -/
structure Acceptable (items : List Item) : Prop where
  nodup : (items.map Item.key).Nodup
  named : Item.path "" ∉ items

instance (items : List Item) : Decidable (Acceptable items) :=
  decidable_of_iff ((items.map Item.key).Nodup ∧ Item.path "" ∉ items)
    ⟨fun h => ⟨h.1, h.2⟩, fun h => ⟨h.nodup, h.named⟩⟩

/-- The dumps that the items ask for. -/
def Dumps.ofItems (items : List Item) : Dumps :=
  ⟨.flag .tokens ∈ items, .flag .ast ∈ items, .flag .vars ∈ items⟩

/-- The items name the program, and no other one in the other way. -/
def Source.Named (items : List Item) : Source → Prop
  | file path => .path path ∈ items ∧ path ≠ "" ∧ ∀ text, .setting .eval text ∉ items
  | inline text => .setting .eval text ∈ items ∧ ∀ path, .path path ∉ items

/-- The text is that of the program: it is given, or its bytes are in the file. -/
def Source.Holds (readFile : String → Except ReadError ByteArray) (text : String) : Source → Prop
  | file path => readFile path = .ok text.toUTF8
  | inline given => given = text

/-- What is asked for by items behind which the reading ends in this way. -/
inductive Asks (items : List Item) : Stop → Request → Prop where
  | help (h : Acceptable items) : Asks items .help .help
  | version (h : Acceptable items) : Asks items .version .version
  | run {source} (h : Acceptable items) (hsource : source.Named items) :
      Asks items .finished (.run source (Dumps.ofItems items))
  | malformed : Asks items .malformed .usageError
  | unacceptable {stop} (h : ¬ Acceptable items) : Asks items stop .usageError
  | unnamed (h : ∀ source : Source, ¬ source.Named items) : Asks items .finished .usageError

namespace Draft

/-- What is given first, of each kind. -/
def ofItems (items : List Item) : Draft :=
  ⟨items.findSome? Item.path?, items.findSome? (Item.value? .eval),
    items.findSome? (Item.value? .logLevel), Dumps.ofItems items⟩

def add? (d : Draft) : Item → Option Draft
  | .path name => d.addFile? name
  | .flag flag => d.addFlag? flag
  | .setting setting value => d.addSetting? setting value

def addAll? (d : Draft) : List Item → Option Draft
  | [] => some d
  | item :: items => (d.add? item).bind fun d => d.addAll? items

def stopped (d : Draft) : Stop → Request
  | .finished => d.finish
  | .help => .help
  | .version => .version
  | .malformed => .usageError

end Draft

section Giving

variable {arguments rest : List String} {items others : List Item} {stop other : Stop} {d : Draft}

theorem exists_gives (arguments : List String) : ∃ items stop, Gives arguments items stop := by
  match arguments with
  | [] => exact ⟨_, _, .nil⟩
  | arg :: rest =>
    obtain ⟨items, stop, hrest⟩ := exists_gives rest
    cases h : Argument.ofString arg with
    | positional name => exact ⟨_, _, .path h hrest⟩
    | flag flag => exact ⟨_, _, .flag h hrest⟩
    | setting setting value? =>
      cases value? with
      | some value => exact ⟨_, _, .attached h hrest⟩
      | none =>
        match rest with
        | [] => exact ⟨_, _, .missing h (by simp)⟩
        | value :: rest =>
          by_cases hvalue : isValue value
          · obtain ⟨items, stop, hrest⟩ := exists_gives rest
            exact ⟨_, _, .detached h hvalue hrest⟩
          · exact ⟨_, _, .missing h (by simpa using hvalue)⟩
    | help => exact ⟨_, _, .help h⟩
    | version => exact ⟨_, _, .version h⟩
    | separator => exact ⟨_, _, .separator h⟩
    | unknown => exact ⟨_, _, .unknown h⟩

theorem Gives.unique (h : Gives arguments items stop) (ho : Gives arguments others other) :
    others = items ∧ other = stop := by
  induction h generalizing others other with
  | nil => cases ho; exact ⟨rfl, rfl⟩
  | path harg _ ih | flag harg _ ih | attached harg _ ih =>
    cases ho <;> simp_all
    all_goals exact ih ‹_›
  | detached harg hvalue _ ih =>
    cases ho <;> simp_all
    exact ih ‹_›
  | missing harg hvalue => cases ho <;> simp_all
  | separator harg | help harg | version harg | unknown harg => cases ho <;> simp_all

end Giving

section Drafts

variable {arguments paths : List String} {items others : List Item} {item : Item} {key : Item.Key}
  {setting : Setting} {stop : Stop} {d : Draft}

theorem Acceptable.of_append (h : Acceptable (items ++ others)) : Acceptable items := by
  obtain ⟨hnodup, hnamed⟩ := h
  rw [List.map_append] at hnodup
  exact ⟨hnodup.of_append_left, fun hmem => hnamed (List.mem_append_left _ hmem)⟩

theorem acceptable_concat : Acceptable (items ++ [item]) ↔
    Acceptable items ∧ item.key ∉ items.map Item.key ∧ item ≠ .path "" := by
  constructor
  · intro h
    have hnodup := h.nodup
    rw [List.map_append, List.map_singleton, List.nodup_append] at hnodup
    refine ⟨h.of_append, fun hmem => hnodup.2.2 _ hmem _ (by simp) rfl, ?_⟩
    rintro rfl
    simpa using h.named
  · rintro ⟨⟨hnodup, hnamed⟩, hkey, hne⟩
    refine ⟨?_, by simpa [hnamed] using Ne.symm hne⟩
    rw [List.map_append, List.map_singleton, List.nodup_append]
    refine ⟨hnodup, by simp, ?_⟩
    rintro first hfirst second hsecond rfl
    rw [List.mem_singleton.mp hsecond] at hfirst
    exact hkey hfirst

namespace Item

theorem isSome_path? : item.path?.isSome ↔ item.key = .path := by
  cases item <;> simp [path?, key]

theorem isSome_value? : (item.value? setting).isSome ↔ item.key = .setting setting := by
  cases item <;> simp [value?, key]

theorem key_eq_flag {f : Flag} : item.key = .flag f ↔ item = .flag f := by
  cases item <;> simp [key]

end Item

namespace Draft

/-- Whether an item with the key is in the draft. -/
def has (d : Draft) : Item.Key → Bool
  | .path => d.file.isSome
  | .flag .tokens => d.dumps.tokens
  | .flag .ast => d.dumps.ast
  | .flag .vars => d.dumps.vars
  | .setting .eval => d.eval.isSome
  | .setting .logLevel => d.logLevel.isSome

theorem has_ofItems : (ofItems items).has key ↔ key ∈ items.map Item.key := by
  rw [List.mem_map]
  cases key with
  | path =>
    rw [has, ofItems, List.findSome?_isSome_iff]
    simp only [Item.isSome_path?]
  | flag f => cases f <;> simp [has, ofItems, Dumps.ofItems, Item.key_eq_flag]
  | setting s =>
    cases s <;> rw [has, ofItems, List.findSome?_isSome_iff] <;> simp only [Item.isSome_value?]

theorem add?_of_has (h : d.has item.key) : d.add? item = none := by
  rcases item with name | (_ | _ | _) | ⟨_ | _, value⟩ <;>
    simp_all [has, Item.key, add?, addFile?, addFlag?, addSetting?]

theorem add?_ofItems_of_not_mem (h : item.key ∉ items.map Item.key) (hne : item ≠ .path "") :
    (ofItems items).add? item = some (ofItems (items ++ [item])) := by
  cases item with
  | path name =>
    rw [← has_ofItems] at h
    have hnone : items.findSome? Item.path? = none := by simpa only [has, ofItems, Item.key,
      Bool.not_eq_true, Option.isSome_eq_false_iff, Option.isNone_iff_eq_none] using h
    have hname : name ≠ "" := by simpa using hne
    simp [add?, addFile?, ofItems, Dumps.ofItems, hnone, hname, Item.path?, Item.value?]
  | flag f =>
    have hfalse : Item.flag f ∉ items := fun hmem => h (List.mem_map_of_mem hmem)
    cases f <;> simp [add?, addFlag?, ofItems, Dumps.ofItems, hfalse, Item.path?, Item.value?]
  | setting s value =>
    rw [← has_ofItems] at h
    have hnone : items.findSome? (Item.value? s) = none := by
      cases s <;> simpa only [has, ofItems, Item.key, Bool.not_eq_true,
        Option.isSome_eq_false_iff, Option.isNone_iff_eq_none] using h
    cases s <;>
      simp [add?, addSetting?, ofItems, Dumps.ofItems, hnone, Item.path?, Item.value?]

/-- Items are taken one by one as long as they are acceptable together. -/
theorem addAll?_ofItems (h : Acceptable items) : (ofItems items).addAll? others =
    if Acceptable (items ++ others) then some (ofItems (items ++ others)) else none := by
  -- each item that is taken goes over to the items in front
  induction others generalizing items with
  | nil => simp [addAll?, h]
  | cons item others ih =>
    rw [addAll?, List.append_cons]
    by_cases hitem : Acceptable (items ++ [item])
    · obtain ⟨-, hkey, hne⟩ := acceptable_concat.mp hitem
      rw [add?_ofItems_of_not_mem hkey hne, Option.bind_some, ih hitem]
    · have hnone : (ofItems items).add? item = none := by
        rw [acceptable_concat, not_and, not_and] at hitem
        by_cases hkey : item.key ∈ items.map Item.key
        · exact add?_of_has (has_ofItems.mpr hkey)
        · obtain rfl : item = .path "" := not_not.mp (hitem h hkey)
          simp [add?, addFile?]
      rw [hnone, Option.bind_none, if_neg (mt Acceptable.of_append hitem)]

theorem readFiles_eq (d : Draft) (paths : List String) :
    d.readFiles paths =
      ((d.addAll? (paths.map .path)).map fun d => d.finish).getD .usageError := by
  induction paths generalizing d with
  | nil => rfl
  | cons path paths ih =>
    rw [readFiles, List.map_cons, addAll?, add?]
    cases d.addFile? path with
    | none => rfl
    | some d => exact ih d

/-- A draft takes the items, and then does what the reading ends with. -/
theorem read_of_gives (h : Gives arguments items stop) (d : Draft) :
    d.read arguments = ((d.addAll? items).map fun d => d.stopped stop).getD .usageError := by
  induction h generalizing d with
  | nil => rfl
  | @path arg rest name items stop harg hrest ih =>
    cases hadd : d.addFile? name <;> simp [read, addAll?, add?, harg, hadd, ih]
  | @flag arg rest f items stop harg hrest ih =>
    cases hadd : d.addFlag? f <;> simp [read, addAll?, add?, harg, hadd, ih]
  | @attached arg rest setting value items stop harg hrest ih =>
    cases hadd : d.addSetting? setting value <;> simp [read, addAll?, add?, harg, hadd, ih]
  | @detached arg rest setting value items stop harg hvalue hrest ih =>
    cases hadd : d.addSetting? setting value <;>
      simp [read, addAll?, add?, harg, hvalue, hadd, ih]
  | @missing arg rest setting harg hvalue =>
    rw [read, harg]
    cases rest with
    | nil => rfl
    | cons value rest =>
      have hvalue : ¬ isValue value := hvalue value rfl
      simp [hvalue, addAll?, stopped]
  | separator harg =>
    rw [read, harg]
    exact readFiles_eq d _
  | help harg | version harg | unknown harg =>
    rw [read, harg]
    rfl

end Draft

end Drafts

section Programs

variable {arguments : List String} {items : List Item} {item other : Item} {name text : String}
  {source : Source} {stop : Stop} {request : Request}

theorem Item.path?_eq_some_iff : item.path? = some name ↔ item = .path name := by
  cases item <;> simp [path?]

theorem Item.value?_eq_some_iff {setting : Setting} :
    item.value? setting = some text ↔ item = .setting setting text := by
  cases item <;> simp [value?]

/-- What is given once is also what is given first. -/
theorem Acceptable.findSome?_eq_some_iff {α : Type} {f : Item → Option α} {key : Item.Key} {a : α}
    (h : Acceptable items) (hf : ∀ item, (f item).isSome ↔ item.key = key) :
    items.findSome? f = some a ↔ ∃ item ∈ items, f item = some a := by
  constructor
  · exact List.exists_of_findSome?_eq_some
  · rintro ⟨item, hitem, ha⟩
    have hsome : (items.findSome? f).isSome :=
      List.findSome?_isSome_iff.mpr ⟨item, hitem, by simp [ha]⟩
    obtain ⟨b, hb⟩ := Option.isSome_iff_exists.mp hsome
    obtain ⟨other, hother, hb'⟩ := List.exists_of_findSome?_eq_some hb
    have hkey : item.key = other.key :=
      ((hf item).mp (by simp [ha])).trans ((hf other).mp (by simp [hb'])).symm
    obtain rfl := List.inj_on_of_nodup_map h.nodup hitem hother hkey
    rw [hb, ← hb', ha]

theorem Acceptable.file_eq_some_iff (h : Acceptable items) :
    (Draft.ofItems items).file = some name ↔ .path name ∈ items := by
  rw [Draft.ofItems, h.findSome?_eq_some_iff fun _ => Item.isSome_path?]
  simp [Item.path?_eq_some_iff]

theorem Acceptable.eval_eq_some_iff (h : Acceptable items) :
    (Draft.ofItems items).eval = some text ↔ .setting .eval text ∈ items := by
  rw [Draft.ofItems, h.findSome?_eq_some_iff fun _ => Item.isSome_value?]
  simp [Item.value?_eq_some_iff]

theorem Acceptable.named_file_iff (h : Acceptable items) : (Source.file name).Named items ↔
    (Draft.ofItems items).file = some name ∧ (Draft.ofItems items).eval = none := by
  rw [h.file_eq_some_iff, Option.eq_none_iff_forall_ne_some]
  simp only [ne_eq, h.eval_eq_some_iff]
  refine and_congr_right fun hpath => and_iff_right ?_
  rintro rfl
  exact h.named hpath

theorem Acceptable.named_inline_iff (h : Acceptable items) : (Source.inline text).Named items ↔
    (Draft.ofItems items).eval = some text ∧ (Draft.ofItems items).file = none := by
  rw [h.eval_eq_some_iff, Option.eq_none_iff_forall_ne_some]
  simp only [ne_eq, h.file_eq_some_iff]
  rfl

/-- A file and a text exclude each other. -/
theorem Acceptable.source?_of_named (h : Acceptable items) (hs : source.Named items) :
    (Draft.ofItems items).finish = .run source (Dumps.ofItems items) ∧
      (Draft.ofItems items).source? = some source := by
  cases source with
  | file path =>
    obtain ⟨hfile, heval⟩ := h.named_file_iff.mp hs
    have hsource : (Draft.ofItems items).source? = some (.file path) := by
      rw [Draft.source?, heval, hfile]
    refine ⟨?_, hsource⟩
    rw [Draft.finish, hsource, hfile, heval]
    rfl
  | inline text =>
    obtain ⟨heval, hfile⟩ := h.named_inline_iff.mp hs
    have hsource : (Draft.ofItems items).source? = some (.inline text) := by
      rw [Draft.source?, heval]
    refine ⟨?_, hsource⟩
    rw [Draft.finish, hsource, hfile, heval]
    rfl

theorem Acceptable.finish_of_not_named (h : Acceptable items)
    (hs : ∀ source : Source, ¬ source.Named items) :
    (Draft.ofItems items).finish = .usageError := by
  cases hfile : (Draft.ofItems items).file with
  | none =>
    cases heval : (Draft.ofItems items).eval with
    | none => simp [Draft.finish, hfile, heval]
    | some text => exact absurd (h.named_inline_iff.mpr ⟨heval, hfile⟩) (hs _)
  | some path =>
    cases heval : (Draft.ofItems items).eval with
    | none => exact absurd (h.named_file_iff.mpr ⟨hfile, heval⟩) (hs _)
    | some text => simp [Draft.finish, hfile, heval]

theorem asks_iff : Asks items stop request ↔
    request = if Acceptable items then (Draft.ofItems items).stopped stop else .usageError := by
  constructor
  · intro h
    cases h with
    | help h | version h =>
      rw [if_pos h]
      rfl
    | run h hsource =>
      rw [if_pos h]
      exact (h.source?_of_named hsource).1.symm
    | malformed =>
      split <;> rfl
    | unacceptable h => rw [if_neg h]
    | unnamed hnone =>
      split
      case isTrue h => exact (h.finish_of_not_named hnone).symm
      case isFalse => rfl
  · rintro rfl
    split
    case isFalse h => exact .unacceptable h
    case isTrue h =>
      cases stop with
      | help => exact .help h
      | version => exact .version h
      | malformed => exact .malformed
      | finished =>
        by_cases hnone : ∀ source : Source, ¬ source.Named items
        · rw [Draft.stopped, h.finish_of_not_named hnone]
          exact .unnamed hnone
        · obtain ⟨source, hsource⟩ := not_forall_not.mp hnone
          rw [Draft.stopped, (h.source?_of_named hsource).1]
          exact .run h hsource

theorem ofArguments_of_gives (h : Gives arguments items stop) :
    Asks items stop request ↔ Request.ofArguments arguments = request := by
  have hread := Draft.read_of_gives h .empty
  have hadd := @Draft.addAll?_ofItems [] items ⟨by simp, by simp⟩
  rw [List.nil_append] at hadd
  rw [asks_iff, Request.ofArguments, hread, show Draft.empty = Draft.ofItems [] from rfl, hadd,
    eq_comm]
  split <;> rfl

end Programs

section Responses

variable {readFile : String → Except ReadError ByteArray} {sink : Sink} {dumps : Dumps}
  {source : Source} {text : String} {bytes : Except ReadError ByteArray}

theorem fromUTF8?_eq_some_iff {bytes : ByteArray} :
    String.fromUTF8? bytes = some text ↔ bytes = text.toUTF8 := by
  rw [String.fromUTF8?]
  constructor
  · intro h
    split at h
    case isTrue hvalid =>
      cases h
      rfl
    case isFalse => cases h
  · rintro rfl
    exact dif_pos text.isValidUTF8

theorem decode_eq_ok_iff : decode bytes = .ok text ↔ bytes = .ok text.toUTF8 := by
  cases bytes with
  | error e => simp [decode]
  | ok bytes =>
    rw [Except.ok.injEq, ← fromUTF8?_eq_some_iff, decode]
    cases String.fromUTF8? bytes <;> simp

theorem text_eq_ok_iff : source.text readFile = .ok text ↔ source.Holds readFile text := by
  cases source with
  | inline given => simp [Source.text, Source.Holds]
  | file path =>
    rw [Source.Holds, ← decode_eq_ok_iff, Source.text]
    cases decode (readFile path) <;> simp [Except.mapError]

/-- A run performs the text of its source. -/
theorem respond_of_holds (h : source.Holds readFile text) (dumps : Dumps) (sink : Sink) :
    (respond readFile sink (.run source dumps)).output = (perform dumps text sink).1 ∧
    (respond readFile sink (.run source dumps)).exitCode =
      if (perform dumps text sink).2 = none then 0 else 1 := by
  rcases hperform : perform dumps text sink with ⟨output, failure⟩
  simp only [respond, text_eq_ok_iff.mpr h, hperform]
  cases failure <;> exact ⟨rfl, rfl⟩

theorem respond_of_not_holds (h : ∀ text, ¬ source.Holds readFile text) (dumps : Dumps)
    (sink : Sink) : (respond readFile sink (.run source dumps)).exitCode = 2 ∧
      (respond readFile sink (.run source dumps)).output = [] := by
  cases htext : source.text readFile with
  | error e => simp [respond, htext]
  | ok text => exact absurd (text_eq_ok_iff.mp htext) (h text)

theorem write_nil (sink : Sink) : sink.write [] = ⟨[], sink, none⟩ := by
  obtain ⟨room, refusal⟩ := sink
  cases room <;> simp [Sink.write]

/-- The empty program does nothing, not even on a full sink. -/
theorem perform_empty (dumps : Dumps) (sink : Sink) : perform dumps "" sink = ([], none) := by
  have htokens : Token.ofText "" = .ok [] := by decide +kernel
  have hprogram : Program.ofTokens [] = .ok [] := by decide +kernel
  have hdump : ∀ on, dump on [] = [] := by simp [dump]
  simp [perform, htokens, hprogram, hdump, write_nil, Machine.fresh, Store.empty]

end Responses

/-- Any arguments give items up to where the reading ends, in one way. What they ask for is one of a
usage error, help, the version and a run. A run has one program that the items name, the one that is
taken from them, and never a second one that is left out, and it is never without one. A usage error
shows nothing and has exit code 2, and help and the version have 0. A run performs the text of its
program, and has exit code 2 if there is none. A run of an empty text shows nothing and has 0. -/
theorem asks_of_arguments (arguments : List String) :
    ∃ items stop, Gives arguments items stop ∧
      (∀ others other, Gives arguments others other → others = items ∧ other = stop) ∧
      (∀ request, Asks items stop request ↔ Request.ofArguments arguments = request) ∧
      (∀ source dumps, Request.ofArguments arguments = .run source dumps →
        (Draft.ofItems items).source? = some source ∧
        ∀ other : Source, other.Named items ↔ other = source) ∧
      Request.ofArguments arguments ≠ .noProgram ∧
      ∀ readFile sink,
        let response := respond readFile sink (.ofArguments arguments)
        (Request.ofArguments arguments = .usageError →
          response.exitCode = 2 ∧ response.output = []) ∧
        (Request.ofArguments arguments = .help →
          response.exitCode = 0 ∧ response.output = (sink.write (textBytes helpText)).bytes) ∧
        (Request.ofArguments arguments = .version →
          response.exitCode = 0 ∧ response.output = (sink.write (textBytes versionText)).bytes) ∧
        (∀ dumps, Request.ofArguments arguments = .run (.inline "") dumps →
          response.exitCode = 0 ∧ response.output = []) ∧
        ∀ source dumps, Request.ofArguments arguments = .run source dumps →
          (∀ text, source.Holds readFile text →
            response.output = (perform dumps text sink).1 ∧
            response.exitCode = if (perform dumps text sink).2 = none then 0 else 1) ∧
          ((∀ text, ¬ source.Holds readFile text) →
            response.exitCode = 2 ∧ response.output = []) := by
  obtain ⟨items, stop, hgives⟩ := exists_gives arguments
  refine ⟨items, stop, hgives, fun _ _ => hgives.unique, fun _ => ofArguments_of_gives hgives,
    ?_, ?_, ?_⟩
  · intro source dumps hrun
    have hasks := (ofArguments_of_gives hgives).mpr hrun
    cases hasks with
    | run h hsource =>
      obtain ⟨-, hdraft⟩ := h.source?_of_named hsource
      refine ⟨hdraft, fun other => ⟨fun hother => ?_, ?_⟩⟩
      · obtain ⟨-, hdraft'⟩ := h.source?_of_named hother
        rw [hdraft] at hdraft'
        exact (Option.some.inj hdraft').symm
      · rintro rfl
        exact hsource
  · intro h
    cases (ofArguments_of_gives hgives).mpr h
  · intro readFile sink
    refine ⟨fun h => ?_, fun h => ?_, fun h => ?_, fun dumps h => ?_, fun source dumps h => ?_⟩ <;>
      rw [h]
    · exact ⟨rfl, rfl⟩
    · exact ⟨rfl, rfl⟩
    · exact ⟨rfl, rfl⟩
    · simp [respond, Source.text, perform_empty]
    · exact ⟨fun text htext => respond_of_holds htext dumps sink,
        fun hnone => respond_of_not_holds hnone dumps sink⟩

/-- An empty text, detached from its option, and two more options. -/
def emptyText : List String := ["--vars", "-e", "", "--log-level=off"]

/-- A file beside an empty text. -/
def fileAndText : List String := ["prog", "-e="]

/-- Help comes before the option that is given twice, but behind the flag that is. -/
def helpBetween : List String := ["--tokens", "-eprog", "-he", "-e", "prog"]

/-- A file that there may be or not. -/
def fileAlone : List String := ["prog"]

theorem emptyText_asks :
    (Gives emptyText [.flag .vars, .setting .eval "", .setting .logLevel "off"] .finished ∧
      (Draft.ofItems [.flag .vars, .setting .eval "", .setting .logLevel "off"]).source? =
        some (.inline "") ∧
      (∀ other : Source, other.Named
        [.flag .vars, .setting .eval "", .setting .logLevel "off"] ↔ other = .inline "") ∧
      Request.ofArguments emptyText = .run (.inline "") ⟨false, false, true⟩ ∧
      ∀ readFile sink, (respond readFile sink (.ofArguments emptyText)).exitCode = 0 ∧
        (respond readFile sink (.ofArguments emptyText)).output = []) ∧
    (Request.ofArguments fileAndText = .usageError ∧
      ∀ readFile sink, (respond readFile sink (.ofArguments fileAndText)).exitCode = 2 ∧
        (respond readFile sink (.ofArguments fileAndText)).output = []) ∧
    (Request.ofArguments helpBetween = .help ∧
      ∀ readFile, (respond readFile .unlimited (.ofArguments helpBetween)).exitCode = 0 ∧
        (respond readFile .unlimited (.ofArguments helpBetween)).output = textBytes helpText) ∧
    (Request.ofArguments ["-V", "--"] = .version ∧
      ∀ readFile, (respond readFile .unlimited (.ofArguments ["-V", "--"])).exitCode = 0 ∧
        (respond readFile .unlimited (.ofArguments ["-V", "--"])).output =
          textBytes versionText) ∧
    Request.ofArguments fileAlone = .run (.file "prog") ⟨false, false, false⟩ ∧
      (∀ readFile, readFile "prog" = .ok "PRINT 7;".toUTF8 →
        (respond readFile .unlimited (.ofArguments fileAlone)).output = textBytes "7\n" ∧
        (respond readFile .unlimited (.ofArguments fileAlone)).exitCode = 0) ∧
      ∀ readFile, readFile "prog" = .error .notFound →
        (respond readFile .unlimited (.ofArguments fileAlone)).exitCode = 2 ∧
        (respond readFile .unlimited (.ofArguments fileAlone)).output = [] := by
  have hgives : Gives emptyText
      [.flag .vars, .setting .eval "", .setting .logLevel "off"] .finished :=
    .flag (by decide +kernel) (.detached (by decide +kernel) (by decide +kernel)
      (.attached (by decide +kernel) .nil))
  have hempty : Request.ofArguments emptyText = .run (.inline "") ⟨false, false, true⟩ := by
    decide +kernel
  have hboth : Request.ofArguments fileAndText = .usageError := by decide +kernel
  have hhelp : Request.ofArguments helpBetween = .help := by decide +kernel
  have hversion : Request.ofArguments ["-V", "--"] = .version := by decide +kernel
  have halone : Request.ofArguments fileAlone = .run (.file "prog") ⟨false, false, false⟩ := by
    decide +kernel
  have hperform :
      perform ⟨false, false, false⟩ "PRINT 7;" .unlimited = (textBytes "7\n", none) := by
    decide +kernel
  obtain ⟨items, stop, -, hunique, -, hsource, -, hresponse⟩ := asks_of_arguments emptyText
  obtain ⟨rfl, rfl⟩ := hunique _ _ hgives
  obtain ⟨hdraft, hnamed⟩ := hsource _ _ hempty
  obtain ⟨_, _, -, -, -, -, -, hfile⟩ := asks_of_arguments fileAndText
  obtain ⟨_, _, -, -, -, -, -, hbetween⟩ := asks_of_arguments helpBetween
  obtain ⟨_, _, -, -, -, -, -, hfirst⟩ := asks_of_arguments ["-V", "--"]
  obtain ⟨_, _, -, -, -, -, -, hread⟩ := asks_of_arguments fileAlone
  refine ⟨⟨hgives, hdraft, hnamed, hempty, fun readFile sink =>
      (hresponse readFile sink).2.2.2.1 _ hempty⟩,
    ⟨hboth, fun readFile sink => (hfile readFile sink).1 hboth⟩,
    ⟨hhelp, fun readFile => ?_⟩, ⟨hversion, fun readFile => ?_⟩, halone, fun readFile htext => ?_,
    fun readFile hnone => ?_⟩
  · simpa only [write_unlimited] using (hbetween readFile .unlimited).2.1 hhelp
  · simpa only [write_unlimited] using (hfirst readFile .unlimited).2.2.1 hversion
  · obtain ⟨hholds, -⟩ := (hread readFile .unlimited).2.2.2.2 _ _ halone
    obtain ⟨houtput, hcode⟩ := hholds _ htext
    rw [hperform] at houtput hcode
    exact ⟨houtput, hcode⟩
  · obtain ⟨-, hmissing⟩ := (hread readFile .unlimited).2.2.2.2 _ _ halone
    refine hmissing fun text htext => ?_
    rw [Source.Holds, hnone] at htext
    cases htext

end Tally.Command
