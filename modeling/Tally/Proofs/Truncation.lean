import Mathlib.Data.Nat.Find
import Tally.Proofs.FirstFault

/-! Sinks that fill up. With room for so many bytes a run writes as many of the bytes that it
writes without a limit, and is the same run up to the line that does not fit. -/

namespace Tally

namespace Sink

/-- Goes on with the sink that is left, unless it refused. -/
def Written.andThen (w : Written) (next : Sink → Written) : Written :=
  match w.refused with
  | some _ => w
  | none => { next w.sink with bytes := w.bytes ++ (next w.sink).bytes }

/-- How many bytes a sink takes at once if it likes so many besides the first. -/
def share (s : Sink) (liked offered : Nat) : Nat :=
  match s.room with
  | none => min (liked + 1) offered
  | some room => min (min (liked + 1) offered) room

/-- Offers bytes until none is left or none is taken. How many more than one the sink likes to
take of those that are left is its own affair. -/
def handOver (likes : List UInt8 → Nat) (s : Sink) (bytes : List UInt8) : Written :=
  if bytes = [] then ⟨[], s, none⟩
  else
    let taken := s.share (likes bytes) bytes.length
    if taken = 0 then ⟨[], s, some s.refusal⟩
    else
      let others := handOver likes { s with room := s.room.map (· - taken) } (bytes.drop taken)
      { others with bytes := bytes.take taken ++ others.bytes }
termination_by bytes.length
decreasing_by
  have : 0 < bytes.length := List.length_pos_iff.mpr ‹_›
  rw [List.length_drop]
  omega

variable {s : Sink} {likes : List UInt8 → Nat} {bytes more : List UInt8} {room liked offered : Nat}
  {refusal : Refusal}

theorem write_unlimited (h : s.room = none) : s.write bytes = ⟨bytes, s, none⟩ := by
  rw [write, h]

theorem write_of_le (h : bytes.length ≤ room) :
    write ⟨some room, refusal⟩ bytes = ⟨bytes, ⟨some (room - bytes.length), refusal⟩, none⟩ := by
  simp [write, h]

theorem write_of_lt (h : room < bytes.length) :
    write ⟨some room, refusal⟩ bytes = ⟨bytes.take room, ⟨some 0, refusal⟩, some refusal⟩ := by
  have hle : ¬ bytes.length ≤ room := by omega
  have hroom : room - bytes.length = 0 := by omega
  simp [write, hle, hroom]

/-- Bytes may as well be written in two parts. -/
theorem write_append (s : Sink) (bytes more : List UInt8) :
    s.write (bytes ++ more) = (s.write bytes).andThen fun t => t.write more := by
  obtain ⟨_ | room, refusal⟩ := s
  · simp [write, Written.andThen]
  · by_cases hbytes : bytes.length ≤ room
    · rw [write_of_le hbytes, Written.andThen]
      by_cases hmore : more.length ≤ room - bytes.length
      · have hboth : (bytes ++ more).length ≤ room := by
          rw [List.length_append]
          omega
        rw [write_of_le hboth, write_of_le hmore, List.length_append, Nat.sub_sub]
      · have hboth : room < (bytes ++ more).length := by
          rw [List.length_append]
          omega
        rw [write_of_lt hboth, write_of_lt (by omega), List.take_append,
          List.take_of_length_le hbytes]
    · have hboth : room < (bytes ++ more).length := by
        rw [List.length_append]
        omega
      rw [write_of_lt hboth, write_of_lt (by omega), Written.andThen,
        List.take_append_of_le_length (by omega)]

theorem share_le (s : Sink) (liked offered : Nat) : s.share liked offered ≤ offered := by
  rw [share]
  split <;> omega

/-- What a sink takes at once it writes. -/
theorem write_share (h : bytes.length = s.share liked offered) :
    s.write bytes = ⟨bytes, { s with room := s.room.map (· - bytes.length) }, none⟩ := by
  obtain ⟨_ | room, refusal⟩ := s
  · rfl
  · have hle : bytes.length ≤ room := by
      simp only [share] at h
      omega
    rw [write_of_le hle]
    rfl

theorem write_of_share_eq_zero (hne : bytes ≠ []) (h : s.share liked bytes.length = 0) :
    s.write bytes = ⟨[], s, some s.refusal⟩ := by
  have hpos := List.length_pos_iff.mpr hne
  obtain ⟨_ | room, refusal⟩ := s
  · simp only [share] at h
    omega
  · obtain rfl : room = 0 := by
      simp only [share] at h
      omega
    rw [write_of_lt hpos]
    rfl

/-- Whatever a sink likes to take at once, in the end it takes what there is room for. -/
theorem handOver_eq_write (likes : List UInt8 → Nat) (s : Sink) (bytes : List UInt8) :
    s.handOver likes bytes = s.write bytes := by
  rw [handOver]
  split
  case isTrue hnil =>
    subst hnil
    obtain ⟨_ | room, refusal⟩ := s <;> simp [write]
  case isFalse hne =>
    simp only
    split
    case isTrue hzero => rw [write_of_share_eq_zero hne hzero]
    case isFalse hshare =>
      have hle := s.share_le (likes bytes) bytes.length
      have hpos := List.length_pos_iff.mpr hne
      have hlen : (bytes.take (s.share (likes bytes) bytes.length)).length =
          s.share (likes bytes) bytes.length := by
        rw [List.length_take]
        omega
      have hsplit := s.write_append (bytes.take (s.share (likes bytes) bytes.length))
        (bytes.drop (s.share (likes bytes) bytes.length))
      rw [List.take_append_drop, write_share hlen, hlen, Written.andThen] at hsplit
      rw [hsplit, handOver_eq_write]
termination_by bytes.length
decreasing_by
  rw [List.length_drop]
  omega

/-- A line may be handed over as its text and the newline behind it. -/
theorem handOver_line (likes : List UInt8 → Nat) (s : Sink) (text : String) :
    ((s.handOver likes (textBytes text)).andThen fun t => t.handOver likes (textBytes "\n")) =
      s.write (lineBytes text) := by
  rw [lineBytes, write_append, handOver_eq_write]
  congr 1
  funext t
  exact handOver_eq_write likes t _

end Sink

/-- A machine with this store whose sink never fills up. -/
def Machine.free (store : Store) : Machine := ⟨store, .unlimited⟩

section Runs

variable {store : Store} {s : Statement} {program : Program} {room n k : Nat} {refusal : Refusal}

theorem Statement.run_free (s : Statement) (store : Store) :
    (s.run (.free store)).machine = .free (s.run (.free store)).machine.store := by
  rcases s.silent_or_prints store with ⟨fault, left, hs⟩ | ⟨line, hs⟩
  · rw [Machine.free, hs.run_eq]
    rfl
  · rw [Machine.free, hs.run_eq, Sink.write_unlimited rfl]
    rfl

/-- A statement whose line fits runs as without a limit. -/
theorem Statement.run_of_fits (h : (s.run (.free store)).output.length ≤ room) :
    s.run ⟨store, some room, refusal⟩ =
      ⟨(s.run (.free store)).fault, (s.run (.free store)).output,
        (s.run (.free store)).machine.store,
        some (room - (s.run (.free store)).output.length), refusal⟩ := by
  rcases s.silent_or_prints store with ⟨fault, left, hs⟩ | ⟨line, hs⟩
  · rw [Machine.free, hs.run_eq, hs.run_eq]
    simp
  · have hfree := hs.run_eq .unlimited
    rw [Sink.write_unlimited rfl] at hfree
    rw [Machine.free, hfree] at h ⊢
    rw [hs.run_eq, Sink.write_of_le h]

/-- A statement whose line does not fit is cut off where the room ends. -/
theorem Statement.run_of_exceeds (h : room < (s.run (.free store)).output.length) :
    (∃ items, s = .print items) ∧ s.run ⟨store, some room, refusal⟩ =
      ⟨some (.output refusal), (s.run (.free store)).output.take room, store, some 0, refusal⟩ := by
  rcases s.silent_or_prints store with ⟨fault, left, hs⟩ | ⟨line, hs⟩
  · rw [Machine.free, hs.run_eq] at h
    simp at h
  · obtain ⟨items, values, hitems, -, -⟩ := hs.line_eq
    have hfree := hs.run_eq .unlimited
    rw [Sink.write_unlimited rfl] at hfree
    rw [Machine.free, hfree] at h ⊢
    rw [hs.run_eq, Sink.write_of_lt h]
    exact ⟨⟨items, hitems⟩, rfl⟩

theorem Program.run_free (program : Program) (store : Store) :
    (run (.free store) program).machine = .free (run (.free store) program).machine.store := by
  induction program generalizing store with
  | nil => rfl
  | cons s rest ih =>
    rw [run_cons]
    cases hs : (s.run (.free store)).fault with
    | some fault =>
      rw [Outcome.andThen_of_fault hs]
      exact s.run_free store
    | none =>
      rw [Outcome.andThen_of_none hs, s.run_free store]
      exact ih _

/-- A program whose output fits runs as without a limit. -/
theorem Program.run_of_fits (h : (run (.free store) program).output.length ≤ room) :
    run ⟨store, some room, refusal⟩ program =
      ⟨(run (.free store) program).fault, (run (.free store) program).output,
        (run (.free store) program).machine.store,
        some (room - (run (.free store) program).output.length), refusal⟩ := by
  induction program generalizing store room with
  | nil => rfl
  | cons s rest ih =>
    have hfree := run_cons (.free store) s rest
    have hlimited := run_cons ⟨store, some room, refusal⟩ s rest
    cases hs : (s.run (.free store)).fault with
    | some fault =>
      rw [Outcome.andThen_of_fault hs] at hfree
      rw [hfree] at h ⊢
      rw [hlimited, Statement.run_of_fits h, hs, Outcome.andThen_of_fault rfl]
    | none =>
      rw [Outcome.andThen_of_none hs, s.run_free store] at hfree
      rw [hfree, List.length_append] at h
      rw [hlimited, Statement.run_of_fits (by omega), hs, Outcome.andThen_of_none rfl,
        ih (by omega), hfree, List.length_append, Nat.sub_sub]

/-- The statement with this number prints the line that no longer fits. -/
structure Program.Exceeds (program : Program) (store : Store) (n k : Nat) : Prop where
  fits : ∀ j ≤ k, (run (.free store) (program.take j)).output.length ≤ n
  exceeds : n < (run (.free store) (program.take (k + 1))).output.length

theorem Program.exists_exceeds (h : n < (run (.free store) program).output.length) :
    ∃ k, program.Exceeds store n k := by
  classical
  have hex : ∃ k, n < (run (.free store) (program.take k)).output.length :=
    ⟨program.length, by simpa using h⟩
  obtain ⟨k, hk⟩ : ∃ k, Nat.find hex = k + 1 := by
    refine Nat.exists_eq_succ_of_ne_zero fun hzero => ?_
    have hfirst := Nat.find_spec hex
    rw [hzero] at hfirst
    simp at hfirst
  refine ⟨k, ?_, hk ▸ Nat.find_spec hex⟩
  intro j hj
  exact Nat.le_of_not_lt (Nat.find_min hex (by omega))

theorem Program.Exceeds.statement (h : program.Exceeds store n k) : ∃ s, program[k]? = some s := by
  rw [← Option.isSome_iff_exists, Option.isSome_iff_ne_none]
  intro hnone
  have hlen := List.getElem?_eq_none_iff.mp hnone
  have hlt := h.exceeds
  have hle := h.fits k (Nat.le_refl k)
  rw [List.take_of_length_le (by omega)] at hlt hle
  omega

/-- The run with a limit is the run without it up to the statement that exceeds the limit. -/
theorem Program.Exceeds.run_eq (h : program.Exceeds store n k) :
    (run (.free store) (program.take k)).fault = none ∧
    (∃ items, program[k]? = some (.print items)) ∧
    run ⟨store, some n, refusal⟩ program =
      ⟨some (.output refusal), (run (.free store) program).output.take n,
        (run (.free store) (program.take k)).machine.store, some 0, refusal⟩ := by
  obtain ⟨s, hs⟩ := h.statement
  have hfits := h.fits k (Nat.le_refl k)
  have hexceeds := h.exceeds
  rw [List.take_add_one, hs, Option.toList_some, run_append] at hexceeds
  have hprogram : program.take k ++ s :: program.drop (k + 1) = program := by
    obtain ⟨hlt, rfl⟩ := List.getElem?_eq_some_iff.mp hs
    rw [← List.drop_eq_getElem_cons hlt, List.take_append_drop]
  -- the statements before run through, for otherwise the next one would add nothing
  have hnone : (run (.free store) (program.take k)).fault = none := by
    rw [Option.eq_none_iff_forall_ne_some]
    intro fault hfault
    rw [Outcome.andThen_of_fault hfault] at hexceeds
    omega
  have hfree := run_append (.free store) (program.take k) (s :: program.drop (k + 1))
  have hlimited := run_append ⟨store, some n, refusal⟩ (program.take k) (s :: program.drop (k + 1))
  rw [Outcome.andThen_of_none hnone, run_singleton, List.length_append] at hexceeds
  rw [hprogram, Outcome.andThen_of_none hnone] at hfree
  rw [hprogram, run_of_fits hfits, hnone, Outcome.andThen_of_none rfl] at hlimited
  rw [run_free] at hexceeds hfree
  obtain ⟨hitems, hcut⟩ := @Statement.run_of_exceeds
    (run (.free store) (program.take k)).machine.store s
    (n - (run (.free store) (program.take k)).output.length) refusal (by omega)
  refine ⟨hnone, by simpa [hs] using hitems, ?_⟩
  rw [hlimited, run_cons, hcut, Outcome.andThen_of_fault rfl, hfree]
  obtain ⟨more, hmore⟩ := Outcome.output_andThen
    (s.run (.free (run (.free store) (program.take k)).machine.store))
    fun m => run m (program.drop (k + 1))
  rw [run_cons, ← hmore, List.take_append, List.take_of_length_le hfits,
    List.take_append_of_le_length (by omega)]

end Runs

/-- A line may be handed over in portions as the sink likes them. A run with room for so many
bytes is the run without a limit if all that this one writes fits. If not, it writes as much of
it as fits, and ends with a fault of the output at the first line that goes over the limit. -/
theorem run_limited (program : Program) (store : Store) (n : Nat) (refusal : Refusal) :
    (∀ likes text, ((Sink.mk (some n) refusal).handOver likes (textBytes text)).andThen
        (fun t => t.handOver likes (textBytes "\n")) =
      (Sink.mk (some n) refusal).write (lineBytes text)) ∧
    ((program.run (.free store)).output.length ≤ n →
      (program.run ⟨store, some n, refusal⟩).fault = (program.run (.free store)).fault ∧
      (program.run ⟨store, some n, refusal⟩).output = (program.run (.free store)).output ∧
      (program.run ⟨store, some n, refusal⟩).machine.store =
        (program.run (.free store)).machine.store) ∧
    (n < (program.run (.free store)).output.length →
      (program.run ⟨store, some n, refusal⟩).fault = some (.output refusal) ∧
      (program.run ⟨store, some n, refusal⟩).output =
        (program.run (.free store)).output.take n ∧
      ∃ k items, program.Exceeds store n k ∧ program[k]? = some (.print items) ∧
        (Program.run (.free store) (program.take k)).fault = none ∧
        (program.run ⟨store, some n, refusal⟩).machine.store =
          (Program.run (.free store) (program.take k)).machine.store) := by
  refine ⟨fun likes text => Sink.handOver_line likes _ text, ?_, ?_⟩
  · intro hfits
    rw [Program.run_of_fits hfits]
    exact ⟨rfl, rfl, rfl⟩
  · intro hlt
    obtain ⟨k, hk⟩ := Program.exists_exceeds hlt
    obtain ⟨hnone, ⟨items, hitems⟩, hrun⟩ := hk.run_eq
    rw [hrun]
    exact ⟨rfl, rfl, k, items, hk, hitems, hnone, rfl⟩

/-- Two lines of five and of two bytes, and an assignment behind each. -/
def linesProgram : Program :=
  [.print [.text "é", .integer 1], .assign "a" (.integer 1), .print [.integer 2],
   .assign "a" (.integer 3)]

theorem linesProgram_limited :
    ((linesProgram.run (.free .empty)).output.length = 7 ∧
      (linesProgram.run ⟨.empty, some 7, .noProgress⟩).fault = none ∧
      (linesProgram.run ⟨.empty, some 7, .noProgress⟩).machine.store.bindings =
        [("a", .integer 3)]) ∧
    (linesProgram.run ⟨.empty, some 6, .closed⟩).fault = some (.output .closed) ∧
    (linesProgram.run ⟨.empty, some 6, .closed⟩).output = lineBytes "é 1" ++ textBytes "2" ∧
    (linesProgram.run ⟨.empty, some 6, .closed⟩).machine.store.bindings = [("a", .integer 1)] := by
  obtain ⟨-, hfits, -⟩ := run_limited linesProgram .empty 7 .noProgress
  obtain ⟨-, -, hcut⟩ := run_limited linesProgram .empty 6 .closed
  obtain ⟨hfault, -, hstore⟩ := hfits (by decide)
  obtain ⟨hrefused, houtput, k, items, hk, hitems, -, hleft⟩ := hcut (by decide)
  have hsecond : k = 2 := by
    rcases k with _ | _ | _ | k
    · exact absurd hk.exceeds (by decide)
    · simp [linesProgram] at hitems
    · rfl
    · cases k <;> simp [linesProgram] at hitems
  subst hsecond
  refine ⟨⟨by decide, hfault.trans (by decide), by rw [hstore]; decide⟩, hrefused, ?_, ?_⟩
  · rw [houtput]
    decide
  · rw [hleft]
    decide

end Tally
