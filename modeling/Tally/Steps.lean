/-! Loops that keep what they do. -/

namespace Tally

/-- What a loop ends with, and the steps that it has done by then, in their order. -/
structure Steps (σ α : Type) where
  done : List σ
  ending : α

namespace Steps

variable {σ α β : Type}

/-- The same behind one more step. -/
def after (step : σ) (s : Steps σ α) : Steps σ α := ⟨step :: s.done, s.ending⟩

def map (f : α → β) (s : Steps σ α) : Steps σ β := ⟨s.done, f s.ending⟩

variable {step : σ} {f : α → β} {s : Steps σ α}

@[simp] theorem done_after : (s.after step).done = step :: s.done := rfl

@[simp] theorem ending_after : (s.after step).ending = s.ending := rfl

@[simp] theorem done_map : (s.map f).done = s.done := rfl

@[simp] theorem ending_map : (s.map f).ending = f s.ending := rfl

end Steps

end Tally
