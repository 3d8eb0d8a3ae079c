import Mathlib.Algebra.Order.Group.Abs
import Mathlib.Tactic.Abel

/-!
# Offsets between two clocks

A party reads its own clock, then asks another one for its time, and takes the difference for the
offset between the two clocks. The other clock was read after its own, so that the offset is too
large by what passed in between, and it ages as the clocks drift apart.

## Key results

- `MeasuredOffset.le_corrected`, `MeasuredOffset.corrected_le`: the error of a corrected reading
-/

variable {T G : Type*} [Preorder T] [AddCommGroup G] [LinearOrder G]

/-- `offset` is the difference of a reading of the other clock and an earlier one of its own,
    both made by `time`, with at most `latency` between them. -/
def MeasuredOffset (own other : T → G) (latency : G) (time : T) (offset : G) : Prop :=
  ∃ began stamped, began ≤ stamped ∧ stamped ≤ time ∧
    offset = other stamped - own began ∧ other stamped - other began ≤ latency

/-- The clocks drift apart by at most `drift`. -/
def DriftWithin (own other : T → G) (drift : G) : Prop :=
  ∀ t t', other t - own t - (other t' - own t') ≤ drift

namespace MeasuredOffset

variable {own other : T → G} {latency drift offset : G} {time later t : T}

/-- A measured offset stays within its bound as time goes on. -/
theorem mono (h : MeasuredOffset own other latency time offset) (hle : time ≤ later) :
    MeasuredOffset own other latency later offset := by
  obtain ⟨began, stamped, hbegan, hstamped, hoffset, hlatency⟩ := h
  exact ⟨began, stamped, hbegan, hstamped.trans hle, hoffset, hlatency⟩

variable [IsOrderedAddMonoid G]

/-- A corrected reading is not behind the other clock by more than the drift. -/
theorem le_corrected (h : MeasuredOffset own other latency time offset) (hmono : Monotone other)
    (hdrift : DriftWithin own other drift) : other t - drift ≤ own t + offset := by
  obtain ⟨began, stamped, hbegan, -, rfl, -⟩ := h
  have hpassed : other began ≤ other stamped := hmono hbegan
  have hskew := hdrift t began
  calc other t - drift
      ≤ other t - (other t - own t - (other began - own began)) := sub_le_sub_left hskew _
    _ = own t + (other began - own began) := by abel
    _ ≤ own t + (other stamped - own began) := by gcongr

/-- It is not ahead by more than the latency and the drift. -/
theorem corrected_le (h : MeasuredOffset own other latency time offset)
    (hdrift : DriftWithin own other drift) : own t + offset ≤ other t + (latency + drift) := by
  obtain ⟨began, stamped, -, -, rfl, hlatency⟩ := h
  have hskew := hdrift began t
  calc own t + (other stamped - own began)
      = other t + ((other stamped - other began) +
          (other began - own began - (other t - own t))) := by abel
    _ ≤ other t + (latency + drift) := by gcongr

end MeasuredOffset
