import JtagPlayer.Bus.Line

/-!
# Pin numbers

The lines of a bus may be connected to general-purpose pins of a board, which are known by number.
-/

namespace JtagPlayer

/-- The numbers of the pins that the four lines are connected to. -/
structure PinNumbers where
  tck : Nat := 11
  tms : Nat := 25
  tdi : Nat := 10
  tdo : Nat := 9
  deriving DecidableEq, Inhabited

namespace PinNumbers

/-- The pin of a line. -/
def ofLine (pins : PinNumbers) : Line → Nat
  | .tck => pins.tck
  | .tms => pins.tms
  | .tdi => pins.tdi
  | .tdo => pins.tdo

/-- The pins that are driven. -/
def outputs (pins : PinNumbers) : List Nat :=
  [pins.tck, pins.tms, pins.tdi]

/-- The pins of all lines. -/
def all (pins : PinNumbers) : List Nat :=
  [pins.tck, pins.tms, pins.tdi, pins.tdo]

theorem all_eq (pins : PinNumbers) : pins.all = pins.outputs ++ [pins.tdo] := rfl

theorem ofLine_mem_all (pins : PinNumbers) (line : Line) : pins.ofLine line ∈ pins.all := by
  cases line <;> simp [ofLine, all]

theorem ofLine_mem_outputs (pins : PinNumbers) {line : Line} (h : line ≠ .tdo) :
    pins.ofLine line ∈ pins.outputs := by
  cases line with
  | tck | tms | tdi => simp [ofLine, outputs]
  | tdo => exact absurd rfl h

/-- Distinct pins belong to different lines. -/
theorem ofLine_injective {pins : PinNumbers} (hnodup : pins.all.Nodup) {line other : Line}
    (h : pins.ofLine line = pins.ofLine other) : line = other := by
  simp only [all, List.nodup_cons, List.mem_cons, not_or] at hnodup
  cases line <;> cases other <;> simp_all [ofLine]

theorem mem_all_of_mem_outputs {pins : PinNumbers} {pin : Nat} (h : pin ∈ pins.outputs) :
    pin ∈ pins.all :=
  all_eq pins ▸ List.mem_append_left _ h

/-- Among distinct pins the one that is sampled is not driven. -/
theorem ne_tdo_of_mem_outputs {pins : PinNumbers} (hnodup : pins.all.Nodup) {pin : Nat}
    (h : pin ∈ pins.outputs) : pin ≠ pins.tdo := by
  rw [all_eq, List.nodup_append] at hnodup
  exact hnodup.2.2 pin h _ List.mem_cons_self

end PinNumbers

end JtagPlayer
