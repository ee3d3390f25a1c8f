import JtagPlayer.Proofs.Emission
import JtagPlayer.Proofs.Searching
import JtagPlayer.Register

/-!
# Where canonical routes lead

A canonical route is the result of a search, so there is one between any two stable states,
`TapState.exists_route`, and it leads to its target, `TapState.follow_route`. What holds of the
states on the way is found by going through the table: none of the clocks of a route begins at its
target, `TapState.route_before_target`, and a route that begins outside the shift states shifts
nothing, `TapState.route_from_rest`.
-/

namespace JtagPlayer

namespace TapState

/-- The states to rest in that are no shift states. -/
def rest : List TapState :=
  [reset, idle, drPause, irPause]

/-- Whether a register is shifted in this state. -/
def IsShift (state : TapState) : Prop :=
  ∃ register : Register, state = register.shiftState

theorem isShift_iff {state : TapState} : state.IsShift ↔ state = drShift ∨ state = irShift := by
  constructor
  · rintro ⟨register, rfl⟩
    cases register
    · exact .inl rfl
    · exact .inr rfl
  · rintro (rfl | rfl)
    · exact ⟨.data, rfl⟩
    · exact ⟨.instruction, rfl⟩

instance (state : TapState) : Decidable state.IsShift :=
  decidable_of_iff _ isShift_iff.symm

/-- A stable state is one to rest in or a shift state. -/
theorem mem_rest_of_mem_stable {state : TapState} (h : state ∈ stable) (hshift : ¬ state.IsShift) :
    state ∈ rest := by
  cases state <;> revert h hshift <;> decide

theorem not_isShift_of_mem_rest {state : TapState} (h : state ∈ rest) : ¬ state.IsShift := by
  cases state <;> revert h <;> decide

/-- With TMS low a controller stays in a state to rest in, or goes from the reset state to idle. -/
theorem next_low_mem_rest {state : TapState} (h : state ∈ rest) : state.next false ∈ rest := by
  cases state <;> revert h <;> decide

variable {start target : TapState} {word : List Bool}

/-- A route is an entry of the table. -/
theorem mem_of_route (h : start.route? target = some word) :
    ((start, target), word) ∈ RouteTable.canonical.entries := by
  obtain ⟨first, second, hentries, -⟩ := List.lookup_eq_some_iff.mp h
  rw [hentries]
  simp

theorem mem_stable_of_route (h : start.route? target = some word) :
    start ∈ stable ∧ target ∈ stable := by
  obtain ⟨hstart, htarget, -⟩ := RouteTable.route?_ofStates.mp h
  exact ⟨hstart, htarget⟩

/-- There is a route between any two stable states. -/
theorem exists_route (hstart : start ∈ stable) (htarget : target ∈ stable) :
    ∃ word, start.route? target = some word := by
  obtain ⟨word, hword, -⟩ := shortestWord?_first start target
  exact ⟨word, RouteTable.route?_ofStates.mpr ⟨hstart, htarget, hword⟩⟩

/-- The edges of a word lead where the word leads. -/
theorem follow_word (start : TapState) (word : List Bool) :
    start.follow (Edge.word word) = start.walk word := by
  rw [follow, Edge.word, List.map_map, show Edge.tms ∘ Edge.quiet = id from rfl, List.map_id]

/-- A route leads to its target. -/
theorem follow_route (h : start.route? target = some word) :
    start.follow (Edge.word word) = target := by
  obtain ⟨-, -, hword⟩ := RouteTable.route?_ofStates.mp h
  obtain ⟨first, hfirst, hwalk, -⟩ := shortestWord?_first start target
  cases hfirst.symm.trans hword
  rw [follow_word, hwalk]

/-- A route from a state to rest in shifts nothing. -/
theorem route_from_rest (h : start.route? target = some word) (hstart : start ∈ rest) :
    ∀ pulse ∈ start.pulses (Edge.word word), ¬ pulse.state.IsShift := by
  have hall : ∀ entry ∈ RouteTable.canonical.entries, entry.1.1 ∈ rest →
      ∀ pulse ∈ entry.1.1.pulses (Edge.word entry.2), ¬ pulse.state.IsShift := by decide
  exact hall _ (mem_of_route h) hstart

/-- A route ends where its target is reached first. -/
theorem route_before_target (h : start.route? target = some word) :
    ∀ pulse ∈ start.pulses (Edge.word word), pulse.state ≠ target := by
  have hall : ∀ entry ∈ RouteTable.canonical.entries,
      ∀ pulse ∈ entry.1.1.pulses (Edge.word entry.2), pulse.state ≠ entry.1.2 := by decide
  exact hall _ (mem_of_route h)

end TapState

end JtagPlayer
