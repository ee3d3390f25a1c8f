import JtagPlayer.Proofs.Course
import JtagPlayer.Tap.State

/-!
# The device at the other end of the bus

A device sees the bus through the levels of three driven lines. Each time the clock line rises it
takes over the levels of the other two, an `Edge`, and its controller moves on. `Lines.edges` lists
the edges that a series of exchanges makes, `Device.watch` is the device after them, and
`Device.watch_eq` says that the edges are all that it has noticed.

`Device.pulses` adds to every edge the state in which it finds the controller.
-/

namespace JtagPlayer

/-- The levels of the driven lines. -/
structure Lines where
  tck : Bool := false
  tms : Bool := false
  tdi : Bool := false
  deriving DecidableEq

/-- What a device takes over when the clock line rises. -/
structure Edge where
  tms : Bool
  tdi : Bool
  deriving DecidableEq

namespace Lines

/-- Brings a line to a level. -/
def drive (lines : Lines) : Line → Bool → Lines
  | .tck, level => { lines with tck := level }
  | .tms, level => { lines with tms := level }
  | .tdi, level => { lines with tdi := level }
  | .tdo, _ => lines

/-- The levels after an exchange. A failed write changes no line. -/
def after (lines : Lines) : Exchange → Lines
  | ⟨.write line level, .ok _⟩ => lines.drive line level
  | _ => lines

/-- Whether an exchange makes the clock line rise. -/
def rises (lines : Lines) : Exchange → Bool
  | ⟨.write .tck true, .ok _⟩ => !lines.tck
  | _ => false

/-- The levels after a series of exchanges. -/
def watch (lines : Lines) (exchanges : List Exchange) : Lines :=
  exchanges.foldl after lines

/-- The rising edges during a series of exchanges, in order. -/
def edges : Lines → List Exchange → List Edge
  | _, [] => []
  | lines, exchange :: rest =>
    if lines.rises exchange then ⟨lines.tms, lines.tdi⟩ :: edges (lines.after exchange) rest
    else edges (lines.after exchange) rest

@[simp] theorem edges_nil (lines : Lines) : lines.edges [] = [] := rfl

/-- The edges of exchanges in a row are those of the first and then, from the levels that these
leave, those of the second. -/
theorem edges_append (lines : Lines) (first second : List Exchange) :
    lines.edges (first ++ second) = lines.edges first ++ (lines.watch first).edges second := by
  induction first generalizing lines with
  | nil => rfl
  | cons exchange first ih =>
    have hwatch : lines.watch (exchange :: first) = (lines.after exchange).watch first := rfl
    rw [List.cons_append, edges, edges, ih, hwatch]
    split <;> rfl

/-- A call that drives no line makes no edge. -/
def IsIdle : Exchange → Prop
  | ⟨.write _ _, _⟩ => False
  | _ => True

/-- A call that does not touch the bus is idle whatever the answer. -/
theorem isIdle_of_isQuiet {c : Call} (h : c.IsQuiet) (answer : c.Answer) :
    IsIdle ⟨c, answer⟩ := by
  cases c with
  | write line level => exact h.elim
  | _ => trivial

/-- An idle exchange makes no edge and keeps the levels as they are. -/
theorem edges_cons_of_isIdle (lines : Lines) {exchange : Exchange} (h : IsIdle exchange)
    (rest : List Exchange) : lines.edges (exchange :: rest) = lines.edges rest := by
  obtain ⟨c, answer⟩ := exchange
  cases c <;> first | rfl | exact h.elim

/-- Exchanges that drive no line can be passed over. -/
theorem edges_append_of_isIdle (lines : Lines) {idle : List Exchange}
    (h : ∀ exchange ∈ idle, IsIdle exchange) (rest : List Exchange) :
    lines.edges (idle ++ rest) = lines.edges rest := by
  induction idle with
  | nil => rfl
  | cons exchange idle ih =>
    rw [List.cons_append, edges_cons_of_isIdle lines (h exchange (by simp))]
    exact ih fun other hother => h other (by simp [hother])

theorem edges_eq_nil_of_isIdle (lines : Lines) {idle : List Exchange}
    (h : ∀ exchange ∈ idle, IsIdle exchange) : lines.edges idle = [] := by
  rw [← List.append_nil idle, edges_append_of_isIdle lines h, edges_nil]

theorem watch_append (lines : Lines) (first second : List Exchange) :
    lines.watch (first ++ second) = (lines.watch first).watch second :=
  List.foldl_append

/-- They leave the lines as they are. -/
theorem watch_eq_of_isIdle (lines : Lines) {idle : List Exchange}
    (h : ∀ exchange ∈ idle, IsIdle exchange) : lines.watch idle = lines := by
  induction idle with
  | nil => rfl
  | cons exchange idle ih =>
    have hafter : lines.after exchange = lines := by
      have hidle := h exchange (by simp)
      obtain ⟨c, answer⟩ := exchange
      cases c with
      | write line level => exact hidle.elim
      | _ => rfl
    show (lines.after exchange).watch idle = lines
    rw [hafter]
    exact ih fun other hother => h other (by simp [hother])

end Lines

/-- A rising edge, and the state in which it finds the controller. -/
structure Pulse where
  state : TapState
  edge : Edge
  deriving DecidableEq

/-- The pulses that some edges are for a controller in a given state. -/
def TapState.pulses : TapState → List Edge → List Pulse
  | _, [] => []
  | state, edge :: edges => ⟨state, edge⟩ :: (state.next edge.tms).pulses edges

/-- The state in which some edges leave a controller. -/
def TapState.follow (state : TapState) (edges : List Edge) : TapState :=
  state.walk (edges.map Edge.tms)

namespace TapState

@[simp] theorem follow_cons (state : TapState) (edge : Edge) (edges : List Edge) :
    state.follow (edge :: edges) = (state.next edge.tms).follow edges := rfl

/-- The controller follows edges one after the other. -/
theorem follow_append (state : TapState) (first second : List Edge) :
    state.follow (first ++ second) = (state.follow first).follow second := by
  rw [follow, List.map_append, walk_append]
  rfl

@[simp] theorem pulses_nil (state : TapState) : state.pulses [] = [] := rfl

@[simp] theorem length_pulses (state : TapState) (edges : List Edge) :
    (state.pulses edges).length = edges.length := by
  induction edges generalizing state with
  | nil => rfl
  | cons edge edges ih => simp [pulses, ih]

/-- The pulses of edges in a row are those of the first and then, from the state that these lead to,
those of the second. -/
theorem pulses_append (state : TapState) (first second : List Edge) :
    state.pulses (first ++ second) = state.pulses first ++ (state.follow first).pulses second := by
  induction first generalizing state with
  | nil => rfl
  | cons edge first ih => simp [pulses, ih]

/-- Some edges at the beginning are the pulses at the beginning. -/
theorem pulses_prefix {first edges : List Edge} (h : first <+: edges) (state : TapState) :
    state.pulses first <+: state.pulses edges := by
  obtain ⟨second, rfl⟩ := h
  exact ⟨_, (state.pulses_append first second).symm⟩

end TapState

/-- A device: the levels that it sees and the state of its controller. -/
structure Device where
  lines : Lines := {}
  state : TapState := .reset
  deriving DecidableEq

namespace Device

/-- The device after an exchange. Its controller moves on whenever the clock line rises. -/
def sense (device : Device) (exchange : Exchange) : Device where
  lines := device.lines.after exchange
  state :=
    if device.lines.rises exchange then device.state.next device.lines.tms else device.state

/-- The device after a series of exchanges. -/
def watch (device : Device) (exchanges : List Exchange) : Device :=
  exchanges.foldl sense device

/-- The pulses that a series of exchanges gives to a device. -/
def pulses (device : Device) (exchanges : List Exchange) : List Pulse :=
  device.state.pulses (device.lines.edges exchanges)

/-- The controller follows the edges. -/
theorem watch_eq (device : Device) (exchanges : List Exchange) :
    device.watch exchanges =
      { lines := device.lines.watch exchanges
        state := device.state.follow (device.lines.edges exchanges) } := by
  induction exchanges generalizing device with
  | nil => rfl
  | cons exchange rest ih =>
    have hwatch : device.watch (exchange :: rest) = (device.sense exchange).watch rest := rfl
    rw [hwatch, ih, Lines.edges, sense]
    cases device.lines.rises exchange <;> rfl

end Device

/-- The level that a sample of the data line returned. -/
def Exchange.level? : Exchange → Option Bool
  | ⟨.read .tdo, .ok level⟩ => some level
  | _ => none

/-- The levels that the samples of the data line returned, in order. -/
def levels (exchanges : List Exchange) : List Bool :=
  exchanges.filterMap Exchange.level?

/-- No sample is taken by a call that leaves the bus alone. -/
theorem levels_cons_of_isQuiet {c : Call} (h : c.IsQuiet) (answer : c.Answer)
    (rest : List Exchange) : levels (⟨c, answer⟩ :: rest) = levels rest := by
  cases c with
  | read line => exact h.elim
  | _ => rfl

@[simp] theorem levels_append (first second : List Exchange) :
    levels (first ++ second) = levels first ++ levels second :=
  List.filterMap_append

end JtagPlayer
