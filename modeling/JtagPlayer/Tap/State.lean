/-!
# The states of a test access port

A test access port is a machine of sixteen states. Each rising edge of the test clock moves it to
one of two successors, chosen by the level of the mode line TMS. `TapState.next` is that table,
`TapState.walk` follows it along a word of TMS levels.

Six states are stable: a player may rest in them and routes exist between any two of them.
-/

namespace JtagPlayer

/-- The states of the controller: reset, idle, and seven states for each register family. -/
inductive TapState where
  | reset
  | idle
  | drSelect
  | drCapture
  | drShift
  | drExit1
  | drPause
  | drExit2
  | drUpdate
  | irSelect
  | irCapture
  | irShift
  | irExit1
  | irPause
  | irExit2
  | irUpdate
  deriving DecidableEq, Inhabited

namespace TapState

/-- Every state, in the order of the standard's diagram. -/
def all : List TapState :=
  [reset, idle, drSelect, drCapture, drShift, drExit1, drPause, drExit2, drUpdate,
    irSelect, irCapture, irShift, irExit1, irPause, irExit2, irUpdate]

/-- The name a state has in an instruction stream and in messages. -/
def name : TapState → String
  | reset => "RESET"
  | idle => "IDLE"
  | drSelect => "DRSELECT"
  | drCapture => "DRCAPTURE"
  | drShift => "DRSHIFT"
  | drExit1 => "DREXIT1"
  | drPause => "DRPAUSE"
  | drExit2 => "DREXIT2"
  | drUpdate => "DRUPDATE"
  | irSelect => "IRSELECT"
  | irCapture => "IRCAPTURE"
  | irShift => "IRSHIFT"
  | irExit1 => "IREXIT1"
  | irPause => "IRPAUSE"
  | irExit2 => "IREXIT2"
  | irUpdate => "IRUPDATE"

/-- The state with a given name. -/
def ofName? (name : String) : Option TapState :=
  all.find? fun state => state.name == name

/-- The state after one rising clock edge at which TMS has the given level. -/
def next : TapState → Bool → TapState
  | reset, tms => if tms then reset else idle
  | idle, tms => if tms then drSelect else idle
  | drSelect, tms => if tms then irSelect else drCapture
  | drCapture, tms => if tms then drExit1 else drShift
  | drShift, tms => if tms then drExit1 else drShift
  | drExit1, tms => if tms then drUpdate else drPause
  | drPause, tms => if tms then drExit2 else drPause
  | drExit2, tms => if tms then drUpdate else drShift
  | drUpdate, tms => if tms then drSelect else idle
  | irSelect, tms => if tms then reset else irCapture
  | irCapture, tms => if tms then irExit1 else irShift
  | irShift, tms => if tms then irExit1 else irShift
  | irExit1, tms => if tms then irUpdate else irPause
  | irPause, tms => if tms then irExit2 else irPause
  | irExit2, tms => if tms then irUpdate else irShift
  | irUpdate, tms => if tms then drSelect else idle

/-- The state reached along a word of TMS levels, one rising edge per level. -/
def walk (start : TapState) (word : List Bool) : TapState :=
  word.foldl next start

/-- The states visited along a word, one for each of its levels. -/
def trail : TapState → List Bool → List TapState
  | _, [] => []
  | state, tms :: word => state.next tms :: trail (state.next tms) word

/-- The level that leads to `target` in a single clock, low if both do. -/
def levelTo? (state target : TapState) : Option Bool :=
  [false, true].find? fun tms => state.next tms == target

/-- The states between which canonical routes exist. -/
def stable : List TapState :=
  [reset, idle, drPause, irPause, drShift, irShift]

/-- Whether a player may rest in this state. -/
def isStable (state : TapState) : Bool :=
  stable.contains state

@[simp] theorem walk_nil (start : TapState) : start.walk [] = start := rfl

@[simp] theorem walk_cons (start : TapState) (tms : Bool) (word : List Bool) :
    start.walk (tms :: word) = (start.next tms).walk word := rfl

theorem walk_append (start : TapState) (first second : List Bool) :
    start.walk (first ++ second) = (start.walk first).walk second :=
  List.foldl_append

/-- A trail has one state for each level of the word. -/
@[simp] theorem length_trail (start : TapState) (word : List Bool) :
    (start.trail word).length = word.length := by
  induction word generalizing start with
  | nil => rfl
  | cons tms word ih => simp [trail, ih]

/-- The two successors of a state are different. -/
theorem next_injective (state : TapState) : Function.Injective state.next := by
  intro first second h
  cases state <;> revert first second h <;> decide

/-- The level found leads to the target. -/
theorem next_of_levelTo? {state target : TapState} {tms : Bool}
    (h : state.levelTo? target = some tms) : state.next tms = target := by
  simpa using List.find?_some h

/-- None is found if neither level leads there. -/
theorem levelTo?_eq_none {state target : TapState} :
    state.levelTo? target = none ↔ ∀ tms, state.next tms ≠ target := by
  simp [levelTo?]

/-- Every state is listed. -/
theorem mem_all (state : TapState) : state ∈ all := by
  cases state <;> decide

/-- Names are read back. -/
@[simp] theorem ofName?_name (state : TapState) : ofName? state.name = some state := by
  cases state <;> decide

end TapState

end JtagPlayer
