import JtagPlayer.Proofs.Clocking
import JtagPlayer.Proofs.Numbers
import JtagPlayer.Scan.Shift

/-!
# What the device sees of words and scans

`TapDriver.Emits edges action` says which edges an action is meant to give to the device. Whatever
happens on the bus, the device sees a beginning of them, all of them if the action ends well, and if
no operation on the bus fails only an overdue edge can keep the action from its end.

`TapDriver.clockWord_emits` and `Segments.shift_emits` say what words of TMS levels and scans emit.
-/

namespace JtagPlayer

open JtagPlayer.Action

/-- The edge of a clock with the data line low. -/
def Edge.quiet (tms : Bool) : Edge where
  tms := tms
  tdi := false

/-- The edges of a word of TMS levels. -/
def Edge.word (word : List Bool) : List Edge :=
  word.map Edge.quiet

namespace TapDriver

variable {α β : Type}

/-- The edges that an action is meant to give to the device. -/
structure Emits (edges : List Edge) (action : Action TapDriver α) : Prop where
  begins : ∀ {driver exchanges result driver'}, action.Course driver exchanges result driver' →
    ∀ lines : Lines, lines.edges exchanges <+: edges
  complete : ∀ {driver exchanges x driver'}, action.Course driver exchanges (.ok x) driver' →
    ∀ lines : Lines, lines.edges exchanges = edges
  steady : ∀ {driver exchanges reason driver'},
    action.Course driver exchanges (.error reason) driver' → Flawless exchanges →
      reason = .deadlineOverflow

theorem emits_pure (x : α) : Emits [] (Pure.pure x) where
  begins := by
    intro driver exchanges result driver' hcourse lines
    obtain ⟨rfl, -, -⟩ := course_pure.mp hcourse
    exact List.nil_prefix
  complete := by
    intro driver exchanges y driver' hcourse lines
    obtain ⟨rfl, -, -⟩ := course_pure.mp hcourse
    rfl
  steady := by
    intro driver exchanges reason driver' hcourse hflawless
    obtain ⟨-, hreason, -⟩ := course_pure.mp hcourse
    cases hreason

/-- One action after the other emits first its own edges and then those of the other. -/
theorem emits_bind {first second : List Edge} {action : Action TapDriver α}
    {f : α → Action TapDriver β} (hfirst : Emits first action)
    (hsecond : ∀ x, Emits second (f x)) : Emits (first ++ second) (action >>= f) where
  begins := by
    intro driver exchanges result driver' hcourse lines
    rcases course_bind.mp hcourse with
      ⟨early, late, x, middle, haction, hrest, rfl⟩ | ⟨reason, hstop, rfl⟩
    · rw [Lines.edges_append, hfirst.complete haction lines]
      exact List.prefix_append_right_inj _ |>.mpr ((hsecond x).begins hrest _)
    · exact (hfirst.begins hstop lines).trans (List.prefix_append _ _)
  complete := by
    intro driver exchanges y driver' hcourse lines
    rcases course_bind.mp hcourse with
      ⟨early, late, x, middle, haction, hrest, rfl⟩ | ⟨reason, hstop, hresult⟩
    · rw [Lines.edges_append, hfirst.complete haction lines, (hsecond x).complete hrest]
    · cases hresult
  steady := by
    intro driver exchanges reason driver' hcourse hflawless
    rcases course_bind.mp hcourse with
      ⟨early, late, x, middle, haction, hrest, rfl⟩ | ⟨reason, hstop, hresult⟩
    · exact (hsecond x).steady hrest (flawless_append.mp hflawless).2
    · cases hresult
      exact hfirst.steady hstop hflawless

theorem emits_note (entry : LogEntry) : Emits [] (note entry : Action TapDriver Unit) where
  begins := by
    intro driver exchanges result driver' hcourse lines
    obtain ⟨answer, rfl, -, -⟩ := course_ask.mp hcourse
    exact List.nil_prefix
  complete := by
    intro driver exchanges x driver' hcourse lines
    obtain ⟨answer, rfl, -, -⟩ := course_ask.mp hcourse
    rfl
  steady := by
    intro driver exchanges reason driver' hcourse hflawless
    obtain ⟨answer, -, hreason, -⟩ := course_ask.mp hcourse
    cases hreason

/-- A clock emits its one edge. -/
theorem clock_emits (tms tdi : Bool) : Emits [⟨tms, tdi⟩] (clock tms tdi) where
  begins := by
    intro driver exchanges result driver' hcourse lines
    rcases clock_edges hcourse lines with ⟨hedges, -, -⟩ | ⟨hedges, -, -, -⟩
    · exact hedges ▸ List.prefix_rfl
    · rw [hedges]
      exact List.nil_prefix
  complete := by
    intro driver exchanges x driver' hcourse lines
    rcases clock_edges hcourse lines with ⟨hedges, -, -⟩ | ⟨-, -, -, reason, hresult⟩
    · exact hedges
    · cases hresult
  steady := by
    intro driver exchanges reason driver' hcourse hflawless
    rcases clock_flawless hcourse hflawless {} with ⟨level, hresult, -, -⟩ | ⟨hresult, -, -⟩
    · cases hresult
    · cases hresult
      rfl

/-- A word of clocks emits one edge for each of its levels, with the data line low. -/
theorem clockWord_emits (word : List Bool) : Emits (Edge.word word) (clockWord word) := by
  induction word with
  | nil => exact emits_pure ()
  | cons tms word ih => exact emits_bind (clock_emits tms false) fun _ => ih

/-- A reset emits five edges with the mode line high. -/
theorem reset_emits : Emits (List.replicate 5 (Edge.quiet true)) reset :=
  clockWord_emits (List.replicate 5 true)

/-- The edges of a scan. The last one leaves the shift state if `leave` is set. -/
def shiftEdges (leave : Bool) : List Bool → List Edge
  | [] => []
  | bit :: bits => ⟨leave && bits.isEmpty, bit⟩ :: shiftEdges leave bits

/-- Only the last edge of all leaves the shift state, so a first part does not if more bits follow
it. -/
theorem shiftEdges_append (leave : Bool) (bits more : List Bool) :
    shiftEdges leave (bits ++ more) =
      shiftEdges (leave && more.isEmpty) bits ++ shiftEdges leave more := by
  induction bits with
  | nil => rfl
  | cons bit bits ih =>
    have hlast : (leave && (bits ++ more).isEmpty) = (leave && more.isEmpty && bits.isEmpty) := by
      cases bits <;> cases more <;> simp
    rw [List.cons_append, shiftEdges, shiftEdges, ih, hlast]
    rfl

/-- Shifting emits one edge for each bit. -/
theorem shiftBits_emits (leave : Bool) (bits received : List Bool) :
    Emits (shiftEdges leave bits) (shiftBits leave bits received) := by
  induction bits generalizing received with
  | nil => exact emits_pure received
  | cons bit bits ih => exact emits_bind (clock_emits _ bit) fun _ => ih _

/-- A pattern is emitted bit by bit, from its lowest one up. -/
theorem shiftPattern_emits (leave : Bool) (pattern : Pattern) :
    Emits (shiftEdges leave pattern.bits) (shiftPattern leave pattern) := by
  rw [shiftPattern_eq, ← List.append_nil (shiftEdges leave pattern.bits)]
  exact emits_bind (shiftBits_emits leave _ _) fun received => emits_pure _

end TapDriver

namespace Segments

/-- The bits of a scan, in the order in which they are sent. -/
def bits (segments : Segments) : List Bool :=
  segments.header.bits ++ (segments.payload.bits ++ segments.trailer.bits)

/-- A scan emits one edge for each of its bits. -/
theorem shift_emits (segments : Segments) :
    TapDriver.Emits (TapDriver.shiftEdges true segments.bits) segments.shift := by
  -- A segment leaves the shift state with its last bit if no bit follows it.
  have hpayload : (segments.trailer.length == 0) = (true && segments.trailer.bits.isEmpty) := by
    rw [Pattern.isEmpty_bits, Bool.true_and]
  have hheader : (segments.trailer.length == 0 && segments.payload.length == 0) =
      (true && (segments.payload.bits ++ segments.trailer.bits).isEmpty) := by
    rw [← Pattern.isEmpty_bits, ← Pattern.isEmpty_bits, Bool.true_and]
    cases segments.payload.bits <;> simp
  rw [bits, TapDriver.shiftEdges_append, TapDriver.shiftEdges_append, ← hpayload, ← hheader]
  refine TapDriver.emits_bind (TapDriver.shiftPattern_emits _ _) fun header => ?_
  refine TapDriver.emits_bind (TapDriver.shiftPattern_emits _ _) fun payload => ?_
  rw [← List.append_nil (TapDriver.shiftEdges true _)]
  refine TapDriver.emits_bind (TapDriver.shiftPattern_emits _ _) fun trailer => ?_
  exact TapDriver.emits_bind (TapDriver.emits_note _) fun _ => TapDriver.emits_pure _

end Segments

end JtagPlayer
