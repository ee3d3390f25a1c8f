import JtagPlayer.Bus.Simulated
import JtagPlayer.Proofs.Completion
import JtagPlayer.Proofs.Parallel

/-!
# A run in which one operation fails

A `Sabotaged` bus is a bus on which one write or one read, chosen by its number, fails and changes
nothing. A run on it is compared with the run on the bus itself, in which nothing fails. The two
stay in lockstep until the chosen operation comes, and if it never comes they are the same to the
end.

`Player.sabotaged_run` puts this together with what becomes of a run whose operation fails: nothing
but the release of the bus follows, and the faults are those of the scans that were complete by
then. The two runs may read the same clock or each its own, as long as the program does not depend
on how long things take.
-/

namespace JtagPlayer

/-- The operations of a bus that are counted. -/
inductive OperationKind where
  | writes
  | reads
  deriving DecidableEq

/-- An operation on a bus that is to fail: the one with a given number, counted from zero among the
operations of its kind. -/
structure Sabotage where
  kind : OperationKind
  number : Nat
  error : IoError

namespace Sabotage

/-- Whether a call is one of the operations that are counted. -/
def counts (sabotage : Sabotage) : Call → Bool
  | .write _ _ => sabotage.kind = .writes
  | .read _ => sabotage.kind = .reads
  | _ => false

theorem not_isQuiet {sabotage : Sabotage} {c : Call} (h : sabotage.counts c = true) :
    ¬ c.IsQuiet := by
  cases c with
  | write | read => exact id
  | _ => cases h

/-- The number of counted operations among some exchanges. -/
def count (sabotage : Sabotage) (exchanges : List Exchange) : Nat :=
  exchanges.countP fun exchange => sabotage.counts exchange.call

end Sabotage

/-- A bus one of whose operations fails. -/
structure Sabotaged (β : Type) where
  bus : β
  sabotage : Sabotage
  /-- The number of counted operations so far. -/
  count : Nat := 0

namespace Sabotaged

variable {β α : Type}

/-- An operation that fails if it is the chosen one, and changes nothing then. -/
def operate (sabotaged : Sabotaged β) (c : Call) (operation : β → Except IoError α × β) :
    Except IoError α × Sabotaged β :=
  if sabotaged.sabotage.counts c then
    if sabotaged.count = sabotaged.sabotage.number then
      (.error sabotaged.sabotage.error, { sabotaged with count := sabotaged.count + 1 })
    else
      let (answer, bus) := operation sabotaged.bus
      (answer, { sabotaged with bus, count := sabotaged.count + 1 })
  else
    let (answer, bus) := operation sabotaged.bus
    (answer, { sabotaged with bus })

instance [Bus β] : Bus (Sabotaged β) where
  acquire sabotaged :=
    let (answer, bus) := Bus.acquire sabotaged.bus
    (answer, { sabotaged with bus })
  write line level sabotaged := sabotaged.operate (.write line level) (Bus.write line level)
  read line sabotaged := sabotaged.operate (.read line) (Bus.read line)
  release sabotaged := { sabotaged with bus := Bus.release sabotaged.bus }
  acquireNotes sabotaged := Bus.acquireNotes sabotaged.bus
  releaseNotes sabotaged := Bus.releaseNotes sabotaged.bus

/-- An operation that is not counted is that of the bus. -/
theorem operate_of_not_counts {sabotaged : Sabotaged β} {c : Call}
    (h : sabotaged.sabotage.counts c = false) (operation : β → Except IoError α × β) :
    sabotaged.operate c operation =
      ((operation sabotaged.bus).1, { sabotaged with bus := (operation sabotaged.bus).2 }) := by
  rw [operate, h, if_neg Bool.false_ne_true]

/-- So is one that is counted and not the chosen one. -/
theorem operate_of_counts {sabotaged : Sabotaged β} {c : Call}
    (h : sabotaged.sabotage.counts c = true) (hnumber : sabotaged.count ≠ sabotaged.sabotage.number)
    (operation : β → Except IoError α × β) :
    sabotaged.operate c operation =
      ((operation sabotaged.bus).1,
        { sabotaged with bus := (operation sabotaged.bus).2, count := sabotaged.count + 1 }) := by
  rw [operate, if_pos h, if_neg hnumber]

/-- The chosen operation fails. -/
theorem operate_chosen {sabotaged : Sabotaged β} {c : Call}
    (h : sabotaged.sabotage.counts c = true) (hnumber : sabotaged.count = sabotaged.sabotage.number)
    (operation : β → Except IoError α × β) :
    (sabotaged.operate c operation).1 = .error sabotaged.sabotage.error := by
  rw [operate, if_pos h, if_pos hnumber]

end Sabotaged

variable {β τ : Type} [Bus β] [Clock τ]

/-- The bench with an operation that fails, and with a clock that may be set differently. -/
def Bench.sabotaged (bench : Bench β τ) (sabotage : Sabotage) (clock : τ) :
    Bench (Sabotaged β) τ where
  bus := { bus := bench.bus, sabotage }
  clock := clock
  log := bench.log

/-- The chosen operation fails with the chosen error. -/
theorem Sabotage.failure?_answer {sabotage : Sabotage} {bench : Bench (Sabotaged β) τ} {c : Call}
    (hcounts : sabotage.counts c = true) (hsabotage : bench.bus.sabotage = sabotage)
    (hnumber : bench.bus.count = sabotage.number) :
    Exchange.failure? ⟨c, (bench.answer c).1⟩ = some sabotage.error := by
  subst hsabotage
  cases c with
  | write line level =>
    have hanswer : (bench.answer (.write line level)).1 = .error bench.bus.sabotage.error :=
      Sabotaged.operate_chosen hcounts hnumber _
    rw [hanswer, Exchange.failure?]
  | read line =>
    have hanswer : (bench.answer (.read line)).1 = .error bench.bus.sabotage.error :=
      Sabotaged.operate_chosen hcounts hnumber _
    rw [hanswer, Exchange.failure?]
  | _ => cases hcounts

/-- The bus that a sabotaged bus stands for is in the state of the other one, and the chosen
operation is still to come. -/
structure Sabotage.Precedes (sabotage : Sabotage) (met : List Exchange) (bus : β)
    (sabotaged : Sabotaged β) : Prop where
  bus_eq : sabotaged = { bus, sabotage, count := sabotage.count met }
  count_le : sabotage.count met ≤ sabotage.number

omit [Bus β] in
/-- Another exchange that is not counted. -/
theorem Sabotage.Precedes.uncounted {sabotage : Sabotage} {met : List Exchange} {bus : β}
    {c : Call} (answer : c.Answer) (hcounts : sabotage.counts c = false)
    (hle : sabotage.count met ≤ sabotage.number) :
    sabotage.Precedes (met ++ [⟨c, answer⟩]) bus
      { bus, sabotage, count := sabotage.count met } := by
  have hcount : sabotage.count (met ++ [⟨c, answer⟩]) = sabotage.count met := by
    simp [Sabotage.count, hcounts]
  exact ⟨by rw [hcount], hcount ▸ hle⟩

omit [Bus β] in
/-- Another exchange that is counted, but not the chosen one. -/
theorem Sabotage.Precedes.counted {sabotage : Sabotage} {met : List Exchange} {bus : β}
    {c : Call} (answer : c.Answer) (hcounts : sabotage.counts c = true)
    (hle : sabotage.count met ≤ sabotage.number) (hne : sabotage.count met ≠ sabotage.number) :
    sabotage.Precedes (met ++ [⟨c, answer⟩]) bus
      { bus, sabotage, count := sabotage.count met + 1 } := by
  have hcount : sabotage.count (met ++ [⟨c, answer⟩]) = sabotage.count met + 1 := by
    simp [Sabotage.count, hcounts]
  exact ⟨by rw [hcount], by omega⟩

/-- Until the chosen operation comes the answers are those of the bus itself. -/
theorem Sabotage.Precedes.answer {sabotage : Sabotage} {met : List Exchange} {bench : Bench β τ}
    {bench' : Bench (Sabotaged β) τ} (h : sabotage.Precedes met bench.bus bench'.bus) {c : Call}
    (hoperates : ¬ c.IsQuiet)
    (hbefore : sabotage.counts c = true → sabotage.count met ≠ sabotage.number) :
    (bench'.answer c).1 = (bench.answer c).1 ∧
      sabotage.Precedes (met ++ [⟨c, (bench.answer c).1⟩]) (bench.answer c).2.bus
        (bench'.answer c).2.bus := by
  obtain ⟨bus', clock', log'⟩ := bench'
  obtain ⟨rfl, hle⟩ := h
  -- A counted operation and another one differ in what becomes of the count.
  have hoperate : ∀ {α : Type} (operation : β → Except IoError α × β),
      let sabotaged : Sabotaged β := ⟨bench.bus, sabotage, sabotage.count met⟩
      (sabotaged.operate c operation).1 = (operation bench.bus).1 ∧
        ∀ answer : c.Answer, sabotage.Precedes (met ++ [⟨c, answer⟩]) (operation bench.bus).2
          (sabotaged.operate c operation).2 := by
    intro α operation sabotaged
    cases hcounts : sabotage.counts c with
    | false =>
      rw [Sabotaged.operate_of_not_counts hcounts]
      exact ⟨rfl, fun answer => .uncounted answer hcounts hle⟩
    | true =>
      rw [Sabotaged.operate_of_counts hcounts (hbefore hcounts)]
      exact ⟨rfl, fun answer => .counted answer hcounts hle (hbefore hcounts)⟩
  cases c with
  | acquire => exact ⟨rfl, .uncounted _ rfl hle⟩
  | write line level =>
    obtain ⟨hanswer, hprecedes⟩ := hoperate (Bus.write line level)
    exact ⟨hanswer, hprecedes _⟩
  | read line =>
    obtain ⟨hanswer, hprecedes⟩ := hoperate (Bus.read line)
    exact ⟨hanswer, hprecedes _⟩
  | release => exact ⟨rfl, .uncounted _ rfl hle⟩
  | now | wait | note => exact absurd trivial hoperates

/-- A quiet call changes nothing about either. -/
theorem Sabotage.Precedes.quiet {sabotage : Sabotage} {met : List Exchange} {bench : Bench β τ}
    {bench' : Bench (Sabotaged β) τ} (h : sabotage.Precedes met bench.bus bench'.bus) {c : Call}
    (hquiet : c.IsQuiet) (answer : c.Answer) :
    sabotage.Precedes (met ++ [⟨c, answer⟩]) (bench.answer c).2.bus (bench'.answer c).2.bus := by
  have hcounts : sabotage.counts c = false :=
    Bool.eq_false_iff.mpr fun hcounts => not_isQuiet hcounts hquiet
  rw [Bench.bus_answer hquiet, Bench.bus_answer hquiet, h.bus_eq]
  exact .uncounted answer hcounts h.count_le

/-- The bench and the one with the failing operation, until that operation comes. -/
def Sabotage.coupling (sabotage : Sabotage) (terms : Terms) :
    Coupling terms β (Sabotaged β) τ τ where
  Holds met bench bench' :=
    sabotage.Precedes met bench.bus bench'.bus ∧
      (terms.sameClock = true → bench.clock = bench'.clock)
  Breaks c _ bench' :=
    sabotage.counts c = true ∧ bench'.bus.sabotage = sabotage ∧
      bench'.bus.count = sabotage.number
  both := by
    intro met bench bench' c hholds hshares
    obtain ⟨hprecedes, hclock⟩ := hholds
    have hclock' : terms.sameClock = true →
        (bench.answer c).2.clock = (bench'.answer c).2.clock :=
      fun hsame => Bench.clock_answer (hclock hsame) c
    by_cases hquiet : c.IsQuiet
    · have hsame := Terms.sameClock_of_isQuiet hshares hquiet
      exact .inr ⟨Bench.matches_of_isQuiet (hclock hsame) hquiet, hprecedes.quiet hquiet _, hclock'⟩
    by_cases hchosen : sabotage.counts c = true ∧ sabotage.count met = sabotage.number
    · refine .inl ⟨hchosen.1, ?_, ?_⟩ <;> rw [hprecedes.bus_eq]
      exact hchosen.2
    · obtain ⟨hanswer, hprecedes'⟩ := hprecedes.answer hquiet fun hcounts hnumber =>
        hchosen ⟨hcounts, hnumber⟩
      exact .inr ⟨hanswer ▸ Terms.matches_self _ _, hprecedes', hclock'⟩
  first := by
    intro met bench bench' c hholds hshares
    refine ⟨?_, fun hsame => ?_⟩
    · rw [Bench.bus_answer (Terms.isQuiet_of_not_shares hshares)]
      exact hholds.1
    · rw [Bench.clock_answer_of_not_shares hsame hshares]
      exact hholds.2 hsame
  second := by
    intro met bench bench' c hholds hshares
    refine ⟨?_, fun hsame => ?_⟩
    · rw [Bench.bus_answer (Terms.isQuiet_of_not_shares hshares)]
      exact hholds.1
    · rw [Bench.clock_answer_of_not_shares hsame hshares]
      exact hholds.2 hsame

/-- What is counted concerns the bus. -/
theorem Sabotage.count_onBus (sabotage : Sabotage) (exchanges : List Exchange) :
    sabotage.count (onBus exchanges) = sabotage.count exchanges := by
  rw [count, count, onBus, List.countP_filter]
  refine List.countP_congr fun exchange _ => ?_
  obtain ⟨c, answer⟩ := exchange
  cases c <;> simp [counts, Call.IsQuiet]

theorem Sabotage.count_shared (sabotage : Sabotage) (terms : Terms) (exchanges : List Exchange) :
    sabotage.count (terms.shared exchanges) = sabotage.count (onBus exchanges) := by
  rw [← sabotage.count_onBus, onBus_shared]

/-- Only the bus makes edges. -/
theorem Lines.edges_onBus (lines : Lines) (exchanges : List Exchange) :
    lines.edges (onBus exchanges) = lines.edges exchanges := by
  induction exchanges generalizing lines with
  | nil => rfl
  | cons exchange rest ih =>
    by_cases hquiet : exchange.call.IsQuiet
    · rw [onBus, List.filter_cons_of_neg (by simpa using hquiet),
        edges_cons_of_isIdle lines (isIdle_of_isQuiet hquiet exchange.answer)]
      exact ih lines
    · rw [onBus_cons hquiet, edges, edges, ih]

namespace Player

/-- A run and the one in which an operation fails stay together until then. -/
theorem sabotaged_lockstep (bench : Bench β τ) {clock : τ} (sabotage : Sabotage)
    (config : PlayerConfig) {program : List Instruction} {terms : Terms}
    (hlevels : terms.sameLevels = true) (hclock : terms.sameClock = true → bench.clock = clock)
    (hlimit : terms.sameClock = true ∨ ∀ instruction ∈ program, instruction.IsUnlimited) :
    Meeting (sabotage.coupling terms) (RunOutcome.Alike terms) (RunOutcome.Overflows terms) []
      ((run config program).transcript bench)
      ((run config program).transcript (bench.sabotaged sabotage clock))
      ((run config program).play bench)
      ((run config program).play (bench.sabotaged sabotage clock)) :=
  (run_lockstep (.inl ⟨hlevels, rfl⟩) config program hlimit).play
    ⟨⟨rfl, Nat.zero_le _⟩, hclock⟩

/-- A run that cannot acquire the bus. -/
theorem RunCourse.refused {config : PlayerConfig} {program : List Instruction}
    {performance : Performance} {exchanges : List Exchange} {outcome : RunOutcome}
    (h : RunCourse config program performance exchanges outcome) {error : IoError}
    (hrefused : ⟨.acquire, .error error⟩ ∈ exchanges) :
    onBus exchanges = [⟨.acquire, .error error⟩] ∧
      ∃ report, outcome = .stopped (.hardware error) report ∧ report.clockPulses = 0 ∧
        report.faults = {} := by
  rcases h.inner with ⟨start, instant, error', rfl, rfl⟩ |
    ⟨start, inner, closing, result, session, rfl, hfinish, hlaws⟩
  · obtain rfl : error = error' := by simpa [opening] using hrefused
    exact ⟨rfl, _, rfl, rfl, rfl⟩
  · have hoperates := hlaws operates_obeys fun _ => List.forall_mem_nil _
    rcases List.mem_append.mp hrefused with hopening | hlater
    · simp [opening] at hopening
    · rcases List.mem_append.mp hlater with hinner | hclosing
      · rcases hoperates _ hinner with hquiet | hoperation
        · exact hquiet.elim
        · exact hoperation.elim
      · cases hfinish <;> simp at hclosing

/-- The run in which the chosen operation has come and failed. -/
theorem RunCourse.cut_at_operation {sabotage : Sabotage} {config : PlayerConfig}
    {program : List Instruction} {performance : Performance} {before rest : List Exchange}
    {c : Call} {failure : c.Answer} {outcome : RunOutcome}
    (h : RunCourse config program performance (before ++ ⟨c, failure⟩ :: rest) outcome)
    (hbefore : Flawless before) (hcounts : sabotage.counts c = true)
    (hfailure : Exchange.failure? ⟨c, failure⟩ = some sabotage.error) :
    ∃ operations report, onBus before = ⟨.acquire, .ok ()⟩ :: operations ∧
      (∀ exchange ∈ operations, exchange.call.IsOperation) ∧
      onBus (before ++ ⟨c, failure⟩ :: rest) =
        ⟨.acquire, .ok ()⟩ :: (operations ++ [⟨c, failure⟩, ⟨.release, ()⟩]) ∧
      outcome = .stopped (.hardware sabotage.error) report ∧
      (∀ lines : Lines, report.clockPulses = (lines.edges operations).length) ∧
      ∀ device : Device, report.faults.faults = (scans (device.watch performance.prelude)
        performance.stages).filterMap Scan.fault? := by
  have hacquired : c ≠ .acquire := by
    rintro rfl
    cases hcounts
  obtain ⟨start, inner, instant, report, rfl, hoperates, rfl, rfl⟩ :=
    h.ends_at_failure hbefore hfailure hacquired
  have hclosing : onBus (⟨c, failure⟩ :: [⟨.release, ()⟩, ⟨.now, instant⟩,
      ⟨.note (.stopped (.hardware sabotage.error)), ()⟩]) = [⟨c, failure⟩, ⟨.release, ()⟩] := by
    rw [onBus_cons (Sabotage.not_isQuiet hcounts)]
    rfl
  refine ⟨onBus inner, report, rfl, fun exchange hmem => ?_, ?_, rfl, fun lines => ?_, fun device =>
    h.faults_eq rfl device⟩
  · obtain ⟨hmem, hbus⟩ := List.mem_filter.mp hmem
    exact (hoperates exchange hmem).resolve_left (by simpa using hbus)
  · rw [onBus_append, hclosing]
    rfl
  · have hend : (lines.watch inner).edges [⟨.release, ()⟩, ⟨.now, instant⟩,
        ⟨.note (.stopped (.hardware sabotage.error)), ()⟩] = [] := rfl
    rw [(h.report_of_edges rfl lines).1, Lines.edges_onBus, List.append_assoc,
      Lines.edges_append_of_isIdle lines (isIdle_opening program start _), Lines.edges_append,
      Lines.edges_cons_of_failure _ hfailure, hend, List.append_nil]

/-- A write or a read that fails cuts a run cleanly. Compared with the run in which nothing fails,
nothing changes if the chosen operation never comes. Otherwise the run goes the same way until it
comes, releases the bus right after it and reports its error, the number of edges up to then, and
the faults of the scans that were complete by then. A run that cannot acquire the bus does nothing
else. -/
theorem sabotaged_run (bench : Bench β τ) (clock : τ) (sabotage : Sabotage)
    (config : PlayerConfig) (program : List Instruction)
    (hflawless : Flawless ((run config program).transcript bench))
    (hclock : clock = bench.clock ∨ (∀ instruction ∈ program, instruction.IsUnlimited) ∧
      ((run config program).play bench).1 ≠ .abandoned ∧
      ((run config program).play (bench.sabotaged sabotage clock)).1 ≠ .abandoned) :
    let other := bench.sabotaged sabotage clock
    let exchanges := onBus ((run config program).transcript bench)
    let exchanges' := onBus ((run config program).transcript other)
    let outcome := ((run config program).play bench).1
    let outcome' := ((run config program).play other).1
    (sabotage.count exchanges ≤ sabotage.number → exchanges' = exchanges ∧
      outcome.Alike ⟨false, true⟩ outcome' ∧ (clock = bench.clock → outcome' = outcome)) ∧
    (sabotage.number < sabotage.count exchanges →
      ∃ operations c answer failure rest report,
        exchanges = ⟨.acquire, .ok ()⟩ :: (operations ++ ⟨c, answer⟩ :: rest) ∧
        (∀ exchange ∈ operations, exchange.call.IsOperation) ∧ sabotage.counts c = true ∧
        sabotage.count operations = sabotage.number ∧
        exchanges' = ⟨.acquire, .ok ()⟩ :: (operations ++ [⟨c, failure⟩, ⟨.release, ()⟩]) ∧
        Exchange.failure? ⟨c, failure⟩ = some sabotage.error ∧
        outcome' = .stopped (.hardware sabotage.error) report ∧
        (∀ lines : Lines, report.clockPulses = (lines.edges operations).length) ∧
        ∀ device : Device, report.faults.faults =
          (scans (device.watch (performance config program other).prelude)
            (performance config program other).stages).filterMap Scan.fault?) ∧
    ∀ (refusing : Bench β τ) (error : IoError),
      ⟨.acquire, .error error⟩ ∈ (run config program).transcript refusing →
        onBus ((run config program).transcript refusing) = [⟨.acquire, .error error⟩] ∧
        ∃ report, ((run config program).play refusing).1 = .stopped (.hardware error) report ∧
          report.clockPulses = 0 ∧ report.faults = {} := by
  intro other exchanges exchanges' outcome outcome'
  have hcomparable : Comparable program bench.clock clock outcome outcome' := hclock
  obtain ⟨terms, hlevels, hsame, hlimit, hkept, hkept'⟩ := hcomparable.exists_terms true
  -- The two runs go together to the end, or they part where the sabotaged operation is made.
  rcases (sabotaged_lockstep bench sabotage config hlevels (fun h => (hsame.mp h).symm)
      hlimit).together_or_parted hkept hkept' with
    ⟨hagrees, halike, hprecedes, -⟩ |
    ⟨before, before', rest, rest', c, met, met', hsplit, hsplit', halike, ⟨hprecedes, -⟩, hcounts,
      hsabotage, hnumber⟩
  · have hle : sabotage.count exchanges ≤ sabotage.number := by
      rw [← sabotage.count_shared terms]
      exact hprecedes.count_le
    refine ⟨fun _ => ⟨(halike.onBus_eq hlevels).symm, hagrees.mono nofun fun _ => hlevels, ?_⟩,
      fun hlt => absurd hle (Nat.not_le.mpr hlt), fun refusing error =>
        (run_course config program refusing).refused⟩
    exact fun heq => (hagrees.eq (hsame.mpr heq) hlevels).symm
  · have hcount : sabotage.count (onBus before) = sabotage.number := by
      rw [← sabotage.count_shared terms, ← hnumber, hprecedes.bus_eq]
      rfl
    have hfailure := Sabotage.failure?_answer hcounts hsabotage hnumber
    have hbefore : Flawless before := by
      rw [hsplit] at hflawless
      exact (flawless_append.mp hflawless).1
    have hrun := run_course config program other
    rw [hsplit'] at hrun
    obtain ⟨operations, report, hoperations, hdriving, hexchanges', houtcome, hpulses, hfaults⟩ :=
      hrun.cut_at_operation (halike.flawless hlevels hbefore) hcounts hfailure
    have hbefore' : onBus before = ⟨.acquire, .ok ()⟩ :: operations :=
      (halike.onBus_eq hlevels).trans hoperations
    have hexchanges : exchanges =
        ⟨.acquire, .ok ()⟩ :: (operations ++ ⟨c, (met.answer c).1⟩ :: onBus rest) := by
      show onBus _ = _
      rw [hsplit, onBus_append, hbefore', onBus_cons (Sabotage.not_isQuiet hcounts)]
      rfl
    have hnumber' : sabotage.count operations = sabotage.number := by
      rw [hbefore'] at hcount
      exact hcount
    refine ⟨fun hle => ?_, fun _ => ?_, fun refusing error =>
      (run_course config program refusing).refused⟩
    · have hlt : sabotage.number < sabotage.count exchanges := by
        have hacquire : sabotage.counts .acquire = false := rfl
        have hcount' : sabotage.count exchanges =
            sabotage.count operations + (sabotage.count (onBus rest) + 1) := by
          rw [hexchanges]
          simp [Sabotage.count, hcounts, hacquire]
        omega
      exact absurd hle (Nat.not_le.mpr hlt)
    · exact ⟨operations, c, _, _, onBus rest, report, hexchanges, hdriving, hcounts, hnumber',
        (congrArg onBus hsplit').trans hexchanges', hfailure, houtcome, hpulses, hfaults⟩

/-- The clock line cannot be raised for the fourth bit of a scan. The scan before it has mismatched
and remains in the report. -/
theorem sabotaged_run_fourth_bit :
    let bench : Bench SimulatedBus IdealClock := { bus := { answers := .invert }, clock := {} }
    let program := [
      Instruction.shift .data { length := 2, tdi := some [1], tdo := some [1] } (some "first"),
      .shift .data { length := 8, tdi := some [5], tdo := some [5] } (some "second")]
    let config : PlayerConfig := { continueOnFault := true }
    let sabotage : Sabotage := { kind := .writes, number := 87, error := ⟨.other, "stuck"⟩ }
    let other := bench.sabotaged sabotage ({} : IdealClock)
    ∃ report, ((run config program).play other).1 = .stopped (.hardware sabotage.error) report ∧
      report.clockPulses = 21 ∧ report.faults.faults.map Fault.record = [("first", "02")] := by
  intro bench program config sabotage other
  have hrun := (sabotaged_run bench {} sabotage config program (by decide +kernel) (.inl rfl)).2.1
  obtain ⟨-, -, -, -, -, report, -, -, -, -, -, -, houtcome, -, hfaults⟩ := hrun (by decide +kernel)
  have hpulses : ((run config program).play other).1.report?.map RunReport.clockPulses =
      some 21 := by
    decide +kernel
  rw [houtcome] at hpulses
  refine ⟨report, houtcome, Option.some.inj hpulses, ?_⟩
  rw [hfaults {}]
  decide +kernel

end Player

end JtagPlayer
