import JtagPlayer.Bus.Simulated
import JtagPlayer.Proofs.Completion
import JtagPlayer.Proofs.Members

/-!
# Faults that speak for themselves

The record of a fault holds four texts. Each is the hexadecimal number of as many bytes as the
payload of the scan has, and can be read back, so that whoever has the record can compare the
expected bits with the answer again, under the mask.

An absent mask is written as zeros, as a mask that selects no bit would be, although it selects them
all. `Player.faults_recheckable` says that this is no ambiguity: a scan whose mask selects nothing
has no fault, so a mask of zeros in a record always stands for an absent one.
-/

namespace JtagPlayer

/-- Bytes that are all zero. -/
def IsZero (bytes : List UInt8) : Prop :=
  ∀ byte ∈ bytes, byte = 0

instance : DecidablePred IsZero :=
  fun bytes => inferInstanceAs (Decidable (∀ byte ∈ bytes, byte = 0))

theorem testBit_of_isZero {bytes : List UInt8} (h : IsZero bytes) (index : Nat) :
    (numberOfBytes bytes).testBit index = false := by
  induction bytes with
  | nil => exact Nat.zero_testBit index
  | cons byte bytes ih =>
    obtain ⟨rfl, hrest⟩ := List.forall_mem_cons.mp h
    rw [testBit_numberOfBytes_cons]
    split
    · exact ih hrest
    · exact Nat.zero_testBit _

/-- The bytes of the four texts of a fault. -/
structure FaultBytes where
  tdi : List UInt8
  tdo : List UInt8
  mask : List UInt8
  data : List UInt8
  deriving DecidableEq

/-- Reads the four texts of a fault. -/
def Fault.bytes (fault : Fault) : Except Hex.Invalid FaultBytes := do
  let tdi ← Hex.decode fault.tdi
  let tdo ← Hex.decode fault.tdo
  let mask ← Hex.decode fault.mask
  let data ← Hex.decode fault.data
  return { tdi, tdo, mask, data }

namespace FaultBytes

/-- The fault with two upper-case digits for each byte. -/
def toFault (bytes : FaultBytes) (label : String) : Fault where
  label := label
  tdi := Hex.encode bytes.tdi
  tdo := Hex.encode bytes.tdo
  mask := Hex.encode bytes.mask
  data := Hex.encode bytes.data

/-- The bytes that were written are read. -/
theorem bytes_toFault (bytes : FaultBytes) (label : String) :
    (bytes.toFault label).bytes = .ok bytes := by
  simp only [Fault.bytes, toFault, Hex.decode_encode]
  rfl

/-- Whether a bit is compared. A mask of zeros stands for none, and then every bit is. -/
def Compares (bytes : FaultBytes) (index : Nat) : Prop :=
  IsZero bytes.mask ∨ (numberOfBytes bytes.mask).testBit index = true

/-- The bytes show a mismatch of so many bits: all are as wide as it takes, and some bit that is
compared did not come back as expected. -/
structure ShowMismatch (bytes : FaultBytes) (length : Nat) : Prop where
  width : ∀ field ∈ [bytes.tdi, bytes.tdo, bytes.mask, bytes.data],
    field.length = (length + 7) / 8
  differs : ∃ index < length, bytes.Compares index ∧
    (numberOfBytes bytes.tdo).testBit index ≠ (numberOfBytes bytes.data).testBit index

end FaultBytes

namespace Scan

variable {scan : Scan} {fault : Fault}

/-- A complete scan has a level for each bit of its payload. -/
theorem IsComplete.length_answers (h : scan.IsComplete) :
    scan.answers.length = scan.segments.payload.length.toNat := by
  have hreceived : scan.received.length = scan.segments.bits.length := by
    rw [received, List.length_map]
    exact h
  rw [Segments.bits, List.length_append, List.length_append, Pattern.length_bits,
    Pattern.length_bits, Pattern.length_bits] at hreceived
  rw [answers, List.length_take, List.length_drop, hreceived]
  omega

/-- A fault tells of a bit of the payload that the mask selects and that did not come back as
expected. -/
theorem exists_mismatch (hfull : scan.segments.payload.IsFull) (h : scan.fault? = some fault) :
    ∃ tdo ∈ scan.segments.payload.tdo, ∃ index < scan.segments.payload.length.toNat,
      scan.segments.payload.selects index = true ∧
        (numberOfBytes tdo).testBit index ≠ (numberOfBytes scan.observed).testBit index := by
  unfold fault? at h
  split at h
  · rename_i hfault
    obtain ⟨hcomplete, hrefused⟩ := hfault
    have hmismatch := mt (Pattern.accepts_iff hfull hcomplete.length_answers).mpr
      (Bool.eq_false_iff.mp hrefused)
    simp only [Classical.not_forall] at hmismatch
    obtain ⟨tdo, htdo, index, hindex, hselects, hne⟩ := hmismatch
    refine ⟨tdo, htdo, index, hindex, hselects, ?_⟩
    rwa [observed, Pattern.numberOfBytes_bytesOf, testBit_numberOfBits]
  · cases h

/-- The bytes of the fault of a scan. -/
def faultBytes (scan : Scan) : FaultBytes where
  tdi := scan.segments.payload.tdi.getD (List.replicate scan.segments.payload.numBytes 0)
  tdo := scan.segments.payload.tdo.getD (List.replicate scan.segments.payload.numBytes 0)
  mask := scan.segments.payload.mask.getD (List.replicate scan.segments.payload.numBytes 0)
  data := scan.observed

theorem fault_eq (h : scan.fault? = some fault) :
    fault = scan.faultBytes.toFault (scan.label.getD Fault.unlabeled) ∧ scan.IsComplete := by
  unfold fault? at h
  split at h
  · rename_i hfault
    cases h
    exact ⟨rfl, hfault.1⟩
  · cases h

/-- A byte string of a full pattern, or the zeros that stand for it, is as wide as the pattern. -/
theorem length_field_getD {pattern : Pattern} (hfull : pattern.IsFull) (name : PatternField) :
    ((pattern.field name).getD (List.replicate pattern.numBytes 0)).length = pattern.numBytes := by
  cases hfield : pattern.field name with
  | none => rw [Option.getD_none, List.length_replicate]
  | some bytes => exact hfull.width name bytes hfield

/-- A bit that is selected is so by the bytes of the mask, or for want of a mask. -/
theorem mask_of_selects {index : Nat} (h : scan.segments.payload.selects index = true) :
    (scan.segments.payload.mask = none ∧ IsZero scan.faultBytes.mask) ∨
      (scan.segments.payload.mask ≠ none ∧
        (numberOfBytes scan.faultBytes.mask).testBit index = true) := by
  unfold Pattern.selects at h
  rw [faultBytes]
  cases hmask : scan.segments.payload.mask with
  | none => exact .inl ⟨rfl, fun byte hbyte => List.eq_of_mem_replicate hbyte⟩
  | some mask =>
    rw [hmask] at h
    exact .inr ⟨nofun, h⟩

/-- The mask of a fault is all zero just if there is none. -/
theorem isZero_mask_iff (hfull : scan.segments.payload.IsFull) (h : scan.fault? = some fault) :
    IsZero scan.faultBytes.mask ↔ scan.segments.payload.mask = none := by
  obtain ⟨tdo, -, index, -, hselects, -⟩ := exists_mismatch hfull h
  rcases mask_of_selects hselects with ⟨hnone, hzero⟩ | ⟨hsome, hbit⟩
  · exact iff_of_true hzero hnone
  · refine iff_of_false (fun hzero => ?_) hsome
    rw [testBit_of_isZero hzero] at hbit
    cases hbit

theorem showMismatch (hfull : scan.segments.payload.IsFull) (h : scan.fault? = some fault) :
    scan.faultBytes.ShowMismatch scan.segments.payload.length.toNat where
  width := by
    have hobserved : scan.observed.length = scan.segments.payload.numBytes := by
      rw [observed, Pattern.length_bytesOf, (fault_eq h).2.length_answers]
      rfl
    simp only [List.forall_mem_cons]
    exact ⟨length_field_getD hfull .tdi, length_field_getD hfull .tdo,
      length_field_getD hfull .mask, hobserved, List.forall_mem_nil _⟩
  differs := by
    obtain ⟨tdo, htdo, index, hindex, hselects, hne⟩ := exists_mismatch hfull h
    refine ⟨index, hindex, (mask_of_selects hselects).imp And.right And.right, ?_⟩
    rw [faultBytes, Option.mem_def.mp htdo]
    exact hne

end Scan

namespace Player

variable {session session' : Session} {result : Except Halt Unit}

/-- The scan of a stage sends the patterns that are stored after its change. -/
theorem isFull_of_scan? {device : Device} {stage : Stage} {scan : Scan}
    (hfull : stage.before.registers.IsFull) (h : stage.scan? device = some scan) :
    scan.segments.payload.IsFull := by
  unfold Stage.scan? at h
  split at h
  · rename_i register delta label _
    split at h
    · rename_i registers hupdate
      cases h
      exact Registers.update_isFull hfull hupdate ⟨.payload, register⟩
    · cases h
  · cases h

/-- So all payloads that are scanned are full. -/
theorem Unfolds.isFull_of_mem_scans {program : List Instruction} {stages : List Stage}
    (h : Unfolds program session stages result session') (hfull : session.registers.IsFull)
    {device : Device} {scan : Scan} (hmem : scan ∈ scans device stages) :
    scan.segments.payload.IsFull := by
  induction h generalizing device with
  | done session => cases hmem
  | stops hstage =>
    rw [scans, scans, List.append_nil] at hmem
    exact isFull_of_scan? hfull (Option.mem_toList.mp hmem)
  | goesOn hstage hrest ih =>
    rcases List.mem_append.mp hmem with hfirst | hlater
    · exact isFull_of_scan? hfull (Option.mem_toList.mp hfirst)
    · exact ih ((policy_and_full hstage).2 hfull) hlater

theorem RunCourse.isFull_of_mem_scans {config : PlayerConfig} {program : List Instruction}
    {performance : Performance} {exchanges : List Exchange} {outcome : RunOutcome}
    (h : RunCourse config program performance exchanges outcome) {device : Device} {scan : Scan}
    (hmem : scan ∈ scans device performance.stages) : scan.segments.payload.IsFull := by
  cases h with
  | unstarted | unready => cases hmem
  | ready hreset hstages hfinish =>
    refine hstages.isFull_of_mem_scans ?_ hmem
    rw [(reset_ok hreset).2.1]
    exact Registers.isFull_default

/-- Every fault that a run reports can be checked again from its own text, on any bus and under
either policy. It comes from a scan, its texts are upper-case numbers with the bytes of the payload
of that scan and are read as these bytes, and the bytes show a mismatch. Their mask is all zero just
if the payload had none, for a scan whose mask is all zero has no fault. -/
theorem faults_recheckable {β τ : Type} [Bus β] [Clock τ] (bench : Bench β τ) (device : Device)
    (config : PlayerConfig) (program : List Instruction) {report : RunReport}
    (hreport : ((run config program).play bench).1.report? = some report) :
    let performance := performance config program bench
    let scans := scans (device.watch performance.prelude) performance.stages
    (∀ fault ∈ report.faults.faults, ∃ scan ∈ scans, ∃ bytes : FaultBytes,
      scan.fault? = some fault ∧ fault = bytes.toFault (scan.label.getD Fault.unlabeled) ∧
        fault.bytes = .ok bytes ∧ bytes.ShowMismatch scan.segments.payload.length.toNat ∧
        (IsZero bytes.mask ↔ scan.segments.payload.mask = none)) ∧
      ∀ scan ∈ scans, ∀ mask ∈ scan.segments.payload.mask, IsZero mask → scan.fault? = none := by
  intro performance scans
  have hcourse := run_course config program bench
  refine ⟨fun fault hfault => ?_, fun scan hscan mask hmask hzero => ?_⟩
  · rw [hcourse.faults_eq hreport device] at hfault
    obtain ⟨scan, hscan, hsome⟩ := List.mem_filterMap.mp hfault
    have hfull := hcourse.isFull_of_mem_scans hscan
    obtain ⟨rfl, -⟩ := scan.fault_eq hsome
    exact ⟨scan, hscan, scan.faultBytes, hsome, rfl, FaultBytes.bytes_toFault _ _,
      scan.showMismatch hfull hsome, scan.isZero_mask_iff hfull hsome⟩
  · have hfull := hcourse.isFull_of_mem_scans hscan
    refine Option.eq_none_iff_forall_not_mem.mpr fun fault hsome => ?_
    have hnone := (Scan.isZero_mask_iff hfull hsome).mp (by
      rw [Scan.faultBytes, Option.mem_def.mp hmask]
      exact hzero)
    rw [Option.mem_def.mp hmask] at hnone
    cases hnone

/-- Four scans that come back inverted, before the bus fails in a fifth. The mask of the first holds
for the second as well, that of the third selects nothing, and the fourth has another length and no
mask. -/
theorem faults_recheckable_masks :
    let bench : Bench SimulatedBus IdealClock :=
      { bus := { answers := .invert, failingRead := some 77 }, clock := {} }
    let program : List Instruction := [
      .shift .data
        { length := 10, tdi := some [2, 0xA5], tdo := some [2, 0xA5], mask := some [3, 0] }
        (some "first"),
      .shift .data { length := 10, tdo := some [2, 0] } (some "second"),
      .shift .data { length := 10, tdo := some [2, 0xA5], mask := some [0] } (some "third"),
      .shift .data { length := 4, tdi := some [9], tdo := some [8] } (some "fourth"),
      .shift .data { length := 12, tdi := some [9], tdo := some [8] } (some "fifth")]
    let config : PlayerConfig := { continueOnFault := true }
    ∃ report, ((run config program).play bench).1.report? = some report ∧
      report.faults.faults.map (fun fault => (fault.label, fault.mask)) =
        [("first", "0300"), ("second", "0300"), ("fourth", "00")] ∧
      ∀ fault ∈ report.faults.faults, ∃ bytes length,
        fault.bytes = .ok bytes ∧ bytes.ShowMismatch length := by
  intro bench program config
  have hmasks : ((run config program).play bench).1.report?.map (fun report =>
      report.faults.faults.map fun fault => (fault.label, fault.mask)) =
        some [("first", "0300"), ("second", "0300"), ("fourth", "00")] := by
    decide +kernel
  obtain ⟨report, hreport, hmasks⟩ := Option.map_eq_some_iff.mp hmasks
  refine ⟨report, hreport, hmasks, fun fault hfault => ?_⟩
  obtain ⟨scan, -, bytes, -, -, hbytes, hshows, -⟩ :=
    (faults_recheckable bench {} config program hreport).1 fault hfault
  exact ⟨bytes, _, hbytes, hshows⟩

end Player

end JtagPlayer
