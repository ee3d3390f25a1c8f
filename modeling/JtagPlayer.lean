import JtagPlayer.Bus.Simulated
import JtagPlayer.Bus.Pins
import JtagPlayer.Fault.Reader
import JtagPlayer.Instruction.Writer
import JtagPlayer.Main
import JtagPlayer.Proofs.Course
import JtagPlayer.Proofs.Searching
import JtagPlayer.Proofs.Device
import JtagPlayer.Proofs.Clocking
import JtagPlayer.Proofs.Idling
import JtagPlayer.Proofs.Law
import JtagPlayer.Proofs.Stages
import JtagPlayer.Proofs.Emission
import JtagPlayer.Proofs.Tracking
import JtagPlayer.Proofs.Merging
import JtagPlayer.Proofs.Scanning
import JtagPlayer.Proofs.Resting
import JtagPlayer.Proofs.Shifting
import JtagPlayer.Proofs.Comparing
import JtagPlayer.Proofs.Sampling
import JtagPlayer.Proofs.Faults
import JtagPlayer.Proofs.Abandonment
import JtagPlayer.Proofs.Timeliness
import JtagPlayer.Proofs.Lingering
import JtagPlayer.Proofs.Lockstep
import JtagPlayer.Proofs.Failure
import JtagPlayer.Proofs.Parallel
import JtagPlayer.Proofs.Completion
import JtagPlayer.Proofs.Sabotage
import JtagPlayer.Proofs.Policies
import JtagPlayer.Proofs.Stopping
import JtagPlayer.Proofs.Documents
import JtagPlayer.Proofs.Finiteness
import JtagPlayer.Proofs.Streams
import JtagPlayer.Proofs.Yielding
import JtagPlayer.Proofs.Persistence
import JtagPlayer.Proofs.Keeping
import JtagPlayer.Proofs.Verdicts
import JtagPlayer.Proofs.Meaning
import JtagPlayer.Proofs.Indifference
import JtagPlayer.Proofs.Halting
import JtagPlayer.Proofs.Settings
import JtagPlayer.Proofs.Refusals
import JtagPlayer.Proofs.Stability
import JtagPlayer.Proofs.Chronicle
import JtagPlayer.Proofs.Spacing
import JtagPlayer.Proofs.Framing
import JtagPlayer.Proofs.Commuting
import JtagPlayer.Proofs.Preparation
import JtagPlayer.Proofs.Responding
import JtagPlayer.Proofs.Independence
import JtagPlayer.Proofs.Transparency
import JtagPlayer.Proofs.Rechecking
import JtagPlayer.Proofs.Reports
import JtagPlayer.Proofs.Trees
import JtagPlayer.Proofs.Echoing
import JtagPlayer.Proofs.DryRuns
import JtagPlayer.Proofs.CommandLine
import JtagPlayer.Proofs.Confinement
import JtagPlayer.Proofs.Releasing
import JtagPlayer.Proofs.PlainFiles
import JtagPlayer.Proofs.Truncation
import JtagPlayer.Proofs.Exactness
import JtagPlayer.Proofs.Returning
import JtagPlayer.Proofs.Variants
import JtagPlayer.Proofs.Walking
import JtagPlayer.Proofs.Bounds
import JtagPlayer.Proofs.SettingUp
import JtagPlayer.Proofs.Masking
