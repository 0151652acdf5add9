import FlightRecorder.Wire.Decoder
import FlightRecorder.Text.Quoted
import FlightRecorder.Text.Pieces
import FlightRecorder.Text.Utf8
import FlightRecorder.Flight.InfoLine
import FlightRecorder.Flight.Json
import FlightRecorder.Flight.List
import FlightRecorder.CommandLine.Arguments
import FlightRecorder.CommandLine.Console
import FlightRecorder.CommandLine.Report
import FlightRecorder.CommandLine.Run
import FlightRecorder.Main
import FlightRecorder.Proofs.Wire.Reading
import FlightRecorder.Proofs.Wire.RoundTrip
import FlightRecorder.Proofs.Wire.Calls
import FlightRecorder.Proofs.Wire.Soundness
import FlightRecorder.Proofs.Wire.Registers
import FlightRecorder.Proofs.Wire.Checksum
import FlightRecorder.Proofs.Wire.Corruption
import FlightRecorder.Proofs.Wire.Segments
import FlightRecorder.Proofs.Wire.Unstuffing
import FlightRecorder.Proofs.Wire.Oversized
import FlightRecorder.Proofs.Device.Upcoming
import FlightRecorder.Proofs.Device.Waiting
import FlightRecorder.Proofs.Device.Asking
import FlightRecorder.Proofs.Storage.Content
import FlightRecorder.Proofs.Device.Transfer
import FlightRecorder.Proofs.Device.Answers
import FlightRecorder.Proofs.Device.Rollback
import FlightRecorder.Proofs.Device.Dialogue
import FlightRecorder.Proofs.Text.Utf8
import FlightRecorder.Proofs.Text.Ascii
import FlightRecorder.Proofs.Text.Numerals
import FlightRecorder.Proofs.Flight.Sum
import FlightRecorder.Proofs.Flight.Bracketing
import FlightRecorder.Proofs.Flight.Notation
import FlightRecorder.Proofs.Flight.InfoLine
import FlightRecorder.Proofs.Flight.FileNames
import FlightRecorder.Proofs.Json.Objects
import FlightRecorder.Proofs.Flight.JsonRoundTrip
import FlightRecorder.Proofs.Device.Listing
import FlightRecorder.Proofs.Device.Operations
import FlightRecorder.Proofs.Device.Alike
import FlightRecorder.Proofs.Device.Prospects
import FlightRecorder.Proofs.Device.Noise
import FlightRecorder.Proofs.Device.Calls
import FlightRecorder.Proofs.Device.Grouping
import FlightRecorder.Proofs.Device.Intake
import FlightRecorder.Proofs.Device.Numbering
import FlightRecorder.Proofs.Device.Dispatch
import FlightRecorder.Proofs.Device.Observing
import FlightRecorder.Proofs.Device.Cancellation
import FlightRecorder.Proofs.Device.Transcript
import FlightRecorder.Proofs.Device.Failures
import FlightRecorder.Proofs.Device.Inventory
import FlightRecorder.Proofs.Device.Agenda
import FlightRecorder.Proofs.Device.Duration
import FlightRecorder.Proofs.Device.TimeBudget
import FlightRecorder.Proofs.CommandLine.Describing
import FlightRecorder.Proofs.Device.InfoReplies
import FlightRecorder.Proofs.CommandLine.Downloading
