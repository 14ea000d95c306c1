import RobotProgram.Action.Basic
import RobotProgram.Action.Decode
import RobotProgram.Action.Edit
import RobotProgram.Action.File
import RobotProgram.Action.Instruction
import RobotProgram.Action.Joints
import RobotProgram.Action.Position
import RobotProgram.Action.Record
import RobotProgram.Action.Render
import RobotProgram.Action.Speed
import RobotProgram.Action.Storage
import RobotProgram.Action.Target
import RobotProgram.Calendar
import RobotProgram.Cell.Mechanism
import RobotProgram.Cell.Robot
import RobotProgram.Cell.Slots
import RobotProgram.Cell.Stock
import RobotProgram.Cell.Tool
import RobotProgram.Command.Arguments
import RobotProgram.Command.Invocation
import RobotProgram.Command.Run
import RobotProgram.Config.Catalog
import RobotProgram.Config.Checked
import RobotProgram.Config.RobotSettings
import RobotProgram.Document.Json
import RobotProgram.Document.Reader
import RobotProgram.Document.Writer
import RobotProgram.Fault
import RobotProgram.Files.Content
import RobotProgram.Files.Path
import RobotProgram.Files.Store
import RobotProgram.Geometry.Coordinates
import RobotProgram.Geometry.Frame
import RobotProgram.Geometry.Matrix4
import RobotProgram.Geometry.Vector3
import RobotProgram.Host
import RobotProgram.Interval
import RobotProgram.Kinematics.LinearSystem
import RobotProgram.Kinematics.Resolve
import RobotProgram.Kinematics.Solver
import RobotProgram.Kinematics.Subproblem
import RobotProgram.Limits
import RobotProgram.Log
import RobotProgram.Main
import RobotProgram.Number.Binary
import RobotProgram.Number.Fixed
import RobotProgram.Number.Reader
import RobotProgram.Number.Shortest
import RobotProgram.Pipeline.Result
import RobotProgram.Pipeline.Run
import RobotProgram.Program.Buffers
import RobotProgram.Program.Emission
import RobotProgram.Program.Generate
import RobotProgram.Program.Save
import RobotProgram.Program.Settings
import RobotProgram.Scalar
import RobotProgram.Text.Blank
import RobotProgram.Text.Colour
import RobotProgram.Text.Digit
import RobotProgram.Text.Half
import RobotProgram.Text.Printable
import RobotProgram.Text.Quoted
import RobotProgram.Text.Upper
import RobotProgram.Value
import RobotProgram.Value.Convert
import RobotProgram.Value.Format
import RobotProgram.Proofs.Equality
import RobotProgram.Proofs.Emission
import RobotProgram.Proofs.Generation
import RobotProgram.Proofs.Declarations
import RobotProgram.Proofs.Lines
import RobotProgram.Proofs.Composition
import RobotProgram.Proofs.Destination
import RobotProgram.Proofs.Diagnostics
import RobotProgram.Proofs.Reports
import RobotProgram.Proofs.Records
import RobotProgram.Proofs.ActionFiles
import RobotProgram.Proofs.Migration
import RobotProgram.Proofs.RealScalar
import RobotProgram.Proofs.RigidMotions
import RobotProgram.Proofs.FrameComposition
import RobotProgram.Proofs.AxisFrames
import RobotProgram.Proofs.MechanismValues
import RobotProgram.Proofs.GuardedScalar
import RobotProgram.Proofs.Quaternions
import RobotProgram.Proofs.Rotations
import RobotProgram.Proofs.ForwardKinematics
import RobotProgram.Proofs.ExternalAxes
import RobotProgram.Proofs.OrientationError
import RobotProgram.Proofs.Validity
import RobotProgram.Proofs.Subproblems
import RobotProgram.Proofs.ClosedForm
import RobotProgram.Proofs.SubproblemSolutions
import RobotProgram.Proofs.Faults
import RobotProgram.Proofs.DocumentFaults
import RobotProgram.Proofs.ConfigFaults
import RobotProgram.Proofs.StageFaults
import RobotProgram.Proofs.Escapes
import RobotProgram.Proofs.RunResults
import RobotProgram.Proofs.Printing
import RobotProgram.Proofs.Gates
import RobotProgram.Proofs.Anonymous
import RobotProgram.Proofs.Literals
import RobotProgram.Proofs.NumericFields
import RobotProgram.Proofs.CanonicalNumbers
import RobotProgram.Proofs.Containment
import RobotProgram.Proofs.ModuleText
import RobotProgram.Proofs.ExternalSlots
import RobotProgram.Proofs.CatalogQuestions
import RobotProgram.Proofs.SlotOperations
import RobotProgram.Proofs.NumberOrder
import RobotProgram.Proofs.SlotView
import RobotProgram.Proofs.RoundedSums
import RobotProgram.Proofs.FloatArithmetic
import RobotProgram.Proofs.AngleWrapping
import RobotProgram.Proofs.SpeedSnapping
import RobotProgram.Proofs.Verdicts
