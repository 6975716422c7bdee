import ScriptValues.Arguments
import ScriptValues.Builtin
import ScriptValues.Call
import ScriptValues.Coercion
import ScriptValues.CommandLine
import ScriptValues.Console
import ScriptValues.Entries
import ScriptValues.Failure
import ScriptValues.Files.Path
import ScriptValues.Files.Tree
import ScriptValues.Futures
import ScriptValues.Futures.Handover
import ScriptValues.Guard
import ScriptValues.HostProgram
import ScriptValues.InRange
import ScriptValues.Json.Bridge
import ScriptValues.Json.Document
import ScriptValues.Json.Number
import ScriptValues.Json.Reader
import ScriptValues.Main
import ScriptValues.Number.Checked
import ScriptValues.Number.Double
import ScriptValues.Number.Powers
import ScriptValues.Number.Reading
import ScriptValues.Number.Rendering
import ScriptValues.Number.Shortest
import ScriptValues.Operations.Arithmetic
import ScriptValues.Operations.Computation
import ScriptValues.Operations.Conversions
import ScriptValues.Operations.Lists
import ScriptValues.Operations.Mappings
import ScriptValues.Operations.Texts
import ScriptValues.Proofs.Handles
import ScriptValues.Script
import ScriptValues.Settings
import ScriptValues.Settings.Discovery
import ScriptValues.Text.Blank
import ScriptValues.Text.Case
import ScriptValues.Text.CaseTable
import ScriptValues.Text.Hex
import ScriptValues.Text.Quoted
import ScriptValues.Text.Ranges
import ScriptValues.Text.Reader
import ScriptValues.Text.Segment
import ScriptValues.Text.ShownTable
import ScriptValues.Toml.Reader
import ScriptValues.Toml.Scalar
import ScriptValues.Toml.Table
import ScriptValues.Value
import ScriptValues.Value.Inspect
import ScriptValues.World
import ScriptValues.Proofs.Calls
import ScriptValues.Proofs.Release
import ScriptValues.Proofs.Lifecycle
import ScriptValues.Proofs.Making
import ScriptValues.Proofs.OneCell
import ScriptValues.Proofs.Evolution
import ScriptValues.Proofs.History
import ScriptValues.Proofs.Reads
import ScriptValues.Proofs.Delivery
import ScriptValues.Proofs.DoubleBits
import ScriptValues.Proofs.CheckedIntegers
import ScriptValues.Proofs.ExactArithmetic
import ScriptValues.Proofs.JsonBridge
import ScriptValues.Proofs.JsonValues
import ScriptValues.Proofs.Signatures
import ScriptValues.Proofs.CallingConvention
import ScriptValues.Proofs.MappingVersions
import ScriptValues.Proofs.GuardedRuns
import ScriptValues.Proofs.ConcurrentReads
import ScriptValues.Proofs.NoFaults
import ScriptValues.Proofs.FilePlaces
import ScriptValues.Proofs.Frames
import ScriptValues.Proofs.Rounding
import ScriptValues.Proofs.NumberTexts
import ScriptValues.Proofs.NumbersReturn
import ScriptValues.Proofs.CommandRuns
import ScriptValues.Proofs.InputLines
import ScriptValues.Proofs.StoredMappings
import ScriptValues.Proofs.BuildOrder
import ScriptValues.Proofs.NeedlessOverflow
import ScriptValues.Proofs.ByteOrder
import ScriptValues.Proofs.SortedLists
import ScriptValues.Proofs.IntegerLike
import ScriptValues.Proofs.NamedCalls
import ScriptValues.Proofs.SplitTexts
import ScriptValues.Proofs.Ranges
import ScriptValues.Proofs.LateTries
import ScriptValues.Proofs.NearestDoubles
import ScriptValues.Proofs.IntegralParts
import ScriptValues.Proofs.Numerals
import ScriptValues.Proofs.NumberReading
import ScriptValues.Proofs.Promotion
import ScriptValues.Proofs.Coercions
import ScriptValues.Proofs.LineEnds
import ScriptValues.Proofs.PathParents
import ScriptValues.Proofs.SettingsSearch
import ScriptValues.Proofs.NearestSettings
import ScriptValues.Proofs.NumberOrder
import ScriptValues.Proofs.ListSearch
import ScriptValues.Proofs.Extremes
import ScriptValues.Proofs.TextPredicates
import ScriptValues.Proofs.MirroredLists
import ScriptValues.Proofs.ChosenSettings
