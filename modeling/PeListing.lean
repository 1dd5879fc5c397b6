import PeListing.Word
import PeListing.Bytes.Select
import PeListing.Bytes.LittleEndian
import PeListing.Bytes.Buffer
import PeListing.Text.Utf8
import PeListing.Text.Numeral
import PeListing.Text.Split
import PeListing.Image.Defect
import PeListing.Image.Kind
import PeListing.Image.Header
import PeListing.Image.Section
import PeListing.Image.Basic
import PeListing.Image.ExportDirectory
import PeListing.Image.ImportDescriptor
import PeListing.Symbol.PartitionPoint
import PeListing.Symbol.Basic
import PeListing.Symbol.Table
import PeListing.Settings.Basic
import PeListing.Log
import PeListing.Symbol.Event
import PeListing.Symbol.Walk
import PeListing.Symbol.ExportWalk
import PeListing.Symbol.ImportWalk
import PeListing.Symbol.Build
import PeListing.X86.Instruction
import PeListing.X86.Decode
import PeListing.X86.Length
import PeListing.X86.Format
import PeListing.Listing.Disassembler
import PeListing.Listing.Line
import PeListing.Failure
import PeListing.Listing.Basic
import PeListing.Json.Value
import PeListing.Json.Token
import PeListing.Json.Parse
import PeListing.Json.Pretty
import PeListing.Settings.Json
import PeListing.Symbol.Json
import PeListing.Files
import PeListing.Load
import PeListing.Command.Options
import PeListing.Command.Run
import PeListing.Log.Line
import PeListing.Main
import PeListing.Text.Alphanumeric
import PeListing.Text.Slice
import PeListing.Text.Pattern
import PeListing.Proofs.StableInsertion
import PeListing.Proofs.Outcome
import PeListing.Proofs.ImageRange
import PeListing.Proofs.WalkLogic
import PeListing.Proofs.WalkAdvance
import PeListing.Proofs.WalkBounds
import PeListing.Proofs.Policies
import PeListing.Proofs.Sweep
import PeListing.Proofs.Rounds
import PeListing.Proofs.ListingRange
import PeListing.Proofs.ListingText
import PeListing.Proofs.InRange
import PeListing.Proofs.LineColumns
import PeListing.Proofs.Coverage
import PeListing.Proofs.HeaderChecks
import PeListing.Proofs.ImportsDistinct
import PeListing.Proofs.WalkResults
import PeListing.Proofs.ExportPairing
import PeListing.Proofs.ImportStream
import PeListing.Proofs.DeclaredImports
import PeListing.Proofs.JsonText
import PeListing.Proofs.SettingsText
import PeListing.Proofs.OneDisassembly
import PeListing.Proofs.Printing
import PeListing.Proofs.Stages
import PeListing.Proofs.WalkLimits
import PeListing.Proofs.AllOrNothing
import PeListing.Proofs.EarliestSymbol
import PeListing.Proofs.Translation
import PeListing.Proofs.Labels
import PeListing.Proofs.ListedBytes
import PeListing.Proofs.HeaderEncoding
import PeListing.Proofs.ImportLimit
import PeListing.Proofs.ExportLimit
import PeListing.Proofs.FailureStages
import PeListing.Proofs.AppendedBytes
import PeListing.Proofs.NameLimits
import PeListing.Proofs.PartialSettings
import PeListing.Proofs.TableText
import PeListing.Proofs.ReadPlaces
