import AccessLayer.Backend.Action
import AccessLayer.Backend.Basic
import AccessLayer.Backend.Memory
import AccessLayer.Backend.Serialize
import AccessLayer.Buffer.Basic
import AccessLayer.Buffer.Convert
import AccessLayer.Command.Flag
import AccessLayer.Command.Help
import AccessLayer.Command.Run
import AccessLayer.Command.Verb
import AccessLayer.Compression.Level
import AccessLayer.Compression.Zstd
import AccessLayer.Config.Settings
import AccessLayer.Config.Toml
import AccessLayer.Config.TomlLex
import AccessLayer.Context.Array
import AccessLayer.Context.Entry
import AccessLayer.Context.Operation
import AccessLayer.Decimal.Layout
import AccessLayer.Decimal.Nearest
import AccessLayer.Decimal.Shortest
import AccessLayer.Disk.Basic
import AccessLayer.Disk.Path
import AccessLayer.Disk.TreeFile
import AccessLayer.Environment
import AccessLayer.Failure
import AccessLayer.Frame
import AccessLayer.Hash.Blake3
import AccessLayer.Keyed
import AccessLayer.Log
import AccessLayer.Main
import AccessLayer.Modes
import AccessLayer.Numeral
import AccessLayer.Sampling.Blend
import AccessLayer.Sampling.Resample
import AccessLayer.Sampling.Selection
import AccessLayer.Session
import AccessLayer.Store
import AccessLayer.Text.Blank
import AccessLayer.Text.Csv
import AccessLayer.Text.Cut
import AccessLayer.Text.Fold
import AccessLayer.Text.Quote
import AccessLayer.Text.Utf8
import AccessLayer.Tree.Basic
import AccessLayer.Tree.Codec
import AccessLayer.Uri.Basic
import AccessLayer.Uri.Query
import AccessLayer.Wire.Protobuf
import AccessLayer.Proofs.Calls
import AccessLayer.Proofs.SlotTable
import AccessLayer.Proofs.StoreLaws
import AccessLayer.Proofs.StoreRefinement
import AccessLayer.Proofs.MemoryIsolation
import AccessLayer.Proofs.WireLaws
import AccessLayer.Proofs.TextDecoding
import AccessLayer.Proofs.CodecRoundTrip
import AccessLayer.Proofs.SerializeNesting
import AccessLayer.Proofs.SliceAccumulation
import AccessLayer.Proofs.SliceReads
import AccessLayer.Proofs.FailedBackendCalls
import AccessLayer.Proofs.FailedCalls
import AccessLayer.Proofs.TreePlaces
import AccessLayer.Proofs.ResampledCounts
import AccessLayer.Proofs.ObjectNames
import AccessLayer.Proofs.GlobalActions
import AccessLayer.Proofs.MemoryRoundTrip
import AccessLayer.Proofs.FrameRoundTrip
import AccessLayer.Proofs.SerializeRoundTrip
import AccessLayer.Proofs.WellFormedReads
import AccessLayer.Proofs.FloatOrder
import AccessLayer.Proofs.TimeWindows
import AccessLayer.Proofs.FailureCodes
import AccessLayer.Proofs.FloatArithmetic
import AccessLayer.Proofs.SampleSelection
import AccessLayer.Proofs.ResamplingWindow
import AccessLayer.Proofs.UriPrinting
import AccessLayer.Proofs.LegacyUris
import AccessLayer.Proofs.UniformTargets
import AccessLayer.Proofs.FrameIntegrity
import AccessLayer.Proofs.QueryHistory
import AccessLayer.Proofs.StoreWellFormed
import AccessLayer.Proofs.OccurrenceNumbers
