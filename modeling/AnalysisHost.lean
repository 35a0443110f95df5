import AnalysisHost.Analysis.Bundled
import AnalysisHost.Analysis.ImportCycles
import AnalysisHost.Analysis.Naming
import AnalysisHost.Analysis.PhaseTrace
import AnalysisHost.Analysis.StrictDeps
import AnalysisHost.Attribution
import AnalysisHost.CommandLine.Effect
import AnalysisHost.CommandLine.Grammar
import AnalysisHost.CommandLine.Reading
import AnalysisHost.CommandLine.Request
import AnalysisHost.CompilationUnit
import AnalysisHost.Context
import AnalysisHost.Cycle
import AnalysisHost.Diagnostic
import AnalysisHost.Env
import AnalysisHost.Failure
import AnalysisHost.Files
import AnalysisHost.Flag
import AnalysisHost.Flow
import AnalysisHost.HostInfo
import AnalysisHost.Json
import AnalysisHost.Lifecycle
import AnalysisHost.Log
import AnalysisHost.Lowering
import AnalysisHost.Main
import AnalysisHost.Manifest
import AnalysisHost.Manifest.Error
import AnalysisHost.Manifest.Name
import AnalysisHost.Manifest.Read
import AnalysisHost.Manifest.Schema
import AnalysisHost.Manifest.Span
import AnalysisHost.Manifest.Validity
import AnalysisHost.Outcome
import AnalysisHost.PackageGraph
import AnalysisHost.Phase
import AnalysisHost.Plugin
import AnalysisHost.Report
import AnalysisHost.Run
import AnalysisHost.Slots
import AnalysisHost.Status
import AnalysisHost.SymbolTable
import AnalysisHost.Text.Blank
import AnalysisHost.Text.Letter
import AnalysisHost.Text.Split
import AnalysisHost.Toml.Document
import AnalysisHost.Toml.Quoted
import AnalysisHost.Toml.Rest
import AnalysisHost.Toml.Scalar
import AnalysisHost.Toml.Value
import AnalysisHost.Proofs.Canonical
import AnalysisHost.Proofs.Segments
import AnalysisHost.Proofs.Claiming
import AnalysisHost.Proofs.BundledFlags
import AnalysisHost.Proofs.Cycles
import AnalysisHost.Proofs.CycleSearch
import AnalysisHost.Proofs.ImportGraph
import AnalysisHost.Proofs.Undeclared
import AnalysisHost.Proofs.BundledCallbacks
import AnalysisHost.Proofs.BundledRun
import AnalysisHost.Proofs.CompileOutcome
import AnalysisHost.Proofs.CycleReport
import AnalysisHost.Proofs.Stopping
import AnalysisHost.Proofs.FailedCalls
import AnalysisHost.Proofs.ReportAgreement
import AnalysisHost.Proofs.WrittenFiles
import AnalysisHost.Proofs.CallEffects
import AnalysisHost.Proofs.JsonText
import AnalysisHost.Proofs.Readback
import AnalysisHost.Proofs.Tracing
import AnalysisHost.Proofs.EdgeByEdge
import AnalysisHost.Proofs.EachCycle
import AnalysisHost.Proofs.Origins
import AnalysisHost.Proofs.Promotion
import AnalysisHost.Proofs.Interference
import AnalysisHost.Proofs.LeftoverFlags
import AnalysisHost.Proofs.NameForms
import AnalysisHost.Proofs.ShortestPath
import AnalysisHost.Proofs.FirstViolation
import AnalysisHost.Proofs.DependencyFlags
import AnalysisHost.Proofs.DeclaredDependencies
import AnalysisHost.Proofs.Escalations
import AnalysisHost.Proofs.WrittenTraces
import AnalysisHost.Proofs.AbortedTraces
import AnalysisHost.Proofs.ImportTexts
import AnalysisHost.Proofs.PackagelessImports
import AnalysisHost.Proofs.UseSummary
import AnalysisHost.Proofs.RefusedFlags
import AnalysisHost.Proofs.MethodExecution
import AnalysisHost.Proofs.ReportFormats
import AnalysisHost.Proofs.Remainders
import AnalysisHost.Proofs.UnitPaths
import AnalysisHost.Proofs.QuotedFinds
import AnalysisHost.Proofs.PathLabels
import AnalysisHost.Proofs.CountedCycles
import AnalysisHost.Proofs.OptionLookup
import AnalysisHost.Proofs.PackageGrammars
import AnalysisHost.Proofs.ContextUses
import AnalysisHost.Proofs.NestedPackages
import AnalysisHost.Proofs.QuotedSpans
