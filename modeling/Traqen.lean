import Traqen.Lib.Json
import Traqen.Lib.JsonText
import Traqen.Lib.Machine
import Traqen.Lib.Reachability
import Traqen.Lib.OrderedMap
import Traqen.CanonicalJson
import Traqen.Model
import Traqen.TraceChain
import Traqen.UnderstandingEvaluation
import Traqen.FeatureEvolution
import Traqen.DecisionGovernance
import Traqen.DecisionReviewStore
import Traqen.DecisionReview
import Traqen.EvidenceLifecycle
import Traqen.ExecutionEvidenceStore
import Traqen.ReverseBoundary
import Traqen.ReverseJob
import Traqen.ContinuousProtection
import Traqen.FactBundleStore
import Traqen.GraphPublication
import Traqen.HeadMutations
import Traqen.SourceSliceNoninterference
import Traqen.MergedConflicts
import Traqen.IncrementalReuse
import Traqen.RunControllers
import Traqen.RunnerNonces
import Traqen.FixtureCleanup
import Traqen.ExecutableSpecs
import Traqen.MainReconciliation
import Traqen.SourceIdentity
import Traqen.GitBatch
import Traqen.ScopeLifecycle
import Traqen.RequestBudget
import Traqen.BusinessGraph
import Traqen.SourceLifecycle
import Traqen.Lib.Tiling
import Traqen.SourceReceipts
import Traqen.SourceStaging
import Traqen.SourceTiles
import Traqen.SpaceEffects
import Traqen.SpaceGroups
import Traqen.SpaceOwnership
import Traqen.CompileBudget
import Traqen.CompileRecords
import Traqen.ScopeRecordBudget
import Traqen.SeparationOfDuty
import Traqen.SourceSliceBudget
import Traqen.SourceSliceCompleteness
import Traqen.CompileSteps
import Traqen.ParserDeadline
import Traqen.ParserProtocol
import Traqen.JavaProperties
import Traqen.PropertiesStructure
import Traqen.PropertyLines
import Traqen.JavaLines
import Traqen.PropertyAlignment
import Traqen.Rfc8259
import Traqen.JsonSyntax
import Traqen.JsonPointers
import Traqen.JsonTokens
import Traqen.JsonTree
import Traqen.JsonAcceptance
import Traqen.RecordVerification
import Traqen.RecordClosure
import Traqen.PublishedSets
import Traqen.EndpointContracts
import Traqen.EndpointDeclarations
import Traqen.EndpointEmission
import Traqen.EndpointVerification
import Traqen.EndpointRoundTrip
import Traqen.TextAnchor
import Traqen.Lib.Bisect
import Traqen.ScopeNormalization
import Traqen.Lib.BreadthFirst
import Traqen.FeatureGraph
import Traqen.FeatureGraphPath
import Traqen.FeatureGraphProjection
import Traqen.Lib.KeyedDiff
import Traqen.CanonicalOrder
import Traqen.FactGraphComparison
import Traqen.LocalGraph
import Traqen.LocalGraphLevels
import Traqen.Lib.FinishingOrder
import Traqen.Lib.StrongComponents
import Traqen.SensitiveContent
import Traqen.JsonStructure
import Traqen.JsonVisit
import Traqen.ReferenceCycles
import Traqen.OpenApiParameters
import Traqen.PathIdentity
import Traqen.Lib.Intervals
import Traqen.TransportCoverage
import Traqen.IncrementalDelta
import Traqen.PassingAssertions
import Traqen.TestSpecStorage
import Traqen.CurrentMapping
