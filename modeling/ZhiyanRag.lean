import ZhiyanRag.Ingestion.PublicationOutcome
import ZhiyanRag.Ingestion.PublicationSafety
import ZhiyanRag.Ingestion.IndexDeletion
import ZhiyanRag.Ingestion.Servable
import ZhiyanRag.Ingestion.Searchable
import ZhiyanRag.Ingestion.FixedSplit
import ZhiyanRag.Ingestion.ChunkPages
import ZhiyanRag.Ingestion.ChunkProgress
import ZhiyanRag.Ingestion.UnitBoundaries
import ZhiyanRag.Ingestion.SectionPaths
import ZhiyanRag.Ingestion.SnapshotDeletion
import ZhiyanRag.Api.App
import ZhiyanRag.Ingestion.Operations
import ZhiyanRag.Ingestion.Service
import ZhiyanRag.Storage.Immutability
import ZhiyanRag.Storage.Lifecycle
import ZhiyanRag.Storage.PdfObjects
import ZhiyanRag.Storage.QueueSafety
import ZhiyanRag.Storage.RegistrationRuns
import ZhiyanRag.Retrieval.OnlineSafety
import ZhiyanRag.Retrieval.Authorization
import ZhiyanRag.Rag.NumericSupport
import ZhiyanRag.Rag.Generation
import ZhiyanRag.Ingestion.PreparationFailures
import ZhiyanRag.Ingestion.InactivationReplay
import ZhiyanRag.Ingestion.WriterOutcomes
import ZhiyanRag.Rag.NumericConflicts
import ZhiyanRag.Rag.VerifierAgreement
import ZhiyanRag.Rag.AdjacentEvidence
import ZhiyanRag.Rag.Citations
import ZhiyanRag.Retrieval.RouteCoverage
import ZhiyanRag.Retrieval.OnlineReranker
import ZhiyanRag.Retrieval.Fusion
import ZhiyanRag.Retrieval.ComparisonDecomposition
import ZhiyanRag.Retrieval.AliasSpans
import ZhiyanRag.Retrieval.SideIsolation
import ZhiyanRag.Retrieval.ConnectionPool
import ZhiyanRag.Evaluation.Reranker
import ZhiyanRag.Evaluation.EngineeringGate
import ZhiyanRag.Evaluation.SplitAssignment
import ZhiyanRag.Evaluation.CandidateRepair
import ZhiyanRag.Rag.EvidencePrompts
import ZhiyanRag.Retrieval.RequestEmbeddings
import ZhiyanRag.Evaluation.SnapshotDigest
import ZhiyanRag.Evaluation.RecordDumps
import ZhiyanRag.Retrieval.OptionalComponents
import ZhiyanRag.Retrieval.OwnerIsolation
import ZhiyanRag.Retrieval.OnlineRuns
import ZhiyanRag.Retrieval.SnapshotFidelity
import ZhiyanRag.Retrieval.WrittenIndexes
import ZhiyanRag.Storage.Migrations
import ZhiyanRag.Storage.PdfStoreRuns
import ZhiyanRag.Storage.Conflicts
import ZhiyanRag.Rag.OnlineAnswer
