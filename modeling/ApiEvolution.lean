import ApiEvolution.Migration.Basic
import ApiEvolution.Proofs.Accounting
import ApiEvolution.Proofs.Conservation
import ApiEvolution.Stage.Pipeline
import ApiEvolution.Storage
import ApiEvolution.Usage.Generation
import ApiEvolution.Proofs.Containers
import ApiEvolution.Proofs.Refinement
import ApiEvolution.Proofs.ReviewNotes
import ApiEvolution.Proofs.Indices
import ApiEvolution.Proofs.StrictStage
import ApiEvolution.Proofs.Overriding
import ApiEvolution.Proofs.Reordering
import ApiEvolution.Proofs.SelfComparison
import ApiEvolution.Proofs.LedgerEncoding
import ApiEvolution.Proofs.Mirroring
import ApiEvolution.Proofs.ParentIndex
import ApiEvolution.Proofs.SnapshotEncoding
import ApiEvolution.Proofs.DisplayedTypes
import ApiEvolution.Proofs.Nesting
import ApiEvolution.Proofs.MappingIndex
import ApiEvolution.Proofs.GeneratedAnnotations
import ApiEvolution.Proofs.LeadingValues
import ApiEvolution.Proofs.InstanceNames
import ApiEvolution.Proofs.EffectiveValues
import ApiEvolution.Proofs.SeparatorCuts
import ApiEvolution.Proofs.SequenceScores
import ApiEvolution.Proofs.Unions
import ApiEvolution.Proofs.TypeDocuments
import ApiEvolution.Proofs.Evidence
import ApiEvolution.Proofs.CanonicalOrder
import ApiEvolution.Proofs.LinkLoops
