import ManifestOrder.Main
import ManifestOrder.Text.ByteOffset
import ManifestOrder.Proofs.Command.Failures
import ManifestOrder.Proofs.Dependency.UndoHistory
import ManifestOrder.Proofs.Dependency.Change
import ManifestOrder.Proofs.Dependency.Arrangement
import ManifestOrder.Proofs.SortedInPlace
import ManifestOrder.Proofs.Command.Sort
import ManifestOrder.Proofs.Command.Rearrangement
import ManifestOrder.Proofs.Command.Agreement
import ManifestOrder.Proofs.Dependency.AllOrNothing
import ManifestOrder.Proofs.Edit.Acceptance
import ManifestOrder.Proofs.Text.ByteDecoding
import ManifestOrder.Proofs.Xml.Placement
import ManifestOrder.Proofs.Xml.Traversal
import ManifestOrder.Proofs.Xml.ElementText
import ManifestOrder.Proofs.Dependency.Placement
import ManifestOrder.Proofs.Path
import ManifestOrder.Proofs.Command.Apart
import ManifestOrder.Proofs.Command.ArgumentOrder
import ManifestOrder.Proofs.Dependency.Comparator
import ManifestOrder.Proofs.Dependency.Plan
import ManifestOrder.Proofs.Lint.FirstViolation
import ManifestOrder.Proofs.Toml.UniqueKeys
import ManifestOrder.Proofs.Config
import ManifestOrder.Proofs.Command.Totals
import ManifestOrder.Proofs.Dependency.Positions
import ManifestOrder.Proofs.Dependency.Standalone
import ManifestOrder.Proofs.Manifest.Search
