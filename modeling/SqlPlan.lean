import SqlPlan.Catalog.Builder
import SqlPlan.Json.Options
import SqlPlan.Json.PlanDescription
import SqlPlan.Json.ScalarReader
import SqlPlan.Json.SyntaxReader
import SqlPlan.Json.SyntaxWriter
import SqlPlan.Proofs.AddedOverload
import SqlPlan.Proofs.CaseInsensitivity
import SqlPlan.Proofs.DecimalTypes
import SqlPlan.Proofs.DiagnosticsLog
import SqlPlan.Proofs.ExpansionSound
import SqlPlan.Proofs.HistoryIndependence
import SqlPlan.Proofs.IntegerFolding
import SqlPlan.Proofs.Lineage
import SqlPlan.Proofs.PlanSlots
import SqlPlan.Proofs.QualifiedLookup
import SqlPlan.Proofs.ReportedTypes
import SqlPlan.Proofs.SearchPathExtension
import SqlPlan.Proofs.SharedCalls
import SqlPlan.Proofs.SiblingItems
import SqlPlan.Proofs.SortKeys
import SqlPlan.Proofs.StringTokens
import SqlPlan.Proofs.UnreferencedElement
import SqlPlan.Proofs.Walks
import SqlPlan.Syntax.Sample
