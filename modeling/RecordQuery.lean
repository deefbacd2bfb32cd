import RecordQuery.Dataset
import RecordQuery.Proofs.Aggregate.SignedSums
import RecordQuery.Proofs.Condition.Conjunction
import RecordQuery.Proofs.Condition.Disjunction
import RecordQuery.Proofs.Condition.Faults
import RecordQuery.Proofs.Condition.LeadingWord
import RecordQuery.Proofs.Condition.Like
import RecordQuery.Proofs.Condition.ReadBack
import RecordQuery.Proofs.Date.Spelling
import RecordQuery.Proofs.FirstOccurrences
import RecordQuery.Proofs.Number.Rounding
import RecordQuery.Proofs.Order.Sorting
import RecordQuery.Proofs.Plan.DistinctColumns
import RecordQuery.Proofs.Plan.DistinctRows
import RecordQuery.Proofs.Plan.GroupColumns
import RecordQuery.Proofs.Plan.GroupFilter
import RecordQuery.Proofs.Plan.GroupedRow
import RecordQuery.Proofs.Plan.HelperFields
import RecordQuery.Proofs.Plan.Paging
import RecordQuery.Proofs.Plan.Partition
import RecordQuery.Proofs.Plan.Registered
import RecordQuery.Proofs.Plan.RowOrder
import RecordQuery.Proofs.Plan.ShownColumns
import RecordQuery.Proofs.Plan.WildcardRows
import RecordQuery.Proofs.Query.BareClause
import RecordQuery.Proofs.Query.ColumnNames
import RecordQuery.Proofs.Query.ReadBack
import RecordQuery.Proofs.Query.TextFilter
import RecordQuery.Proofs.Select.ItemTexts
import RecordQuery.Proofs.Text.Canonical
import RecordQuery.Proofs.Value.SortOrder
import RecordQuery.Proofs.Value.WholeNumbers
