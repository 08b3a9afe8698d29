import GroupedRows.Census
import GroupedRows.Log.Rendered
import GroupedRows.Proofs.GroupTree.PrefixTree
import GroupedRows.Proofs.Session.Coherence
import GroupedRows.Proofs.Session.NoLostChange
import GroupedRows.Proofs.Session.ReferenceAnswers
import GroupedRows.Session.Run
import GroupedRows.Switchboard
import GroupedRows.Workbench
import GroupedRows.Proofs.GroupTree.Partition
import GroupedRows.Proofs.VisibleRows
import GroupedRows.Proofs.Session.Reading
import GroupedRows.Proofs.Navigation
import GroupedRows.Proofs.Session.NoticeReads
import GroupedRows.Proofs.Session.Tidy
import GroupedRows.Proofs.Session.UnmovedRows
import GroupedRows.Proofs.Session.RowAnswers
import GroupedRows.Proofs.GroupTree.SharedLevels
import GroupedRows.Proofs.Session.Regrouping
import GroupedRows.Proofs.Session.LayoutNotices
import GroupedRows.Proofs.Session.ListSource
import GroupedRows.Proofs.Session.Connections
import GroupedRows.Proofs.Session.Alone
import GroupedRows.Proofs.Session.Bystanders
import GroupedRows.Proofs.Session.Noninterference
import GroupedRows.Proofs.Signal.CallOrder
import GroupedRows.Proofs.Switchboard.Emissions
import GroupedRows.Proofs.Session.OwnLinks
import GroupedRows.Proofs.Session.CancelledChanges
import GroupedRows.Proofs.Session.Revealing
import GroupedRows.Proofs.Session.SameGrouping
import GroupedRows.Proofs.Session.OneChange
import GroupedRows.Proofs.GroupTree.Lookups
import GroupedRows.Proofs.GroupTree.Preorder
import GroupedRows.Proofs.Session.GroupQuestions
import GroupedRows.Proofs.Session.Mirrors
import GroupedRows.Proofs.Outline.Entries
import GroupedRows.Proofs.Outline.Leads
import GroupedRows.Proofs.GroupTree.Arena
import GroupedRows.Proofs.Session.NotedPositions
