import PeerSearch.LogLevel
import PeerSearch.Main
import PeerSearch.Proofs.SortedMap
import PeerSearch.Proofs.Runs
import PeerSearch.Table.Command
import PeerSearch.Proofs.GroupIndex
import PeerSearch.Proofs.Table.Change
import PeerSearch.Proofs.Table.RowChange
import PeerSearch.Proofs.Table.Counts
import PeerSearch.Proofs.Table.Checked
import PeerSearch.Proofs.RowOrder
import PeerSearch.Proofs.Table.Sorted
import PeerSearch.Proofs.Table.Pinned
import PeerSearch.Proofs.Table.Visibility
import PeerSearch.Proofs.Table.Arrival
import PeerSearch.Proofs.Table.Events
import PeerSearch.Proofs.Table.Live
import PeerSearch.GroupIndex.Command
import PeerSearch.Proofs.GroupIndex.Effect
import PeerSearch.Proofs.SizeIndex
import PeerSearch.Proofs.GroupIndex.Accepted
import PeerSearch.Proofs.GroupIndex.Register
import PeerSearch.Proofs.GroupIndex.Identity
import PeerSearch.Proofs.GroupIndex.HashKeys
import PeerSearch.Proofs.GroupIndex.OnePerKey
import PeerSearch.Proofs.GroupIndex.HashParts
import PeerSearch.Proofs.Summary
import PeerSearch.Proofs.GroupIndex.Summaries
import PeerSearch.Facet.Command
import PeerSearch.Proofs.Facet.Links
import PeerSearch.Proofs.Text.Blank
import PeerSearch.Proofs.Text.LowerCase
import PeerSearch.Proofs.Text.Ascii
import PeerSearch.Proofs.Facet.Entries
import PeerSearch.Proofs.Facet.Consistent
import PeerSearch.Proofs.Facet.Answers
import PeerSearch.Proofs.Facet.Labels
import PeerSearch.Proofs.Facet.Choices
import PeerSearch.Proofs.Table.Facets
import PeerSearch.Proofs.Table.Selection
import PeerSearch.Proofs.Desk.Live
import PeerSearch.Proofs.Table.Adding
import PeerSearch.Proofs.Table.Sound
import PeerSearch.Proofs.Facet.Apart
import PeerSearch.Proofs.GroupIndex.Apart
import PeerSearch.Proofs.GroupIndex.Names
import PeerSearch.Proofs.Table.Apart
import PeerSearch.Proofs.Table.Names
import PeerSearch.Proofs.Table.Clearing
import PeerSearch.Proofs.Table.Content
import PeerSearch.Proofs.Replay.Lines
import PeerSearch.Proofs.Replay.Searches
import PeerSearch.Proofs.Replay.InOrder
import PeerSearch.Proofs.Replay.Threads
import PeerSearch.Proofs.Replay.Reports
import PeerSearch.Proofs.Desk.Limit
import PeerSearch.Proofs.EditDistance
import PeerSearch.Proofs.Table.Others
import PeerSearch.Proofs.Table.Accepting
import PeerSearch.Proofs.Fingerprint
import PeerSearch.SizeIndex.Command
import PeerSearch.Proofs.SizeIndex.Exhaustive
import PeerSearch.Proofs.GroupIndex.Undoing
import PeerSearch.Proofs.Table.Verdict
import PeerSearch.Proofs.ContentHash
import PeerSearch.Proofs.Settings.Extensions
import PeerSearch.Proofs.Settings.Resolved
import PeerSearch.Proofs.Text.Width
import PeerSearch.Proofs.Text.Column
import PeerSearch.Proofs.Text.Words
import PeerSearch.Proofs.Fingerprint.Names
