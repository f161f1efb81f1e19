import Neighbor.Schedule
import Neighbor.Settings.Check
import Neighbor.Settings.Load
import Neighbor.Store.Lookup
import Neighbor.Store.Table
import Neighbor.Proofs.Edit
import Neighbor.Proofs.Passage
import Neighbor.Proofs.Victim
import Neighbor.Proofs.Claim
import Neighbor.Proofs.Learn
import Neighbor.Proofs.Transmit
import Neighbor.Proofs.Resolve
import Neighbor.Proofs.Tick
import Neighbor.Proofs.Heed
import Neighbor.Proofs.Turn
import Neighbor.Proofs.History
import Neighbor.Proofs.Sound
import Neighbor.Proofs.Evidence
import Neighbor.Proofs.Flow
import Neighbor.Proofs.Parcel
import Neighbor.Proofs.Fate
import Neighbor.Proofs.Change
import Neighbor.Proofs.Quest
import Neighbor.Proofs.Pacing
import Neighbor.Proofs.Lapse
import Neighbor.Proofs.Reach
import Neighbor.Proofs.Edges
import Neighbor.Proofs.Wire
import Neighbor.Proofs.Exchange
import Neighbor.Proofs.Pending
import Neighbor.Proofs.Books
import Neighbor.Proofs.Ledger
import Neighbor.Proofs.Precedence
import Neighbor.Proofs.Requests
import Neighbor.Proofs.Horizon
import Neighbor.Proofs.Stop
import Neighbor.Proofs.Effect
import Neighbor.Proofs.Permanent
import Neighbor.Proofs.Provenance
import Neighbor.Proofs.Prevail
import Neighbor.Proofs.Descent
import Neighbor.Proofs.Refusal
import Neighbor.Proofs.Replies
import Neighbor.Proofs.Generation
import Neighbor.Proofs.Incarnation
import Neighbor.Proofs.Local
import Neighbor.Proofs.Commute
import Neighbor.Proofs.Usable
import Neighbor.Proofs.Eviction
import Neighbor.Proofs.Idle
import Neighbor.Proofs.Deadline
import Neighbor.Proofs.Recorded
import Neighbor.Proofs.Notation
import Neighbor.Proofs.Inbound
import Neighbor.Proofs.Renewal
import Neighbor.Proofs.Drain
import Neighbor.Proofs.Report
import Neighbor.Proofs.Order
import Neighbor.Proofs.Grace
import Neighbor.Proofs.Installed
import Neighbor.Proofs.Growth
import Neighbor.Proofs.Shown
import Neighbor.Proofs.Columns
import Neighbor.Proofs.Fifo
import Neighbor.Proofs.Cadence
import Neighbor.Proofs.Timetable
