import WatchedContainers.Config
import WatchedContainers.Error
import WatchedContainers.Event.Text
import WatchedContainers.Container.Sequence
import WatchedContainers.Container.Queue
import WatchedContainers.Container.UniqueSet
import WatchedContainers.Container.SortedSet
import WatchedContainers.Container.CountedBag
import WatchedContainers.Container.Noted
import WatchedContainers.Handler.Dispatch
import WatchedContainers.Registry
import WatchedContainers.Watched.Basic
import WatchedContainers.Element.SharedText
import WatchedContainers.Element.Floating
import WatchedContainers.Rehearsal.Handlers
import WatchedContainers.Rehearsal.Exhibit
import WatchedContainers.Proofs.Simulation
import WatchedContainers.Proofs.Locality
import WatchedContainers.Proofs.Nesting
import WatchedContainers.Proofs.Mirror
import WatchedContainers.Proofs.Transcript
import WatchedContainers.Proofs.Accounts
import WatchedContainers.Proofs.Descent
import WatchedContainers.Proofs.Reentrance
import WatchedContainers.Proofs.Errands
import WatchedContainers.Proofs.Outcome
import WatchedContainers.Proofs.Strictness
import WatchedContainers.Proofs.RangeRun
import WatchedContainers.Proofs.Announcement
import WatchedContainers.Proofs.Detachment
import WatchedContainers.Proofs.ShortCircuit
import WatchedContainers.Proofs.Transparency
import WatchedContainers.Proofs.Zipper
import WatchedContainers.Proofs.Tour
import WatchedContainers.Proofs.Request
import WatchedContainers.Proofs.Resolution
import WatchedContainers.Proofs.Binding
import WatchedContainers.Proofs.Roster
import WatchedContainers.Proofs.Stack
import WatchedContainers.Proofs.Tally
import WatchedContainers.Proofs.Elementwise
import WatchedContainers.Proofs.Legibility
import WatchedContainers.Proofs.Retention
import WatchedContainers.Proofs.Replay
