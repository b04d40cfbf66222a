import ApiCatalog.Main
import ApiCatalog.Reconcile.Setup
import ApiCatalog.Proofs.Store.Operation
import ApiCatalog.Proofs.Store.StatusWrite
import ApiCatalog.Proofs.Reconcile.Solo
import ApiCatalog.Proofs.Schema
import ApiCatalog.Proofs.Reconcile.Meaning
import ApiCatalog.Proofs.Reconcile.Convergence
import ApiCatalog.Proofs.Store.History
import ApiCatalog.Proofs.Program
import ApiCatalog.Proofs.Reconcile.Token
import ApiCatalog.Proofs.Watch.Trigger
import ApiCatalog.Proofs.Reconcile.Stage
import ApiCatalog.Proofs.Watch.Coverage
import ApiCatalog.Proofs.Watch.Schedule
import ApiCatalog.Proofs.Store.Freshness
import ApiCatalog.Proofs.Reconcile.Cancellation
import ApiCatalog.Proofs.Store.Agreement
import ApiCatalog.Proofs.Watch.Quiescence
import ApiCatalog.Proofs.Reconcile.Slot
import ApiCatalog.Proofs.Store.Loading
import ApiCatalog.Proofs.Client.Duplicates
import ApiCatalog.Proofs.Store.Shared
import ApiCatalog.Proofs.Command.Controller
import ApiCatalog.Proofs.Reconcile.Order
import ApiCatalog.Proofs.Watch.Dependents
import ApiCatalog.Proofs.Lossless
import ApiCatalog.Proofs.Store.Announcement
import ApiCatalog.Proofs.Store.Normal
import ApiCatalog.Proofs.Store.Rebuilt
import ApiCatalog.Proofs.Reconcile.Transition
import ApiCatalog.Proofs.Store.Map
import ApiCatalog.Proofs.Client.Agreement
import ApiCatalog.Proofs.Reconcile.Conduct
import ApiCatalog.Proofs.Store.Undo
import ApiCatalog.Proofs.Reconcile.Stopping
import ApiCatalog.Proofs.Client.BoundLine
import ApiCatalog.Proofs.Client.Polling
import ApiCatalog.Proofs.Client.Rebinding
import ApiCatalog.Proofs.Client.Rows
import ApiCatalog.Proofs.Condition.Succession
import ApiCatalog.Proofs.Client.EntryReference
