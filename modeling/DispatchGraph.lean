import DispatchGraph.Command.Run
import DispatchGraph.Main
import DispatchGraph.Model.Encoding
import DispatchGraph.Proofs.Accounting
import DispatchGraph.Proofs.Budget
import DispatchGraph.Proofs.EntryUnion
import DispatchGraph.Proofs.Extension
import DispatchGraph.Proofs.ModelRoundTrip
import DispatchGraph.Proofs.Reordering
import DispatchGraph.Proofs.Reports
import DispatchGraph.Proofs.Soundness
import DispatchGraph.Proofs.BreadthFirst
import DispatchGraph.Proofs.KindIndependence
import DispatchGraph.Proofs.Listing
import DispatchGraph.Proofs.ListingOrder
import DispatchGraph.Proofs.ApplicationClasses
import DispatchGraph.Proofs.UnreachedBodies
import DispatchGraph.Proofs.RepeatedMethods
import DispatchGraph.Proofs.Resolution
import DispatchGraph.Proofs.Termination
import DispatchGraph.Proofs.Ancestors
import DispatchGraph.Proofs.HierarchyQueries
import DispatchGraph.Proofs.Batches
import DispatchGraph.Proofs.MainMethods
import DispatchGraph.Proofs.Insertions
