import FixedArena.Proofs.Block.Liveness
import FixedArena.Proofs.Block.Order
import FixedArena.Proofs.Ring.Records
import FixedArena.Proofs.Ring.Robust
import FixedArena.Proofs.Sizing.Overrides
import FixedArena.Proofs.Sizing.RoundTrip
import FixedArena.Proofs.Store.Assignments
import FixedArena.Proofs.Store.Capacity
import FixedArena.Proofs.Store.Contents
import FixedArena.Proofs.Store.Exact
import FixedArena.Proofs.Store.Failures
import FixedArena.Proofs.Store.Harmless
import FixedArena.Proofs.Store.Isolation
import FixedArena.Proofs.Store.Leaks
import FixedArena.Proofs.Store.Peaks
import FixedArena.Proofs.Store.Rollback
import FixedArena.Proofs.Store.Slots
import FixedArena.Proofs.Store.Tours
import FixedArena.Proofs.Store.Variables
import FixedArena.Proofs.Text.Clipping
import FixedArena.Store.View
