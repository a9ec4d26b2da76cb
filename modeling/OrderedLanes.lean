import OrderedLanes.Interleaving.KeyDrawing
import OrderedLanes.Interleaving.World
import OrderedLanes.Proofs.Absorption
import OrderedLanes.Proofs.Cancellations
import OrderedLanes.Proofs.Closings
import OrderedLanes.Proofs.CountVector
import OrderedLanes.Proofs.Custody
import OrderedLanes.Proofs.DeadWorker
import OrderedLanes.Proofs.Exchanges
import OrderedLanes.Proofs.Fairness
import OrderedLanes.Proofs.ForcedStop
import OrderedLanes.Proofs.GracefulStop
import OrderedLanes.Proofs.Halts
import OrderedLanes.Proofs.KeyDraws
import OrderedLanes.Proofs.KeyOrder
import OrderedLanes.Proofs.LaneScripts
import OrderedLanes.Proofs.Queues
import OrderedLanes.Proofs.Races
import OrderedLanes.Proofs.RecencyList
import OrderedLanes.Proofs.RecencyWindow
import OrderedLanes.Proofs.Safeguards
import OrderedLanes.Proofs.SessionHandles
import OrderedLanes.Proofs.Settlement
import OrderedLanes.Proofs.SlotReuse
import OrderedLanes.Proofs.SpacedKeys
import OrderedLanes.Proofs.Spread
import OrderedLanes.Proofs.StampRuns
import OrderedLanes.Proofs.StampTenures
import OrderedLanes.Proofs.StartedLanes
import OrderedLanes.Proofs.StopPaths
import OrderedLanes.Proofs.Tracks
import OrderedLanes.Proofs.Wakings
import OrderedLanes.Session.Step
