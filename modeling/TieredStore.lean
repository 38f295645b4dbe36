import TieredStore.Proofs.Client.Ids
import TieredStore.Proofs.Client.OneAttempt
import TieredStore.Proofs.Cluster.DefaultOrStored
import TieredStore.Proofs.Cluster.ExactSwap
import TieredStore.Proofs.Cluster.KeyWalk
import TieredStore.Proofs.Cluster.Locality
import TieredStore.Proofs.Cluster.OneMap
import TieredStore.Proofs.Cluster.Registering
import TieredStore.Proofs.Cluster.Waiting
import TieredStore.Proofs.Datum.AnyOrder
import TieredStore.Proofs.Datum.PackedCanonical
import TieredStore.Proofs.Datum.PlainTransparent
import TieredStore.Proofs.Reply.Carried
import TieredStore.Proofs.Routing.CarrySum
import TieredStore.Proofs.Server.Coherence
import TieredStore.Proofs.Server.Counting
import TieredStore.Proofs.Server.Durability
import TieredStore.Proofs.Server.Increments
import TieredStore.Proofs.Server.StoredKeys
import TieredStore.Proofs.Server.StoredValues
import TieredStore.Proofs.Sockets.Datagrams
import TieredStore.Proofs.Sockets.FrameBoundary
import TieredStore.Proofs.Sockets.OverTcp
import TieredStore.Proofs.Sockets.Sharing
import TieredStore.Proofs.Sockets.SizeLimits
import TieredStore.Proofs.Store.CounterGrammar
import TieredStore.Proofs.Wire.AnyStream
import TieredStore.Text.Hex
