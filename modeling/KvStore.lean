import KvStore.Client.KvClient
import KvStore.Client.LoadGen
import KvStore.Client.LoadMap
import KvStore.Client.Terminal
import KvStore.Cluster.Availability
import KvStore.Cluster.Balancer
import KvStore.Cluster.Checker
import KvStore.Cluster.Keys
import KvStore.Cluster.Linearization
import KvStore.Cluster.Provenance
import KvStore.Cluster.Refusal
import KvStore.Cluster.Register
import KvStore.Cluster.SingleMap
import KvStore.Cluster.Unavailable
import KvStore.Cluster.Update
import KvStore.Health.Convergence
import KvStore.Health.Frame
import KvStore.Health.Marks
import KvStore.Http.Fields
import KvStore.Http.RoundTrip
import KvStore.Recovery.Interleaving
import KvStore.Recovery.Listing
import KvStore.Ring.Addresses
import KvStore.Ring.Collisions
import KvStore.Server.Concurrency
import KvStore.Server.CreateRead
import KvStore.Server.Inclusion
import KvStore.Server.Provenance
import KvStore.Session.Chunks
import KvStore.Session.Connections
import KvStore.Session.Pipeline
import KvStore.Session.Progress
import KvStore.Session.ReadPath
import KvStore.Cluster.Maintenance
