import Ekglue.Xds.Types
import Ekglue.Xds.Manager
import Ekglue.Xds.Equiv.Store
import Ekglue.Xds.Equiv.Keys
import Ekglue.Xds.Stream
import Ekglue.Xds.System
import Ekglue.Xds.Equiv.Sessions
import Ekglue.Xds.Equiv.Snapshot
import Ekglue.Xds.Equiv.Freshness
import Ekglue.Xds.Equiv.Deadlock
import Ekglue.Xds.Equiv.Subscription
import Ekglue.Xds.Equiv.Transactions
import Ekglue.Xds.StreamGrpc
import Ekglue.Xds.Equiv.Pumps
import Ekglue.Xds.Equiv.Delivery
import Ekglue.Xds.Equiv.Versions
import Ekglue.Xds.Equiv.Spans
import Ekglue.Xds.Equiv.Release
import Ekglue.Xds.Equiv.Adapter
import Ekglue.Xds.Equiv.Nonces
import Ekglue.Xds.Equiv.Pushes
