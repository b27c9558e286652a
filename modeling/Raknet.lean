import Raknet.Lib.Dict
import Raknet.Lib.Interleaving
import Raknet.Router
import Raknet.Peer
import Raknet.Pump
import Raknet.Calls
import Raknet.Registry
import Raknet.Sync.Registry
import Raknet.Aio.Mailbox
import Raknet.Aio.Tasks
import Raknet.Isolation
import Raknet.Lib.Custody
import Raknet.Sync.Closing
import Raknet.Sync.Delivery
import Raknet.Sync.Dialing
import Raknet.Sync.Leftovers
import Raknet.Sync.OneShot
import Raknet.Transport.Custody
import Raknet.Transport.Pongs
import Raknet.Lib.Condition
import Raknet.Lib.Marker
import Raknet.Lib.Trace
import Raknet.Pings
import Raknet.Sync.Accept
import Raknet.Sync.Overflow
import Raknet.Sync.Reconnect
import Raknet.Wakeup
import Raknet.Aio.Factories
import Raknet.Aio.Teardown
import Raknet.Lib.Simulation
import Raknet.Aio.Mirror
import Raknet.Termination
import Raknet.Sync.Stuck
import Raknet.Entries
import Raknet.Lib.Clients
import Raknet.Sync.OneShotPing
import Raknet.Sync.Serving
import Raknet.Aio.Orphans
import Raknet.Aio.Soundness
import Raknet.Aio.Accept
import Raknet.Aio.Serving
import Raknet.Aio.Mailed
import Raknet.Aio.Delivery
