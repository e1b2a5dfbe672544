import Gyee.Basic
import Gyee.Dht.Sha256
import Gyee.Dht.Log2Dist
import Gyee.Dht.RouteTable
import Gyee.Dht.Nearest
import Gyee.Dht.RouteManager
import Gyee.Dht.Query.Basic
import Gyee.Dht.Query.Pending
import Gyee.Dht.Query.Ops
import Gyee.Dht.Query.Handlers
import Gyee.Dht.Query.System
import Gyee.Dht.Query.Invariant
import Gyee.Dht.Query.Probes
import Gyee.Dht.Query.Refill
import Gyee.Dht.Query.Stale
import Gyee.Dht.Query.NatSwitch
import Gyee.Dht.Query.RouteLink
import Gyee.Dht.Query.Reports
import Gyee.Peer.Basic
import Gyee.Peer.Manager
import Gyee.Peer.System
import Gyee.Peer.Kill
import Gyee.Peer.Ledger
import Gyee.Peer.Frame
import Gyee.Peer.Accounts
import Gyee.Peer.Listener
import Gyee.Peer.Handshake
import Gyee.Peer.Caps
import Gyee.Peer.Statics
import Gyee.Peer.Workers
import Gyee.Peer.Inbounds
import Gyee.Peer.Timers
