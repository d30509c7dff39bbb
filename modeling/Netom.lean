import Netom.FlowSpec.Counts
import Netom.Rib.Gauges
import Netom.Rpki.Delta
import Netom.Session.Handover
import Netom.BmpOut.PeerOrder
import Netom.BmpOut.Replay
import Netom.BmpIn.Withdraw
import Netom.BmpIn.Stream
import Netom.Rib.Orphans
import Netom.Rib.Reap
import Netom.Ingest.Agree
import Netom.BmpIn.Dumping
import Netom.Ingest.Inherit
import Netom.Comms.Links
import Netom.Comms.Clones
import Netom.Manager.Exact
import Netom.Manager.Failed
import Netom.Rib.Response
import Netom.ClickHouse.Recover
import Netom.ClickHouse.Shutdown
import Netom.BmpOut.Packings
import Netom.BestPath.Ranking
import Netom.BmpDump.Reassembly
import Netom.Session.Reconfigure
import Netom.Session.Mirror
import Netom.BmpOut.Budget
import Netom.Common.FrimMap
import Netom.DaemonInfo
import Netom.MrtFileIn
import Netom.FlowSpec.Bounds
