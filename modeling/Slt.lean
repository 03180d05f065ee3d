import Slt.Android.NetworkChange
import Slt.Android.NormalForm
import Slt.Android.PlanLaws
import Slt.Android.Supervisor
import Slt.Cli.Concurrent
import Slt.Client.Integrity
import Slt.Client.Reconnect
import Slt.Crypto.Budget
import Slt.Crypto.Codec
import Slt.Crypto.Delivery
import Slt.Crypto.ReplaySpec
import Slt.Server.AdmissionRuns
import Slt.Server.Classification
import Slt.Server.Connection
import Slt.Server.Integrity
import Slt.Server.ManagerHistory
import Slt.Server.NatRecency
import Slt.Server.PeerMigration
import Slt.Tls.Token
import Slt.Transport.PlainUdpQspIo
import Slt.Tunnel.Registration
import Slt.Tunnel.Validation
