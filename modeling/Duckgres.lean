import Duckgres.Proof.Activator.Migrating
import Duckgres.Proof.Admission.Alone
import Duckgres.Proof.Admission.Leases
import Duckgres.Proof.Admission.Queue
import Duckgres.Proof.Auth.Histories
import Duckgres.Proof.Conn.Cancelling
import Duckgres.Proof.Conn.Decoding
import Duckgres.Proof.Conn.Describing
import Duckgres.Proof.Conn.Fetching
import Duckgres.Proof.Conn.Inserting
import Duckgres.Proof.Conn.Logging
import Duckgres.Proof.Conn.Plans
import Duckgres.Proof.Conn.Runs
import Duckgres.Proof.Conn.Startup
import Duckgres.Proof.Flight.Batch
import Duckgres.Proof.Flight.Interpolate
import Duckgres.Proof.Flight.PidRouting
import Duckgres.Proof.Flight.Reconnect
import Duckgres.Proof.Flight.Tenancy
import Duckgres.Proof.Ingress.Reaper
import Duckgres.Proof.Ingress.Recovery
import Duckgres.Proof.Ingress.Revoking
import Duckgres.Proof.Pool.Credentials
import Duckgres.Proof.Pool.Labels
import Duckgres.Proof.Pool.Takeover
import Duckgres.Proof.Process.Held
import Duckgres.Proof.Proxy.Coalescing
import Duckgres.Proof.Proxy.Ranges
import Duckgres.Proof.Sessions.Drain
import Duckgres.Proof.Store.OrgCap
import Duckgres.Proof.Transpile.Returning
import Duckgres.Proof.Transpile.SearchPath
import Duckgres.Proof.Worker.Isolation
import Duckgres.Proof.Worker.Retries
import Duckgres.Proof.Worker.Secrets
