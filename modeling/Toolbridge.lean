import Toolbridge.Syncx.Json
import Toolbridge.Syncx.Cursor
import Toolbridge.Syncx.Extract
import Toolbridge.Store.Table
import Toolbridge.Store.Tx
import Toolbridge.Store.Lww
import Toolbridge.Store.Scan
import Toolbridge.Service.Push
import Toolbridge.Service.PushSpec
import Toolbridge.Service.Batch
import Toolbridge.Service.Pushes
import Toolbridge.Service.Rest
import Toolbridge.Service.Versions
import Toolbridge.Service.Interleave
import Toolbridge.Service.Account
import Toolbridge.Service.SessionRace
import Toolbridge.Service.Pull
import Toolbridge.Service.Pagination
import Toolbridge.Service.Replication
import Toolbridge.Service.Scoped
import Toolbridge.Service.Isolation
import Toolbridge.Service.Columns
import Toolbridge.Service.SessionStore
import Toolbridge.Service.ParentRace
import Toolbridge.Service.Convergence
import Toolbridge.Client.Session
import Toolbridge.Client.Transport
import Toolbridge.Client.Handshake
