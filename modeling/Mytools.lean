import Mytools.Bridge.Proof.Authentic
import Mytools.Bridge.Proof.Backoff
import Mytools.Bridge.Proof.Content
import Mytools.Bridge.Proof.Cursor
import Mytools.Bridge.Proof.Limits
import Mytools.Bridge.Proof.LinkHeader
import Mytools.Bridge.Proof.LiveTargets
import Mytools.Bridge.Proof.PushKeys
import Mytools.Bridge.Proof.Refresh
import Mytools.Bridge.Proof.RetryAfter
import Mytools.Bridge.Proof.Visits
import Mytools.Controller.Proof.Crash
import Mytools.Controller.Proof.ExtraMounts
import Mytools.Controller.Proof.Hash
import Mytools.Controller.Proof.Image
import Mytools.Controller.Proof.Location
import Mytools.Controller.Proof.Mutate
import Mytools.Controller.Proof.Workload
import Mytools.Ff.Proof.Fresh
import Mytools.Ff.Proof.Repeat
import Mytools.Keyring.Proof.Crypto
import Mytools.Keyring.Proof.Cache
import Mytools.Litestream.Proof.Noop
import Mytools.Litestream.Proof.ReadAt
import Mytools.Litestream.Proof.Stage
import Mytools.Relay.Proof.Gate
import Mytools.Relay.Proof.Nip98
import Mytools.Relay.Proof.Query
import Mytools.Relay.Proof.Replace
import Mytools.Sarif.Proof.Fingerprint
import Mytools.Tabinfo.Proof.Plan
