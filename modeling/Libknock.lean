import Libknock.Auth.Budget
import Libknock.Auth.ReplayConcurrency
import Libknock.Auth.ReplaySafety
import Libknock.Auth.ReplayStatistics
import Libknock.Auth.Transparency
import Libknock.Cache.Recency
import Libknock.Cmd.Config
import Libknock.Firewall.Restore
import Libknock.Firewall.Transient
import Libknock.Gate.Closing
import Libknock.Iplimit.Slots
import Libknock.Knock.PacketSource
import Libknock.Knock.SYNReplay
import Libknock.Knock.SYNSequenceAccounting
import Libknock.Knock.Separation
import Libknock.Knock.UDPSequenceMemory
import Libknock.Knock.UDPSequenceReplay
import Libknock.Netx.Custody
import Libknock.Netx.DialSessions
import Libknock.Policy.RollingWindow
import Libknock.Protocol.Buckets
import Libknock.Protocol.Canonical
import Libknock.Relay.HalfClose
import Libknock.Relay.IdleTimeout
import Libknock.Relay.KnockSpend
import Libknock.Relay.LeaseStore
import Libknock.Relay.Removal
import Libknock.Relay.Renewal
import Libknock.Relay.Shutdown
import Libknock.Timerset.Refinement
import Libknock.Timerset.Shutdown
