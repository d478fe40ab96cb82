import Oxidrop.Lib.Run
import Oxidrop.Lib.Latch
import Oxidrop.Lib.Keyed
import Oxidrop.Lib.PrefixMap
import Oxidrop.Lib.BoundedMap
import Oxidrop.Lib.TokenBucket
import Oxidrop.Lib.Replay
import Oxidrop.Lib.Serde
import Oxidrop.Lib.Table
import Oxidrop.Lib.Newest
import Oxidrop.Lib.Split
import Oxidrop.Lib.Numeral
import Oxidrop.Lib.JavaScript
import Oxidrop.Lib.Literal
import Oxidrop.Lib.NumberText
import Oxidrop.Lib.LongestRun
import Oxidrop.Lib.Broadcast
import Oxidrop.Lib.Locks
import Oxidrop.Lib.LockProgress
import Oxidrop.Lib.LockCuts
import Oxidrop.Lib.Router
import Oxidrop.Common
import Oxidrop.Kernel
import Oxidrop.Headers
import Oxidrop.Xdp
import Oxidrop.Flow
import Oxidrop.Isolation
import Oxidrop.Gates
import Oxidrop.Families
import Oxidrop.Events
import Oxidrop.Admission
import Oxidrop.RateLimit
import Oxidrop.Teardown
import Oxidrop.Opening
import Oxidrop.Wire
import Oxidrop.Replies
import Oxidrop.Chains
import Oxidrop.Fragments
import Oxidrop.Cleanup
import Oxidrop.Spending
import Oxidrop.Database
import Oxidrop.Api
import Oxidrop.Ebpf
import Oxidrop.Config
import Oxidrop.Adapters
import Oxidrop.Subnet
import Oxidrop.Compensation
import Oxidrop.Restart
import Oxidrop.Payloads
import Oxidrop.Management
import Oxidrop.Users
import Oxidrop.Administrators
import Oxidrop.Provenance
import Oxidrop.Refusals
import Oxidrop.Metering
import Oxidrop.Attachment
import Oxidrop.Startup
import Oxidrop.Operation
import Oxidrop.Overflow
import Oxidrop.Bursts
import Oxidrop.Persistence
import Oxidrop.SubnetTable
import Oxidrop.Logs
import Oxidrop.Bootstrap
import Oxidrop.Passwords
import Oxidrop.Routes
import Oxidrop.Sessions
import Oxidrop.Server
import Oxidrop.Mediation
import Oxidrop.Credentials
import Oxidrop.Revocation
import Oxidrop.Onboarding
import Oxidrop.RecentLogs
import Oxidrop.LogStream
import Oxidrop.Concurrency
import Oxidrop.Backup
import Oxidrop.Recovery
import Oxidrop.Frontend.Addresses
import Oxidrop.Frontend.Ipv6Text
import Oxidrop.Frontend.Ipv4Text
import Oxidrop.Frontend.LogsPage
import Oxidrop.Frontend.SubnetPage
import Oxidrop.Frontend.SubnetMirror
