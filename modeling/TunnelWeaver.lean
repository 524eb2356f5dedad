import TunnelWeaver.Account.Allowance
import TunnelWeaver.Account.EmailedCode
import TunnelWeaver.Account.Enrolment
import TunnelWeaver.Account.Inactivity
import TunnelWeaver.Account.Linking
import TunnelWeaver.Account.Refresh
import TunnelWeaver.Account.Rotation
import TunnelWeaver.Account.Settled
import TunnelWeaver.Account.Stream
import TunnelWeaver.Client.HopByHop
import TunnelWeaver.Client.ProxyHandler
import TunnelWeaver.Client.Recovery
import TunnelWeaver.Mux.Admission
import TunnelWeaver.Mux.Discipline
import TunnelWeaver.Proto.Policy
import TunnelWeaver.Server.Acceptance
import TunnelWeaver.Server.Attribution
import TunnelWeaver.Server.Backoff
import TunnelWeaver.Server.CertWatch
import TunnelWeaver.Server.Configuration
import TunnelWeaver.Server.Departure
import TunnelWeaver.Server.Erasure
import TunnelWeaver.Server.Folding
import TunnelWeaver.Server.Ownership
import TunnelWeaver.Server.Readiness
import TunnelWeaver.Server.RegistryLocks
import TunnelWeaver.Server.RevokeReply
import TunnelWeaver.Server.Serving
import TunnelWeaver.Server.Shutdown
import TunnelWeaver.Server.Truncation
import TunnelWeaver.Tokio.Driver
import TunnelWeaver.Abuse.Conservation
import TunnelWeaver.Abuse.Refusals
import TunnelWeaver.Abuse.Peers
import TunnelWeaver.Server.BucketSweep
import TunnelWeaver.Server.SingleUse
import TunnelWeaver.Client.Forwarded
import TunnelWeaver.Server.Dns
import TunnelWeaver.Server.Configure
import TunnelWeaver.Account.Guesses
import TunnelWeaver.Account.Router
import TunnelWeaver.Server.Pipeline
import TunnelWeaver.Server.Edge
import TunnelWeaver.Mux.KeyText
import TunnelWeaver.Server.SlotCover
import TunnelWeaver.Server.Granularity
import TunnelWeaver.Mux.Fragments
import TunnelWeaver.Mux.Deadlines
import TunnelWeaver.Mux.Slots
import TunnelWeaver.Mux.Selection
import TunnelWeaver.Mux.Fairness
import TunnelWeaver.Mux.Rebase
import TunnelWeaver.Mux.Front
import TunnelWeaver.Mux.Charges
import TunnelWeaver.Abuse.Encodings
import TunnelWeaver.Abuse.Issue
import TunnelWeaver.Account.Wake
import TunnelWeaver.Account.Newest
import TunnelWeaver.Account.StrongSessions
import TunnelWeaver.Server.Handles
import TunnelWeaver.Account.ReturnPath
import TunnelWeaver.Server.Names
import TunnelWeaver.Server.SignupPolicy
import TunnelWeaver.Lib.Civil
import TunnelWeaver.Server.CertDates
import TunnelWeaver.Server.CertClock
import TunnelWeaver.Lib.Transaction
import TunnelWeaver.Client.Pairings
import TunnelWeaver.Lib.Extent
import TunnelWeaver.Server.CoveredSpan
import TunnelWeaver.Lib.Series
import TunnelWeaver.Server.Metrics
import TunnelWeaver.Server.Totals
import TunnelWeaver.Server.UsageQuery
import TunnelWeaver.Lib.Broadcast
import TunnelWeaver.Server.Live
import TunnelWeaver.Account.Views
import TunnelWeaver.Lib.Latches
import TunnelWeaver.Server.CertResolver
