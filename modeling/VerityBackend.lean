import VerityBackend.Auth.Service
import VerityBackend.Async.Discipline
import VerityBackend.Backend.Service
import VerityBackend.Auth.Families
import VerityBackend.Auth.Revocation
import VerityBackend.Store.References
import VerityBackend.Auth.AccountDeletion
import VerityBackend.Session.Service
import VerityBackend.Session.Script
import VerityBackend.Session.Decision
import VerityBackend.Session.MatchRow
import VerityBackend.Session.Outcome
import VerityBackend.Session.Lifecycle
import VerityBackend.Session.Recovery
import VerityBackend.Queue.Service
import VerityBackend.Queue.Issued
import VerityBackend.Queue.Cities
import VerityBackend.Queue.Gateway
import VerityBackend.Payments.Credits
import VerityBackend.Payments.Reports
import VerityBackend.Async.Sequential
import VerityBackend.Async.Parallel
import VerityBackend.Moderation.Service
import VerityBackend.Backend.Frames
import VerityBackend.Matchmaking.Board
import VerityBackend.Matchmaking.Alone
import VerityBackend.Matchmaking.Joining
import VerityBackend.Matchmaking.Pairing
import VerityBackend.Matchmaking.Removal
import VerityBackend.Matchmaking.Histories
import VerityBackend.Matchmaking.Bans
import VerityBackend.Matchmaking.Refunds
import VerityBackend.Matchmaking.Accounting
import VerityBackend.Matches.Service
import VerityBackend.Chat.Service
import VerityBackend.Matches.Blocks
import VerityBackend.Moderation.Retry
import VerityBackend.App.Lifetime
import VerityBackend.App.Replay
import VerityBackend.App.Aside
import VerityBackend.Async.Answers
import VerityBackend.Async.Failing
import VerityBackend.Async.Relational
import VerityBackend.Backend.Profiles
import VerityBackend.App.View
import VerityBackend.App.Masked
import VerityBackend.Backend.MatchRows
import VerityBackend.App.Anonymity
import VerityBackend.Async.Knowledge
import VerityBackend.Matches.Canonical
import VerityBackend.Chat.Gate
import VerityBackend.Matches.Disclosure
import VerityBackend.Telemetry.Alerts
import VerityBackend.Auth.TokenKinds
import VerityBackend.Moderation.Appeals
import VerityBackend.Moderation.Threshold
import VerityBackend.App.Presence
import VerityBackend.Store.Turns
import VerityBackend.App.Progress
import VerityBackend.Matchmaking.Locks
import VerityBackend.Matchmaking.Stages
import VerityBackend.Matchmaking.Conduct
import VerityBackend.Matchmaking.Duties
import VerityBackend.Matchmaking.Overlap
import VerityBackend.Matchmaking.Fifo
import VerityBackend.Matchmaking.Rounds
import VerityBackend.Matchmaking.Deferral
import VerityBackend.Matchmaking.Scores
import VerityBackend.Matchmaking.Registry
import VerityBackend.Matchmaking.Abandonment
import VerityBackend.Matchmaking.Departure
import VerityBackend.Analytics.Properties
import VerityBackend.Analytics.Ingest
import VerityBackend.Analytics.Intake
import VerityBackend.Telemetry.Influence
import VerityBackend.Telemetry.AutoPause
import VerityBackend.App.Settling
import VerityBackend.Moderation.Spelling
import VerityBackend.Queue.JoinFailure
import VerityBackend.Async.Commit
import VerityBackend.Moderation.Rulings
import VerityBackend.Moderation.ReportLimits
import VerityBackend.Session.Deadlines
import VerityBackend.Async.Credit
import VerityBackend.Session.Choosing
import VerityBackend.Session.FirstChoice
import VerityBackend.Telemetry.Durations
import VerityBackend.Numeric.Double
import VerityBackend.Numeric.NearestRank
import VerityBackend.Telemetry.Reference
import VerityBackend.Async.Bound
import VerityBackend.Session.TimerMaps
import VerityBackend.Moderation.Overlaps
import VerityBackend.Web.Client
import VerityBackend.Web.Refreshing
import VerityBackend.Queue.TickFailure
import VerityBackend.Backend.BlockRows
import VerityBackend.Moderation.BlockChecks
import VerityBackend.Moderation.BlockFinality
import VerityBackend.Mobile.Resolution
import VerityBackend.Mobile.QueueMatch
import VerityBackend.Mobile.ChatCache
import VerityBackend.Mobile.Convergence
import VerityBackend.Backend.MessageRows
import VerityBackend.Chat.RevealTime
import VerityBackend.Notifications.Ownership
import VerityBackend.Queue.Sockets
import VerityBackend.Queue.UserLocks
import VerityBackend.Format.Bytes
import VerityBackend.Video.Service
import VerityBackend.Video.Encoding
import VerityBackend.Format.JsonText
import VerityBackend.Queue.Preferences
import VerityBackend.Session.Scanning
import VerityBackend.App.Appeals
import VerityBackend.App.Talks
import VerityBackend.Telemetry.Fitting
import VerityBackend.Telemetry.Reports
import VerityBackend.Telemetry.Delivery
import VerityBackend.Telemetry.Ends
import VerityBackend.Telemetry.Ratios
import VerityBackend.Async.Outcomes
import VerityBackend.Auth.Accounts
import VerityBackend.Auth.Ages
import VerityBackend.Auth.Contacts
import VerityBackend.Auth.Cookies
import VerityBackend.Auth.Roles
import VerityBackend.Payments.Checkout
import VerityBackend.Payments.Purchases
import VerityBackend.Telemetry.Alerting
import VerityBackend.Telemetry.Sustained
