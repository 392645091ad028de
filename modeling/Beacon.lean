import Beacon.Foundation.Calendar
import Beacon.Foundation.Json
import Beacon.Foundation.Machine
import Beacon.Foundation.Program
import Beacon.Foundation.Rfc3339
import Beacon.Foundation.Snapshot
import Beacon.Foundation.SortedMap
import Beacon.Foundation.Table
import Beacon.Foundation.Text
import Beacon.Model
import Beacon.Policy
import Beacon.Templates
import Beacon.Server.Notifications
import Beacon.Server.Store
import Beacon.Server.Queue
import Beacon.Server.Lifecycle
import Beacon.Server.History
import Beacon.Server.AlertRecords
import Beacon.Server.Idempotence
import Beacon.Server.Routing
import Beacon.Server.Episodes
import Beacon.Server.Concurrency
import Beacon.Delivery.Rows
import Beacon.Delivery.Dispatcher
import Beacon.Delivery.Workers
import Beacon.Delivery.Reclaim
import Beacon.Foundation.Directory
import Beacon.Agent.Spool
import Beacon.Agent.Drain
import Beacon.Agent.System
import Beacon.Agent.Order
import Beacon.Delivery.Claims
import Beacon.Delivery.Worker
import Beacon.Delivery.Backoff
import Beacon.Delivery.Overtaking
import Beacon.Agent.Pending
import Beacon.Foundation.JsonReader
import Beacon.Foundation.JsonRender
import Beacon.Agent.Encoding
import Beacon.Foundation.Links
import Beacon.Foundation.Sessions
import Beacon.Server.Credentials
import Beacon.Server.Enrollment
import Beacon.Server.Redemptions
import Beacon.Server.Codes
import Beacon.Server.Lookups
import Beacon.Server.Revocation
import Beacon.Foundation.Marks
import Beacon.Agent.Bodies
import Beacon.Placeholders
import Beacon.Delivery.Rounds
import Beacon.Server.RetryTime
import Beacon.Agent.Enroll
import Beacon.Agent.Interruptions
import Beacon.Foundation.Ranking
import Beacon.Server.CodeFiles
import Beacon.Server.LastSeen
import Beacon.Server.Listing
import Beacon.Foundation.Skeleton
import Beacon.Messages
import Beacon.MessageLengths
import Beacon.Delivery.Telegram
import Beacon.Foundation.Simulation
import Beacon.Agent.Processes
import Beacon.Agent.Steps
import Beacon.Agent.Origins
import Beacon.Agent.Blocked
import Beacon.Server.Chronicle
import Beacon.Server.Startup
import Beacon.Delivery.Restarts
import Beacon.Delivery.Undeliverable
import Beacon.Agent.Wire
import Beacon.Agent.Departures
import Beacon.Foundation.SqlTable
import Beacon.Foundation.Refinement
import Beacon.Server.Schema
import Beacon.Server.Statements
import Beacon.Delivery.Fates
import Beacon.Server.Access
import Beacon.Agent.Admission
import Beacon.Server.Slices
import Beacon.Deployment
