import Dibs.Lib.Json
import Dibs.History.Accounts
import Dibs.Service.Terminal
import Dibs.Service.Lifetime
import Dibs.Service.Cancellation
import Dibs.Service.Bookings
import Dibs.Service.Permits
import Dibs.Workers.Deliveries
import Dibs.Mock.Protection
import Dibs.Service.Coherence
import Dibs.Lib.Lease
import Dibs.Store.Windows
import Dibs.Redis.Races
import Dibs.Redis.Retention
import Dibs.Recovery.Overlap
import Dibs.Recovery.Leadership
import Dibs.Recovery.Pass
import Dibs.Mock.Representation
import Dibs.Mock.Races
import Dibs.Mock.Agreement
import Dibs.Recovery.Backlog
import Dibs.Service.Creation
import Dibs.Service.Legacy
import Dibs.Models.Instants
import Dibs.Models.Calendar
import Dibs.Data.Venues
import Dibs.Orchestrator.Schemas
import Dibs.Models.Documents
import Dibs.Service.Documents
import Dibs.Service.OnRedis
import Dibs.Redis.Calls
import Dibs.Redis.Rejections
import Dibs.Redis.Cleanup
import Dibs.Service.Backoff
import Dibs.Orchestrator.Validator
import Dibs.Orchestrator.Readiness
import Dibs.Service.Intents
import Dibs.Lib.Sha256
import Dibs.Integrations.MockBooking
import Dibs.Integrations.Slots
import Dibs.Integrations.Search
import Dibs.Lib.SlidingWindow
import Dibs.Service.Throttle
import Dibs.Service.SharedThrottle
import Dibs.Service.Login
import Dibs.Service.Guesses
import Dibs.Config.Redaction
import Dibs.Config.Settings
import Dibs.Config.Creation
import Dibs.Integrations.Histories
import Dibs.Lib.JsonAscii
import Dibs.Service.Idempotency
import Dibs.Service.Execution
import Dibs.Redis.Keys
import Dibs.Lib.Exclusive
import Dibs.Lib.Journal
import Dibs.Db.Migrations
import Dibs.Accounts.Tables
import Dibs.Accounts.Sessions
import Dibs.Accounts.Tokens
import Dibs.Api.Access
import Dibs.Frontend.Browser
import Dibs.Service.Router
import Dibs.Api.Prompts
import Dibs.Service.Answers
import Dibs.Integrations.Email
import Dibs.Service.Mail
import Dibs.Service.Simulation
