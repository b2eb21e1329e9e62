import MovieReservation.Lib.Table
import MovieReservation.Lib.Prog
import MovieReservation.Lib.Pool
import MovieReservation.Lib.Path
import MovieReservation.Lib.Commit
import MovieReservation.Lib.Trace
import MovieReservation.Lib.Effects
import MovieReservation.Lib.Run
import MovieReservation.Lib.Retry
import MovieReservation.Lib.Replica
import MovieReservation.Lib.RowLock
import MovieReservation.Lib.SlidingWindow
import MovieReservation.Lib.Binary64
import MovieReservation.Schema
import MovieReservation.Database
import MovieReservation.World
import MovieReservation.HoldSeat
import MovieReservation.Services.Reservations
import MovieReservation.Services.Payments
import MovieReservation.Services.Screenings
import MovieReservation.Services.Requests
import MovieReservation.Services.TestMode
import MovieReservation.Effects
import MovieReservation.Services.Footprint
import MovieReservation.Services.Steps
import MovieReservation.Services.Paths
import MovieReservation.Services.Sales
import MovieReservation.Services.Delivery
import MovieReservation.Services.SeatStatus
import MovieReservation.Services.Moves
import MovieReservation.Services.Admin
import MovieReservation.Services.Gateway
import MovieReservation.Services.RateLimiter
import MovieReservation.Accounts.Store
import MovieReservation.Accounts.Services
import MovieReservation.Accounts.Commands
import MovieReservation.Accounts.Tokens
import MovieReservation.Accounts.Sessions
import MovieReservation.Properties.PaidSeats
import MovieReservation.Properties.Webhook
import MovieReservation.Properties.SeatLock
import MovieReservation.Properties.Credentials
import MovieReservation.Properties.Refunds
import MovieReservation.Properties.Cancelled
import MovieReservation.Properties.Checkout
import MovieReservation.Properties.OneSale
import MovieReservation.Properties.HeldSeats
import MovieReservation.Properties.Outcomes
import MovieReservation.Properties.Retries
import MovieReservation.Properties.OneRefund
import MovieReservation.Properties.RefundRetry
import MovieReservation.Properties.SeatCache
import MovieReservation.Properties.LiveSeats
import MovieReservation.Properties.Deletes
import MovieReservation.Properties.HallSeats
import MovieReservation.Properties.OneFailure
import MovieReservation.Properties.AccessTokens
import MovieReservation.Properties.Revocation
import MovieReservation.Properties.RateLimits
import MovieReservation.Properties.HallSchedule
import MovieReservation.Properties.HeldGauge
import MovieReservation.Properties.Expiries
import MovieReservation.Properties.Rotation
import MovieReservation.Properties.VerifiedEmails
import MovieReservation.Properties.SeatMapRaces
import MovieReservation.Properties.JoinedRooms
import MovieReservation.Properties.GoogleAccounts
import MovieReservation.Properties.OtherUsers
import MovieReservation.Properties.OnSale
import MovieReservation.Properties.PublicCatalogue
import MovieReservation.Properties.Withdrawn
import MovieReservation.Properties.ScreeningLists
import MovieReservation.Accounts.Connections
import MovieReservation.Properties.SameIdentities
import MovieReservation.Properties.AbuseLockout
import MovieReservation.Properties.OneTimeCodes
import MovieReservation.Properties.Enumeration
import MovieReservation.Lib.Query
import MovieReservation.Properties.SeatMapReads
import MovieReservation.Properties.RefundTiers
import MovieReservation.Properties.RollingDay
import MovieReservation.Properties.RetryAfter
import MovieReservation.Properties.Spellings
import MovieReservation.Properties.Semaphore
import MovieReservation.Lib.Loop
import MovieReservation.Properties.StuckPayments
import MovieReservation.Properties.DeadEnds
import MovieReservation.Lib.Bijective
import MovieReservation.Properties.SeatLabels
import MovieReservation.Properties.HallLayout
import MovieReservation.Properties.ExpiryEvents
import MovieReservation.Properties.Handshakes
import MovieReservation.Properties.OpenSockets
import MovieReservation.Properties.UnknownPayments
import MovieReservation.Properties.CheckoutFailures
import MovieReservation.Properties.Rejections
import MovieReservation.Accounts.Codes
import MovieReservation.Lib.CacheAside
import MovieReservation.Properties.BoxOffice
import MovieReservation.Properties.Collections
import MovieReservation.Properties.HoldEnds
import MovieReservation.Properties.Staleness
import MovieReservation.Accounts.Controllers
import MovieReservation.Accounts.SignIns
import MovieReservation.Properties.GoogleLinks
import MovieReservation.Properties.NewPasswords
import MovieReservation.Properties.Cooldowns
import MovieReservation.Properties.Charges
import MovieReservation.Properties.Doors
import MovieReservation.Properties.Administration
