import BusBookings.Proof.Contest
import BusBookings.Proof.Cancellation
import BusBookings.Proof.Atomicity
import BusBookings.Proof.Delivery
import BusBookings.Proof.RateLimits
import BusBookings.Proof.Seats
import BusBookings.Proof.Coherence
import BusBookings.Proof.Searches
import BusBookings.Proof.Routes
import BusBookings.Proof.Law
import BusBookings.Proof.SeatLists
import BusBookings.Proof.Filters
import BusBookings.Proof.Tokens
import BusBookings.Proof.Deactivation
import BusBookings.Proof.Errors
import BusBookings.Proof.FakeRedis
import BusBookings.Proof.Migrations
import BusBookings.Proof.Columns
import BusBookings.Proof.Departures
import BusBookings.Proof.Validation
import BusBookings.Proof.Completion
import BusBookings.Proof.SerialOrder
import BusBookings.Proof.Mail
import BusBookings.Proof.Authentication
import BusBookings.Proof.Transactions
import BusBookings.Proof.Staleness
import BusBookings.Proof.Outages
import BusBookings.Proof.Statements
