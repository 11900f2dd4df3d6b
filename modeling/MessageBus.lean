import MessageBus.Service.Stock
import MessageBus.Session.Run
import MessageBus.Proofs.Moves
import MessageBus.Proofs.Checks
import MessageBus.Proofs.Order
import MessageBus.Proofs.Frames
import MessageBus.Proofs.Surroundings
import MessageBus.Proofs.Calls
import MessageBus.Proofs.Ledger
import MessageBus.Proofs.Serving
import MessageBus.Proofs.Transparency
import MessageBus.Proofs.Reading
import MessageBus.Proofs.Prefixes
import MessageBus.Proofs.Fitting
import MessageBus.Proofs.TypeSafety
import MessageBus.Proofs.Queues
import MessageBus.Proofs.Traffic
import MessageBus.Proofs.Delivery
import MessageBus.Proofs.Emissions
import MessageBus.Proofs.Operations
import MessageBus.Proofs.Dealings
import MessageBus.Proofs.Ownership
import MessageBus.Proofs.Subscribers
import MessageBus.Proofs.Declared
import MessageBus.Proofs.Changes
import MessageBus.Proofs.Exports
import MessageBus.Proofs.Properties
import MessageBus.Proofs.Caches
import MessageBus.Proofs.Writes
import MessageBus.Proofs.Loads
import MessageBus.Proofs.Inferring
import MessageBus.Proofs.Boxes
import MessageBus.Proofs.Places
import MessageBus.Proofs.Contents
import MessageBus.Proofs.Boxing
import MessageBus.Proofs.Levels
import MessageBus.Proofs.Paths
import MessageBus.Proofs.Bulk
import MessageBus.Proofs.Failures
import MessageBus.Proofs.Firing
import MessageBus.Proofs.Handing
import MessageBus.Proofs.Cancelling
import MessageBus.Proofs.Building
import MessageBus.Proofs.Members
import MessageBus.Proofs.Returning
import MessageBus.Proofs.Fields
import MessageBus.Proofs.Preparing
import MessageBus.Proofs.Notifications
