import UDataPacketBroker.Utilities.KeyOrder
import UDataPacketBroker.RocksDatabase.PacketLog
import UDataPacketBroker.RocksDatabase.Registry
import UDataPacketBroker.Library.Pointwise
import UDataPacketBroker.Proto.Wire
import UDataPacketBroker.Broker
import UDataPacketBroker.Broker.Sequencing
import UDataPacketBroker.Broker.Accounting
import UDataPacketBroker.Restart
import UDataPacketBroker.RocksDatabase.Race
import UDataPacketBroker.PublishService
import UDataPacketBroker.PublishService.Response
import UDataPacketBroker.PublishService.Limit
import UDataPacketBroker.RocksDatabase.Contents
import UDataPacketBroker.Broker.Acceptance
import UDataPacketBroker.RocksDatabase.Batches
import UDataPacketBroker.RocksDatabase.Wrapping
import UDataPacketBroker.Broker.Truncator
import UDataPacketBroker.RocksDatabase.Counting
import UDataPacketBroker.RocksDatabase.Dense
import UDataPacketBroker.RocksDatabase.ReadFailures
import UDataPacketBroker.Broker.QueueBounds
import UDataPacketBroker.PublishService.InvalidMessages
import UDataPacketBroker.DataPacketStore
import UDataPacketBroker.Broker.Workers
import UDataPacketBroker.Broker.Health
import UDataPacketBroker.Broker.Shutdown
import UDataPacketBroker.Broker.TruncationInterval
import UDataPacketBroker.Library.Moments
import UDataPacketBroker.RocksDatabase.Durability
import UDataPacketBroker.RocksDatabase.Readers
import UDataPacketBroker.Library.LossyQueue
import UDataPacketBroker.Broker.Delivery
import UDataPacketBroker.Publishing.Draining
import UDataPacketBroker.Utilities.Names
import UDataPacketBroker.Startup
import UDataPacketBroker.Configuration.Acceptance
import UDataPacketBroker.Broker.Stopping
import UDataPacketBroker.Broker.Leftovers
