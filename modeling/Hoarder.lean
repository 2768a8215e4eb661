import Hoarder.Core.DirectDescriptors
import Hoarder.Core.Logger
import Hoarder.Core.UringIO
import Hoarder.Proofs.RingBufferRefinement
import Hoarder.Proofs.AnyIds
import Hoarder.Proofs.ObjectHistory
import Hoarder.Proofs.LoggerHistory
import Hoarder.Proofs.LoggerOffsets
import Hoarder.Proofs.UringIO
import Hoarder.Proofs.ConnIntents
import Hoarder.Proofs.ConnStream
import Hoarder.Proofs.BufferSharing
import Hoarder.Proofs.ExecutorOffsets
import Hoarder.Proofs.SlotOwnership
import Hoarder.Proofs.Instances
import Hoarder.Proofs.QueueBounds
import Hoarder.Proofs.PoolCapacity
import Hoarder.Proofs.AnyHandles
import Hoarder.Proofs.Layout
import Hoarder.Proofs.LogRecords
import Hoarder.Proofs.LoggerFlush
import Hoarder.Proofs.DrainLoop
import Hoarder.Proofs.ReadRanges
import Hoarder.Proofs.Delivery
import Hoarder.Proofs.WakeUps
import Hoarder.Proofs.Headers
import Hoarder.Proofs.AnsweredTwice
import Hoarder.Proofs.DeafListener
import Hoarder.Proofs.WaitingLine
