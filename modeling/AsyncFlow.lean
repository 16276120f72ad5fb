import AsyncFlow.LostWakes
import AsyncFlow.ShutdownDrain
import AsyncFlow.ExecutorSleep
import AsyncFlow.SpscCorrectness
import AsyncFlow.MpscWrapAround
import AsyncFlow.PeerClose
import AsyncFlow.IoHelpers
import AsyncFlow.ConnectCleanup
import AsyncFlow.AcceptedDescriptors
import AsyncFlow.CallbackProtocol
import AsyncFlow.StartProtocol
import AsyncFlow.RemovedListeners
import AsyncFlow.StopRetries
import AsyncFlow.CommandStops
import AsyncFlow.OrderedStarts
import AsyncFlow.OrderedBatches
import AsyncFlow.LogAccounting
import AsyncFlow.LogFlushes
import AsyncFlow.StreamLogs
import AsyncFlow.LogConsumer
import AsyncFlow.BatchSequencer
import AsyncFlow.Sharding
import AsyncFlow.WakeSlot
import AsyncFlow.TaggedMessages
import AsyncFlow.TaskRegistry
