import Xmq.Runs
import Xmq.IndexedHeap
import Xmq.IndexedHeapOrder
import Xmq.BigEndian
import Xmq.ChannelConservation
import Xmq.ChannelPutFailure
import Xmq.InFlightInterleaving
import Xmq.ClusterAgreement
import Xmq.ClusterInvariant
import Xmq.ClusterSnapshot
import Xmq.TopicCounters
import Xmq.TopicPublishLock
import Xmq.TopicShutdown
import Xmq.Authorizations
import Xmq.ChannelOwners
import Xmq.ClientV2
import Xmq.ClientWakeUp
import Xmq.CommandStream
import Xmq.ConnectionLayers
import Xmq.FlowControl
import Xmq.Guid
import Xmq.KeyedLoop
import Xmq.Metadata
import Xmq.NodeListing
import Xmq.SessionRules
import Xmq.StartUp
import Xmq.TopicBacklog
import Xmq.TopicFanOut
import Xmq.BatchPublish
import Xmq.ChannelView
import Xmq.DeferredPublish
import Xmq.HttpPublish
import Xmq.LockPrograms
import Xmq.NilTopics
import Xmq.RefusedCreations
import Xmq.TopicLocks
import Xmq.LookupPeer
import Xmq.TopicStats
import Xmq.PauseGating
import Xmq.EphemeralChannels
import Xmq.ComingBack
import Xmq.ConnectedPeers
import Xmq.TimeoutScans
import Xmq.InFlightHeap
import Xmq.TouchDeadline
import Xmq.ConsumerLimit
import Xmq.PumpSettings
import Xmq.RegistrationKeys
import Xmq.NodeTombstones
import Xmq.LookupCalls
import Xmq.Notifications
import Xmq.NodesAnswer
import Xmq.MpubBodies
import Xmq.DiskQueueBounds
import Xmq.ClientNumbers
import Xmq.QueueScan
import Xmq.RegistrationHistory
import Xmq.RequestFrames
import Xmq.LatencyAggregate
import Xmq.StatsObjects
import Xmq.ClusterTotals
import Xmq.TopicAggregate
import Xmq.Outcomes
import Xmq.Packing
import Xmq.ContainerHeap
import Xmq.LatencyWindows
import Xmq.TopicLatency
import Xmq.LookupdProducers
import Xmq.FileLogger
import Xmq.LoggedFiles
import Xmq.FileRouter
import Xmq.FinishedMessages
import Xmq.ClosedFiles
import Xmq.ToXmq
import Xmq.AuthRotation
import Xmq.RuntimeOptions
import Xmq.StatsdPackets
import Xmq.DeferredHeap
import Xmq.Draws
import Xmq.UniqRands
import Xmq.BackendNames
import Xmq.Delivery
import Xmq.SentMessages
import Xmq.BufferedWriter
import Xmq.OutputBuffer
import Xmq.Deltas
import Xmq.StatsdCounters
import Xmq.FileSystem
import Xmq.MetadataFile
import Xmq.Gather
import Xmq.ClusterQueries
import Xmq.ClusterCommands
import Xmq.AdminServer
import Xmq.AdminOutcomes
import Xmq.Custody
import Xmq.XmqToXmq
import Xmq.RelayedMessages
import Xmq.TcpServer
import Xmq.TcpShutdown
