import EpollChat.Construction.BufferCalls
import EpollChat.Construction.ChunkGrowth
import EpollChat.Construction.ChunkNumbers
import EpollChat.Construction.ClientCommands
import EpollChat.Construction.CommandLine
import EpollChat.Construction.Credentials
import EpollChat.Construction.NameLists
import EpollChat.Construction.Network
import EpollChat.Construction.Storage
import EpollChat.Construction.Threads
import EpollChat.Framework.Directory
import EpollChat.Framework.LongestMatch
import EpollChat.Framework.Messenger
import EpollChat.Framework.Provenance
import EpollChat.Properties.Addresses
import EpollChat.Properties.Answers
import EpollChat.Properties.Authority
import EpollChat.Properties.Backlog
import EpollChat.Properties.BlockEnforcement
import EpollChat.Properties.BlockLists
import EpollChat.Properties.Broadcast
import EpollChat.Properties.Channels
import EpollChat.Properties.ChatDelivery
import EpollChat.Properties.ChunkCount
import EpollChat.Properties.ChunkGrowth
import EpollChat.Properties.ChunkIsolation
import EpollChat.Properties.ChunkNumbers
import EpollChat.Properties.ChunkScanner
import EpollChat.Properties.ClosedConnection
import EpollChat.Properties.Codec
import EpollChat.Properties.CommandLine
import EpollChat.Properties.Compaction
import EpollChat.Properties.Completion
import EpollChat.Properties.Confidentiality
import EpollChat.Properties.ConnectionTable
import EpollChat.Properties.Containment
import EpollChat.Properties.Credentials
import EpollChat.Properties.Deadlines
import EpollChat.Properties.EndToEnd
import EpollChat.Properties.EventBatches
import EpollChat.Properties.FailedRequests
import EpollChat.Properties.FileDirectory
import EpollChat.Properties.FileRegistry
import EpollChat.Properties.FileTransfer
import EpollChat.Properties.Fragmentation
import EpollChat.Properties.IdleSweep
import EpollChat.Properties.Lockout
import EpollChat.Properties.LoginHandshake
import EpollChat.Properties.MessageOrder
import EpollChat.Properties.Messaging
import EpollChat.Properties.NameLists
import EpollChat.Properties.OutputDrains
import EpollChat.Properties.OutputFraming
import EpollChat.Properties.OutputQueue
import EpollChat.Properties.PendingConnections
import EpollChat.Properties.Presence
import EpollChat.Properties.PrivateAgreement
import EpollChat.Properties.PrivateSessions
import EpollChat.Properties.ReadRoom
import EpollChat.Properties.ReceiveErrors
import EpollChat.Properties.SearchFile
import EpollChat.Properties.SessionPairing
import EpollChat.Properties.StrandedOutput
import EpollChat.Properties.Teardown
import EpollChat.Properties.TypedCommands
import EpollChat.Properties.UserStore
import EpollChat.Properties.WhoElse
