import ChatServer.General.TransitionSystem
import ChatServer.General.Table
import ChatServer.General.InvertedIndex
import ChatServer.General.IterationOrder
import ChatServer.General.DelimitedStream
import ChatServer.Core.Bytes
import ChatServer.Protocol.CommandCodec
import ChatServer.Net.IoHelper
import ChatServer.Reactor.EpollRegistry
import ChatServer.Database.Schema
import ChatServer.Database.FriendRequests
import ChatServer.Reactor.RegistryEffects
import ChatServer.Database.DbExecutor
import ChatServer.Server.EpollServer
import ChatServer.Server.System
import ChatServer.General.AddressedQueue
import ChatServer.Server.Pipeline
import ChatServer.Server.Ownership
import ChatServer.Server.Addressing
import ChatServer.Server.EventTargets
import ChatServer.Server.ConnectionIdentity
import ChatServer.Server.BroadcastOrder
import ChatServer.General.QueuedActions
import ChatServer.Server.RoomViews
import ChatServer.Server.Confidentiality
import ChatServer.Server.MemberReach
import ChatServer.Server.ExecutedIdentity
import ChatServer.Server.ReceivedLines
import ChatServer.Database.Friendship
import ChatServer.Database.RoomPermissions
import ChatServer.Server.LoginReplies
import ChatServer.Server.EntryLifetime
import ChatServer.Server.WriteInterest
import ChatServer.Database.ExecutorShutdown
import ChatServer.Reactor.Wakeup
import ChatServer.Client.ChatClient
import ChatServer.Client.CommandStream
import ChatServer.Database.ReplyTexts
import ChatServer.Reactor.AppendedReplies
import ChatServer.Server.ReplyFrames
import ChatServer.Protocol.CodecGrammar
import ChatServer.Server.Framing
import ChatServer.Net.SentStream
import ChatServer.Reactor.RoomBroadcast
import ChatServer.Database.RoomQueries
import ChatServer.Client.ChatIoWorker
import ChatServer.Core.ConfigLoader
import ChatServer.Core.ConfigScript
import ChatServer.Database.DbConnector
import ChatServer.Net.StoredBuffer
import ChatServer.Reactor.SendBuffers
import ChatServer.Server.OutgoingStreams
import ChatServer.General.Interleaving
import ChatServer.Server.RequestedReplies
import ChatServer.Server.ReplyStream
import ChatServer.Server.ReplyDelivery
import ChatServer.Database.Community
import ChatServer.Database.ServiceRefinement
import ChatServer.General.History
import ChatServer.Database.CommunityHistory
import ChatServer.Database.ExecutedCalls
import ChatServer.Server.StoredCommunity
import ChatServer.General.Supervisor
import ChatServer.Client.ClientRun
import ChatServer.Client.ClientShutdown
import ChatServer.Server.ServerRun
import ChatServer.Server.ServerStop
import ChatServer.Server.ServerShutdown
