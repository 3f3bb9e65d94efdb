import ChatServer.Library.Run
import ChatServer.Library.Memory
import ChatServer.Library.Framing
import ChatServer.Library.Utf8
import ChatServer.Packet
import ChatServer.User.ReceiveBuffer
import ChatServer.User.BufferSafety
import ChatServer.User.User
import ChatServer.Room.Room
import ChatServer.Room.RoomManager
import ChatServer.Server.State
import ChatServer.Server.Handlers
import ChatServer.Server.Effect
import ChatServer.Server.Membership
import ChatServer.Server.Occupancy
import ChatServer.Server.LoginTable
import ChatServer.Server.HandlerTable
import ChatServer.Server.RoomEntry
import ChatServer.Server.OtherUsers
import ChatServer.Server.Authentication
import ChatServer.Server.Broadcast
import ChatServer.ServerNetwork.SendQueue
import ChatServer.Server.Noninterference
import ChatServer.PacketManager.ProcessThread
import ChatServer.PacketManager.Delivery
import ChatServer.Library.Alternation
import ChatServer.PacketManager.EventOrder
import ChatServer.DB.AccountDB
import ChatServer.Client.Packet
import ChatServer.Client.RoundTrip
import ChatServer.Client.NetworkReadProcess
import ChatServer.ServerNetwork.Accepter
import ChatServer.ServerNetwork.WokerThread
import ChatServer.ServerNetwork.WorkerPool
import ChatServer.ServerNetwork.SlotSockets
import ChatServer.ServerNetwork.ConnectClose
import ChatServer.Client.Form1
import ChatServer.Library.Roster
import ChatServer.Client.UserList
import ChatServer.Client.RoomView
import ChatServer.Client.Convergence
import ChatServer.Library.FrameQueue
import ChatServer.User.ByteQueue
import ChatServer.User.DispatchedPacket
import ChatServer.Client.AnyStream
import ChatServer.Client.PacketBufferQueue
import ChatServer.Client.RoomLists
import ChatServer.Server.UserIdLength
import ChatServer.ServerNetwork.ReceiveChain
import ChatServer.Library.ServiceQueue
import ChatServer.ServerNetwork.OutstandingSend
import ChatServer.Server.Answers
import ChatServer.Server.Admission
import ChatServer.Server.RoomTraffic
import ChatServer.ServerNetwork.SendFailure
import ChatServer.Client.Downlink
import ChatServer.PacketManager.Uplink
import ChatServer.Client.ChatForm
import ChatServer.Client.ChatRooms
import ChatServer.Client.RoomSpeech
import ChatServer.Client.Conversation
import ChatServer.Client.SendPacketQueue
import ChatServer.Client.Settling
import ChatServer.Client.WhileChatting
import ChatServer.Client.ChatSettling
import ChatServer.Client.ChatNetwork
import ChatServer.Client.NetworkRefinement
import ChatServer.Client.NetworkConvergence
import ChatServer.Client.NetworkConversation
