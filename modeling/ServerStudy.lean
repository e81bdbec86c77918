import ServerStudy.Machine
import ServerStudy.Prog
import ServerStudy.Blocks
import ServerStudy.SparseSet
import ServerStudy.SparseSet.Repr
import ServerStudy.SparseSet.Table
import ServerStudy.SparseSet.Scan
import ServerStudy.SparseSet.Lifetime
import ServerStudy.Mirror
import ServerStudy.Framing
import ServerStudy.Protocol
import ServerStudy.SparsePool
import ServerStudy.OverlappedEx
import ServerStudy.Session
import ServerStudy.Session.Read
import ServerStudy.PacketHandler
import ServerStudy.Session.Stream
import ServerStudy.Session.Bounds
import ServerStudy.Session.Isolation.Runs
import ServerStudy.Session.Write
import ServerStudy.Session.Apart
import ServerStudy.Session.Reader
import ServerStudy.Session.Send
import ServerStudy.Client
import ServerStudy.Client.Packets
import ServerStudy.Threads
import ServerStudy.Threads.Every
import ServerStudy.Threads.Known
import ServerStudy.Threads.Play
import ServerStudy.TwoRuns
import ServerStudy.SparsePool.Tokens
import ServerStudy.SparsePool.RefCount
import ServerStudy.SparsePool.Exact
import ServerStudy.ObjectPool
import ServerStudy.IocpCore
import ServerStudy.Session.Stall
import ServerStudy.Ring
import ServerStudy.Listener
import ServerStudy.SessionManager
import ServerStudy.SessionManager.Pointers
import ServerStudy.SessionManager.Handles
import ServerStudy.SessionManager.Disconnect
import ServerStudy.SessionManager.Broadcast
import ServerStudy.SessionManager.Relay
import ServerStudy.SessionManager.Crowd
import ServerStudy.Server
import ServerStudy.Server.World
import ServerStudy.Server.Ledger
import ServerStudy.Server.Slots
import ServerStudy.Server.Triple
import ServerStudy.Server.Sending
import ServerStudy.Server.Receiving
import ServerStudy.Server.Connecting
import ServerStudy.Server.Relaying
import ServerStudy.Server.Completing
import ServerStudy.Server.Accepting
import ServerStudy.Server.Runs
import ServerStudy.Server.Frame
import ServerStudy.Room
import ServerStudy.Room.Invariant
import ServerStudy.Room.Steps
import ServerStudy.Room.Sending
import ServerStudy.Room.Relaying
import ServerStudy.Room.Receiving
import ServerStudy.Room.Completing
import ServerStudy.Room.Delivery
import ServerStudy.Room.Clients
import ServerStudy.Scheduler
import ServerStudy.Scheduler.Conserve
import ServerStudy.Scheduler.Count
import ServerStudy.Scheduler.Fetch
import ServerStudy.Scheduler.Wakeup
import ServerStudy.Scheduler.Relock
import ServerStudy.WorkStealing
import ServerStudy.WorkStealing.Count
import ServerStudy.Shutdown
