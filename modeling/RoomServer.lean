import RoomServer.Lib.UnorderedMap
import RoomServer.Lib.SortOn
import RoomServer.Lib.Format
import RoomServer.Lib.Appender
import RoomServer.Lib.Transition
import RoomServer.Lib.Outbox
import RoomServer.Net.Codec
import RoomServer.Net.ByteQueue
import RoomServer.Net.Requests
import RoomServer.Benchmarks.Acceptance
import RoomServer.Benchmarks.Soundness
import RoomServer.Net.Outbound
import RoomServer.Net.EventLoop
import RoomServer.Net.TcpServer
import RoomServer.Game.GameState
import RoomServer.Game.GameRuns
import RoomServer.Game.Ticks
import RoomServer.Game.TickLoop
import RoomServer.Checkpoint.Data
import RoomServer.Net.Protocol
import RoomServer.Game.RoomManager
import RoomServer.Game.SessionManager
import RoomServer.Lib.Claims
import RoomServer.Service.RoomService
import RoomServer.Service.Coherence
import RoomServer.Service.Transactions
import RoomServer.Service.Outcomes
import RoomServer.Service.Handlers
import RoomServer.Checkpoint.Restore
import RoomServer.Service.Runs
import RoomServer.Service.Joining
import RoomServer.Service.Responses
import RoomServer.Service.Periods
import RoomServer.Checkpoint.AllOrNothing
import RoomServer.Service.Roster
import RoomServer.Checkpoint.Damage
import RoomServer.Checkpoint.Restart
import RoomServer.Checkpoint.Persistence
import RoomServer.Service.Removal
import RoomServer.Service.Intake
import RoomServer.Service.SlowClients
import RoomServer.Service.RoomIsolation
import RoomServer.Service.Expiry
import RoomServer.Checkpoint.InPlace
import RoomServer.Checkpoint.Reload
import RoomServer.Benchmarks.CheckpointGenerator
import RoomServer.Main.ServerProcess
import RoomServer.Main.Lifetimes
import RoomServer.Service.Inbound
import RoomServer.Net.Interest
import RoomServer.Service.Agreement
import RoomServer.Net.Returns
import RoomServer.Net.EventLoopThreadPool
import RoomServer.Lib.EdgeTriggered
import RoomServer.Net.TickTimer
import RoomServer.Main.ShutdownSignal
import RoomServer.Net.Listener
import RoomServer.Net.Dispatch
import RoomServer.Service.Silence
import RoomServer.Benchmarks.Waiting
