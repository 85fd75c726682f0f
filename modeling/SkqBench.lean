import SkqBench.Lib.Run
import SkqBench.Lib.Trace
import SkqBench.Lib.LockOrder
import SkqBench.Lib.Inverse
import SkqBench.Lib.Chain
import SkqBench.Lib.Count
import SkqBench.Lib.Queues
import SkqBench.Lib.BigEndian
import SkqBench.Lib.Bisect
import SkqBench.Lib.CString
import SkqBench.Lib.Decimal
import SkqBench.Lib.Words
import SkqBench.Evcompat.Locks
import SkqBench.Evcompat.NoLoss
import SkqBench.Evcompat.Delete
import SkqBench.Evcompat.Deadlock
import SkqBench.Evcompat.Resume
import SkqBench.Evcompat.LifeCycle
import SkqBench.Evcompat.Wakeup
import SkqBench.Evcompat.Sequential
import SkqBench.Evcompat.Rearm
import SkqBench.Mem.Listen
import SkqBench.Mem.ConnQueue
import SkqBench.Mem.Conservation
import SkqBench.Mem.Pause
import SkqBench.Mem.DriveMachine
import SkqBench.Mem.Holder
import SkqBench.Mem.LastUse
import SkqBench.Mem.Priority
import SkqBench.Mem.AssocMoves
import SkqBench.Mem.ItemsCas
import SkqBench.Mem.Lru
import SkqBench.Evcompat.Invocation
import SkqBench.Pingpong.Util
import SkqBench.Pingpong.Framing
import SkqBench.Pingpong.ReqProc
import SkqBench.Pingpong.Parsing
import SkqBench.Pingpong.Ppd
import SkqBench.Pingpong.Places
import SkqBench.Pingpong.Dispatch
import SkqBench.Pingpong.Exclusive
import SkqBench.Pingpong.KqConn
import SkqBench.Pingpong.Timer
import SkqBench.Pingpong.Depth
import SkqBench.Pingpong.ConnIds
import SkqBench.Pingpong.Control
import SkqBench.Pingpong.Handshake
import SkqBench.Pingpong.OneCall
import SkqBench.Pingpong.Touch
import SkqBench.Pingpong.Rates
import SkqBench.Pingpong.RdbReply
import SkqBench.Pingpong.WorkerThread
import SkqBench.Pingpong.Completion
import SkqBench.Pingpong.Latency
import SkqBench.Pingpong.NextCpu
import SkqBench.Pingpong.RdbKey
import SkqBench.Pingpong.KeyRange
import SkqBench.Pingpong.Params
import SkqBench.Pingpong.Generator
import SkqBench.Scripts.Memparse
