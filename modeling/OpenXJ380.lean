import OpenXJ380.Cache.Ranges
import OpenXJ380.Console.Sinks
import OpenXJ380.Device.ArmBlock
import OpenXJ380.Device.Identifiers
import OpenXJ380.Dlinker.Cycles
import OpenXJ380.Dlinker.Exact
import OpenXJ380.Epoll.Bound
import OpenXJ380.Frames.FindRange
import OpenXJ380.Frames.SetRange
import OpenXJ380.Heap.Delivery
import OpenXJ380.Json.Numbers
import OpenXJ380.Krlibc.Strtol
import OpenXJ380.Kstack.Failed
import OpenXJ380.Lazy.AllOrNothing
import OpenXJ380.Lazy.Editing
import OpenXJ380.Mutex.Interleaving
import OpenXJ380.Paging.Forked
import OpenXJ380.Paging.Leaks
import OpenXJ380.Palloc.Exact
import OpenXJ380.Partition.Confined
import OpenXJ380.Pipe.Fifo
import OpenXJ380.Pipe.Waiters
import OpenXJ380.Process.Identified
import OpenXJ380.Process.ReapedOnce
import OpenXJ380.Process.ReleasedOnce
import OpenXJ380.Pty.Canonical
import OpenXJ380.Pty.Counted
import OpenXJ380.Queues.Map
import OpenXJ380.Rng.Blocks
import OpenXJ380.Sched.OneRunning
import OpenXJ380.Sched.Rule
import OpenXJ380.Sched.Tick
import OpenXJ380.Shell.Editing
import OpenXJ380.Signal.Failures
import OpenXJ380.Syscall.Privilege
import OpenXJ380.Syscall.Vectored
import OpenXJ380.Tmpfs.Unlinked
import OpenXJ380.Uart.Baud
import OpenXJ380.Unix.Closing
import OpenXJ380.Unix.Connect
import OpenXJ380.Unix.Deadlock
import OpenXJ380.Unix.Naming
import OpenXJ380.Unix.Stream
import OpenXJ380.User.Exact
import OpenXJ380.User.Stack
import OpenXJ380.Vfs.Creation
import OpenXJ380.Vfs.References
import OpenXJ380.Vma.Merge
import OpenXJ380.Vma.Insert
import OpenXJ380.Vmap.Failures
import OpenXJ380.Xml.RoundTrip
