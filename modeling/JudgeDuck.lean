import JudgeDuck.Base.Mem
import JudgeDuck.Base.Record
import JudgeDuck.Base.Chain
import JudgeDuck.Base.Search
import JudgeDuck.Base.Sort
import JudgeDuck.Model.Memory
import JudgeDuck.Model.DuckCache
import JudgeDuck.Model.Elf
import JudgeDuck.Proofs.DuckCache.Refine
import JudgeDuck.Proofs.Elf.Accept
import JudgeDuck.Proofs.Elf.Escape
import JudgeDuck.Base.Ring
import JudgeDuck.Base.Trace
import JudgeDuck.Model.DuckNet.Arp
import JudgeDuck.Model.DuckNet.Buf
import JudgeDuck.Model.DuckNet.Ipv4
import JudgeDuck.Model.DuckNet.Receive
import JudgeDuck.Model.DuckServer
import JudgeDuck.Model.Nic
import JudgeDuck.Proofs.DuckNet.Arp
import JudgeDuck.Proofs.DuckNet.Bitmap
import JudgeDuck.Proofs.DuckNet.Bounds
import JudgeDuck.Proofs.DuckNet.Expiry
import JudgeDuck.Proofs.DuckNet.Headers
import JudgeDuck.Proofs.DuckNet.RoundTrip
import JudgeDuck.Proofs.DuckServer
import JudgeDuck.Proofs.Nic.Receive
import JudgeDuck.Base.FlatArray
import JudgeDuck.Base.ProcessStack
import JudgeDuck.Model.ElfLoad
import JudgeDuck.Model.Judger
import JudgeDuck.Proofs.DuckCache.Stores
import JudgeDuck.Proofs.DuckNet.Mtu
import JudgeDuck.Proofs.DuckNet.Queries
import JudgeDuck.Proofs.Elf.Access
import JudgeDuck.Proofs.Elf.Atomic
import JudgeDuck.Proofs.Elf.Headers
import JudgeDuck.Proofs.HugePages
import JudgeDuck.Proofs.Judger.Flat
import JudgeDuck.Proofs.Judger.Requests
import JudgeDuck.Base.Format
import JudgeDuck.Base.OnesComplement
import JudgeDuck.Base.Partial
import JudgeDuck.Model.DuckReply
import JudgeDuck.Model.DuckSyscalls
import JudgeDuck.Model.Timer
import JudgeDuck.Model.Trap
import JudgeDuck.Proofs.DuckNet.Checksum
import JudgeDuck.Proofs.DuckReply
import JudgeDuck.Proofs.DuckSyscalls.Input
import JudgeDuck.Proofs.DuckSyscalls.Output
import JudgeDuck.Proofs.Judger.Limits
import JudgeDuck.Proofs.Judger.Statistics
import JudgeDuck.Proofs.Timer
import JudgeDuck.Proofs.Trap
import JudgeDuck.Proofs.Judger.CacheRange
import JudgeDuck.Proofs.Judger.Replays
import JudgeDuck.Base.Blocks
import JudgeDuck.Base.Digits
import JudgeDuck.Proofs.DuckCache.Digest
import JudgeDuck.Proofs.DuckCache.LowerBound
import JudgeDuck.Proofs.Judger.Regions
import JudgeDuck.Proofs.Judger.Outputs
import JudgeDuck.Base.Bits
import JudgeDuck.Model.DuckHeap
import JudgeDuck.Proofs.DuckSyscalls.Heap
import JudgeDuck.Base.Segment
import JudgeDuck.Model.ThreadArea
import JudgeDuck.Proofs.ThreadArea
import JudgeDuck.Model.SysLogRing
import JudgeDuck.Proofs.SysLogRing
import JudgeDuck.Base.Decimal
import JudgeDuck.Model.DuckNet.ParseIpv4
import JudgeDuck.Proofs.DuckNet.ParseIpv4
import JudgeDuck.Model.DuckNet.Phy
import JudgeDuck.Proofs.DuckNet.Veto
import JudgeDuck.Model.Multiboot
import JudgeDuck.Proofs.Multiboot
import JudgeDuck.Base.Paging
import JudgeDuck.Model.PageTable
import JudgeDuck.Proofs.PageTable
import JudgeDuck.Proofs.Elf.Closed
import JudgeDuck.Proofs.Elf.Fresh
import JudgeDuck.Proofs.Elf.Leftover
import JudgeDuck.Base.Tables
import JudgeDuck.Model.PageTableInit
import JudgeDuck.Proofs.Tables.Machine
import JudgeDuck.Proofs.Tables.Init
import JudgeDuck.Base.Hoare
import JudgeDuck.Base.Network
import JudgeDuck.Model.DuckNet.Step
import JudgeDuck.Model.Scheduler
import JudgeDuck.Proofs.DuckNet.React
import JudgeDuck.Proofs.DuckNet.Rounds
import JudgeDuck.Proofs.DuckNet.Link
import JudgeDuck.Proofs.Machines
import JudgeDuck.Proofs.DuckNet.Answers
import JudgeDuck.Proofs.Commands
import JudgeDuck.Proofs.Sleep
import JudgeDuck.Proofs.Nic.Realtek
import JudgeDuck.Proofs.DuckNet.Exchange
