import AppMem.Hash.Chains
import AppMem.Device.Handlers
import AppMem.Library.Chain
import AppMem.Pack.Client
import AppMem.Pack.Status
import AppMem.Pack.Transport
import AppMem.Assca.PacketPath
import AppMem.Assca.LastWrite
import AppMem.Library.Machine
import AppMem.Mmap.Doorbell
import AppMem.Mmap.ExactlyOnce
import AppMem.Library.Ring
import AppMem.Target.ReceiveQueue
import AppMem.Target.QueueOrder
import AppMem.Net.Transaction
import AppMem.Device.Registry
import AppMem.Device.Virtd
import AppMem.Device.Bounds
import AppMem.Driver.Create
import AppMem.Target.Handlers
import AppMem.Driver.Dispatch
import AppMem.Driver.Client
import AppMem.Driver.Status
import AppMem.Driver.ClientStatus
import AppMem.Target.CreateAtomic
import AppMem.Target.Routing
import AppMem.Target.Threads
import AppMem.Target.NoAbort
import AppMem.Device.Refusal
import AppMem.Pack.Refusal
import AppMem.Target.Leftovers
import AppMem.Net.Capabilities
import AppMem.Net.CreateFunction
import AppMem.Device.Iterator
import AppMem.Assca.Iterators
import AppMem.Assca.DriverReads
import AppMem.Device.SortBounds
import AppMem.Device.Written
import AppMem.Target.ResponseLength
import AppMem.Library.TwoRuns
import AppMem.Device.SortAgreement
import AppMem.Device.Alike
import AppMem.Target.Alike
import AppMem.Net.TwoTargets
import AppMem.Device.SortCorrect
import AppMem.Device.SortRange
import AppMem.Assca.LoneIterator
import AppMem.Assca.RefusedIterator
import AppMem.Assca.UniqueKeys
import AppMem.Driver.CreateBlocks
import AppMem.Virtd.List
import AppMem.Virtd.Create
import AppMem.Virtd.Release
import AppMem.Virtd.Leak
import AppMem.Cpp.Container
import AppMem.Cpp.AsscArray
import AppMem.Cpp.Sizes
import AppMem.Cells.Storage
import AppMem.Library.Cells
import AppMem.Cells.Sequences
import AppMem.Cells.Agreement
import AppMem.Device.RemoteSort
import AppMem.Device.PacketSizes
import AppMem.Driver.PacketWrite
import AppMem.Net.PacketFit
import AppMem.Device.ArrayCells
import AppMem.Device.MergeBuffer
import AppMem.Device.SortSafety
import AppMem.Device.SortOrder
import AppMem.Library.Linked
import AppMem.Virtd.ListAdds
import AppMem.Net.FastPath
import AppMem.Entry.Address
import AppMem.Entry.DottedQuads
import AppMem.Entry.Printing
import AppMem.Entry.PrintedRoom
import AppMem.Device.MergeStep
import AppMem.Driver.Alone
import AppMem.Driver.Commit
import AppMem.Driver.Interleaving
import AppMem.Target.Serial
import AppMem.Cells.AnyPath
import AppMem.Cells.DriverPath
import AppMem.Target.Isolation
import AppMem.Driver.Unload
import AppMem.Hash.Pointers
import AppMem.Hash.Rechaining
import AppMem.Hash.InMemory
import AppMem.Assca.InMemory
import AppMem.Assca.Transports
import AppMem.Cells.Session
import AppMem.Assca.GrowingIteration
import AppMem.Driver.Enumeration
import AppMem.Target.Answers
import AppMem.Target.WholeDatagrams
import AppMem.Assca.PacketRuns
