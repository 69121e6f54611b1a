import FuseExt2.ByteStore
import FuseExt2.WriteHistory
import FuseExt2.Tokens
import FuseExt2.Await
import FuseExt2.Device
import FuseExt2.PointerTree
import FuseExt2.BlockMap
import FuseExt2.FileData
import FuseExt2.LastWrite
import FuseExt2.Layout
import FuseExt2.IndirectTrees
import FuseExt2.Confinement
import FuseExt2.Bitarray
import FuseExt2.Groups
import FuseExt2.Allocator
import FuseExt2.FreeBlocks
import FuseExt2.Directory
import FuseExt2.Paths
import FuseExt2.Server
import FuseExt2.Namespace
import FuseExt2.ServerWrites
import FuseExt2.Client
import FuseExt2.Addressing
import FuseExt2.DirectoryRecords
import FuseExt2.Lookups
import FuseExt2.Accesses
import FuseExt2.ServerReads
import FuseExt2.Wire
import FuseExt2.Holes
import FuseExt2.InodeNumbers
import FuseExt2.Admission
import FuseExt2.BlockPointers
import FuseExt2.BitCalls
import FuseExt2.AllocatedClient
import FuseExt2.AllocatedServer
import FuseExt2.ListSessions
import FuseExt2.AllocatedBlocks
import FuseExt2.Logging
import FuseExt2.StringSessions
import FuseExt2.AllocatedSessions
