import Fullerene.Lib.Machine
import Fullerene.Lib.Split
import Fullerene.Lib.Word
import Fullerene.Lib.Buffer
import Fullerene.Lib.MaxBy
import Fullerene.Lib.Paging
import Fullerene.Genome.Fs
import Fullerene.Genome.Io
import Fullerene.Genome.MemFileSystem
import Fullerene.Genome.MemFileSystem.Lookup
import Fullerene.Genome.MemFileSystem.Machine
import Fullerene.Genome.MemFileSystem.Tree
import Fullerene.Genome.MemFileSystem.Invariant
import Fullerene.Genome.MemFileSystem.Files
import Fullerene.Genome.MemFileSystem.Refinement
import Fullerene.Genome.Vfs.Path
import Fullerene.Genome.Vfs
import Fullerene.Genome.Vfs.Routing
import Fullerene.Kernel.Handle
import Fullerene.Kernel.HandleTable
import Fullerene.Kernel.Scheduler
import Fullerene.Kernel.Event
import Fullerene.Petroleum.UserMemory
import Fullerene.Lib.Bitmap
import Fullerene.Petroleum.FrameBitmap
import Fullerene.Petroleum.ProcessPageTable
import Fullerene.Kernel.Fork
import Fullerene.Lib.Slots
import Fullerene.Genome.Descriptors
import Fullerene.Genome.Vfs.Methods
import Fullerene.Kernel.VfsContext
import Fullerene.Kernel.VfsContext.Routing
import Fullerene.Kernel.VfsContext.Copy
import Fullerene.Lib.Checksum
import Fullerene.Bonder.Frame
import Fullerene.Bonder.Beacon
import Fullerene.Bonder.Dhcp
import Fullerene.Lib.Aes
import Fullerene.Bonder.KeyUnwrap
import Fullerene.Genome.Fat.Handles
import Fullerene.Genome.Block
import Fullerene.Genome.Fat.Cache
import Fullerene.Genome.Fat.ExFatDevice
import Fullerene.Genome.Fat.FatDevice
import Fullerene.Lib.Bytes
import Fullerene.Genome.Fat.ExFatRoot
import Fullerene.Lib.Queue
import Fullerene.Nitrogen.Xhci.Ring
import Fullerene.Nitrogen.Xhci.EventRing
import Fullerene.Nitrogen.Iwlwifi.TxRing
import Fullerene.Kernel.Linux.Range
import Fullerene.Kernel.Linux.Memory
import Fullerene.Kernel.Linux.Process
import Fullerene.Chronoline.Timers
import Fullerene.Nozzle.Screen
import Fullerene.Nozzle.Chunking
import Fullerene.Nozzle.LineEditor
import Fullerene.Lattice.Editor
import Fullerene.Lattice.Refinement
import Fullerene.Lib.Utf8
import Fullerene.Lib.PageMap
import Fullerene.Kernel.Loader
import Fullerene.Kernel.Loader.Placement
import Fullerene.Petroleum.MapPage
import Fullerene.Kernel.NativeMemory
import Fullerene.Nozzle.Echo
import Fullerene.Toluene.Calc
import Fullerene.Toluene.Grammar
import Fullerene.Lattice.WindowManager
import Fullerene.Lattice.Focus
import Fullerene.Lattice.Damage
import Fullerene.Lattice.Painter
import Fullerene.Lib.Loop
import Fullerene.Solvent.Viewers
import Fullerene.Solvent.Viewers.Totality
import Fullerene.Nitrogen.Iommu.Iova
import Fullerene.Nitrogen.Iommu.Table
import Fullerene.Nitrogen.Iommu.Engine
import Fullerene.Bonder.Sha1
import Fullerene.Bonder.Supplicant
