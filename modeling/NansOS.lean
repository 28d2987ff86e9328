import NansOS.Foundation.Memory
import NansOS.Foundation.Run
import NansOS.Foundation.Words
import NansOS.Foundation.Radix
import NansOS.Foundation.LinkedList
import NansOS.Foundation.Tiling
import NansOS.Foundation.Slots
import NansOS.Foundation.Recency
import NansOS.Foundation.Numerals
import NansOS.Foundation.Script
import NansOS.Foundation.Halting
import NansOS.Foundation.Sentinel
import NansOS.Foundation.Stores
import NansOS.Foundation.Copies
import NansOS.Foundation.Scratch
import NansOS.Foundation.EvenSteps
import NansOS.Foundation.InService
import NansOS.Foundation.Polling
import NansOS.Foundation.Components
import NansOS.Foundation.Dialogue
import NansOS.Foundation.Writers
import NansOS.Foundation.Ledger
import NansOS.Foundation.Refinement
import NansOS.Kernel.StringOps
import NansOS.Kernel.Machine
import NansOS.Kernel.Memmove
import NansOS.Kernel.StringOrder
import NansOS.Kernel.StringCopies
import NansOS.Kernel.Format
import NansOS.Kernel.FormatAgreement
import NansOS.Kernel.FormatStores
import NansOS.Kernel.Truncation
import NansOS.Kernel.FormatReads
import NansOS.Kernel.Directives
import NansOS.Kernel.SignedDecimals
import NansOS.Kernel.NumberFields
import NansOS.Kernel.Setup
import NansOS.Heap.Allocator
import NansOS.Heap.Blocks
import NansOS.Heap.Calls
import NansOS.Heap.Surgery
import NansOS.Heap.Layout
import NansOS.Heap.Runs
import NansOS.Heap.Ownership
import NansOS.Heap.Sizes
import NansOS.Heap.Alignment
import NansOS.Heap.FreeOrder
import NansOS.Heap.Resizing
import NansOS.Kernel.Snprintf
import NansOS.Ramdisk.Disk
import NansOS.Ramdisk.Effects
import NansOS.Ramdisk.Extents
import NansOS.Ramdisk.Isolation
import NansOS.Ramdisk.Contents
import NansOS.Ramdisk.Resident
import NansOS.Ramdisk.Spared
import NansOS.Ramdisk.Accounting
import NansOS.Ramdisk.Limits
import NansOS.Mmu.PageTables
import NansOS.Mmu.Tree
import NansOS.Mmu.Footprint
import NansOS.Mmu.Mapping
import NansOS.Mmu.Boot
import NansOS.Mmu.Translation
import NansOS.Mmu.Permissions
import NansOS.Mmu.Unmap
import NansOS.Mmu.HugePages
import NansOS.Heap.Sharing
import NansOS.Print.Console
import NansOS.Print.Output
import NansOS.Vfs.Descriptors
import NansOS.Vfs.Table
import NansOS.Vfs.RamdiskNodes
import NansOS.Vfs.Directory
import NansOS.Vfs.Chunks
import NansOS.Vfs.Seek
import NansOS.Vfs.Paths
import NansOS.Vfs.Normalization
import NansOS.Vfs.Cursors
import NansOS.Vfs.Lookup
import NansOS.Vfs.MakeDirectory
import NansOS.Vfs.Sealed
import NansOS.Vfs.Store
import NansOS.Vfs.Refinement
import NansOS.Vfs.OpenFiles
import NansOS.Vfs.FileCalls
import NansOS.Video.Drawing
import NansOS.Video.Lines
import NansOS.Video.Cells
import NansOS.Video.WindowArea
import NansOS.Windows.Manager
import NansOS.Windows.Order
import NansOS.Windows.References
import NansOS.Windows.Focus
import NansOS.Windows.Painting
import NansOS.Windows.Ownership
import NansOS.Windows.Sessions
import NansOS.Keyboard.Keymap
import NansOS.Keyboard.Modifiers
import NansOS.Keyboard.Handler
import NansOS.Keyboard.Typing
import NansOS.Windows.Desktop
import NansOS.Mouse.Handler
import NansOS.Mouse.Packets
import NansOS.Mouse.Movement
import NansOS.Interrupts.Handlers
import NansOS.Interrupts.Nesting
import NansOS.Interrupts.HexPrinting
import NansOS.Interrupts.Descriptors
import NansOS.Storage.Registry
import NansOS.Storage.Ide
import NansOS.Storage.Addressing
import NansOS.Storage.Status
import NansOS.Storage.Words
import NansOS.Storage.Identify
import NansOS.Storage.Interface
import NansOS.Boot.Ports
import NansOS.Clocks.Timer
import NansOS.Clocks.Calendar
import NansOS.Boot.Controller
import NansOS.Boot.Stories
import NansOS.Boot.Handshake
import NansOS.Boot.Board
import NansOS.Boot.Routing
import NansOS.Boot.Serial
