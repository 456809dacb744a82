import VirtualKernel.Lib.Chain
import VirtualKernel.Lib.Runs
import VirtualKernel.Lib.Ring
import VirtualKernel.Lib.Blocks
import VirtualKernel.Lib.Word
import VirtualKernel.Lib.Ledger
import VirtualKernel.Lib.FreePool
import VirtualKernel.Heap
import VirtualKernel.HeapInv
import VirtualKernel.HeapAlloc
import VirtualKernel.HeapRuns
import VirtualKernel.Scheduler
import VirtualKernel.SchedulerFair
import VirtualKernel.Paging
import VirtualKernel.PagingInv
import VirtualKernel.PageAccount
import VirtualKernel.Tables
import VirtualKernel.TablePool
import VirtualKernel.PagingSpec
import VirtualKernel.Spaces
import VirtualKernel.Kernel
import VirtualKernel.Process
import VirtualKernel.Interrupts
import VirtualKernel.Boot
import VirtualKernel.SchedulerInv
import VirtualKernel.SchedulerRuns
import VirtualKernel.Resources
import VirtualKernel.ResourceSpec
import VirtualKernel.ResourceSpaces
import VirtualKernel.Teardown
import VirtualKernel.LdtSpec
import VirtualKernel.TssSpec
import VirtualKernel.CreateSpec
import VirtualKernel.CreateProtected
import VirtualKernel.Operations
import VirtualKernel.System
import VirtualKernel.SystemInv
import VirtualKernel.SystemTick
import VirtualKernel.BootSpec
import VirtualKernel.CallFrames
import VirtualKernel.MouseDriver
import VirtualKernel.MouseQueue
import VirtualKernel.MouseEvents
import VirtualKernel.Intel915
import VirtualKernel.MouseCursor
import VirtualKernel.KeyboardDriver
import VirtualKernel.KeyboardKeys
import VirtualKernel.UsbHost
import VirtualKernel.UsbMouse
import VirtualKernel.UsbProbe
import VirtualKernel.UsbPoll
import VirtualKernel.UsbHotplug
import VirtualKernel.StorageTransport
import VirtualKernel.Storage
import VirtualKernel.StorageFrame
import VirtualKernel.StorageBulk
import VirtualKernel.StorageSearch
import VirtualKernel.StorageCalls
import VirtualKernel.StorageRuns
import VirtualKernel.StorageCompanions
import VirtualKernel.StorageUser
import VirtualKernel.HeapRequests
import VirtualKernel.Lib.Fifo
import VirtualKernel.UsbService
import VirtualKernel.UsbStreams
import VirtualKernel.UsbReports
import VirtualKernel.SchedulerEntries
import VirtualKernel.HeapValidate
import VirtualKernel.PmmHints
import VirtualKernel.Lib.Records
import VirtualKernel.UsbDescriptors
import VirtualKernel.StorageDescriptors
import VirtualKernel.UsbControl
import VirtualKernel.MapPage
import VirtualKernel.UserMappings
import VirtualKernel.Descriptors
import VirtualKernel.LdtSelectors
import VirtualKernel.StorageCommands
import VirtualKernel.Lib.FirstFit
import VirtualKernel.CursorPages
import VirtualKernel.Lib.Crc
import VirtualKernel.BootPayload
import VirtualKernel.Lib.Packing
import VirtualKernel.BootImage
import VirtualKernel.Bootstrap
import VirtualKernel.BootSector
import VirtualKernel.Azalia
import VirtualKernel.AzaliaProbe
import VirtualKernel.AzaliaAnswers
import VirtualKernel.KeyboardDecoding
import VirtualKernel.StorageWindow
import VirtualKernel.AllOrNothing
import VirtualKernel.Lib.Copy
import VirtualKernel.Memory
import VirtualKernel.Room
import VirtualKernel.CreateProgress
import VirtualKernel.CreateRuns
import VirtualKernel.Objects
import VirtualKernel.HeapWindow
import VirtualKernel.PrepareTask
import VirtualKernel.Isolation
import VirtualKernel.PrepareClean
import VirtualKernel.Teardowns
import VirtualKernel.Faults
import VirtualKernel.Intel915Service
import VirtualKernel.Revocation
import VirtualKernel.GraphicsOwner
import VirtualKernel.Starvation
import VirtualKernel.Leaks
import VirtualKernel.UserSegments
import VirtualKernel.Lib.LittleEndian
import VirtualKernel.Sysenter
import VirtualKernel.Gateway
import VirtualKernel.Lib.Monitor
import VirtualKernel.KeyboardPreemption
import VirtualKernel.Lib.History
import VirtualKernel.UsbLog
import VirtualKernel.UsbHistory
