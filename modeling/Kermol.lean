import Kermol.FallibleProofs
import Kermol.RadixTreeProofs
import Kermol.ByteBitsProofs
import Kermol.X86PagingProofs
import Kermol.FrameAllocatorProofs
import Kermol.PageTableProofs
import Kermol.PageTreeProofs
import Kermol.MapStepProofs
import Kermol.PageTableRunProofs
import Kermol.PageMapProofs
import Kermol.TableFramesProofs
import Kermol.RecursiveSlotProofs
import Kermol.WindowScanProofs
import Kermol.BitmapAllocatorProofs
import Kermol.BitmapScanProofs
import Kermol.BitmapBoundsProofs
import Kermol.BitmapRoomProofs
import Kermol.BitmapLifetimeProofs
import Kermol.AllocDecisionProofs
import Kermol.FrameBitmapProofs
import Kermol.PagingControllerProofs
import Kermol.ByteMemoryProofs
import Kermol.AllocatedMemoryProofs
import Kermol.BootTablesProofs
import Kermol.ContiguousProofs
import Kermol.TableDemandProofs
import Kermol.MapFailureProofs
import Kermol.FailedAllocationProofs
import Kermol.BlockTablesProofs
import Kermol.InitMemoryProofs
import Kermol.KernelMapProofs
import Kermol.AllocatorContractProofs
import Kermol.RasterProofs
import Kermol.FramebufferProofs
import Kermol.DisplayMemoryProofs
import Kermol.VgaFontProofs
import Kermol.TerminalProofs
import Kermol.VgaTextProofs
import Kermol.VgaCursorProofs
import Kermol.PreparedMemoryProofs
import Kermol.AddressSpaceProofs
import Kermol.BootMapProofs
import Kermol.BootSpaceProofs
import Kermol.BootReachedProofs
import Kermol.DisplaySpaceProofs
import Kermol.KernelClientProofs
import Kermol.KernelMainProofs
import Kermol.PreemptionProofs
import Kermol.PanicProofs
import Kermol.TextFormatProofs
import Kermol.BootLogProofs
import Kermol.ExceptionProofs
import Kermol.PageTableDebugProofs
