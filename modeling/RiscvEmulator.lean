import RiscvEmulator.AssemblerFacts
import RiscvEmulator.AtomicFacts
import RiscvEmulator.ClaimFacts
import RiscvEmulator.CompressedAssemblerFacts
import RiscvEmulator.CompressedFacts
import RiscvEmulator.Confinement
import RiscvEmulator.CsrFacts
import RiscvEmulator.DataFacts
import RiscvEmulator.DefaultTableFacts
import RiscvEmulator.DelegationFacts
import RiscvEmulator.DisassemblerFacts
import RiscvEmulator.DiskFacts
import RiscvEmulator.DiskRun
import RiscvEmulator.ElfFacts
import RiscvEmulator.EmulatorFacts
import RiscvEmulator.ExpandFacts
import RiscvEmulator.FaultFacts
import RiscvEmulator.FetchFacts
import RiscvEmulator.HostFacts
import RiscvEmulator.InterruptFacts
import RiscvEmulator.Isa32Facts
import RiscvEmulator.LegalFacts
import RiscvEmulator.MemoryFacts
import RiscvEmulator.MmuFacts
import RiscvEmulator.ModeFacts
import RiscvEmulator.PendingFacts
import RiscvEmulator.Protection
import RiscvEmulator.PteFacts
import RiscvEmulator.RepeatFacts
import RiscvEmulator.Rv32
import RiscvEmulator.Rv32Run
import RiscvEmulator.Rv64
import RiscvEmulator.Rv64I
import RiscvEmulator.ScreenRun
import RiscvEmulator.ShiftFacts
import RiscvEmulator.SortProgram
import RiscvEmulator.StatusFacts
import RiscvEmulator.SymbolFacts
import RiscvEmulator.SystemCallFacts
import RiscvEmulator.TimerFacts
import RiscvEmulator.TrapFacts
import RiscvEmulator.UartFacts
import RiscvEmulator.ViewFacts
import RiscvEmulator.VirtioFacts
import RiscvEmulator.Lib.Blocks
