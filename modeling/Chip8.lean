import Chip8.Keypad
import Chip8.Log.Console
import Chip8.Main
import Chip8.Proofs.Effects
import Chip8.Proofs.Failures
import Chip8.Proofs.FatalErrors
import Chip8.Proofs.History
import Chip8.Proofs.Patterns
import Chip8.Proofs.Returns
import Chip8.Proofs.Frames
import Chip8.Proofs.Composition
import Chip8.Proofs.LastWrite
import Chip8.Proofs.Accounting
import Chip8.Proofs.Timers
import Chip8.Proofs.ExactClock
import Chip8.Proofs.RandomStream
import Chip8.Proofs.Confinement
import Chip8.Proofs.KeyWait
import Chip8.Proofs.BoundedList
import Chip8.Proofs.Sprites
import Chip8.Proofs.Targets
import Chip8.Proofs.ExitStatus
import Chip8.Proofs.Destinations
import Chip8.Proofs.Arithmetic
import Chip8.Proofs.Overdrawing
import Chip8.Proofs.BlockTransfers
import Chip8.Proofs.DecimalDigits
import Chip8.Proofs.ProgramImages
import Chip8.Proofs.MemoryRanges
import Chip8.Proofs.Pictures
import Chip8.Proofs.KeyPolls
import Chip8.Proofs.SharedLoggers
import Chip8.Proofs.ClockFailures
