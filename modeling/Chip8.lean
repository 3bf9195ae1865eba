import Chip8.Console.Rehearsal
import Chip8.Main
import Chip8.Proofs.Checked.Machine
import Chip8.Proofs.CommandLine.Lines
import Chip8.Proofs.Console.EarlyExit
import Chip8.Proofs.Console.KeyEvents
import Chip8.Proofs.Console.Shown
import Chip8.Proofs.Console.Splitting
import Chip8.Proofs.Console.Ticks
import Chip8.Proofs.Construction
import Chip8.Proofs.Journal.Account
import Chip8.Proofs.Machine.Arithmetic
import Chip8.Proofs.Machine.Erasing
import Chip8.Proofs.Machine.FaultConditions
import Chip8.Proofs.Machine.Footprint
import Chip8.Proofs.Machine.HeldKeys
import Chip8.Proofs.Machine.ProgramCounter
import Chip8.Proofs.Machine.Randomness
import Chip8.Proofs.Machine.Redraw
import Chip8.Proofs.Machine.RoundTrip
import Chip8.Proofs.Machine.Successor
import Chip8.Proofs.Machine.Switches
import Chip8.Proofs.Memory.Accesses
import Chip8.Proofs.Picture
import Chip8.Proofs.Terminal.Expiry
