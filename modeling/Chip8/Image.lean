import Chip8.Fault

/-!
# Program images

An image arrives in reads.  The reads are put together until one of them is empty or there are no
more, and a read that fails makes the image unreadable, whatever came before.
-/

namespace Chip8

inductive Read where
  | bytes (data : List UInt8)
  | failed (why : String)

namespace Image

def ofReads : List Read → Except Fault (List UInt8)
  | [] => .ok []
  | .failed why :: _ => .error (.unreadable why)
  | .bytes [] :: _ => .ok []
  | .bytes data :: rest => (ofReads rest).map (data ++ ·)

theorem ofReads_bytes {data : List UInt8} (rest : List Read) (h : data ≠ []) :
    ofReads (.bytes data :: rest) = (ofReads rest).map (data ++ ·) := by
  cases data with
  | nil => exact absurd rfl h
  | cons b bs => rfl

end Image

end Chip8
