import Chip8.Machine.Step

/-!
# Requests

All that a host can ask of a machine, as data, with the reply to each.  A run of a machine is a list
of requests, and a machine is reachable when some run leads to it.
-/

namespace Chip8

inductive Request where
  | step
  | tick
  | keyDown (code : UInt8)
  | keyUp (code : UInt8)
  | resolveKey (code : UInt8)
  | takeRedraw
deriving DecidableEq, Repr

inductive Reply where
  | done
  | flag (value : Bool)
  | refused (fault : Fault)
deriving DecidableEq, Repr

namespace Machine

/-- A request that gives the next machine or is refused and changes nothing. -/
def attempt (m : Machine) : Except Fault Machine → Reply × Machine
  | .ok m' => (.done, m')
  | .error fault => (.refused fault, m)

def perform (m : Machine) : Request → Reply × Machine
  | .step =>
    match m.step with
    | (.ok (), m') => (.done, m')
    | (.error fault, m') => (.refused fault, m')
  | .tick => (.done, m.tick)
  | .keyDown code => m.attempt (m.keyDown code)
  | .keyUp code => m.attempt (m.keyUp code)
  | .resolveKey code =>
    match m.resolveKey code with
    | .ok (resumed, m') => (.flag resumed, m')
    | .error fault => (.refused fault, m)
  | .takeRedraw => (.flag m.takeRedraw.1, m.takeRedraw.2)

/-- The machine after a list of requests. -/
def run (m : Machine) (requests : List Request) : Machine :=
  requests.foldl (fun m request => (m.perform request).2) m

@[simp]
theorem run_nil (m : Machine) : m.run [] = m := rfl

@[simp]
theorem run_cons (m : Machine) (request : Request) (requests : List Request) :
    m.run (request :: requests) = (m.perform request).2.run requests := rfl

theorem run_append (m : Machine) (before after : List Request) :
    m.run (before ++ after) = (m.run before).run after := by
  simp [run]

end Machine

end Chip8
