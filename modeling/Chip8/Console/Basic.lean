import Chip8.Console.Device
import Chip8.Session

/-!
# Consoles

A console is a session connected to a keyboard, a display and a buzzer.  Its actions either give a
result or fail, and in both cases leave a console behind.
-/

namespace Chip8

/-- Why an action failed. -/
inductive Failure where
  | fault (cause : Fault)
  | keyboard (why : String)
  | display (why : String)
  | buzzer (why : String)
deriving DecidableEq, Repr

def Failure.message : Failure → String
  | .fault cause => cause.message
  | .keyboard why | .display why | .buzzer why => why

structure Console (κ δ β : Type) where
  session : Session
  keyboard : κ
  display : δ
  buzzer : β
  /-- Instructions in a frame. -/
  speed : Nat

abbrev Action (κ δ β : Type) := EStateM Failure (Console κ δ β)

namespace Console

variable {κ δ β : Type}

def machine (c : Console κ δ β) : Machine :=
  c.session.machine

/-- Asks the machine; what it refuses is a failure. -/
def request (r : Request) : Action κ δ β Reply := fun c =>
  match c.session.perform r with
  | (.refused cause, session) => .error (.fault cause) { c with session }
  | (reply, session) => .ok reply { c with session }

def readEvents [Keyboard κ] : Action κ δ β (List KeyEvent) := fun c =>
  let reading := Keyboard.read c.keyboard
  let session := reading.unmapped.foldl (fun s char => s.note (.unmapped char)) c.session
  let c' := { c with session, keyboard := reading.keyboard }
  match reading.events with
  | .ok events => .ok events c'
  | .error why => .error (.keyboard why) c'

def draw [Display δ] : Action κ δ β Unit := fun c =>
  match Display.draw c.display c.machine.picture with
  | (.ok (), display) => .ok () { c with display }
  | (.error why, display) => .error (.display why) { c with display }

def setTone [Buzzer β] (on : Bool) : Action κ δ β Unit := fun c =>
  match Buzzer.follow c.buzzer on with
  | (.ok (), buzzer) => .ok () { c with buzzer }
  | (.error why, buzzer) => .error (.buzzer why) { c with buzzer }

end Console

end Chip8
