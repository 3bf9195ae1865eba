import Chip8.Proofs.Journal.Account

/-!
# Log files

A log file is open at a threshold.  It is offered every record of a run when the record is told, and
it writes down those that the threshold admits.  The machine at its side does not notice: whatever
the threshold, it answers and ends as it would without a file, and the file holds the admitted part
of the journal.
-/

namespace Chip8

open Text (hex)

structure LogFile where
  threshold : Threshold
  lines : List String

namespace LogFile

def offer (file : LogFile) (r : Record) : LogFile :=
  if file.threshold.admits r.level then { file with lines := file.lines ++ [r.line] } else file

def offerAll (file : LogFile) (records : List Record) : LogFile :=
  records.foldl offer file

end LogFile

/-- A machine at work with a log file at its side. -/
structure LoggedMachine where
  machine : Machine
  file : LogFile

namespace LoggedMachine

def start (program : List UInt8) (config : Config) (chance : RandomSource)
    (threshold : Threshold) : Except Fault LoggedMachine :=
  (Machine.start program config chance).map fun machine =>
    ⟨machine, LogFile.offer ⟨threshold, []⟩ (.loaded program.length)⟩

def perform (l : LoggedMachine) (request : Request) : Reply × LoggedMachine :=
  let (reply, machine) := l.machine.perform request
  (reply, ⟨machine, l.file.offerAll (l.machine.account request)⟩)

def run (l : LoggedMachine) (requests : List Request) : LoggedMachine :=
  requests.foldl (fun l request => (l.perform request).2) l

def replies (l : LoggedMachine) : List Request → List Reply
  | [] => []
  | request :: requests => (l.perform request).1 :: (l.perform request).2.replies requests

end LoggedMachine

namespace Session

def run (s : Session) (requests : List Request) : Session :=
  requests.foldl (fun s request => (s.perform request).2) s

theorem start_eq_ok_iff {program : List UInt8} {config : Config} {chance : RandomSource}
    {s : Session} :
    start program config chance = .ok s ↔
      Machine.start program config chance = .ok s.machine ∧
        s.journal = #[.loaded program.length] := by
  rw [start, map_eq_ok_iff]
  constructor
  · rintro ⟨m, hm, rfl⟩
    exact ⟨hm, rfl⟩
  · intro hstarted
    obtain ⟨hm, hjournal⟩ := hstarted
    exact ⟨s.machine, hm, by rw [← hjournal]⟩

end Session

end Chip8
