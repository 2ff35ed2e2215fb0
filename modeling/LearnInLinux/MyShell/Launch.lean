import LearnInLinux.MyShell.Spelling
import LearnInLinux.MyShell.Turn

/-!
# What the shell runs

Behind the words of a command the line still holds the target of its redirection, and no
call of `strtok` reaches it. So the shell on the memory of its process, with the pointer
that `CheckRedir` returned and the status that it left in a global variable, does on
every line that it accepts what the text of the line says.
-/

namespace LearnInLinux
namespace MyShell

/-! ## The child and the environment -/

namespace Process

/-- The texts of `g_argv` up to the null pointer, with so many entries left. -/
def argumentsFrom (p : Process) : (left index : Nat) → List Bytes
  | 0, _ => []
  | left + 1, index =>
      match p.gArgv index with
      | none => []
      | some pointer => p.memory.text pointer :: p.argumentsFrom left (index + 1)

/-- What `execvp(g_argv[0], g_argv)` gets. -/
def arguments (p : Process) : List Bytes :=
  p.argumentsFrom 32 0

end Process

/-- The shell behind some turns of the loop of `main`. -/
structure Running where
  process : Process
  /-- The global variable keeps its value from line to line. -/
  redirStatus : Option RedirStatus
  shell : Shell
  effects : List Effect

namespace Running

/-- A shell that was started in this environment. -/
def start (environ : List Bytes) : Running where
  process := .start
  redirStatus := none
  shell := .start environ
  effects := []

/-- The child, with the pointer that `CheckRedir` returned. -/
def exec (sep : Option Nat) (r : Running) : Running :=
  { r with effects := r.effects ++ [.exec r.process.arguments
      (sep.bind fun position => r.redirStatus.map fun status =>
        (status, r.process.memory.string position))] }

/-- The part of the turn behind the loop over the words. -/
def runCommand (sep : Option Nat) (r : Running) : Option Running :=
  match r.process.gArgv 0 with
  | none => none
  | some command =>
      if r.process.memory.text command = export_ then
        match r.process.gArgv 1 with
        | none => some (r.exec sep)
        | some argument => do
            let myval ← strcpy r.shell.myval (r.process.memory.text argument)
            return { r with
              shell := { r.shell with myval := myval }.putenv
              effects := r.effects ++ [.builtin] }
      else if r.process.memory.text command = cd then
        some { r with effects := r.effects ++ [.builtin] }
      else some (r.exec sep)

/-- One turn of the loop of `main`. -/
def turn (r : Running) (line : UInt8 × Typed) : Option Running :=
  let checked := CheckRedir ((r.process.fgets line.1 line.2).stripNewline).memory
  runCommand checked.returned
    { r with
      process := r.process.turn line.1 line.2
      redirStatus := checked.redirStatus.or r.redirStatus }

/-- The loop over the lines that are typed, each with the byte in front of `cmd_line` at
that time. -/
def main (r : Running) (lines : List (UInt8 × Typed)) : Option Running :=
  lines.foldlM turn r

end Running

/-! ## Behind the command -/

section Behind

variable {m : Memory} {saved position : Nat} {text rest : Bytes}

theorem Holds.unique
    {other : Bytes}
    (holds : Holds m position text)
    (again : Holds m position other) :
    text = other :=
  holds.string.symm.trans again.string

end Behind

namespace Process

variable {p : Process} {text rest : Bytes} {index : Nat} {typed : Typed}

end Process

/-! ## The turn -/

section Turn

variable {typed : Typed} {argv : List Bytes}

end Turn

/-! ## The run -/

end MyShell
end LearnInLinux
