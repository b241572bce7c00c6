import CoreWarden.Rehearsal.Shell.Script

/-!
What scripts work on: settings and streams of the process that runs, and the texts that all processes
write and read.
-/
namespace CoreWarden.Shell

inductive Port where
  | null
  | sink (number : Nat)
  | source (number : Nat)

structure Session where
  name : Octets := ['s', 'h']
  arguments : List Octets := []
  settings : List (Octets × Octets) :=
    [("IFS".toList, [' ', '\t', '\n']), ("HOME".toList, "/root".toList), ("PATH".toList, "/usr/bin:/bin".toList)]
  exported : List Octets := ["HOME".toList, "PATH".toList]
  functions : List (Octets × Command) := []
  options : List Char := []
  status : Nat := 0
  /-- How the last command ended whose output was put into a word. -/
  innerStatus : Nat := 0
  background : Nat := 0
  line : Nat := 1
  /-- The command of the shell that is carried out. -/
  command : Octets := []
  streams : List (Nat × Port) := [(0, .null), (1, .sink 0), (2, .sink 1)]
  sinks : List Octets := [[], []]
  sources : List Octets := []
  /-- What is to be done at a signal; the end of the script counts as number zero. -/
  traps : List (Nat × Octets) := []
  /-- Variables to be restored when the function ends. -/
  setAside : List (Octets × Option Octets) := []
  deriving Inhabited

inductive Flow where
  | exit
  | back
  | leave (loops : Nat)
  | again (loops : Nat)
  | killed (signal : Nat)

abbrev Action := ExceptT Flow (StateM Session)

/-- The number under which a script knows itself, and the one of the process it left running. -/
def ownProcess : Nat := 42

def Session.joined (s : Session) : Octets :=
  [((s.settings.lookup "IFS".toList).getD []).headD ' '].intercalate s.arguments

def Session.value? (s : Session) (name : Octets) : Option Octets :=
  match Octets.text name with
  | "#" => some (toString s.arguments.length).toList
  | "?" => some (toString s.status).toList
  | "$" => some (toString ownProcess).toList
  | "!" => some (toString (ownProcess + 1)).toList
  | "-" => some s.options
  | "0" => some s.name
  | "@" | "*" => if s.arguments.isEmpty then none else some s.joined
  | text =>
    match text.toNat? with
    | some n => s.arguments[n - 1]?
    | none => s.settings.lookup name

namespace Action

def attempt (a : Action α) : Action (Except Flow α) := ExceptT.lift a.run

/-- Does something at the end, however it came about. -/
def followedBy (a : Action α) (last : Action Unit) : Action α := do
  let result ← attempt a
  last
  MonadExcept.ofExcept result

def setStatus (status : Nat) : Action Unit := modify ({ · with status })

def write (stream : Nat) (text : Octets) : Action Unit := modify fun s =>
  match s.streams.lookup stream with
  | some (.sink n) => { s with sinks := s.sinks.modify n (· ++ text) }
  | _ => s

def complain (message : Octets) (status : Nat := 2) : Action Unit := do
  let s ← get
  let command := if s.command.isEmpty then [] else s.command ++ [':', ' ']
  write 2 (s.name ++ (": " ++ toString s.line ++ ": ").toList ++ command ++ message ++ ['\n'])
  setStatus status

def fail (message : Octets) : Action α := do
  complain message
  throw .exit

/-- Takes from the input as much as is asked for. -/
def input (share : Octets → Octets × Octets := fun s => (s, [])) : Action Octets := do
  let s ← get
  match s.streams.lookup 0 with
  | some (.source n) =>
    let (taken, left) := share (s.sources.getD n [])
    set { s with sources := s.sources.set n left }
    return taken
  | _ => return []

def openSource (text : Octets) : Action Port := modifyGet fun s =>
  (.source s.sources.length, { s with sources := s.sources ++ [text] })

def openSink : Action Nat := modifyGet fun s => (s.sinks.length, { s with sinks := s.sinks ++ [[]] })

def assign (name value : Octets) : Action Unit := modify fun s => { s with
  settings := (name, value) :: s.settings.filter (·.1 != name)
  exported := if s.options.contains 'a' then name :: s.exported else s.exported }

/-- Does something as a process of its own, which leaves only what it has written and its status. -/
def apart (prepare : Session → Session) (a : Action Unit) : Action Unit := do
  let outer ← get
  modify prepare
  let result ← attempt a
  modify fun inner => { outer with
    sinks := inner.sinks, sources := inner.sources, status := inner.status % 256 }
  match result with
  | .error (.killed signal) => throw (.killed signal)
  | _ => pure ()

end Action

end CoreWarden.Shell
