/-! How commands end, and what they leave behind. -/
namespace CoreWarden

abbrev Bytes := List UInt8

inductive Ending where
  | exited (code : Nat)
  | killed (signal : Nat)
  deriving DecidableEq

structure Completion where
  ending : Ending
  output : Bytes
  errors : Bytes

namespace Signal

/-- The signals with names of their own, by their numbers. -/
def names : List (Nat × String) :=
  [(1, "HUP"), (2, "INT"), (3, "QUIT"), (4, "ILL"), (5, "TRAP"), (6, "ABRT"), (7, "BUS"), (8, "FPE"),
    (9, "KILL"), (10, "USR1"), (11, "SEGV"), (12, "USR2"), (13, "PIPE"), (14, "ALRM"), (15, "TERM"),
    (16, "STKFLT"), (17, "CHLD"), (18, "CONT"), (19, "STOP"), (20, "TSTP"), (21, "TTIN"),
    (22, "TTOU"), (23, "URG"), (24, "XCPU"), (25, "XFSZ"), (26, "VTALRM"), (27, "PROF"),
    (28, "WINCH"), (29, "IO"), (30, "PWR"), (31, "SYS")]

def name? (signal : Nat) : Option String := names.lookup signal

end Signal

namespace Ending

def isSuccess (e : Ending) : Bool := e = .exited 0

def describe : Ending → String
  | exited code => "exit status: " ++ toString code
  | killed signal =>
    "signal: " ++ toString signal ++
      match Signal.name? signal with
      | some name => " (SIG" ++ name ++ ")"
      | none => ""

end Ending

end CoreWarden
