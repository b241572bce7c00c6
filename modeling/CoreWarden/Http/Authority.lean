/-!
Authorities: whom a request target is addressed to. One is checked from left to right, with a view to
what may still become of the characters read so far: colons and percent signs are in place in front
of an at sign and in brackets.
-/
namespace CoreWarden.Http.Authority

def isPlain (c : Char) : Bool :=
  ('a' ≤ c && c ≤ 'z') || ('A' ≤ c && c ≤ 'Z') || ('0' ≤ c && c ≤ '9') ||
    ['!', '$', '&', '\'', '(', ')', '*', '+', ',', '-', '.', ';', '=', '_', '~'].contains c

def isEnd (c : Char) : Bool := c == '/' || c == '?' || c == '#'

structure Scan where
  /-- Colons that may stand in front of a port. -/
  colons : Nat := 0
  opened : Bool := false
  closed : Bool := false
  /-- Whether there is a percent sign that may belong to the name of the host. -/
  percent : Bool := false
  /-- Whether an at sign was read last. -/
  atSign : Bool := false

/-- Eight colons stand in an address of eight groups with a port. -/
def maxColons : Nat := 8

def Scan.next? (s : Scan) (c : Char) : Option Scan :=
  let s := { s with atSign := false }
  match c with
  | ':' => if maxColons ≤ s.colons then none else some { s with colons := s.colons + 1 }
  | '[' => if s.percent || s.opened then none else some { s with opened := true }
  | ']' =>
    if !s.opened || s.closed then none
    else some { s with closed := true, colons := 0, percent := false }
  | '@' => some { s with colons := 0, percent := false, atSign := true }
  | '%' => some { s with percent := true }
  | c => if isPlain c then some s else none

/-- Whether the scan may end here: with brackets in pairs, one port at most, and a host. -/
def Scan.isComplete (s : Scan) : Bool :=
  s.opened == s.closed && s.colons ≤ 1 && !s.percent && !s.atSign

/-- Whether a text can be an authority. The empty text can. -/
def isValid (s : List Char) : Bool := (s.foldlM Scan.next? {}).any Scan.isComplete

@[simp] theorem isValid_nil : isValid [] = true := rfl

end CoreWarden.Http.Authority
