import CoreWarden.Rehearsal.Shell.Tools

/-!
Running commands. Every step uses up fuel; a script that runs out of it counts as killed. `looked` says that
somebody looks at how a command ends. In a rehearsal `launch` is the `Supervisor.Runner`.
-/
namespace CoreWarden.Shell

open CoreWarden.Shell.Action

/-! ### Signals -/

/-- A number for a signal or its name; the end of a script counts as number zero. -/
def signal? (s : Octets) : Option Nat :=
  let name := Octets.text (s.map Char.toUpper)
  if s.all Char.isDigit then name.toNat?.filter (· ≤ 64)
  else if name = "EXIT" then some 0
  else (Signal.names.find? (·.2 == name)).map (·.1)

/-- The signals that a process does not notice unless it asks for them. -/
def ignoredSignals : List Nat := [17, 18, 23, 28]

/-! ### Commands of the shell -/

def number (s : Octets) : Action Nat :=
  match (Octets.text s).toNat? with
  | some n => pure n
  | none => fail ("Illegal number: ".toList ++ s)

/-- The name and the value of a setting, if a word is one. -/
def setting? (w : Octets) : Option (Octets × Octets) :=
  let name := w.takeWhile isNameChar
  if isName name && w[name.length]? = some '=' then some (name, w.drop (name.length + 1)) else none

def putAside (name : Octets) : Action Unit := modify fun s =>
  { s with setAside := (name, s.settings.lookup name) :: s.setAside }

/-- Gives arguments their values, if they come with any. -/
def declare (change : Octets → Action Unit) (ws : List Octets) : Action Unit :=
  ws.forM fun w => do
    change ((setting? w).elim w (·.1))
    match setting? w with
    | some (name, value) => assign name value
    | none => pure ()

def shares (separators : Octets) : (fuel : Nat) → Octets → List Octets
  | 0, _ => []
  | 1, s => [((s.dropWhile separators.contains).reverse.dropWhile separators.contains).reverse]
  | fuel + 1, s =>
    let s := s.dropWhile separators.contains
    let field := s.takeWhile (!separators.contains ·)
    field :: shares separators fuel (s.drop field.length)

def read (ws : List Octets) : Action Unit := do
  let raw := ws.head? = some ['-', 'r']
  let names := if raw then ws.drop 1 else ws
  let line ← input fun s =>
    let (first, rest) := s.span (· != '\n')
    (first ++ rest.take 1, rest.drop 1)
  let text := (line.takeWhile (· != '\n')).filter fun c => raw || c != '\\'
  let separators := ((← get).settings.lookup "IFS".toList).getD []
  (names.zip (shares separators names.length text)).forM fun (name, value) => assign name value
  setStatus (if line.contains '\n' then 0 else 1)

/-- Sends a signal; it ends the script unless it has a trap or is ignored. -/
def kill (trap : Octets → Action Unit) (ws : List Octets) : Action Unit := do
  let (name, targets) := match ws with
    | ['-', 's'] :: name :: targets => (name, targets)
    | ('-' :: name) :: targets => (name, targets)
    | targets => ("TERM".toList, targets)
  setStatus 0
  modify ({ · with command := "kill".toList })
  match signal? name with
  | none => complain ("Illegal option -".toList ++ name.take 1)
  | some n =>
    if targets.contains (toString ownProcess).toList then
      match (← get).traps.lookup n with
      | some action => if n = 9 then throw (.killed n) else trap action
      | none => if n != 0 && !ignoredSignals.contains n then throw (.killed n)
    else if !targets.contains (toString (ownProcess + 1)).toList then
      complain "No such process\n".toList 1
  modify ({ · with command := [] })

def setOptions : List Octets → Action Unit
  | ['-', 'o'] :: name :: rest => do
    let letter? := [("errexit", 'e'), ("nounset", 'u')].lookup (Octets.text name)
    modify fun s => { s with options := s.options ++ letter?.toList }
    setOptions rest
  | ['-', '-'] :: arguments => modify ({ · with arguments })
  | ('-' :: letters) :: rest => do
    modify fun s => { s with options := s.options ++ letters }
    setOptions rest
  | ('+' :: letters) :: rest => do
    modify fun s => { s with options := s.options.filter (!letters.contains ·) }
    setOptions rest
  | [] => pure ()
  | arguments => modify ({ · with arguments })

/-- Leaves loops, or begins their next round. -/
def leaveLoops (flow : Nat → Flow) (ws : List Octets) : Action Unit := do
  throw (flow (← ws.head?.elim (pure 1) number))

def plain? (name : String) : Option (List Octets → Action Unit) :=
  match name with
  | "exit" => some fun ws => do
    ws.head?.elim (pure ()) fun w => do setStatus (← number w)
    throw .exit
  | "return" => some fun ws => do
    ws.head?.elim (pure ()) fun w => do setStatus (← number w)
    throw .back
  | "break" => some (leaveLoops .leave)
  | "continue" => some (leaveLoops .again)
  | "shift" => some fun ws => do
    let n ← ws.head?.elim (pure 1) number
    let s ← get
    if s.arguments.length < n then fail "can't shift that many".toList
    set { s with arguments := s.arguments.drop n }
  | "set" => some setOptions
  | "export" => some (declare fun name => modify fun s => { s with exported := name :: s.exported })
  | "readonly" => some (declare fun _ => pure ())
  | "local" => some (declare putAside)
  | "unset" => some fun ws => modify fun s =>
    { s with
      settings := s.settings.filter (!ws.contains ·.1)
      functions := s.functions.filter (!ws.contains ·.1) }
  | "read" => some read
  | "trap" => some fun ws => modify fun s =>
    let signals := (ws.drop 1).filterMap signal?
    let others := s.traps.filter (!signals.contains ·.1)
    { s with traps := if ws.head? = some ['-'] then others else signals.map (·, ws.headD []) ++ others }
  | "wait" => some fun ws => if ws.isEmpty then pure () else do setStatus (← get).background
  | "cd" => some fun ws => ws.forM fun path =>
    if Condition.isFolder path then pure () else complain ("can't cd to ".toList ++ path)
  | "pwd" => some fun _ => write 1 "/\n".toList
  | _ => none

def deliver (who : Octets) (r : Result) : Action Unit := do
  r.complaints.forM fun message => write 2 (who ++ ": ".toList ++ message ++ ['\n'])
  write 1 r.output
  setStatus r.status

/-- The name of a program that is called by its name or by its path. -/
def programName? (name : Octets) : Option String :=
  let last := (name.reverse.takeWhile (· != '/')).reverse
  let folder := Octets.text (name.take (name.length - last.length))
  let known := (Tool.program? (Octets.text last)).isSome ||
    ["sh", "dash", "bash", "env"].contains (Octets.text last)
  if known && ["", "/bin/", "/usr/bin/"].contains folder then some (Octets.text last) else none

def standardStreams : List (String × Nat) := [("/dev/stdin", 0), ("/dev/stdout", 1), ("/dev/stderr", 2)]

def checkStatus (looked : Bool) : Action Unit := do
  let s ← get
  if s.options.contains 'e' && !looked && s.status != 0 then throw .exit

/-- Does something in a loop; whether the loop goes on. -/
def passing (a : Action Unit) : Action Bool := do
  match ← attempt a with
  | .ok () => return true
  | .error (.leave n) => if 1 < n then throw (.leave (n - 1)) else return false
  | .error (.again n) => if 1 < n then throw (.again (n - 1)) else return true
  | .error flow => throw flow

/-- What a parameter stands for if all arguments are meant, each of them a field. -/
def argumentMarks (quoted : Bool) (arguments : List Octets) : List Mark :=
  (arguments.map fun a => (if quoted then [.keep] else []) ++ Mark.yield quoted a).intersperse [.border] |>.flatten

/-- The arguments of a shell: its script, if it has one, its name and the arguments of the script. -/
def shellArguments (options : List Char) : List Octets → List Char × List Octets
  | ('-' :: letters) :: rest => shellArguments (options ++ letters) rest
  | rest => (options, rest)

mutual

/-- The marks of a raw word; `inside` is for text between double quotes. -/
def marks : (fuel : Nat) → (inside : Bool) → Octets → Action (List Mark)
  | 0, _, _ => throw (.killed 9)
  | _ + 1, _, [] => return []
  | fuel + 1, inside, '\\' :: c :: rest => do
    let more ← marks fuel inside rest
    let kept := inside && !(['$', '\x60', '"', '\\'].contains c)
    return Mark.quote (if kept then ['\\', c] else [c]) ++ more
  | fuel + 1, inside, c :: rest => do
    let part (opening : Nat) (inside : Bool) (close : Char) : Octets × Octets :=
      match scan rest.length inside (· == close) (rest.drop opening) with
      | .ok (body, after) => (body, after.drop 1)
      | .error _ => (rest, [])
    let (found, rest) ← match c, rest with
      | '\x60', _ =>
        let (body, rest) := part 0 true c
        pure (Mark.yield inside (← capture fuel (body.filter (· != '\\'))), rest)
      | '$', '{' :: _ =>
        let (body, rest) := part 1 inside '}'
        pure (← parameter fuel inside body, rest)
      | '$', '(' :: _ =>
        let (body, rest) := part 1 false ')'
        if body.head? = some '(' && body.getLast? = some ')' then
          let expression ← marks fuel true (body.drop 1).dropLast
          pure (Mark.yield inside (toString (← Action.sum (Mark.text expression))).toList, rest)
        else pure (Mark.yield inside (← capture fuel body), rest)
      | '$', x :: after =>
        let name := rest.takeWhile isNameChar
        if isName name then pure (← parameter fuel inside name, rest.drop name.length)
        else if x.isDigit || ['@', '*', '#', '?', '$', '!', '-'].contains x then
          pure (← parameter fuel inside [x], after)
        else pure ([.char inside false c], rest)
      | _, _ =>
        if inside || c != '"' && c != '\'' then pure ([.char inside false c], rest)
        else if c = '\'' then
          let (body, rest) := rest.span (· != c)
          pure (.keep :: Mark.quote body, rest.drop 1)
        else
          let (body, rest) := part 0 true c
          let empty := body = ['$', '@'] && (← get).arguments.isEmpty
          pure ((if empty then [] else [.keep]) ++ (← marks fuel true body), rest)
    return found ++ (← marks fuel inside rest)

/-- What stands for a parameter, from its name on. -/
def parameter : (fuel : Nat) → (inside : Bool) → Octets → Action (List Mark)
  | 0, _, _ => throw (.killed 9)
  | fuel + 1, inside, body => do
    let s ← get
    if body.head? = some '#' && 1 < body.length then
      return Mark.quote (toString ((s.value? (body.drop 1)).getD []).length).toList
    let letters := body.takeWhile isNameChar
    let name := if isName letters then letters
      else if letters.isEmpty then body.take 1
      else letters.takeWhile Char.isDigit
    let rest := body.drop name.length
    let orEmpty := rest.head? = some ':'
    let rest := if orEmpty then rest.drop 1 else rest
    let value? := s.value? name
    let word := rest.drop 1
    let loosened (ms : List Mark) : List Mark := if inside then ms else Mark.loosen ms
    let counts := value?.isSome && !(orEmpty && value? == some [])
    let own : List Mark := if name = ['@'] || name = ['*'] && !inside then argumentMarks inside s.arguments
      else Mark.yield inside (value?.getD [])
    match rest.head? with
    | none =>
      if value?.isNone && s.options.contains 'u' && name != ['@'] && name != ['*'] then
        fail (name ++ ": parameter not set".toList)
      else return own
    | some '-' => if counts then return own else return loosened (← marks fuel inside word)
    | some '+' => if counts then return loosened (← marks fuel inside word) else return []
    | some '=' =>
      if counts then return own
      let value := Mark.text (← marks fuel inside word)
      assign name value
      return Mark.yield inside value
    | some '?' =>
      if counts then return own
      let message ← marks fuel inside word
      fail (name ++ ": ".toList ++ if word.isEmpty then
        ("parameter not set" ++ if orEmpty then " or null" else "").toList else Mark.text message)
    | some c =>
      if c != '%' && c != '#' then fail "Bad substitution".toList
      let longest := word.head? = some c
      let pattern ← marks fuel false (if longest then word.drop 1 else word)
      return Mark.yield inside (Mark.cut (c = '#') longest pattern (value?.getD []))

/-- The output of a script, without the line ends behind it. -/
def capture : (fuel : Nat) → Octets → Action Octets
  | 0, _ => throw (.killed 9)
  | fuel + 1, script => do
    let sink ← openSink
    let status := (← get).status
    alone fuel (fun s => { s with streams := (1, .sink sink) :: s.streams }) (runScript fuel false script)
    modify fun s => { s with innerStatus := s.status, status }
    return ((((← get).sinks.getD sink []).reverse).dropWhile (· == '\n')).reverse

def fields : (fuel : Nat) → List Octets → Action (List Octets)
  | 0, _ => throw (.killed 9)
  | _ + 1, [] => return []
  | fuel + 1, w :: ws => do
    let ms ← marks fuel false w
    let found := Mark.fields (((← get).settings.lookup "IFS".toList).getD []) none ms
    return found.map Mark.text ++ (← fields fuel ws)

def assignAll : (fuel : Nat) → List Octets → Action (List Octets)
  | 0, _ => throw (.killed 9)
  | _ + 1, [] => return []
  | fuel + 1, w :: ws => do
    match setting? w with
    | none => return []
    | some (name, value) =>
      assign name (Mark.text (← marks fuel false value))
      return name :: (← assignAll fuel ws)

/-- Lets a process run by itself, and does what is to be done at its end. -/
def alone : (fuel : Nat) → (prepare : Session → Session) → Action Unit → Action Unit
  | 0, _, _ => throw (.killed 9)
  | fuel + 1, prepare, a => apart (fun s => { prepare s with traps := [] }) do
    let result ← attempt a
    match result with
    | .error (.killed n) => throw (.killed n)
    | _ => pure ()
    let s ← get
    match s.traps.lookup 0 with
    | some action =>
      set { s with traps := [] }
      runScript fuel false action
      setStatus s.status
    | none => pure ()

def runScript : (fuel : Nat) → (looked : Bool) → Octets → Action Unit
  | 0, _, _ => throw (.killed 9)
  | fuel + 1, looked, script => do
    match Command.ofScript script with
    | .ok .nothing => setStatus 0
    | .ok c => run fuel looked c
    | .error message =>
      write 2 ((← get).name ++ ": ".toList ++ message.toList ++ ['\n'])
      setStatus 2
      throw .exit

/-- Redirects streams one after the other, and goes on if that is possible. -/
def redirect : (fuel : Nat) → List Redirection → Action Unit → Action Unit
  | 0, _, _ => throw (.killed 9)
  | _ + 1, [], a => a
  | fuel + 1, r :: rs, a => do
    let connect (p : Port) : Action Unit := do
      modify fun s => { s with streams := (r.stream, p) :: s.streams }
      redirect fuel rs a
    if r.operator = "<<'" then connect (← openSource r.target)
    else if r.operator = "<<" then connect (← openSource (Mark.text (← marks fuel true r.target)))
    else
      let target := Mark.text (← marks fuel false r.target)
      let parent := (target.reverse.dropWhile (· != '/')).reverse
      if r.operator.back = '&' then
        match (← get).streams.lookup (Sum.natural target) with
        | some p => connect (if target = ['-'] then .null else p)
        | none => if target = ['-'] then connect .null else complain (target ++ ": Bad file descriptor".toList)
      else if let some stream := standardStreams.lookup (Octets.text target) then
        connect (((← get).streams.lookup stream).getD .null)
      else if Condition.isDevice target then connect .null
      else if r.operator = "<" then
        if Condition.isFolder target || Condition.isPlain target then connect .null
        else complain ("cannot open ".toList ++ target ++ ": No such file".toList)
      else if Condition.isFolder target then
        complain ("cannot create ".toList ++ target ++ ": Is a directory".toList)
      else if parent.isEmpty || Condition.isFolder parent || Condition.isFolder parent.dropLast then connect .null
      else complain ("cannot create ".toList ++ target ++ ": Directory nonexistent".toList)

def run : (fuel : Nat) → (looked : Bool) → Command → Action Unit
  | 0, _, _ => throw (.killed 9)
  | fuel + 1, looked, c => do
    match c with
    | .nothing => pure ()
    | .simple line ws =>
      modify ({ · with line, innerStatus := 0 })
      runSimple fuel looked ws
      checkStatus looked
    | .redirected rs c =>
      let streams := (← get).streams
      let kept := match c with
        | .simple _ ws => ws == ["exec".toList]
        | _ => false
      followedBy (redirect fuel rs (run fuel looked c))
        (if kept then pure () else modify ({ · with streams }))
      checkStatus looked
    | .pipeline cs =>
      runPipeline fuel cs
      checkStatus looked
    | .negation c =>
      run fuel true c
      setStatus (if (← get).status = 0 then 1 else 0)
    | .both first second =>
      run fuel true first
      if (← get).status = 0 then run fuel looked second
    | .either first second =>
      run fuel true first
      if (← get).status != 0 then run fuel looked second
    | .sequence first second =>
      run fuel looked first
      run fuel looked second
    | .background c =>
      alone fuel (fun s => { s with streams := (0, .null) :: s.streams }) (run fuel false c)
      modify fun s => { s with background := s.status, status := 0 }
    | .subshell c =>
      alone fuel id (run fuel looked c)
      checkStatus looked
    | .choice condition yes no =>
      run fuel true condition
      if (← get).status = 0 then run fuel looked yes
      else
        setStatus 0
        run fuel looked no
    | .loop goal condition body => runLoop fuel looked goal condition body 0
    | .each name ws body =>
      let found ← fields fuel ws
      setStatus 0
      runEach fuel looked name found body
    | .selection w branches =>
      let text := Mark.text (← marks fuel false w)
      select fuel looked text branches
    | .definition name body =>
      modify fun s => { s with functions := (name, body) :: s.functions, status := 0 }

def runLoop : (fuel : Nat) → (looked goal : Bool) → (condition body : Command) → (last : Nat) → Action Unit
  | 0, _, _, _, _, _ => throw (.killed 9)
  | fuel + 1, looked, goal, condition, body, last => do
    if !(← passing (run fuel true condition)) then return
    if ((← get).status == 0) != goal then setStatus last
    else if ← passing (run fuel looked body) then
      runLoop fuel looked goal condition body (← get).status

def runEach : (fuel : Nat) → (looked : Bool) → (name : Octets) → List Octets → Command → Action Unit
  | 0, _, _, _, _ => throw (.killed 9)
  | _ + 1, _, _, [], _ => return
  | fuel + 1, looked, name, value :: values, body => do
    assign name value
    if ← passing (run fuel looked body) then runEach fuel looked name values body

def select : (fuel : Nat) → (looked : Bool) → Octets → List (List Octets × Command) → Action Unit
  | 0, _, _, _ => throw (.killed 9)
  | _ + 1, _, _, [] => setStatus 0
  | fuel + 1, looked, text, (patterns, c) :: rest => do
    match patterns with
    | [] => select fuel looked text rest
    | p :: ps =>
      let ms ← marks fuel false p
      if Mark.fits (ms.length + text.length + 1) ms text then
        setStatus 0
        run fuel looked c
      else select fuel looked text ((ps, c) :: rest)

def runPipeline : (fuel : Nat) → List Command → Action Unit
  | 0, _ => throw (.killed 9)
  | _ + 1, [] => return
  | fuel + 1, [c] => alone fuel id (run fuel false c)
  | fuel + 1, c :: cs => do
    let sink ← openSink
    alone fuel (fun s => { s with streams := (1, .sink sink) :: s.streams }) (run fuel false c)
    let s ← get
    let source ← openSource (s.sinks.getD sink [])
    modify fun after => { after with streams := (0, source) :: s.streams }
    followedBy (runPipeline fuel cs) (modify ({ · with streams := s.streams }))

/-- Runs a command of words. Settings in front of it are for it alone. -/
def runSimple : (fuel : Nat) → (looked : Bool) → List Octets → Action Unit
  | 0, _, _ => throw (.killed 9)
  | fuel + 1, looked, ws => do
    let rest := ws.dropWhile fun w => (setting? w).isSome
    match ← fields fuel rest with
    | [] =>
      let _ ← assignAll fuel ws
      setStatus (← get).innerStatus
    | name :: arguments =>
      let s ← get
      let names ← assignAll fuel ws
      modify fun s => { s with exported := names ++ s.exported }
      let restore : Action Unit := modify fun after => { after with
        settings := names.foldl (fun settings name =>
          (match s.settings.lookup name with
          | some value => [(name, value)]
          | none => []) ++ settings.filter (·.1 != name)) after.settings
        exported := if names.isEmpty then after.exported else s.exported }
      followedBy (perform fuel looked name arguments) restore

def perform : (fuel : Nat) → (looked : Bool) → (name : Octets) → List Octets → Action Unit
  | 0, _, _, _ => throw (.killed 9)
  | fuel + 1, looked, name, arguments => do
    let s ← get
    let text := Octets.text name
    match s.functions.lookup name, plain? text, Tool.builtin? text with
    | some body, _, _ =>
      set { s with arguments, setAside := [] }
      let result ← attempt (run fuel looked body)
      modify fun after => { after with
        arguments := s.arguments
        setAside := s.setAside
        settings := after.setAside.foldl (fun settings (name, value?) =>
          (value?.map (name, ·)).toList ++ settings.filter (·.1 != name)) after.settings }
      match result with
      | .ok () | .error .back => pure ()
      | .error flow => throw flow
    | none, some act, _ =>
      if !(["exit", "return", "break", "continue", "wait", "read"].contains text) then setStatus 0
      modify ({ · with command := name })
      act arguments
      modify ({ · with command := [] })
    | none, none, some tool =>
      let who := s.name ++ (": " ++ toString s.line ++ ": " ++ text).toList
      deliver who (tool arguments [])
    | none, none, none =>
      match text, arguments with
      | "eval", ws => runScript fuel looked ([' '].intercalate ws)
      | "exec", [] => setStatus 0
      | "exec", program :: ws =>
        perform fuel looked program ws
        throw .exit
      | "command", ['-', 'v'] :: ws =>
        let known := ws.filter fun w =>
          (plain? (Octets.text w)).isSome || (programName? w).isSome || (s.functions.lookup w).isSome
        write 1 (known.flatMap (· ++ ['\n']))
        setStatus (if known.isEmpty then 127 else 0)
      | "command", program :: ws => perform fuel looked program ws
      | "kill", ws => kill (runScript fuel false) ws
      | _, _ =>
        match programName? name with
        | none => complain (name ++ ": not found".toList) 127
        | some program =>
          match ← attempt (become fuel program name arguments) with
          | .error (.killed signal) => setStatus (128 + signal)
          | .error flow => throw flow
          | .ok () => pure ()

def become : (fuel : Nat) → (program : String) → (name : Octets) → List Octets → Action Unit
  | 0, _, _, _ => throw (.killed 9)
  | fuel + 1, program, name, arguments => do
    match Tool.program? program with
    | some tool =>
      let reads := ["cat", "tr", "head", "tail", "wc"].contains program
      deliver name (tool arguments (← if reads then input else pure []))
    | none =>
      if program = "env" then
        let names ← assignAll fuel arguments
        modify fun s => { s with exported := names ++ s.exported }
        match arguments.drop names.length with
        | [] => pure ()
        | program :: ws => perform fuel false program ws
      else
        let (options, rest) := shellArguments [] arguments
        alone fuel (fun s => { s with
          name := if options.contains 'c' then (rest[1]?).getD name else name
          arguments := rest.drop 2
          options := options.filter (· != 'c')
          functions := []
          line := 1
          settings := s.settings.filter fun v => s.exported.contains v.1 || v.1 = "IFS".toList })
          (if options.contains 'c' then runScript fuel false (rest.headD [])
          else do runScript fuel false (← input))

end

/-! ### Programs -/

/-- How many steps a script may take one inside the other. -/
def patience : Nat := 100000

def launch (command : List String) : Option Completion := do
  let name :: arguments := command.map Octets.ofString | none
  let program ← programName? name
  let (result, s) := (become patience program name arguments).run ({} : Session)
  return {
    ending := match result with
      | .error (.killed signal) => .killed signal
      | _ => .exited s.status
    output := Octets.bytes (s.sinks.getD 0 [])
    errors := Octets.bytes (s.sinks.getD 1 []) }

end CoreWarden.Shell
