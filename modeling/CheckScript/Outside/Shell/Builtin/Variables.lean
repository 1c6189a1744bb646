/-
Commands for variables and arguments.
-/
import CheckScript.Outside.Shell.Builtin.Basic
import CheckScript.Outside.Shell.Expand

namespace CheckScript
namespace Shell
namespace Run

/-! ## Attributes -/

/-- A name and the value behind an equals sign. -/
def cutAssignment (b : Bytes) : Bytes × Option Bytes :=
  let name := b.takeWhile (· != '=')
  (name, if name.length = b.length then none else some (b.drop (name.length + 1)))

def badName {α : Type} (name : Bytes) : Run α := failWith (name ++ ": bad variable name".toList)

/-- The variables in the order of their names, as commands that set them. -/
def listVariables (word : Bytes) (shown : Variable → Bool) : Run Unit := do
  let m ← get
  let sorted := (m.bindings.filter fun v => shown v.2).mergeSort fun a b => Bytes.noLater a.1 b.1
  let start := if word.isEmpty then [] else word ++ [' ']
  say (sorted.flatMap fun v =>
    match v.2.value with
    | some value => start ++ v.1 ++ '=' :: singleQuoted value ++ ['\n']
    | none => if word.isEmpty then [] else start ++ v.1 ++ ['\n'])

/-- Give variables an attribute, and values if they come with one. -/
def mark (change : Variable → Variable) : List Bytes → Run Nat
  | [] => return 0
  | a :: rest => do
    let (name, value) := cutAssignment a
    if !isName name then badName name
    match value with
    | some value => assign name value
    | none =>
      if (findVariable (← get) name).isNone then putVariable name ⟨none, false, false⟩
    match findVariable (← get) name with
    | some v => putVariable name (change v)
    | none => pure ()
    mark change rest

def exportVariables (arguments : List Bytes) : Run Nat := do
  let (options, names) ← given "p" "" arguments
  if names.isEmpty || !options.isEmpty then
    listVariables "export".toList (·.exported)
    return 0
  else mark (fun v => { v with exported := true }) names

def readonly (arguments : List Bytes) : Run Nat := do
  let (options, names) ← given "p" "" arguments
  if names.isEmpty || !options.isEmpty then
    listVariables "readonly".toList (·.constant)
    return 0
  else mark (fun v => { v with constant := true }) names

/-! ## Removal -/

def removeVariable (name : Bytes) : Run Unit := do
  if !isName name then badName name
  match findVariable (← get) name with
  | some v =>
    if v.constant then failWith (name ++ ": is read only".toList)
    else modify fun m => { m with bindings := m.bindings.filter fun w => w.1 != name }
  | none => return ()

def removeAll (isFunction : Bool) : List Bytes → Run Nat
  | [] => return 0
  | name :: rest => do
    if isFunction then
      modify fun m => { m with functions := m.functions.filter fun f => f.1 != name }
    else removeVariable name
    removeAll isFunction rest

def unset (arguments : List Bytes) : Run Nat := do
  let (options, names) ← given "vf" "" arguments
  removeAll (options.getLast?.map (·.1) == some 'f') names

/-! ## Options and arguments -/

def optionNames : List (String × Char) :=
  [("errexit", 'e'), ("noglob", 'f'), ("ignoreeof", 'I'), ("interactive", 'i'), ("monitor", 'm'),
    ("noexec", 'n'), ("stdin", 's'), ("xtrace", 'x'), ("verbose", 'v'), ("vi", 'V'),
    ("emacs", 'E'), ("noclobber", 'C'), ("allexport", 'a'), ("notify", 'b'), ("nounset", 'u'),
    ("privileged", 'p'),
    ("nolog", 'N'), ("debug", 'D')]

def switch (on : Bool) (letter : Char) : Run Unit :=
  modify fun m =>
    let others := m.options.filter (· != letter)
    { m with options := if on then optionNames.map (·.2) |>.filter fun c =>
        c == letter || others.contains c else others }

def listOptions (on : Bool) : Run Unit := do
  let m ← get
  if on then
    sayLine "Current option settings".toList
    say (optionNames.flatMap fun o =>
      o.1.toList ++ List.replicate (16 - o.1.length) ' ' ++
        (if m.option o.2 then "on\n" else "off\n").toList)
  else
    say (optionNames.flatMap fun o =>
      (if m.option o.2 then "set -o " else "set +o ").toList ++ o.1.toList ++ ['\n'])

/-- Switch options by letters. -/
def switchAll (on : Bool) : Bytes → Run Unit
  | [] => return ()
  | c :: cs => do
    if optionNames.any fun o => o.2 == c && c != 'N' && c != 'D' then switch on c
    else failWith (s!"Illegal option -{String.singleton c}".toList)
    switchAll on cs

/-- Read options up to the arguments.  A double dash asks for arguments even if there
are none. -/
def setOptions : Nat → List Bytes → Run (Option (List Bytes))
  | 0, _ | _, [] => return none
  | fuel + 1, w :: rest =>
    match w with
    | ['-', '-'] => return some rest
    | ['-'] => do
      switch false 'x'
      switch false 'v'
      return if rest.isEmpty then none else some rest
    | ['-', 'o'] | ['+', 'o'] => do
      let on := w == ['-', 'o']
      match rest with
      | [] =>
        listOptions on
        return none
      | name :: rest =>
        match optionNames.find? fun o => o.1.toList == name with
        | some o =>
          switch on o.2
          setOptions fuel rest
        | none => failWith ("Illegal option -o ".toList ++ name)
    | '-' :: letters => do
      switchAll true letters
      setOptions fuel rest
    | '+' :: letters => do
      switchAll false letters
      setOptions fuel rest
    | w => return some (w :: rest)

def setShell (arguments : List Bytes) : Run Nat := do
  if arguments.isEmpty then listVariables [] fun v => v.value.isSome
  else
    match ← setOptions arguments.length arguments with
    | some words => modify fun m => { m with arguments := words }
    | none => pure ()
  return 0

def shift (arguments : List Bytes) : Run Nat := do
  let n ← match arguments with
    | [] => pure 1
    | a :: _ => count a
  let m ← get
  if m.arguments.length < n then failWith "can't shift that many".toList
  else
    set { m with arguments := m.arguments.drop n }
    return 0

/-! ## Values that calls put back -/

/-- Note the value that the innermost call has to put back. -/
def remember (name : Bytes) : Run Unit :=
  modify fun m =>
    match m.kept with
    | [] => m
    | frame :: frames =>
      if frame.any fun k => k.1 == name then m
      else { m with kept := ((name, findVariable m name) :: frame) :: frames }

/-- Put back what the innermost call has kept. -/
def putBack (m : Machine) : Machine :=
  match m.kept with
  | [] => m
  | frame :: frames =>
    let bindings := frame.foldl (fun (vs : List (Bytes × Variable)) k =>
      match k.2 with
      | none => vs.filter fun v => v.1 != k.1
      | some old =>
        if vs.any fun v => v.1 == k.1 then vs.map fun v => if v.1 == k.1 then (k.1, old) else v
        else vs ++ [(k.1, old)]) m.bindings
    { m with bindings, kept := frames }

/-- Do something, and put variables back that have been kept for it. -/
def keepingVariables {α : Type} (body : Run α) : Run α := do
  modify fun m => { m with kept := [] :: m.kept }
  keeping putBack body

def localAll : List Bytes → Run Nat
  | [] => return 0
  | a :: rest => do
    let (name, value) := cutAssignment a
    if !isName name then badName name
    remember name
    match value with
    | some value => assign name value
    | none => pure ()
    localAll rest

def localVariables (arguments : List Bytes) : Run Nat := do
  if (← get).depth = 0 then failWith "not in a function".toList
  else localAll arguments

/-! ## Input -/

/-- A line of input: its characters with a sign on those that a backslash protects,
the number of bytes that it takes, and whether its end has been seen. -/
def inputLine (raw : Bool) (read : List Mark) (used : Nat) : Bytes → List Mark × Nat × Bool
  | [] => (read.reverse, used, false)
  | '\n' :: _ => (read.reverse, used + 1, true)
  | '\\' :: cs =>
    if raw then inputLine raw (.char '\\' .value :: read) (used + 1) cs
    else
      match cs with
      | [] => (read.reverse, used + 1, false)
      | '\n' :: cs => inputLine raw read (used + 2) cs
      | c :: cs => inputLine raw (.char c .quoted :: read) (used + 2) cs
  | c :: cs =>
    if c.toNat = 0 then inputLine raw read (used + 1) cs
    else inputLine raw (.char c .value :: read) (used + 1) cs

/-- Cut a line into fields for some variables.  The last one takes all that is left
unless that is a single field. -/
def readFields (ifs : Bytes) : Nat → List Mark → List Bytes
  | 0, _ => []
  | n + 1, marks =>
    let marks := marks.dropWhile (isBlankSeparator ifs)
    if n = 0 then
      match fields ifs .inside [] marks with
      | [] => [[]]
      | [f] => [Mark.text f]
      | _ => [Mark.text (marks.reverse.dropWhile (isBlankSeparator ifs)).reverse]
    else
      let field := marks.takeWhile fun m => !isSeparator ifs m
      let rest := (marks.drop field.length).dropWhile (isBlankSeparator ifs)
      let rest := match rest with
        | m :: more => if isSeparator ifs m then more else rest
        | [] => []
      Mark.text field :: readFields ifs n rest

def assignAll : List (Bytes × Bytes) → Run Unit
  | [] => return ()
  | (name, value) :: rest => do
    if !isName name then badName name
    assign name value
    assignAll rest

def read (arguments : List Bytes) : Run Nat := do
  let (options, names) ← given "r" "p" arguments
  if names.isEmpty then failWith "arg count".toList
  let (input, more) := match ← available 0 with
    | .ok r => r
    | .error _ => ([], false)
  let (marks, used, ended) := inputLine (options.any fun o => o.1 == 'r') [] 0 input
  if !ended && more then throw .waiting
  consume 0 used
  let ifs := separators (← get)
  assignAll (names.zip (readFields ifs names.length marks))
  return if ended then 0 else 1

/-! ## Options of scripts -/

/-- Whether a letter is an option, and whether it takes a value. -/
def optionIn (letter : Char) : Bytes → Option Bool
  | [] => none
  | c :: ':' :: cs => if c = letter then some true else optionIn letter cs
  | c :: cs => if c = letter then some false else optionIn letter cs

def getopts (arguments : List Bytes) : Run Nat := do
  match arguments with
  | known :: name :: rest =>
    let m ← get
    let words := if rest.isEmpty then m.arguments else rest
    let index := match (findVariable m "OPTIND".toList).bind (·.value) with
      | some v => max 1 (v.foldl (fun n c => 10 * n + (c.toNat - 48)) 0)
      | none => 1
    let place := if m.optionPlace.1 = index then m.optionPlace.2 else 0
    let quiet := known.head? == some ':'
    let letters := if quiet then known.drop 1 else known
    let current := if place = 0 then [] else ((words[index - 2]?).getD []).drop place
    let finish (index place : Nat) (letter : Char) (value : Option Bytes) (status : Nat) :
        Run Nat := do
      match value with
      | some v => assign "OPTARG".toList v
      | none => modify fun m => { m with
          bindings := m.bindings.filter fun v => v.1 != "OPTARG".toList }
      assign "OPTIND".toList (Bytes.ofNat index)
      if !isName name then badName name
      assign name [letter]
      modify fun m => { m with optionPlace := (index, place) }
      return status
    let keep : Option Bytes := (findVariable m "OPTARG".toList).bind (·.value)
    let step (cs : Bytes) (index place : Nat) : Run Nat := do
      match cs with
      | [] => finish index 0 '?' keep 1
      | c :: cs =>
        let place := if cs.isEmpty then 0 else place + 1
        match optionIn c letters with
        | none =>
          if quiet then finish index place '?' (some [c]) 0
          else
            let _ ← write 2 (s!"Illegal option -{String.singleton c}\n".toList)
            finish index place '?' none 0
        | some false => finish index place c (some []) 0
        | some true =>
          if !cs.isEmpty then finish index 0 c (some cs) 0
          else
            match words[index - 1]? with
            | some v => finish (index + 1) 0 c (some v) 0
            | none =>
              if quiet then finish index 0 ':' (some [c]) 0
              else
                let _ ← write 2 (s!"No arg for -{String.singleton c} option\n".toList)
                finish index 0 '?' none 0
    if !current.isEmpty then step current index place
    else
      match words[index - 1]? with
      | some ['-', '-'] => finish (index + 1) 0 '?' keep 1
      | some ('-' :: c :: cs) => step (c :: cs) (index + 1) 1
      | _ => finish index 0 '?' keep 1
  | _ => failWith "Usage: getopts optstring var [arg]".toList

def variableBuiltins : List Builtin :=
  [⟨"export", true, true, fun _ _ => exportVariables⟩,
    ⟨"readonly", true, true, fun _ _ => readonly⟩, .ofSpecial "unset" unset,
    .ofSpecial "set" setShell, .ofSpecial "shift" shift,
    ⟨"local", true, true, fun _ _ => localVariables⟩, .ofRegular "read" read,
    .ofRegular "getopts" getopts]

end Run
end Shell
end CheckScript
