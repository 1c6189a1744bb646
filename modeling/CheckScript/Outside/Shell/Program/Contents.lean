/-
Programs that make files with a given content, cut content in parts, or tell about
files.
-/
import CheckScript.Outside.Shell.Program.FileWork

namespace CheckScript
namespace Shell
namespace Job

/-! ## truncate and dd -/

/-- Bytes with a size: cut, or with zeros behind. -/
def resized (size : Nat) (b : Bytes) : Bytes :=
  b.take size ++ List.replicate (size - b.length) '\x00'

def truncate : Job Unit := do
  let g ← given 1 "co" "sr" [("size", 's'), ("no-create", 'c'), ("reference", 'r')]
  let text ← match g.value? 's' with
    | some s => pure s
    | none => usage 1 "you must specify either '--size' or '--reference'".toList
  if g.operands.isEmpty then usage 1 "missing file operand".toList
  let (sign, digits) := match text with
    | '+' :: rest => (some '+', rest)
    | '-' :: rest => (some '-', rest)
    | rest => (none, rest)
  match sized? digits with
  | none => giveUp 1 ("Invalid number: ".toList ++ Quoting.always text)
  | some n =>
    g.operands |> eachOf fun name => do
      let old := (← readFile name).toOption.getD []
      if g.has 'c' && !(← holds name) then return ()
      let size := match sign with
        | some '+' => old.length + n
        | some _ => old.length - n
        | none => n
      match ← writeFile name (resized size old) with
      | .ok _ => return ()
      | .error reason =>
        warn 1 ("cannot open ".toList ++ Quoting.always name ++ " for writing: ".toList ++
          reason.toList)

/-- The value of an operand with a name. -/
def operand? (name : String) (words : List Bytes) : Option Bytes :=
  (words.reverse.find? fun w => (name.toList ++ ['=']).isPrefixOf w).map
    (·.drop (name.length + 1))

def dd : Job Unit := do
  let words := (← get).arguments
  let number (name : String) (usual : Nat) : Nat :=
    (((operand? name words).bind sized?)).getD usual
  let source := operand? "if" words
  let input ← match source with
    | some name => readFile name
    | none => readAll
  match input with
  | .error reason =>
    giveUp 1 ("failed to open ".toList ++ Quoting.always (source.getD []) ++ ": ".toList ++
      reason.toList)
  | .ok b =>
    let unit := max 1 (number "bs" 512)
    let start := b.drop (unit * number "skip" 0)
    let part := match operand? "count" words with
      | some _ => start.take (unit * number "count" 0)
      | none => start
    match operand? "of" words with
    | none => print part
    | some name =>
      match ← writeFile name part with
      | .ok _ => pure ()
      | .error reason =>
        giveUp 1 ("failed to open ".toList ++ Quoting.always name ++ ": ".toList ++ reason.toList)
    if operand? "status" words != some "none".toList then
      let records := Bytes.ofNat (part.length / unit) ++ '+' ::
        Bytes.ofNat (if part.length % unit = 0 then 0 else 1)
      complain (records ++ " records in".toList)
      complain (records ++ " records out".toList)
      complain (Bytes.ofNat part.length ++ " bytes copied, 0 s, Infinity B/s".toList)

/-! ## split -/

/-- The name of a part by its number, in two letters. -/
def partName (start : Bytes) (n : Nat) : Bytes :=
  start ++ [Char.ofNat (97 + n / 26 % 26), Char.ofNat (97 + n % 26)]

def inGroups {α : Type} (size : Nat) : Nat → List α → List (List α)
  | 0, _ | _, [] => []
  | fuel + 1, l => l.take size :: inGroups size fuel (l.drop size)

def split : Job Unit := do
  let g ← given 1 "d" "lba" [("lines", 'l'), ("bytes", 'b')]
  let name := g.operands.head?.getD ['-']
  let start := g.operands[1]?.getD ['x']
  match ← readOperand name with
  | .error reason =>
    giveUp 1 ("cannot open ".toList ++ Quoting.always name ++ " for reading: ".toList ++
      reason.toList)
  | .ok b =>
    let parts := match (g.value? 'b').bind sized? with
      | some n => inGroups (max n 1) b.length b
      | none =>
        let lines := fullLines b
        (inGroups (max 1 (((g.value? 'l').bind natural?).getD 1000)) lines.length lines).map
          List.flatten
    parts.zipIdx |> eachOf fun p => do
      let _ ← writeFile (partName start p.2) p.1

/-! ## mktemp, unlink and stat -/

/-- The letters that stand in for the signs at the end of a template. -/
def filledIn (template : Bytes) : Bytes :=
  let signs := template.reverse.takeWhile (· == 'X')
  template.take (template.length - signs.length) ++
    ("3kTq9ZbW0c".toList.take signs.length) ++ List.replicate (signs.length - 10) 'a'

def mktemp : Job Unit := do
  let g ← given 1 "dqut" "p" [("directory", 'd'), ("quiet", 'q'), ("dry-run", 'u'), ("tmpdir", 'p')]
  let template := g.operands.head?.getD "tmp.XXXXXXXXXX".toList
  if !("XXX".toList.isSuffixOf template) then
    giveUp 1 ("too few X's in template ".toList ++ Quoting.always template)
  let name := filledIn template
  let path := if g.operands.isEmpty || g.has 'p' || g.has 't' then
      below ((g.value? 'p').getD "/tmp".toList) name
    else name
  let f ← files
  let made := if g.has 'd' then f.makeDirectories (pathOf path)
    else f.write (pathOf path) ByteArray.empty
  match made with
  | .ok f =>
    if !g.has 'u' then setFiles f
    printLine path
  | .error fault =>
    giveUp 1 ((if g.has 'd' then "failed to create directory via template "
      else "failed to create file via template ").toList ++ Quoting.always template ++
      ": ".toList ++ fault.reason.toList)

def unlink : Job Unit := do
  let g ← given 1 "" "" []
  match g.operands with
  | [] => usage 1 "missing operand".toList
  | _ :: extra :: _ => usage 1 ("extra operand ".toList ++ Quoting.always extra)
  | [name] =>
    match (← files).removeFile (pathOf name) with
    | .ok f => setFiles f
    | .error fault =>
      giveUp 1 ("cannot unlink ".toList ++ Quoting.always name ++ ": ".toList ++
        fault.reason.toList)

/-- What a letter of a format tells about a file. -/
def statText (name : Bytes) (node : FileNode) (letter : Char) : Bytes :=
  match letter, node with
  | 'n', _ => name
  | 'N', _ => Quoting.always name
  | 's', .file bytes => Bytes.ofNat bytes.size
  | 's', .directory _ => "4096".toList
  | 'F', node => (kindText node).toList
  | 'a', .file _ => "644".toList
  | 'a', .directory _ => "755".toList
  | 'A', .file _ => "-rw-r--r--".toList
  | 'A', .directory _ => "drwxr-xr-x".toList
  | 'U', _ | 'G', _ => "root".toList
  | 'u', _ | 'g', _ => ['0']
  | 'h', _ => ['1']
  | '%', _ => ['%']
  | _, _ => ['?']

def statLine (name : Bytes) (node : FileNode) : Bytes → Bytes
  | '%' :: c :: rest => statText name node c ++ statLine name node rest
  | c :: rest => c :: statLine name node rest
  | [] => []

def stat : Job Unit := do
  let g ← given 1 "Lft" "c" [("format", 'c'), ("dereference", 'L')]
  if g.operands.isEmpty then usage 1 "missing operand".toList
  g.operands |> eachOf fun name => do
    match (← files).find (pathOf name) with
    | .ok node =>
      printLine (statLine name node ((g.value? 'c').getD "  File: %n".toList))
    | .error fault => refuse "cannot statx" name fault

end Job
end Shell
end CheckScript
