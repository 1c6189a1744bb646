/-
Programs that make, move and remove files.
-/
import CheckScript.Outside.Shell.Pattern
import CheckScript.Outside.Shell.Program.Text

namespace CheckScript
namespace Shell
namespace Job

def pathOf (name : Bytes) : Path := ⟨Bytes.text name⟩

def files : Job Files := return (← get).files

def setFiles (f : Files) : Job Unit := modify fun d => { d with files := f }

/-- Complain about a file by what was not possible. -/
def refuse (what : String) (name : Bytes) (fault : FileFault) : Job Unit :=
  warn 1 (what.toList ++ [' '] ++ Quoting.always name ++ ": ".toList ++ fault.reason.toList)

/-- The last component of a name, for use below another directory. -/
def lastName (name : Bytes) : Bytes :=
  let back := name.reverse.dropWhile (· == '/')
  if back.isEmpty then name.take 1 else (back.takeWhile (· != '/')).reverse

/-- The path of a name below a directory. -/
def below (directory name : Bytes) : Bytes :=
  if directory.getLast? = some '/' then directory ++ name else directory ++ '/' :: name

def isDirectory (name : Bytes) : Job Bool := return (← files).isDirectory (pathOf name)

def holds (name : Bytes) : Job Bool := return isEmptyDevice name || (← files).holds (pathOf name)

def samePlace (f : Files) (a b : Bytes) : Bool :=
  match f.locate (pathOf a), f.locate (pathOf b) with
  | .ok p, .ok q => p == q
  | _, _ => false

/-! ## Operands with a target -/

/-- The sources and the target of a program that copies, moves or links.  The
target is a directory if there are several sources. -/
structure Transfer where
  sources : List Bytes
  target : Bytes
  into : Bool

def hint : Job Unit := do
  complain ("Try '".toList ++ (← get).name ++ " --help' for more information.".toList)

def targetFault (name : Bytes) : Job FileFault := do
  match (← files).find (pathOf name) with
  | .error fault => return fault
  | .ok _ => return .notDirectory

def transfer (g : Given) : Job Transfer := do
  match g.value? 't', g.operands.reverse with
  | some directory, sources =>
    if sources.isEmpty then usage 1 "missing file operand".toList
    else if ← isDirectory directory then return ⟨sources.reverse, directory, true⟩
    else
      giveUp 1 ("target directory ".toList ++ Quoting.always directory ++ ": ".toList ++
        (← targetFault directory).reason.toList)
  | none, [] => usage 1 "missing file operand".toList
  | none, [one] =>
    usage 1 ("missing destination file operand after ".toList ++ Quoting.always one)
  | none, target :: sources =>
    let into ← if g.has 'T' then pure false else isDirectory target
    if !into && 1 < sources.length then
      giveUp 1 ("target ".toList ++ Quoting.always target ++ ": ".toList ++
        (← targetFault target).reason.toList)
    else return ⟨sources.reverse, target, into⟩

/-- Where a source goes. -/
def Transfer.destination (t : Transfer) (source : Bytes) : Bytes :=
  if t.into then below t.target (lastName source) else t.target

def arrow (a b : Bytes) : Bytes := Quoting.always a ++ " -> ".toList ++ Quoting.always b

/-! ## cp, mv, ln and install -/

/-- Whether a path lies in another or is it. -/
def liesIn (inner outer : List String) : Bool := outer.isPrefixOf inner

/-- One tree put over another: directories are merged, and files replaced. -/
def overlay : Nat → FileNode → Option FileNode → FileNode
  | fuel + 1, .directory new, some (.directory old) =>
    .directory (new.foldl (fun entries e =>
      FileNode.update e.1 (some (overlay fuel e.2 (FileNode.lookup e.1 entries))) entries) old)
  | _, node, _ => node

/-- The greatest depth of directories below a place. -/
def maxDepth : Nat := 1000

def keepsOld (g : Given) : Bool :=
  match g.options.reverse.find? fun o => o.1 == 'n' || o.1 == 'f' || o.1 == 'i' with
  | some o => o.1 == 'n'
  | none => false

def copyOne (g : Given) (t : Transfer) (source : Bytes) : Job Unit := do
  let recursive := g.has 'r' || g.has 'R' || g.has 'a'
  let target := t.destination source
  let f ← files
  let content ← if isEmptyDevice source then pure (.ok (.file ByteArray.empty))
    else pure (f.find (pathOf source))
  let cannotStat (name : Bytes) (fault : FileFault) : Job Unit := refuse "cannot stat" name fault
  match content, f.locate (pathOf target) with
  | .error fault, _ => cannotStat source fault
  | .ok node, place =>
    if node.isDirectory && !recursive then
      warn 1 ("-r not specified; omitting directory ".toList ++ Quoting.always source)
    else
      let bare := (target.reverse.dropWhile (· == '/')).reverse
      let isNewDirectory := !node.isDirectory && target.getLast? = some '/' &&
        (f.locate (pathOf bare)).toOption.any fun p => (f.get? p).isNone
      match (if isNewDirectory then .error FileFault.notDirectory else place) with
      | .error .notDirectory =>
        if isNewDirectory then refuse "cannot create regular file" target .notDirectory
        else cannotStat target .notDirectory
      | .error .notFound =>
        refuse (if node.isDirectory then "cannot create directory"
          else "cannot create regular file") target .notFound
      | .error fault => cannotStat target fault
      | .ok place =>
        let old := f.get? place
        if samePlace f source target && !isEmptyDevice source then
          warn 1 (Quoting.always source ++ " and ".toList ++ Quoting.always target ++
            " are the same file".toList)
        else if keepsOld g && old.isSome then return ()
        else if old.any (·.isDirectory) && !node.isDirectory then
          warn 1 ("cannot overwrite directory ".toList ++ Quoting.always target ++
            " with non-directory".toList)
        else if old.any (! ·.isDirectory) && node.isDirectory then
          warn 1 ("cannot overwrite non-directory ".toList ++ Quoting.always target ++
            " with directory ".toList ++ Quoting.always source)
        else if node.isDirectory &&
            (f.locate (pathOf source)).toOption.any (liesIn place ·) then
          warn 1 ("cannot copy a directory, ".toList ++ Quoting.always source ++
            ", into itself, ".toList ++ Quoting.always target)
        else
          if !isEmptyDevice target then
            setFiles (f.set place (some (overlay maxDepth node old)))
            let runnable := (← get).runnable
            if (f.locate (pathOf source)).toOption.any runnable.contains then
              modify fun d => { d with runnable := place :: d.runnable }
          if g.has 'v' then printLine (arrow source target)

def cp : Job Unit := do
  let g ← given 1 "abdfHilLnpPrRsTuvx" "tS" [("recursive", 'r'), ("force", 'f'), ("archive", 'a'),
    ("verbose", 'v'), ("no-clobber", 'n'), ("target-directory", 't'), ("preserve", 'p'),
    ("no-target-directory", 'T'), ("update", 'u')]
  let t ← transfer g
  t.sources |> eachOf (copyOne g t)

def moveOne (g : Given) (t : Transfer) (source : Bytes) : Job Unit := do
  let target := t.destination source
  let f ← files
  match f.find (pathOf source), f.locate (pathOf source), f.locate (pathOf target) with
  | .error fault, _, _ | _, .error fault, _ => refuse "cannot stat" source fault
  | .ok node, .ok place, .ok new =>
    let old := f.get? new
    if place == new then
      warn 1 (Quoting.always source ++ " and ".toList ++ Quoting.always target ++
        " are the same file".toList)
    else if keepsOld g && old.isSome then return ()
    else if old.any (·.isDirectory) && !node.isDirectory then
      warn 1 ("cannot overwrite directory ".toList ++ Quoting.always target ++
        " with non-directory".toList)
    else if old.any (! ·.isDirectory) && node.isDirectory then
      warn 1 ("cannot overwrite non-directory ".toList ++ Quoting.always target ++
        " with directory ".toList ++ Quoting.always source)
    else if node.isDirectory && liesIn new place then
      warn 1 ("cannot move ".toList ++ Quoting.always source ++
        " to a subdirectory of itself, ".toList ++ Quoting.always target)
    else
      match old with
      | some (.directory (_ :: _)) =>
        warn 1 ("cannot overwrite ".toList ++ Quoting.always target ++
          ": Directory not empty".toList)
        return ()
      | _ => setFiles ((f.set place none).set new (some node))
      if (← get).runnable.contains place then
        modify fun d => { d with runnable := new :: d.runnable }
      if g.has 'v' then printLine ("renamed ".toList ++ arrow source target)
  | .ok _, .ok _, .error fault =>
    warn 1 ("cannot move ".toList ++ Quoting.always source ++ " to ".toList ++
      Quoting.always target ++ ": ".toList ++ fault.reason.toList)

def mv : Job Unit := do
  let g ← given 1 "bfinTuvZ" "tS" [("force", 'f'), ("verbose", 'v'), ("no-clobber", 'n'),
    ("target-directory", 't'), ("no-target-directory", 'T'), ("update", 'u')]
  let t ← transfer g
  t.sources |> eachOf (moveOne g t)

/-- A link is kept as a copy of what it leads to; one that leads nowhere is not
kept at all. -/
def linkOne (g : Given) (t : Transfer) (source : Bytes) : Job Unit := do
  let target := t.destination source
  let symbolic := g.has 's'
  let what := if symbolic then "failed to create symbolic link" else "failed to create hard link"
  let f ← files
  let lead := if symbolic then (pathOf target).above.join (pathOf source) else pathOf source
  match f.find lead, f.locate (pathOf target) with
  | .error fault, place =>
    if !symbolic then refuse "failed to access" source fault
    else
      match place with
      | .error fault => refuse what target fault
      | .ok _ => return ()
  | .ok _, .error fault => refuse what target fault
  | .ok node, .ok place =>
    if node.isDirectory && !symbolic then
      warn 1 (Quoting.ifNeeded source ++ ": hard link not allowed for directory".toList)
    else if (f.get? place).isSome && !g.has 'f' then refuse what target .alreadyExists
    else
      setFiles (f.set place (some node))
      if g.has 'v' then printLine (arrow target source)

def ln : Job Unit := do
  let g ← given 1 "bdfFiLnPrsTv" "tS" [("symbolic", 's'), ("force", 'f'), ("verbose", 'v'),
    ("target-directory", 't'), ("no-target-directory", 'T'), ("no-dereference", 'n'),
    ("relative", 'r')]
  let t ← match g.value? 't', g.operands with
    | none, [one] => pure ⟨[one], ['.'], true⟩
    | none, [] => usage 1 "missing file operand".toList
    | _, _ => transfer g
  t.sources |> eachOf (linkOne g t)

/-! ## Directories -/

def tellMade (g : Given) (name : Bytes) : Job Unit := do
  if g.has 'v' then printLine ("mkdir: created directory ".toList ++ Quoting.always name)

/-- The fronts of a path that end before a slash, and the path. -/
def fronts (name : Bytes) : List Bytes :=
  (((List.range name.length).filter fun n =>
    0 < n && name[n]? == some '/' && name[n - 1]? != some '/').map name.take) ++ [name]

/-- Make directories along a path, as far as they are missing. -/
def makeEach (g : Given) : List Bytes → Job Unit
  | [] => return ()
  | name :: names => do
    let f ← files
    match f.find (pathOf name), f.locate (pathOf name) with
    | .ok (.directory _), _ => makeEach g names
    | .ok (.file _), _ =>
      refuse "cannot create directory" name
        (if names.isEmpty then .alreadyExists else .notDirectory)
    | .error _, .error fault => refuse "cannot create directory" name fault
    | .error _, .ok place =>
      setFiles (f.set place (some .empty))
      tellMade g name
      makeEach g names

def makeOne (g : Given) (name : Bytes) : Job Unit := do
  let f ← files
  match f.locate (pathOf name) with
  | .error fault => refuse "cannot create directory" name fault
  | .ok place =>
    if (f.get? place).isSome then refuse "cannot create directory" name .alreadyExists
    else
      setFiles (f.set place (some .empty))
      tellMade g name

def mkdir : Job Unit := do
  let g ← given 1 "pvZ" "m" [("parents", 'p'), ("verbose", 'v'), ("mode", 'm')]
  if g.operands.isEmpty then usage 1 "missing operand".toList
  g.operands |> eachOf fun name =>
    if g.has 'p' && !name.isEmpty then makeEach g (fronts name) else makeOne g name

/-- Remove a directory without anything in it.  The answer is whether that was
possible. -/
def removeEmpty (g : Given) (isParent : Bool) (name : Bytes) : Job Bool := do
  let f ← files
  if g.has 'v' then printLine ("rmdir: removing directory, ".toList ++ Quoting.always name)
  let what := if isParent then "failed to remove directory" else "failed to remove"
  match f.find (pathOf name), f.locate (pathOf name) with
  | .error fault, _ | _, .error fault =>
    refuse what name fault
    return false
  | .ok (.file _), _ =>
    refuse what name .notDirectory
    return false
  | .ok (.directory entries), .ok place =>
    if entries.isEmpty then
      setFiles (f.set place none)
      return true
    else
      warn 1 (what.toList ++ ' ' :: Quoting.always name ++ ": Directory not empty".toList)
      return false

def removeParents (g : Given) : List Bytes → Job Unit
  | [] => return ()
  | name :: names => do
    if ← removeEmpty g true name then removeParents g names

def rmdir : Job Unit := do
  let g ← given 1 "pv" "" [("parents", 'p'), ("verbose", 'v'), ("ignore-fail-on-non-empty", 'i')]
  if g.operands.isEmpty then usage 1 "missing operand".toList
  g.operands |> eachOf fun name => do
    if (← removeEmpty g false name) && g.has 'p' then
      removeParents g (fronts name).dropLast.reverse

/-- What is removed with a tree, the inner parts first. -/
def removalNotes : Nat → Bytes → FileNode → List Bytes
  | fuel + 1, path, .directory entries =>
    entries.flatMap (fun e => removalNotes fuel (below path (Bytes.ofText e.1)) e.2) ++
      ["removed directory ".toList ++ Quoting.always path]
  | _, path, _ => ["removed ".toList ++ Quoting.always path]

/-- What a question about a removal calls the thing. -/
def kindText : FileNode → String
  | .directory _ => "directory"
  | .file bytes => if bytes.isEmpty then "regular empty file" else "regular file"

/-- Ask a question that a line of the input answers. -/
def consent (question : Bytes) : Job Bool := do
  modify fun d => { d with written := (2, question) :: d.written }
  match (← get).input with
  | .error _ => return false
  | .ok b =>
    let line := b.takeWhile (· != '\n')
    let used := min b.length (line.length + 1)
    modify fun d => { d with used := d.used + used, input := .ok (b.drop used) }
    return line.head? == some 'y' || line.head? == some 'Y'

def removeOne (g : Given) (name : Bytes) : Job Unit := do
  let f ← files
  let recursive := g.has 'r' || g.has 'R'
  match f.find (pathOf name), f.locate (pathOf name) with
  | .error fault, _ | _, .error fault =>
    if !(g.has 'f' && (fault == .notFound || fault == .notDirectory)) then
      refuse "cannot remove" name fault
  | .ok node, .ok place =>
    let last := lastName name
    if node.isDirectory && !recursive && !g.has 'd' then refuse "cannot remove" name .isDirectory
    else if node.isDirectory && place.isEmpty && recursive then
      warn 1 "it is dangerous to operate recursively on '/'".toList
      warn 1 "use --no-preserve-root to override this failsafe".toList
    else if node.isDirectory && (last == ['.'] || last == ['.', '.']) then
      warn 1 ("refusing to remove '.' or '..' directory: skipping ".toList ++ Quoting.always name)
    else
      match node, recursive with
      | .directory (_ :: _), false =>
        warn 1 ("cannot remove ".toList ++ Quoting.always name ++ ": Directory not empty".toList)
      | node, _ =>
        let asking := (g.options.filter fun o => o.1 == 'i' || o.1 == 'f').getLast?
        let asks := asking.map (·.1) == some 'i'
        let question := (← get).name ++ s!": remove {kindText node} ".toList ++
          Quoting.always name ++ "? ".toList
        if asks then
          if !(← consent question) then return ()
        setFiles (f.set place none)
        if g.has 'v' then removalNotes maxDepth name node |> eachOf printLine

def rm : Job Unit := do
  let g ← given 1 "dfiIrRv" "" [("recursive", 'r'), ("force", 'f'), ("verbose", 'v'), ("dir", 'd')]
  if g.operands.isEmpty && !g.has 'f' then usage 1 "missing operand".toList
  g.operands |> eachOf (removeOne g)

def touchOne (g : Given) (name : Bytes) : Job Unit := do
  if (← holds name) || g.has 'c' then return ()
  else
    match (← files).write (pathOf name) ByteArray.empty with
    | .ok f => setFiles f
    | .error fault => refuse "cannot touch" name fault

def touch : Job Unit := do
  let g ← given 1 "acfhm" "drt" [("no-create", 'c'), ("date", 'd'), ("reference", 'r')]
  if g.operands.isEmpty then usage 1 "missing file operand".toList
  g.operands |> eachOf (touchOne g)

/-! ## ls -/

/-- The names in a directory as they are listed. -/
def listed (g : Given) (entries : List (String × FileNode)) : List (Bytes × Bool) :=
  let isHidden (name : Bytes) : Bool :=
    (g.values 'I').any fun p => (Pattern.ofChars (p.map fun c => (c, false))).fits name
  let size : FileNode → Nat
    | .file bytes => bytes.size
    | .directory _ => 4096
  let entries := entries.filter fun e => !isHidden (Bytes.ofText e.1)
  let bySize := if g.has 'S' then entries.mergeSort fun a b =>
      size b.2 < size a.2 ||
        size a.2 == size b.2 && Bytes.noLater (Bytes.ofText a.1) (Bytes.ofText b.1)
    else entries
  let all := bySize.map fun e => (Bytes.ofText e.1, e.2.isDirectory)
  let dots := if g.has 'a' then [(['.'], true), (['.', '.'], true)] else []
  let shown := dots ++ all.filter fun e => g.has 'a' || g.has 'A' || e.1.head? != some '.'
  let sorted := if g.has 'S' || g.has 'U' then shown
    else shown.mergeSort fun a b => Bytes.noLater a.1 b.1
  if g.has 'r' then sorted.reverse else sorted

/-- Names as they are listed: one a line, or all in one. -/
def listLines (g : Given) (es : List (Bytes × Bool)) : Bytes :=
  let quoted (b : Bytes) : Bytes := if g.has 'Q' then '"' :: b ++ ['"'] else b
  let shown := es.map fun e =>
    quoted e.1 ++ (if (g.has 'p' || g.has 'F') && e.2 then ['/'] else [])
  let line (between : String) : Bytes :=
    if shown.isEmpty then [] else Bytes.join between.toList shown ++ ['\n']
  match g.options.reverse.find? fun o => "1mxC".toList.contains o.1 with
  | some ('m', _) => line ", "
  | some ('x', _) | some ('C', _) => line "  "
  | _ => shown.flatMap (· ++ ['\n'])

/-- The directories below one, with their paths, each before those below it. -/
def directoriesBelow (g : Given) : Nat → Bytes → FileNode → List (Bytes × List (String × FileNode))
  | fuel + 1, path, .directory entries =>
    let inner := (listed g entries).flatMap fun e =>
      if e.2 && e.1 != ['.'] && e.1 != ['.', '.'] then
        match FileNode.lookup (Bytes.text e.1) entries with
        | some node => directoriesBelow g fuel (below path e.1) node
        | none => []
      else []
    (path, entries) :: inner
  | _, _, _ => []

/-- What has been found at the operands: names of files, and directories. -/
def lsFind (g : Given) (names : List Bytes) (found : List (Bytes × FileNode)) :
    Job (List (Bytes × FileNode)) := do
  match names with
  | [] => return found.reverse
  | name :: names =>
    if isEmptyDevice name then lsFind g names ((name, .file ByteArray.empty) :: found)
    else
      match (← files).find (pathOf name) with
      | .ok node => lsFind g names ((name, node) :: found)
      | .error fault =>
        warn 2 ("cannot access ".toList ++ Quoting.always name ++ ": ".toList ++
          fault.reason.toList)
        lsFind g names found

def lsDirectories (g : Given) (titled isFirst : Bool) :
    List (Bytes × List (String × FileNode)) → Job Unit
  | [] => return ()
  | (path, entries) :: rest => do
    if titled then print ((if isFirst then [] else ['\n']) ++ path ++ [':', '\n'])
    print (listLines g (listed g entries))
    lsDirectories g titled false rest

/-- Words about colours, which are never shown. -/
def isColour (w : Bytes) : Bool := "--color".toList.isPrefixOf w

def ls : Job Unit := do
  modify fun d => { d with arguments := d.arguments.filter (! isColour ·) }
  let g ← given 2 "aAbBcCdfFgGhHiklLmnNopqQrRsStuUvxXZ1" "ITw" [("all", 'a'), ("almost-all", 'A'),
    ("directory", 'd'), ("recursive", 'R'), ("reverse", 'r'), ("classify", 'F'),
    ("ignore", 'I'), ("hide", 'I')]
  let names := if g.operands.isEmpty then [['.']] else g.operands
  let found ← lsFind g names []
  let sorted := found.mergeSort fun a b => Bytes.noLater a.1 b.1
  let sorted := if g.has 'r' then sorted.reverse else sorted
  let isFile (e : Bytes × FileNode) : Bool := g.has 'd' || !e.2.isDirectory
  let plain := sorted.filter isFile
  print (listLines g (plain.map fun e => (e.1, e.2.isDirectory)))
  let directories := (sorted.filter fun e => !isFile e).flatMap fun e =>
    if g.has 'R' then directoriesBelow g maxDepth e.1 e.2
    else match e.2 with
      | .directory entries => [(e.1, entries)]
      | .file _ => []
  lsDirectories g (1 < names.length || g.has 'R') plain.isEmpty directories

/-! ## chmod -/

/-- Whether a mode lets a file be run; `none` if it does not say so. -/
def letsRun? (mode : Bytes) : Option Bool :=
  if mode.all isDigit then
    some (mode.any fun c => (c.toNat - 48) % 2 = 1)
  else if !mode.contains 'x' then none
  else some (!mode.contains '-')

def chmodOne (mode name : Bytes) : Job Unit := do
  let f ← files
  match f.find (pathOf name), f.locate (pathOf name) with
  | .error fault, _ | _, .error fault => refuse "cannot access" name fault
  | .ok _, .ok place =>
    match letsRun? mode with
    | some true => modify fun d => { d with runnable := place :: d.runnable }
    | some false => modify fun d => { d with runnable := d.runnable.filter (· != place) }
    | none => return ()

/-- Whether a text is one change of permissions: for whom, and what. -/
def isChange (b : Bytes) : Bool :=
  let rest := b.dropWhile fun c => "ugoa".toList.contains c
  match rest with
  | c :: letters => "+-=".toList.contains c &&
      letters.all fun c => "rwxXstugo+-=".toList.contains c
  | [] => false

def isMode (b : Bytes) : Bool :=
  (!b.isEmpty && b.length ≤ 5 && b.all fun c => '0' ≤ c && c ≤ '7') ||
    (Text.cut ',' b).all isChange

def chmod : Job Unit := do
  let args := (← get).arguments
  match args.filter fun a => a.head? != some '-' || isMode a && a != ['-', 'R'] with
  | [] => usage 1 "missing operand".toList
  | [mode] => usage 1 ("missing operand after ".toList ++ Quoting.always mode)
  | mode :: names =>
    if isMode mode then
      names |> eachOf (chmodOne mode)
    else usage 1 ("invalid mode: ".toList ++ Quoting.always mode)

end Job
end Shell
end CheckScript
