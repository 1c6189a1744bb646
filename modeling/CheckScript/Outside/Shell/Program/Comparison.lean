/-
Programs that compare files.
-/
import CheckScript.Outside.Shell.Program.Text

namespace CheckScript
namespace Shell
namespace Job

def missingOperand (g : Given) : Job Unit := do
  let me := (← get).name
  let what := match g.operands.getLast? with
    | some last => "missing operand after ".toList ++ Quoting.always last
    | none => "missing operand after ".toList ++ Quoting.always me
  complain (me ++ ": ".toList ++ what)
  complain (me ++ ": Try '".toList ++ me ++ " --help' for more information.".toList)
  quit 2

def readCompared (name : Bytes) : Job Bytes := do
  match ← readOperand name with
  | .ok b => return b
  | .error reason => giveUp 2 (name ++ ": ".toList ++ reason.toList)

/-- The number of bytes at the start that agree. -/
def agreement : Bytes → Bytes → Nat
  | a :: as, b :: bs => if a = b then agreement as bs + 1 else 0
  | _, _ => 0

def cmp : Job Unit := do
  let g ← given 2 "sbl" "n" [("silent", 's'), ("quiet", 's')]
  let (left, right) ← match g.operands with
    | [] =>
      missingOperand g
      pure ([], [])
    | [a] => pure (a, ['-'])
    | a :: b :: _ => pure (a, b)
  let a ← readCompared left
  let b ← readCompared right
  let n := agreement a b
  let line := (a.take n).count '\n'
  if n = a.length ∧ n = b.length then return ()
  else if g.has 's' then quit 1
  else if n < a.length ∧ n < b.length then
    printLine (left ++ ' ' :: right ++ s!" differ: char {n + 1}, line {line + 1}".toList)
    quit 1
  else
    let short := if n = a.length then left else right
    let place :=
      if n = 0 then " which is empty".toList
      else if (a.take n).getLast? = some '\n' then s!" after byte {n}, line {line}".toList
      else s!" after byte {n}, in line {line + 1}".toList
    complain ("cmp: EOF on ".toList ++ short ++ place)
    quit 1

/-- The length of the longest texts that two lists of lines share in order, for all
ends of the second one. -/
def sharedRow (a : Bytes) (bs : List Bytes) (below : List Nat) : List Nat :=
  match bs, below with
  | b :: bs, n :: below =>
    let row := sharedRow a bs below
    let diagonal := below.head?.getD 0
    (if a == b then diagonal + 1 else max n (row.head?.getD 0)) :: row
  | _, _ => [0]

def sharedRows (bs : List Bytes) : List Bytes → List (List Nat)
  | [] => [List.replicate (bs.length + 1) 0]
  | a :: as =>
    let rows := sharedRows bs as
    sharedRow a bs (rows.head?.getD []) :: rows

/-- A run of lines that are replaced, by the numbers before them. -/
structure Hunk where
  left : Nat
  right : Nat
  old : List Bytes
  new : List Bytes

/-- Whether lines are the same, or else taken from the left or the right, whichever
leaves more to share. -/
def editRuns (i j : Nat) (current : Option Hunk) :
    List Bytes → List Bytes → List (List Nat) → Nat → List Hunk
  | _, _, _, 0 => current.toList
  | [], [], _, _ => current.toList
  | a :: as, [], rows, fuel + 1 =>
    let h := current.getD ⟨i, j, [], []⟩
    editRuns (i + 1) j (some { h with old := h.old ++ [a] }) as [] (rows.drop 1) fuel
  | [], b :: bs, rows, fuel + 1 =>
    let h := current.getD ⟨i, j, [], []⟩
    editRuns i (j + 1) (some { h with new := h.new ++ [b] }) [] bs rows fuel
  | a :: as, b :: bs, rows, fuel + 1 =>
    if a == b then
      current.toList ++
        editRuns (i + 1) (j + 1) none as bs (rows.drop 1 |>.map (·.drop 1)) fuel
    else
      let below := ((rows[1]?.getD [])[0]?).getD 0
      let beside := ((rows[0]?.getD [])[1]?).getD 0
      let h := current.getD ⟨i, j, [], []⟩
      if beside ≤ below then
        editRuns (i + 1) j (some { h with old := h.old ++ [a] }) as (b :: bs) (rows.drop 1) fuel
      else
        editRuns i (j + 1) (some { h with new := h.new ++ [b] }) (a :: as) bs
          (rows.map (·.drop 1)) fuel

/-- Line numbers as a range. -/
def lineRange (before count : Nat) : Bytes :=
  if count = 0 then Bytes.ofNat before
  else if count = 1 then Bytes.ofNat (before + 1)
  else Bytes.ofNat (before + 1) ++ ',' :: Bytes.ofNat (before + count)

def signed (sign : String) (l : Bytes) : Bytes :=
  sign.toList ++ l ++ (if l.getLast? = some '\n' then [] else
    "\n\\ No newline at end of file\n".toList)

def hunkText (h : Hunk) : Bytes :=
  let letter := if h.old.isEmpty then 'a' else if h.new.isEmpty then 'd' else 'c'
  lineRange h.left h.old.length ++ letter :: lineRange h.right h.new.length ++ ['\n'] ++
    h.old.flatMap (signed "< ") ++
    (if h.old.isEmpty || h.new.isEmpty then [] else "---\n".toList) ++
    h.new.flatMap (signed "> ")

/-! ## Changes with their surroundings -/

/-- Changes that are shown together: no more than twice the surroundings lie between
them. -/
def hunkGroups (context : Nat) : List Hunk → List (List Hunk)
  | [] => []
  | h :: hs =>
    match hunkGroups context hs with
    | (next :: group) :: groups =>
      if next.left ≤ h.left + h.old.length + 2 * context then (h :: next :: group) :: groups
      else [h] :: (next :: group) :: groups
    | groups => [h] :: groups

/-- A range of lines: the first one, and how many unless it is one. -/
def countedRange (before count : Nat) : Bytes :=
  if count = 0 then Bytes.ofNat before ++ [',', '0']
  else if count = 1 then Bytes.ofNat (before + 1)
  else Bytes.ofNat (before + 1) ++ ',' :: Bytes.ofNat count

/-- The lines of a group from a place on: those that stay, and the changes. -/
def groupLines (as : List Bytes) (place stop : Nat) : List Hunk → Bytes
  | [] => ((as.drop place).take (stop - place)).flatMap (signed " ")
  | h :: hs =>
    ((as.drop place).take (h.left - place)).flatMap (signed " ") ++ h.old.flatMap (signed "-") ++
      h.new.flatMap (signed "+") ++ groupLines as (h.left + h.old.length) stop hs

def groupText (context : Nat) (as : List Bytes) (group : List Hunk) : Bytes :=
  match group.head?, group.getLast? with
  | some first, some last =>
    let start := first.left - context
    let stop := min as.length (last.left + last.old.length + context)
    let grown := (group.map fun h => h.new.length).foldr (· + ·) 0
    let shrunk := (group.map fun h => h.old.length).foldr (· + ·) 0
    let size := stop - start
    "@@ -".toList ++ countedRange start size ++ " +".toList ++
      countedRange (first.right - (first.left - start)) (size + grown - shrunk) ++
      " @@\n".toList ++ groupLines as start stop group
  | _, _ => []

/-- When a file was changed, which nobody knows here. -/
def changeTime : Bytes := "1970-01-01 00:00:00.000000000 +0000".toList

def unified (context : Nat) (left right : Bytes) (as : List Bytes) (hunks : List Hunk) : Bytes :=
  "--- ".toList ++ left ++ '\t' :: changeTime ++ "\n+++ ".toList ++ right ++ '\t' :: changeTime ++
    '\n' :: (hunkGroups context hunks).flatMap (groupText context as)

def diff : Job Unit := do
  let g ← given 2 "qswbBiaurN" "U"
    [("brief", 'q'), ("report-identical-files", 's'), ("unified", 'u')]
  let (left, right) ← match g.operands with
    | a :: b :: _ => pure (a, b)
    | _ =>
      missingOperand g
      pure ([], [])
  let a ← readCompared left
  let b ← readCompared right
  if a == b then
    if g.has 's' then
      printLine ("Files ".toList ++ left ++ " and ".toList ++ right ++ " are identical".toList)
  else
    if g.has 'q' then
      printLine ("Files ".toList ++ left ++ " and ".toList ++ right ++ " differ".toList)
    else
      let as := fullLines a
      let bs := fullLines b
      let hunks := editRuns 0 0 none as bs (sharedRows bs as) (as.length + bs.length + 1)
      match (g.value? 'U').bind natural?, g.has 'u' with
      | some context, _ => print (unified context left right as hunks)
      | none, true => print (unified 3 left right as hunks)
      | none, false => print (hunks.flatMap hunkText)
    quit 1

/-! ## comm -/

/-- Which of two sorted lists of lines each line is in: the first, the second or
both. -/
def merged : Nat → List Bytes → List Bytes → List (Nat × Bytes)
  | 0, _, _ => []
  | _, [], bs => bs.map fun b => (2, b)
  | _, as, [] => as.map fun a => (1, a)
  | fuel + 1, a :: as, b :: bs =>
    if a == b then (3, a) :: merged fuel as bs
    else if a < b then (1, a) :: merged fuel as (b :: bs)
    else (2, b) :: merged fuel (a :: as) bs

def comm : Job Unit := do
  let g ← given 1 "123z" "" []
  let (left, right) ← match g.operands with
    | [a, b] => pure (a, b)
    | [] => usage 1 "missing operand".toList
    | [a] => usage 1 ("missing operand after ".toList ++ Quoting.always a)
    | _ :: _ :: c :: _ => usage 1 ("extra operand ".toList ++ Quoting.always c)
  let readLines (name : Bytes) : Job (List Bytes) := do
    match ← readOperand name with
    | .ok b => return bareLines b
    | .error reason => giveUp 1 (Quoting.ifNeeded name ++ ": ".toList ++ reason.toList)
  let as ← readLines left
  let bs ← readLines right
  let digit (n : Nat) : Char := Char.ofNat (48 + n)
  let shown := (merged (as.length + bs.length) as bs).filter fun l => !g.has (digit l.1)
  print (shown.flatMap fun l =>
    let before := (List.range (l.1 - 1)).filter fun n => !g.has (digit (n + 1))
    before.map (fun _ => '\t') ++ l.2 ++ ['\n'])

end Job
end Shell
end CheckScript
