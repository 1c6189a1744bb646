/-
From words to arguments: parameters and output in place, fields split, and names
of files found.
-/
import CheckScript.Outside.Shell.Arithmetic
import CheckScript.Outside.Shell.Machine
import CheckScript.Outside.Shell.Pattern

namespace CheckScript
namespace Shell

/-- What a character of an expanded word may still mean: nothing, part of a
pattern, or both that and the end of a field. -/
inductive Role where
  | quoted
  | plain
  | value
deriving DecidableEq, Repr

/-- Blanks are left by quotations without anything in them. -/
inductive Mark where
  | char (c : Char) (role : Role)
  | blank
  | fieldEnd
deriving DecidableEq, Repr

namespace Mark

def char? : Mark → Option Char
  | char c _ => some c
  | _ => none

/-- The text that marks make up. -/
def text (ms : List Mark) : Bytes := ms.filterMap char?

/-- What marks mean as a pattern. -/
def pattern (ms : List Mark) : Pattern :=
  Pattern.ofChars (ms.filterMap fun
    | char c role => some (c, role == .quoted)
    | _ => none)

/-- The characters of a value. -/
def ofValue (quoted : Bool) (value : Bytes) : List Mark :=
  if quoted && value.isEmpty then [blank]
  else value.map fun c => char c (if quoted then .quoted else .value)

/-- Let the characters of a word split fields as those of a value do. -/
def asValue : Mark → Mark
  | char c .plain => char c .value
  | m => m

end Mark

namespace Run

/-! ## Parameters and output -/

/-- What a word is expanded for: arguments, which are split, or one text. -/
inductive Purpose where
  | arguments
  | text
deriving DecidableEq, Repr

/-- Put texts side by side, each in a field of its own. -/
def separated (texts : List (List Mark)) : List Mark :=
  match texts with
  | [] => []
  | [t] => t
  | t :: ts => t ++ .fieldEnd :: separated ts

def joined (m : Machine) (texts : List Bytes) : Bytes :=
  Bytes.join ((separators m).take 1) texts

/-- All arguments of the shell or of a function. -/
def allArguments (purpose : Purpose) (name : Bytes) (quoted : Bool) : Run (List Mark) := do
  let m ← get
  if purpose = .text ∨ (quoted ∧ name = ['*']) then
    return Mark.ofValue quoted (joined m m.arguments)
  else if quoted then
    return separated (m.arguments.map fun a => .blank :: a.map (Mark.char · .quoted))
  else return separated (m.arguments.map (Mark.ofValue false))

def isList (name : Bytes) : Bool := name == ['@'] || name == ['*']

/-- The value of a parameter as one text, if it has one. -/
def single (name : Bytes) : Run (Option Bytes) := do
  let m ← get
  if isList name then
    return if m.arguments.isEmpty then none else some (joined m m.arguments)
  else return scalar m name

/-- Missing parameters are faults under option `u`. -/
def mustBeSet (name : Bytes) (value : Option Bytes) : Run Bytes := do
  match value with
  | some v => return v
  | none =>
    if (← get).option 'u' ∧ !isList name then
      failWith (name ++ ": parameter not set".toList)
    else return []

def missingText (orEmpty : Bool) : Bytes :=
  (if orEmpty then "parameter not set or null" else "parameter not set").toList

/-- Whether a value counts as one. -/
def counts (orEmpty : Bool) (value : Option Bytes) : Bool :=
  match value with
  | none => false
  | some v => !(orEmpty && v.isEmpty)

def setParameter (name value : Bytes) : Run Unit := do
  if isName name then assign name value else failWith (name ++ ": bad variable name".toList)

/-- The output of a command without the newlines at its end. -/
def trimOutput (output : Bytes) : Bytes :=
  ((output.filter (·.toNat ≠ 0)).reverse.dropWhile (· == '\n')).reverse

def compute (text : Bytes) : Run Bytes := do
  let m ← get
  match Arithmetic.value (scalar m) text with
  | .error fault => failWith (Arithmetic.message text fault)
  | .ok (n, assigned) =>
    for a in assigned.reverse do assign a.1 (Bytes.ofInt a.2)
    return Bytes.ofInt n

/-- The home directory in place of a tilde, which may have a user's name behind
it. -/
def home (user : Bytes) : Run (Option Bytes) := do
  if user.isEmpty then value? "HOME".toList
  else return if user == "root".toList then some "/root".toList else none

/-- The characters that belong to a tilde. -/
def tildeUser (inAssignment : Bool) (w : Word) : Bytes :=
  w.filterMap (fun
    | .char c false => some c
    | _ => none) |>.takeWhile fun c => c != '/' && !(inAssignment && c == ':')

/-- Whether a tilde with a user's name behind it ends there. -/
def endsTilde (inAssignment : Bool) : Word → Bool
  | [] => true
  | .char c false :: _ => c == '/' || (inAssignment && c == ':')
  | _ => false

mutual

/-- Expand the pieces of a word.  `capture` runs a command and gives its output. -/
def expandPieces (capture : Command → Run Bytes) (purpose : Purpose) : Word → Run (List Mark)
  | [] => return []
  | p :: ps => do
    let first ← expandPiece capture purpose p
    return first ++ (← expandPieces capture purpose ps)
termination_by w => sizeOf w

def expandPiece (capture : Command → Run Bytes) (purpose : Purpose) : Piece → Run (List Mark)
  | .char c quoted => return [.char c (if quoted then .quoted else .plain)]
  | .blank => return [.blank]
  | .output command quoted => do return Mark.ofValue quoted (trimOutput (← capture command))
  | .number expression quoted => do
    let text ← expandPieces capture .text expression
    return Mark.ofValue quoted (← compute (Mark.text text))
  | .parameter name form word quoted => do
    let value ← single name
    match form with
    | .malformed => failWith "Bad substitution".toList
    | .plain =>
      if isList name then allArguments purpose name quoted
      else return Mark.ofValue quoted (← mustBeSet name value)
    | .length =>
      if isList name then return Mark.ofValue quoted (Bytes.ofNat (← get).arguments.length)
      else return Mark.ofValue quoted (Bytes.ofNat (← mustBeSet name value).length)
    | .fallback orEmpty =>
      if counts orEmpty value then
        if isList name then allArguments purpose name quoted
        else return Mark.ofValue quoted (value.getD [])
      else
        let ms ← expandPieces capture purpose word
        return if quoted && ms.isEmpty then [.blank] else ms.map Mark.asValue
    | .alternative orEmpty =>
      if counts orEmpty value then
        let ms ← expandPieces capture purpose word
        return if quoted && ms.isEmpty then [.blank] else ms.map Mark.asValue
      else return if quoted && !isList name then [.blank] else []
    | .assign orEmpty =>
      if counts orEmpty value then return Mark.ofValue quoted (value.getD [])
      else
        let text := Mark.text (← expandPieces capture .text word)
        setParameter name text
        return Mark.ofValue quoted text
    | .require orEmpty =>
      if counts orEmpty value then return Mark.ofValue quoted (value.getD [])
      else
        let text := Mark.text (← expandPieces capture .text word)
        failWith (name ++ ": ".toList ++ (if word.isEmpty then missingText orEmpty else text))
    | .dropStart longest =>
      let text ← mustBeSet name value
      let pattern := Mark.pattern (← expandPieces capture .text word)
      return Mark.ofValue quoted (pattern.dropStart longest text)
    | .dropEnd longest =>
      let text ← mustBeSet name value
      let pattern := Mark.pattern (← expandPieces capture .text word)
      return Mark.ofValue quoted (pattern.dropEnd longest text)
termination_by p => sizeOf p

end

/-- Expand a word that may begin with a tilde; in an assignment one may follow
every colon. -/
def expandTildes (capture : Command → Run Bytes) (purpose : Purpose) (inAssignment atStart : Bool) :
    Word → Run (List Mark)
  | [] => return []
  | .char '~' false :: ps => do
    let user := tildeUser inAssignment ps
    if atStart && endsTilde inAssignment (ps.drop user.length) then
      match ← home user with
      | some directory =>
        let rest ← expandTildes capture purpose inAssignment false (ps.drop user.length)
        return Mark.ofValue true directory ++ rest
      | none => return .char '~' .plain :: (← expandPieces capture purpose ps)
    else return .char '~' .plain :: (← expandTildes capture purpose inAssignment false ps)
  | p :: ps => do
    let first ← expandPiece capture purpose p
    let isColon := match p with
      | .char ':' false => true
      | _ => false
    return first ++ (← expandTildes capture purpose inAssignment (inAssignment && isColon) ps)
termination_by w => w.length
decreasing_by all_goals simp only [List.length_cons, List.length_drop]; omega

/-! ## Fields -/

/-- End the field that is being read, which is given last mark first. -/
def endField (field : List Mark) : List (List Mark) :=
  if field.isEmpty then [] else [field.reverse]

def isSeparator (ifs : Bytes) : Mark → Bool
  | .char c .value => ifs.contains c
  | _ => false

def isBlankSeparator (ifs : Bytes) : Mark → Bool
  | .char c .value => ifs.contains c && isSpace c
  | _ => false

/-- Where in a text that splits into fields one is: in a field, behind blanks that
have ended one, or behind another separator. -/
inductive Place where
  | inside
  | behindBlank
  | behindMark
deriving DecidableEq, Repr

/-- Split marks into fields.  The blanks around another separator belong to it,
and only such a one can leave an empty field. -/
def fields (ifs : Bytes) (place : Place) (field : List Mark) : List Mark → List (List Mark)
  | [] => endField field
  | .fieldEnd :: ms => endField field ++ fields ifs .inside [] ms
  | m :: ms =>
    if isBlankSeparator ifs m then
      match place with
      | .inside =>
        if field.isEmpty then fields ifs .inside [] ms
        else field.reverse :: fields ifs .behindBlank [] ms
      | place => fields ifs place [] ms
    else if isSeparator ifs m then
      match place with
      | .behindBlank => fields ifs .behindMark [] ms
      | _ => field.reverse :: fields ifs .behindMark [] ms
    else fields ifs .inside (m :: field) ms

/-! ## Names of files -/

/-- The names in a directory that fit a pattern.  Those that begin with a dot must
be asked for. -/
def fitting (f : Files) (directory : Bytes) (pattern : Pattern) : List Bytes :=
  let asksDot := match pattern with
    | .one '.' :: _ => true
    | _ => false
  let shown := if directory.isEmpty then "." else Bytes.text directory
  let names := match f.list ⟨shown⟩ with
    | .ok names => names.map Bytes.ofText
    | .error _ => []
  let names := if asksDot then ['.'] :: ['.', '.'] :: names else names
  (names.filter fun n => (asksDot || n.head? != some '.') && pattern.fits n).mergeSort Bytes.noLater

/-- The paths that fit pieces between slashes, below a directory. -/
def matching (f : Files) (directory : Bytes) : List (List PatternChar) → List Bytes
  | [] => [directory]
  | piece :: pieces =>
    let ending := if pieces.isEmpty then [] else ['/']
    let pattern := Pattern.ofChars piece
    match pattern.plain? with
    | some name =>
      let path := directory ++ name
      let isThere := if name.isEmpty then path.isEmpty || f.isDirectory ⟨Bytes.text path⟩
        else f.holds ⟨Bytes.text path⟩
      if pieces.isEmpty && !isThere then []
      else matching f (path ++ ending) pieces
    | none =>
      (fitting f directory pattern).flatMap fun name =>
        matching f (directory ++ name ++ ending) pieces

/-- Cut at slashes. -/
def cutSlashes (cs : List PatternChar) : List (List PatternChar) :=
  cs.foldr (fun c pieces =>
    if c.1 = '/' then [] :: pieces
    else match pieces with
      | [] => [[c]]
      | p :: ps => (c :: p) :: ps) [[]]

/-- The arguments that a field stands for: the files that fit it as a pattern, or
itself if there are none. -/
def fileNames (m : Machine) (field : List Mark) : List Bytes :=
  let text := Mark.text field
  if m.option 'f' ∨ (Mark.pattern field).plain?.isSome then [text]
  else
    let chars := field.filterMap fun
      | .char c role => some (c, role == .quoted)
      | _ => none
    match matching m.ownFiles [] (cutSlashes chars) with
    | [] => [text]
    | names => names

/-- The arguments that words stand for. -/
def expandWords (capture : Command → Run Bytes) : List Word → Run (List Bytes)
  | [] => return []
  | w :: ws => do
    let marks ← expandTildes capture .arguments false true w
    let m ← get
    let names := (fields (separators m) .inside [] marks).flatMap (fileNames m)
    return names ++ (← expandWords capture ws)

/-- A word as one text. -/
def expandText (capture : Command → Run Bytes) (w : Word) : Run Bytes := do
  return Mark.text (← expandTildes capture .text false true w)

/-- The value of an assignment. -/
def expandValue (capture : Command → Run Bytes) (w : Word) : Run Bytes := do
  return Mark.text (← expandTildes capture .text true true w)

def expandPattern (capture : Command → Run Bytes) (w : Word) : Run Pattern := do
  return Mark.pattern (← expandTildes capture .text false true w)

end Run
end Shell
end CheckScript
