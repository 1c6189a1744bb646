/-
Regular expressions.  A match begins as early as possible, and is then as long as
possible.
-/
import CheckScript.Outside.Shell.Pattern

namespace CheckScript
namespace Shell

/-- Places that an expression may ask for. -/
inductive RegexPlace where
  | start
  | stop
  | wordStart
  | wordEnd
  | wordBoundary
  | noBoundary
deriving DecidableEq, Repr

inductive Regex where
  | nothing
  | one (item : PatternItem)
  | anchor (place : RegexPlace)
  | both (a b : Regex)
  | either (a b : Regex)
  | repeated (r : Regex) (least : Nat) (most : Option Nat)
  | group (n : Nat) (r : Regex)
  | same (n : Nat)

namespace Regex

/-! ## Reading -/

inductive Fault where
  | openGroup
  | closedGroup
  | openBracket
  | openBrace
  | badBrace
  | badRange
  | badClass
  | badReference
  | nothingToRepeat
  | trailingBackslash
deriving DecidableEq, Repr

def Fault.message : Fault → String
  | openGroup => "Unmatched ( or \\("
  | closedGroup => "Unmatched ) or \\)"
  | openBracket => "Unmatched [, [^, [:, [., or [="
  | openBrace => "Unmatched \\\x7b"
  | badBrace => "Invalid content of \\\x7b\\\x7d"
  | badRange => "Invalid range end"
  | badClass => "Invalid character class name"
  | badReference => "Invalid back reference"
  | nothingToRepeat => "Invalid preceding regular expression"
  | trailingBackslash => "Trailing backslash"

/-- How expressions are written.  In the extended form signs are bare, in the basic one
most have a backslash before them.  The lenient form takes signs with nothing to work on
for what they can still be, and the rich one has more short forms. -/
structure Style where
  extended : Bool
  lenient : Bool
  rich : Bool
deriving DecidableEq, Repr

def Style.basic : Style := ⟨false, false, false⟩

/-- Signs of an expression.  A stray one would repeat something, but nothing is before
it. -/
inductive Sign where
  | item (i : PatternItem)
  | place (p : RegexPlace)
  | opening
  | closing
  | bar
  | times (least : Nat) (most : Option Nat)
  | stray (text : String)
  | same (n : Nat)

def isWord (c : Char) : Bool := isNameChar c

def wordSet (negated : Bool) : PatternItem :=
  .listed negated [.named "alnum".toList, .range '_' '_']

def spaceSet (negated : Bool) : PatternItem := .listed negated [.named "space".toList]

def digitSet (negated : Bool) : PatternItem := .listed negated [.named "digit".toList]

/-- The bounds between braces, and what follows them. -/
def bounds (extended : Bool) (cs : Bytes) : Except Fault (Sign × Bytes) :=
  let low := cs.takeWhile isDigit
  let rest := cs.drop low.length
  let number (b : Bytes) : Nat := b.foldl (fun n c => 10 * n + (c.toNat - 48)) 0
  let (most, rest) : Option Nat × Bytes := match rest with
    | ',' :: more =>
      let high := more.takeWhile isDigit
      (if high.isEmpty then none else some (number high), more.drop high.length)
    | rest => (some (number low), rest)
  let done (rest : Bytes) : Except Fault (Sign × Bytes) :=
    if low.isEmpty && most.isNone && rest.isEmpty then .error .badBrace
    else if most.any (· < number low) then .error .badBrace
    else .ok (.times (number low) most, rest)
  match extended, rest with
  | true, '\x7d' :: rest => done rest
  | false, '\\' :: '\x7d' :: rest => done rest
  | _, [] => .error .openBrace
  | _, _ => .error .badBrace

/-- What brackets list, and what follows them. -/
def bracket (cs : Bytes) : Except Fault (Sign × Bytes) :=
  let negated := cs.head? == some '^'
  let body := (if negated then cs.drop 1 else cs).map fun c => (c, false)
  match Pattern.members true body with
  | none => .error .openBracket
  | some (listed, rest) =>
    let bad := listed.find? fun
      | .range low high => high < low
      | .named name => allClasses.all (· != String.ofList name)
    match bad with
    | some (.range _ _) => .error .badRange
    | some (.named _) => .error .badClass
    | none => .ok (.item (.listed negated listed), rest.map (·.1))
where
  allClasses : List String :=
    ["alpha", "digit", "alnum", "upper", "lower", "space", "blank", "punct", "print", "graph",
      "cntrl", "xdigit"]

/-- A sign of repetition, which may be out of place. -/
def repetition (style : Style) (fresh : Bool) (c : Char) (sign : Sign) : Sign :=
  if !fresh then sign
  else if style.extended then .stray (String.singleton c)
  else .item (.one c)

/-- Bounds behind their opening brace. -/
def boundsSign (style : Style) (fresh : Bool) (cs : Bytes) : Except Fault (Sign × Bytes) :=
  let read := bounds style.extended cs
  let literal : Except Fault (Sign × Bytes) := .ok (.item (.one '\x7b'), cs)
  if style.lenient && style.extended then
    match read with
    | .error _ => literal
    | .ok (sign, rest) => .ok (if fresh then .stray "\x7b...\x7d" else sign, rest)
  else if fresh then (if style.lenient then literal else .error .nothingToRepeat)
  else read

/-- A sign behind a backslash. -/
def escapedSign (style : Style) (fresh : Bool) (c : Char) (cs : Bytes) :
    Except Fault (Sign × Bytes) :=
  match style.extended, c with
  | false, '(' => .ok (.opening, cs)
  | false, ')' => .ok (.closing, cs)
  | false, '|' => .ok (.bar, cs)
  | false, '+' => .ok (repetition style fresh '+' (.times 1 none), cs)
  | false, '?' => .ok (repetition style fresh '?' (.times 0 (some 1)), cs)
  | false, '\x7b' => boundsSign style fresh cs
  | _, 'w' => .ok (.item (wordSet false), cs)
  | _, 'W' => .ok (.item (wordSet true), cs)
  | _, 's' => .ok (.item (spaceSet false), cs)
  | _, 'S' => .ok (.item (spaceSet true), cs)
  | _, 'b' => .ok (.place .wordBoundary, cs)
  | _, 'B' => .ok (.place .noBoundary, cs)
  | _, '<' => .ok (.place .wordStart, cs)
  | _, '>' => .ok (.place .wordEnd, cs)
  | _, '\'' => .ok (.place .stop, cs)
  | _, 'n' => .ok (.item (.one '\n'), cs)
  | _, 't' => .ok (.item (.one '\t'), cs)
  | _, c =>
    if style.rich ∧ c = 'd' then .ok (.item (digitSet false), cs)
    else if style.rich ∧ c = 'D' then .ok (.item (digitSet true), cs)
    else if c.toNat = 96 then .ok (.place .start, cs)
    else if '1' ≤ c ∧ c ≤ '9' then .ok (.same (c.toNat - 48), cs)
    else .ok (.item (.one c), cs)

/-- Whether an anchor at the end is one in the basic form. -/
def endsBasic : Bytes → Bool
  | [] => true
  | '\\' :: ')' :: _ | '\\' :: '|' :: _ => true
  | _ => false

/-- The first sign.  `fresh` tells that a branch begins here. -/
def firstSign (style : Style) (fresh : Bool) : Bytes → Except Fault (Sign × Bytes)
  | [] => .error .trailingBackslash
  | ['\\'] => .error .trailingBackslash
  | '\\' :: c :: cs => escapedSign style fresh c cs
  | '[' :: cs => bracket cs
  | '.' :: cs => .ok (.item .any, cs)
  | '*' :: cs => .ok (repetition style fresh '*' (.times 0 none), cs)
  | '^' :: cs => .ok (if style.extended || fresh then .place .start else .item (.one '^'), cs)
  | '$' :: cs => .ok (if style.extended || endsBasic cs then .place .stop else .item (.one '$'), cs)
  | c :: cs =>
    if style.extended then
      match c with
      | '(' => .ok (.opening, cs)
      | ')' => .ok (.closing, cs)
      | '|' => .ok (.bar, cs)
      | '+' => .ok (repetition style fresh '+' (.times 1 none), cs)
      | '?' => .ok (repetition style fresh '?' (.times 0 (some 1)), cs)
      | '\x7b' => boundsSign style fresh cs
      | c => .ok (.item (.one c), cs)
    else .ok (.item (.one c), cs)

def isFresh : Sign → Bool
  | .opening | .bar | .stray _ => true
  | .place .start => true
  | _ => false

def signs (style : Style) (fresh : Bool) (fuel : Nat) (cs : Bytes) : Except Fault (List Sign) :=
  match fuel, cs with
  | 0, _ | _, [] => .ok []
  | fuel + 1, cs => do
    let r ← firstSign style fresh cs
    let rest ← signs style (isFresh r.1) fuel r.2
    return r.1 :: rest

/-- A part of an expression that is being read: the branches before, and the
pieces of this one, both the latest first. -/
structure Level where
  number : Nat
  branches : List Regex
  pieces : List Regex

def Level.whole (l : Level) : Regex :=
  let branch := l.pieces.reverse.foldr both nothing
  l.branches.foldl (fun r b => either b r) branch

/-- Put signs together.  Groups are numbered by their openings. -/
def assemble (style : Style) (groups : Nat) (level : Level) (outer : List Level) :
    List Sign → Except Fault Regex
  | [] => if outer.isEmpty then .ok level.whole else .error .openGroup
  | s :: ss =>
    let add (r : Regex) : Level := { level with pieces := r :: level.pieces }
    match s with
    | .item i => assemble style groups (add (one i)) outer ss
    | .place p => assemble style groups (add (anchor p)) outer ss
    | .same n =>
      if groups < n then .error .badReference
      else assemble style groups (add (same n)) outer ss
    | .opening => assemble style (groups + 1) ⟨groups + 1, [], []⟩ (level :: outer) ss
    | .closing =>
      match outer with
      | [] =>
        if style.lenient && style.extended then
          assemble style groups (add (one (.one ')'))) outer ss
        else .error .closedGroup
      | o :: outer =>
        let pieces := group level.number level.whole :: o.pieces
        assemble style groups { o with pieces } outer ss
    | .bar =>
      assemble style groups
        { level with
          branches := level.pieces.reverse.foldr both nothing :: level.branches, pieces := [] }
        outer ss
    | .stray _ =>
      if style.lenient then assemble style groups level outer ss else .error .nothingToRepeat
    | .times least most =>
      match level.pieces with
      | [] => .error .nothingToRepeat
      | p :: ps =>
        assemble style groups { level with pieces := repeated p least most :: ps } outer ss

def read (style : Style) (cs : Bytes) : Except Fault Regex :=
  match signs style true cs.length cs with
  | .error fault => .error fault
  | .ok ss => assemble style 0 ⟨0, [], []⟩ [] ss

/-- The stray signs of an expression. -/
def strays (style : Style) (cs : Bytes) : List String :=
  match signs style true cs.length cs with
  | .error _ => []
  | .ok ss => ss.filterMap fun
      | .stray text => some text
      | _ => none

/-- The number of groups that a text opens. -/
def groupCount (extended : Bool) : Bytes → Nat
  | [] => 0
  | '\\' :: c :: cs => (if !extended && c = '(' then 1 else 0) + groupCount extended cs
  | c :: cs => (if extended && c = '(' then 1 else 0) + groupCount extended cs

/-- An expression for a text that stands for itself. -/
def literal (cs : Bytes) : Regex := (cs.map fun c => one (.one c)).foldr both nothing

/-! ## Matching -/

/-- A text to search, and whether its letters count in both cases as one. -/
structure Subject where
  text : Array Char
  fold : Bool

namespace Subject

def lower (c : Char) : Char := if 'A' ≤ c ∧ c ≤ 'Z' then Char.ofNat (c.toNat + 32) else c

def upper (c : Char) : Char := if 'a' ≤ c ∧ c ≤ 'z' then Char.ofNat (c.toNat - 32) else c

def accepts (s : Subject) (i : PatternItem) (c : Char) : Bool :=
  if !s.fold then Pattern.accepts c i
  else
    match i with
    | .listed negated members =>
      (members.any fun m => m.accepts (lower c) || m.accepts (upper c)) != negated
    | .one d => lower c == lower d
    | _ => true

def wordAt (s : Subject) (n : Nat) : Bool := (s.text[n]?.map isWord).getD false

def wordBefore (s : Subject) (n : Nat) : Bool := n != 0 && s.wordAt (n - 1)

def isAt (s : Subject) (n : Nat) : RegexPlace → Bool
  | .start => n == 0
  | .stop => n == s.text.size
  | .wordStart => !s.wordBefore n && s.wordAt n
  | .wordEnd => s.wordBefore n && !s.wordAt n
  | .wordBoundary => s.wordBefore n != s.wordAt n
  | .noBoundary => s.wordBefore n == s.wordAt n

end Subject

def merge (a b : List Nat) : List Nat := a ++ b.filter (! a.contains ·)

/-- All places reached by going on some more times from places not seen before. -/
def closure (step : List Nat → List Nat) (seen : List Nat) : Nat → List Nat → List Nat
  | 0, _ => seen
  | fuel + 1, new =>
    let next := (step new).filter (! seen.contains ·)
    if next.isEmpty then seen else closure step (merge seen next) fuel next

def times (step : List Nat → List Nat) : Nat → List Nat → List Nat
  | 0, ps => ps
  | n + 1, ps => times step n (step ps)

/-- All places reached by going on up to a number of times. -/
def upTo (step : List Nat → List Nat) : Nat → List Nat → List Nat
  | 0, ps => ps
  | n + 1, ps => merge ps (upTo step n (step ps))

/-- The places where a match that begins at one of some places can end.  What a
group has matched is not known here, so that a repetition of it ends anywhere. -/
def ends (s : Subject) : Regex → List Nat → List Nat
  | nothing, ps => ps
  | one i, ps =>
    ps.filterMap fun n =>
      match s.text[n]? with
      | some c => if s.accepts i c then some (n + 1) else none
      | none => none
  | anchor place, ps => ps.filter fun n => s.isAt n place
  | both a b, ps => ends s b (ends s a ps)
  | either a b, ps => merge (ends s a ps) (ends s b ps)
  | group _ r, ps => ends s r ps
  | same _, ps => ps.foldl (fun r n => merge r ((List.range (s.text.size + 1)).filter (n ≤ ·))) []
  | repeated r least most, ps =>
    let first := times (ends s r) least ps
    match most with
    | none => closure (ends s r) first (s.text.size + 1) first
    | some m => upTo (ends s r) (m - least) first

/-- What groups have matched, by number, the latest first. -/
abbrev Groups := List (Nat × Nat × Nat)

def textOf (s : Subject) (low high : Nat) : Bytes := (s.text.extract low high).toList

abbrev Onward := Nat → Groups → Option (Nat × Groups)

/-- Go on with a part as often as possible, then less often. -/
def repeatWalk (step : Nat → Groups → Onward → Option (Nat × Groups)) (goOn : Onward) :
    Nat → Nat → Option Nat → Nat → Groups → Option (Nat × Groups)
  | 0, _, _, n, g => goOn n g
  | fuel + 1, least, most, n, g =>
    let more : Option (Nat × Groups) :=
      if most = some 0 then none
      else step n g fun m h =>
        if m = n ∧ least = 0 then none
        else repeatWalk step goOn fuel (least - 1) (most.map (· - 1)) m h
    match more with
    | some r => some r
    | none => if least = 0 then goOn n g else none

/-- Walk along the text, and let `goOn` decide at the end. -/
def walk (s : Subject) : Regex → Nat → Groups → Onward → Option (Nat × Groups)
  | nothing, n, g, goOn => goOn n g
  | one i, n, g, goOn =>
    match s.text[n]? with
    | some c => if s.accepts i c then goOn (n + 1) g else none
    | none => none
  | anchor place, n, g, goOn => if s.isAt n place then goOn n g else none
  | both a b, n, g, goOn => walk s a n g fun m h => walk s b m h goOn
  | either a b, n, g, goOn =>
    match walk s a n g goOn with
    | some r => some r
    | none => walk s b n g goOn
  | group k r, n, g, goOn => walk s r n g fun m h => goOn m ((k, n, m) :: h)
  | same k, n, g, goOn =>
    match g.find? fun e => e.1 == k with
    | none => none
    | some (_, low, high) =>
      let size := high - low
      if textOf s n (n + size) == textOf s low high && n + size ≤ s.text.size then goOn (n + size) g
      else none
  | repeated r least most, n, g, goOn =>
    repeatWalk (walk s r) goOn (s.text.size + least + 2) least most n g

structure Match where
  start : Nat
  stop : Nat
  groups : Groups

/-- The match that begins at a place, the longest one. -/
def matchAt (s : Subject) (r : Regex) (n : Nat) : Option Match :=
  let candidates := (ends s r [n]).mergeSort fun a b => b ≤ a
  candidates.findSome? fun stop =>
    (walk s r n [] fun m g => if m = stop then some (m, g) else none).map fun found =>
      ⟨n, found.1, found.2⟩

/-- The first match at or behind a place. -/
def search (s : Subject) (r : Regex) (start : Nat) : Option Match :=
  ((List.range (s.text.size + 1)).filter (start ≤ ·)).findSome? (matchAt s r)

end Regex
end Shell
end CheckScript
