/-
Report scripts as trees: rules that act on the records of a text.
-/
import CheckScript.Outside.Shell.Regex

namespace CheckScript
namespace Shell
namespace Report

/-- Operators whose value is a number. -/
inductive Arith where
  | add
  | subtract
  | multiply
  | divide
  | remainder
  | power
deriving DecidableEq, Repr

/-- What a comparison may find without being wrong. -/
structure Comparison where
  less : Bool
  same : Bool
  more : Bool
deriving DecidableEq, Repr

/-- Functions that every script has. -/
inductive Function where
  | length
  | substring
  | index
  | split
  | replaceFirst
  | replaceAll
  | locate
  | format
  | sine
  | cosine
  | arcTangent
  | exponential
  | logarithm
  | squareRoot
  | integerPart
  | random
  | seed
  | lowerCase
  | upperCase
  | command
  | close
  | flush
deriving DecidableEq, Repr

/-- The names of functions, with the least and the greatest number of arguments. -/
def functions : List (String × Function × Nat × Nat) :=
  [("length", .length, 0, 1), ("substr", .substring, 2, 3), ("index", .index, 2, 2),
    ("split", .split, 2, 3), ("sub", .replaceFirst, 2, 3), ("gsub", .replaceAll, 2, 3),
    ("match", .locate, 2, 2), ("sprintf", .format, 1, 255), ("sin", .sine, 1, 1),
    ("cos", .cosine, 1, 1), ("atan2", .arcTangent, 2, 2), ("exp", .exponential, 1, 1),
    ("log", .logarithm, 1, 1), ("sqrt", .squareRoot, 1, 1), ("int", .integerPart, 1, 1),
    ("rand", .random, 0, 0), ("srand", .seed, 0, 1), ("tolower", .lowerCase, 1, 1),
    ("toupper", .upperCase, 1, 1), ("system", .command, 1, 1), ("close", .close, 1, 1),
    ("fflush", .flush, 0, 1)]

mutual

/-- What a value can be given to. -/
inductive Place where
  | variable (name : Bytes)
  | element (array : Bytes) (keys : List Expr)
  | field (index : Expr)

/-- Expressions.  A `list` is what parentheses hold when there are commas in them;
it is only good for what takes several values. -/
inductive Expr where
  | number (x : Float)
  | text (b : Bytes)
  | regex (r : Regex)
  | place (p : Place)
  | list (es : List Expr)
  | group (e : Expr)
  | assign (p : Place) (operator : Option Arith) (value : Expr)
  | step (p : Place) (up first : Bool)
  | negative (e : Expr)
  | positive (e : Expr)
  | negation (e : Expr)
  | arith (operator : Arith) (left right : Expr)
  | concat (left right : Expr)
  | compare (wanted : Comparison) (left right : Expr)
  | fits (wanted : Bool) (subject pattern : Expr)
  | member (keys : List Expr) (array : Bytes)
  | conjunction (left right : Expr)
  | disjunction (left right : Expr)
  | conditional (condition yes no : Expr)
  | call (name : Bytes) (arguments : List Expr)
  | apply (f : Function) (arguments : List Expr)
  | nextLine (target : Option Place) (file : Option Expr)
  | commandLine (command : Expr) (target : Option Place)

end

/-- Where output goes. -/
inductive Outlet where
  | standard
  | file (name : Expr) (append : Bool)
  | command (name : Expr)

inductive Stmt where
  | nothing
  | expr (e : Expr)
  | print (values : List Expr) (outlet : Outlet)
  | printFormat (values : List Expr) (outlet : Outlet)
  | block (first second : Stmt)
  | branch (condition : Expr) (yes no : Stmt)
  | loop (condition : Expr) (step body : Stmt)
  | loopBehind (body : Stmt) (condition : Expr)
  | each (name array : Bytes) (body : Stmt)
  | leave
  | goOn
  | next
  | nextSource
  | exit (status : Option Expr)
  | answer (value : Option Expr)
  | delete (array : Bytes) (keys : Option (List Expr))

/-- When a rule acts. -/
inductive Trigger where
  | start
  | stop
  | always
  | when (condition : Expr)
  | range (first last : Expr)

structure Rule where
  trigger : Trigger
  action : Stmt

structure Definition where
  name : Bytes
  parameters : List Bytes
  body : Stmt

structure Script where
  rules : List Rule
  definitions : List Definition

end Report
end Shell
end CheckScript
