/-
The functions and methods of the script language, with the number of their
arguments, and the names that every script has.
-/
import CheckScript.Script.Diagnostic

namespace CheckScript
namespace Script

inductive Builtin where
  | send
  | expect
  | assert
  | assertEq
  | assertNe
  | log
  | format
  | int
  | str
  | len
  | line
  | fileName
  | buildDelta
deriving DecidableEq, Repr

namespace Builtin

def name : Builtin → String
  | send => "send"
  | expect => "expect"
  | assert => "assert"
  | assertEq => "assert_eq"
  | assertNe => "assert_ne"
  | log => "log"
  | format => "format"
  | int => "int"
  | str => "str"
  | len => "len"
  | line => "line"
  | fileName => "file_name"
  | buildDelta => "generate_delta"

def all : List Builtin :=
  [send, expect, assert, assertEq, assertNe, log, format, int, str, len, line, fileName,
    buildDelta]

def ofName? (s : String) : Option Builtin := all.find? fun b => b.name == s

def arity : Builtin → Arity
  | send => .exactly 1
  | expect => .between 1 2
  | assert => .between 1 2
  | assertEq => .between 2 3
  | assertNe => .between 2 3
  | log => .atLeast 0
  | format => .atLeast 1
  | int => .exactly 1
  | str => .exactly 1
  | len => .exactly 1
  | line => .exactly 1
  | fileName => .exactly 1
  | buildDelta => .exactly 2

end Builtin

inductive Method where
  | find
  | findString
  | findInt
  | has
  | className
  | token
  | kind
  | text
  | contains
  | startsWith
deriving DecidableEq, Repr

namespace Method

def name : Method → String
  | find => "find"
  | findString => "find_string"
  | findInt => "find_int"
  | has => "has"
  | className => "class"
  | token => "token"
  | kind => "kind"
  | text => "text"
  | contains => "contains"
  | startsWith => "starts_with"

def all : List Method :=
  [find, findString, findInt, has, className, token, kind, text, contains, startsWith]

def ofName? (s : String) : Option Method := all.find? fun m => m.name == s

def arity : Method → Arity
  | find | findString | findInt | has | contains | startsWith => .exactly 1
  | className | token | kind | text => .exactly 0

end Method

/-- Names that every script can read and none can declare or assign. -/
inductive Global where
  | lines
  | testSource
  | testBinary
deriving DecidableEq, Repr

namespace Global

def name : Global → String
  | lines => "lines"
  | testSource => "test_source"
  | testBinary => "test_bin"

def all : List Global := [lines, testSource, testBinary]

def ofName? (s : String) : Option Global := all.find? fun g => g.name == s

def isName (s : String) : Bool := (ofName? s).isSome

end Global
end Script
end CheckScript
