/-
Why the system refuses a request.
-/

namespace CheckScript

inductive FileFault where
  | notFound
  | alreadyExists
  | notDirectory
  | isDirectory
  | nameTooLong
  | nulInPath
  | notText
  | brokenPipe
deriving DecidableEq, Repr

namespace FileFault

/-- The reason alone, as commands report it. -/
def reason : FileFault → String
  | notFound => "No such file or directory"
  | alreadyExists => "File exists"
  | notDirectory => "Not a directory"
  | isDirectory => "Is a directory"
  | nameTooLong => "File name too long"
  | nulInPath => "file name contained an unexpected NUL byte"
  | notText => "stream did not contain valid UTF-8"
  | brokenPipe => "Broken pipe"

/-- The number by which the system knows the reason. -/
def number? : FileFault → Option Nat
  | notFound => some 2
  | alreadyExists => some 17
  | notDirectory => some 20
  | isDirectory => some 21
  | nameTooLong => some 36
  | brokenPipe => some 32
  | nulInPath | notText => none

def message (f : FileFault) : String :=
  match f.number? with
  | some n => s!"{f.reason} (os error {n})"
  | none => f.reason

end FileFault
end CheckScript
