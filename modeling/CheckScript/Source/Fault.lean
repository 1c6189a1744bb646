/-
What can be wrong with the code of a source file.
-/

namespace CheckScript

inductive SourceProblem where
  | openComment
  | openString
  | openVerbatim
  | openRaw
  | malformedRaw
  | openCharacter
  | unclosed (bracket : Char)
  | mismatched (closing bracket : Char) (line : Nat)
  | unexpected (closing : Char)
deriving DecidableEq, Repr

namespace SourceProblem

def message : SourceProblem → String
  | openComment => "unterminated block comment"
  | openString => "unterminated string literal"
  | openVerbatim => "unterminated verbatim string literal"
  | openRaw => "unterminated raw string literal"
  | malformedRaw => "malformed raw string literal"
  | openCharacter => "unterminated character literal"
  | unclosed bracket => s!"unclosed delimiter '{bracket}'"
  | mismatched closing bracket line =>
    s!"mismatched closing delimiter '{closing}' for '{bracket}' opened on line {line}"
  | unexpected closing => s!"unexpected closing delimiter '{closing}'"

end SourceProblem

structure SourceFault where
  line : Nat
  problem : SourceProblem
deriving DecidableEq, Repr

end CheckScript
