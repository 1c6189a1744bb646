/-
The words of the script language.
-/
import CheckScript.Script.Position

namespace CheckScript
namespace Script

inductive TokenKind where
  | ident (name : String)
  | int (n : Nat)
  | str (s : String)
  | letWord
  | ifWord
  | elseWord
  | whileWord
  | forWord
  | inWord
  | checkpointWord
  | trueWord
  | falseWord
  | nullWord
  | leftParen
  | rightParen
  | leftBrace
  | rightBrace
  | leftBracket
  | rightBracket
  | comma
  | semicolon
  | dot
  | equal
  | equalEqual
  | bangEqual
  | less
  | lessEqual
  | greater
  | greaterEqual
  | plus
  | minus
  | star
  | slash
  | percent
  | bang
  | ampAmp
  | pipePipe
  | finish
deriving DecidableEq, Repr

namespace TokenKind

/-- The kind of a word made of name characters.  There are two words for the
declaration of a variable. -/
def ofWord (word : String) : TokenKind :=
  match word with
  | "let" | "var" => .letWord
  | "if" => .ifWord
  | "else" => .elseWord
  | "while" => .whileWord
  | "for" => .forWord
  | "in" => .inWord
  | "checkpoint" => .checkpointWord
  | "true" => .trueWord
  | "false" => .falseWord
  | "null" => .nullWord
  | name => .ident name

/-- What messages call a token. -/
def description : TokenKind → String
  | .ident name => s!"identifier '{name}'"
  | .int n => s!"integer {n}"
  | .str _ => "string literal"
  | .letWord => "'let'"
  | .ifWord => "'if'"
  | .elseWord => "'else'"
  | .whileWord => "'while'"
  | .forWord => "'for'"
  | .inWord => "'in'"
  | .checkpointWord => "'checkpoint'"
  | .trueWord => "'true'"
  | .falseWord => "'false'"
  | .nullWord => "'null'"
  | .leftParen => "'('"
  | .rightParen => "')'"
  | .leftBrace => "'\x7b'"
  | .rightBrace => "'\x7d'"
  | .leftBracket => "'['"
  | .rightBracket => "']'"
  | .comma => "','"
  | .semicolon => "';'"
  | .dot => "'.'"
  | .equal => "'='"
  | .equalEqual => "'=='"
  | .bangEqual => "'!='"
  | .less => "'<'"
  | .lessEqual => "'<='"
  | .greater => "'>'"
  | .greaterEqual => "'>='"
  | .plus => "'+'"
  | .minus => "'-'"
  | .star => "'*'"
  | .slash => "'/'"
  | .percent => "'%'"
  | .bang => "'!'"
  | .ampAmp => "'&&'"
  | .pipePipe => "'||'"
  | .finish => "end of script"

end TokenKind

/-- A word with the place of its first character. -/
structure Token where
  kind : TokenKind
  place : Position
deriving DecidableEq, Repr

end Script
end CheckScript
