/-
The programs that command lines can call.
-/
import CheckScript.Debugger.Mock
import CheckScript.Outside.Shell.Builtin.Output
import CheckScript.Outside.Shell.Program.Calculation
import CheckScript.Outside.Shell.Program.Comparison
import CheckScript.Outside.Shell.Program.Contents
import CheckScript.Outside.Shell.Program.Digest
import CheckScript.Outside.Shell.Program.Edit.Run
import CheckScript.Outside.Shell.Program.Encoding
import CheckScript.Outside.Shell.Program.Fields
import CheckScript.Outside.Shell.Program.Grep
import CheckScript.Outside.Shell.Program.Names
import CheckScript.Outside.Shell.Program.Pause
import CheckScript.Outside.Shell.Program.Report.Run

namespace CheckScript
namespace Shell
namespace Job

/-! ## Programs that shells have as commands too -/

def echo : Job Unit := do
  let words := (← get).arguments
  match words with
  | ['-', 'n'] :: words => print (Bytes.join [' '] words)
  | ['-', 'e'] :: words => print (Printing.line ['\n'] words)
  | words => printLine (Bytes.join [' '] words)

def printf : Job Unit := do
  match (← get).arguments with
  | [] => usage 1 "missing operand".toList
  | format :: values =>
    let (halt, p) := Printing.printf format values
    p.doubts.reverse |> eachOf fun d =>
      warn 1 (Quoting.always d.1 ++ ": ".toList ++ d.2.message.toList)
    print p.written.reverse.flatten
    match halt with
    | .done => return ()
    | .noDirective => giveUp 1 "%: invalid conversion specification".toList
    | .badDirective text => giveUp 1 (text ++ ": invalid conversion specification".toList)

def conditionOf (words : List Bytes) : Job Unit := do
  let d ← get
  let surroundings : Condition.Surroundings :=
    { files := d.files, isDevice := isEmptyDevice, isRunnable := fun _ => false }
  match condition surroundings words with
  | .ok true => quit 0
  | .ok false => quit 1
  | .error text => giveUp 2 text

def test : Job Unit := do conditionOf (← get).arguments

def bracket : Job Unit := do
  let words := (← get).arguments
  if words.getLast? = some [']'] then conditionOf words.dropLast
  else giveUp 2 "missing ']'".toList

/-! ## The mock of a debugger -/

/-- The mock reads line by line.  It answers what is there and waits for more. -/
def mockDebugger : Job Unit := do
  let words := (← get).arguments.map Bytes.text
  if words.contains "--exit-immediately" then quit 0
  else if words.contains "--silent" then
    let _ ← readNow
    awaitEnd
  else
    let text := (← readNow).toOption.getD []
    let isOpen := (← get).inputOpen
    let lines := (fullLines text).filter fun l => !isOpen || l.getLast? = some '\n'
    let r := Mock.hearAll ((bareLines lines.flatten).map Bytes.text) .start
    printNow ((Mock.greeting ++ r.2).flatMap fun l => Bytes.ofText l ++ ['\n'])
    match r.1.status with
    | .reading => awaitEnd
    | .exited => quit 0
    | .broken => quit 101

end Job

/-- The name of the mock. -/
def mockName : String := "mock-debugger"

/-- All programs by their names. -/
def programs : List Program :=
  [⟨"cat", Job.cat⟩, ⟨"tac", Job.tac⟩, ⟨"rev", Job.rev⟩, ⟨"tee", Job.tee⟩, ⟨"head", Job.head⟩,
    ⟨"tail", Job.tail⟩, ⟨"wc", Job.wc⟩, ⟨"yes", Job.yes⟩, ⟨"seq", Job.seq⟩, ⟨"nl", Job.nl⟩,
    ⟨"tr", Job.tr⟩, ⟨"sort", Job.sort⟩, ⟨"uniq", Job.uniq⟩, ⟨"cut", Job.cut⟩,
    ⟨"paste", Job.paste⟩, ⟨"fold", Job.fold⟩, ⟨"cp", Job.cp⟩, ⟨"mv", Job.mv⟩, ⟨"ln", Job.ln⟩,
    ⟨"mkdir", Job.mkdir⟩, ⟨"rmdir", Job.rmdir⟩, ⟨"rm", Job.rm⟩, ⟨"touch", Job.touch⟩,
    ⟨"ls", Job.ls⟩, ⟨"chmod", Job.chmod⟩, ⟨"grep", Job.grep⟩,
    ⟨"egrep", Job.egrep⟩, ⟨"fgrep", Job.fgrep⟩, ⟨"sed", Job.sed⟩, ⟨"basename", Job.basename⟩,
    ⟨"dirname", Job.dirname⟩, ⟨"realpath", Job.realpath⟩, ⟨"readlink", Job.readlink⟩,
    ⟨"pwd", Job.pwd⟩, ⟨"printenv", Job.printenv⟩, ⟨"uname", Job.uname⟩, ⟨"true", Job.succeed⟩,
    ⟨"false", Job.fail⟩, ⟨"sleep", Job.sleep⟩, ⟨"expr", Job.expr⟩, ⟨"cmp", Job.cmp⟩,
    ⟨"diff", Job.diff⟩, ⟨"base64", Job.base64⟩, ⟨"od", Job.od⟩, ⟨"echo", Job.echo⟩,
    ⟨"printf", Job.printf⟩, ⟨"test", Job.test⟩, ⟨"[", Job.bracket⟩,
    ⟨"comm", Job.comm⟩, ⟨"md5sum", Job.digests Digest.fourWords⟩,
    ⟨"sha1sum", Job.digests Digest.fiveWords⟩, ⟨"sha256sum", Job.digests Digest.eightWords⟩,
    ⟨"cksum", Job.cksum⟩, ⟨"truncate", Job.truncate⟩, ⟨"dd", Job.dd⟩, ⟨"split", Job.split⟩,
    ⟨"mktemp", Job.mktemp⟩, ⟨"unlink", Job.unlink⟩, ⟨"stat", Job.stat⟩, ⟨"install", Job.cp⟩,
    ⟨"arch", Job.arch⟩, ⟨"whoami", Job.whoami⟩, ⟨"id", Job.identity⟩, ⟨"tty", Job.terminal⟩,
    ⟨"sync", Job.succeed⟩, ⟨"awk", Job.awk⟩, ⟨"mawk", Job.awk⟩, ⟨mockName, Job.mockDebugger⟩]

end Shell
end CheckScript
