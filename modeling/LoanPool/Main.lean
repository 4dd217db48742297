import LoanPool.Cli.Run
import LoanPool.Probe.Unanswered
import LoanPool.Settings.Directory

/-!
# The command line

Reads the words and the settings file, and writes what comes of them. There is no network to be
had from here: a probe finds an endpoint that does not answer.
-/
namespace LoanPool

def readFault : IO.Error → String
  | .noFileOrDirectory .. => PathFault.noSuchFile.text
  | .permissionDenied .. => "Permission denied (os error 13)"
  | .inappropriateType _ 20 _ => PathFault.notDirectory.text
  | .inappropriateType _ 21 _ => PathFault.isDirectory.text
  | e => toString e

def readFile (file : String) : IO (Except String String) := do
  try
    match String.fromUTF8? (← IO.FS.readBinFile file) with
    | some text => return .ok text
    | none => return .error "stream did not contain valid UTF-8"
  catch e =>
    return .error (readFault e)

end LoanPool

def main (words : List String) : IO UInt32 := do
  let request := LoanPool.Cli.request words
  let content ←
    match request.file? with
    | some file => LoanPool.readFile file
    | none => pure (.ok "")
  let finish := LoanPool.Cli.grant content LoanPool.Probe.unanswered request
  (← IO.getStdout).putStr finish.out
  (← IO.getStderr).putStr finish.err
  return finish.code.toUInt32
