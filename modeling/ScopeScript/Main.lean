import ScopeScript.CommandLine.Report

namespace ScopeScript

/-- The bytes of a file, if there is one at the path. -/
def contentOf (path : String) : IO (Option ByteArray) := do
  try
    return some (← IO.FS.readBinFile path)
  catch _ =>
    return none

def reportOf (arguments : List String) : IO Report := do
  match Command.ofArguments? arguments with
  | none => return .usage
  | some .version => return .version
  | some (.run request) => return .ofContent callLimit request (← contentOf request.file)

end ScopeScript

def main (arguments : List String) : IO UInt32 := do
  let report ← ScopeScript.reportOf arguments
  IO.print report.out
  IO.eprint report.err
  return report.status.toUInt32
