import PathRouting.CommandLine.Run

/-! The program: it reads the file that its arguments name and prints what they ask for. -/

namespace PathRouting

def readFile (path : String) : IO File := do
  try
    let bytes ← IO.FS.readBinFile path
    return .ok bytes.toList
  catch
    | .noFileOrDirectory .. => return .error .missing
    | .inappropriateType .. =>
      return .error (if path.endsWith "/" then .notDirectory else .isDirectory)
    | e => throw e

end PathRouting

open PathRouting CommandLine in
def main (args : List String) : IO UInt32 := do
  match Invocation.ofArguments? (args.map String.toList) with
  | none =>
    IO.eprintln "usage: [-c FILE] [-l LEVEL] (check | routes | match METHOD PATH)"
    return 2
  | some inv =>
    let result := outcome inv (← readFile inv.config.toString)
    IO.print result.out.toString
    IO.eprint result.err.toString
    return result.exit
