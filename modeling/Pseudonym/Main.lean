import Pseudonym.CommandLine.Run

/-! The program. Files, the environment and chance come in here, and the outcome of the run goes out. -/
namespace Pseudonym.CommandLine

def readFile (path : String) : IO (String × Option ByteArray) := do
  try
    let content ← IO.FS.readBinFile path
    return (path, some content)
  catch _ => return (path, none)

def world (arguments : List String) : IO World := do
  let generator ← IO.getEnv "JSVEIL_GENERATOR"
  let paths := match read? generator arguments with
    | some invocation => invocation.paths "."
    | none => []
  let files ← paths.mapM readFile
  let chance ← IO.getRandomBytes 8
  return ⟨fun path => (files.lookup path).join, ".", generator, chance.toUInt64LE!⟩

end Pseudonym.CommandLine

def main (arguments : List String) : IO UInt32 := do
  let world ← Pseudonym.CommandLine.world arguments
  let outcome := Pseudonym.CommandLine.run world arguments
  IO.print outcome.output
  IO.eprint outcome.notice
  return outcome.exitCode.toUInt32
