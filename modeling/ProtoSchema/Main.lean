import ProtoSchema.CommandLine

namespace ProtoSchema

/-- What the file system has at a path. -/
def readPath (path : String) : IO (Except IoFault String) := do
  if path.toList.contains '\x00' then return .error .nulByte
  try
    match String.fromUTF8? (← IO.FS.readBinFile path) with
    | some text => return .ok text
    | none => return .error .notText
  catch
    | .noFileOrDirectory _ _ _ => return .error .notFound
    | fault => return .error (.other (toString fault))

/-- Runs the program until no file is missing that the file system has not been asked for, each time with what is known
by then. -/
partial def runWith (known : Snapshot) (arguments : List String) : IO Ending := do
  match Ending.ofArguments known.disk arguments with
  | .failed (.failed (.load (.unreadable _ path .unread))) =>
    let answer ← readPath path
    runWith ((path, answer) :: known) arguments
  | ending => return ending

end ProtoSchema

open ProtoSchema in
def main (arguments : List String) : IO UInt32 := do
  let ending ← runWith [] arguments
  IO.print ending.output
  match ending with
  | .printed _ => pure ()
  | .failed (.failed error) => IO.eprintln ("Error: " ++ error.describe)
  | .failed .tooDeep => IO.eprintln "Error: the imports are nested too deeply"
  | .misused => IO.eprintln "usage: [-I PATH] [--source-url-pattern PATTERN] [--format text|summary] PROTO_FILES..."
  return ending.exitCode.toUInt32
