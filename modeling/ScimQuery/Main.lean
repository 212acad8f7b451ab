import ScimQuery.Program

/-!
# The executable

Looks up what a run may need, runs the program and writes what it leaves behind.
-/

namespace ScimQuery.Main

def variableNames : List String :=
  ["SCIMSQL_CONFIG", "SCIMSQL_DEFAULT_COUNT", "SCIMSQL_RESOURCE", "SCIMSQL_LOG", "RUST_LOG"]

/-- The code of a path that goes on behind a file; some calls report it with a minus. -/
def notDirectoryCode : UInt32 := 20

/-- The code of a name or a path that is too long, or with a minus as well. -/
def nameTooLongCode : UInt32 := 36

/-- What the operating system says of a path without a readable file. -/
def problemOf : IO.Error → FileProblem
  | .noFileOrDirectory .. => .notFound
  | .inappropriateType _ code _ =>
    if code = notDirectoryCode || code = -notDirectoryCode then .notDirectory else .isDirectory
  | e@(.invalidArgument _ code _) =>
    if code = nameTooLongCode || code = -nameTooLongCode then .nameTooLong else .other (toString e)
  | e => .other (toString e)

def readFile (path : String) : IO (Except FileProblem String) := do
  try
    return Files.decode (← IO.FS.readBinFile path)
  catch e => return .error (problemOf e)

/-- The rest of the standard input behind the bytes that have been read. -/
partial def readInput (stream : IO.FS.Stream) (read : ByteArray) : IO ByteArray := do
  let more ← stream.read 65536
  if more.isEmpty then return read else readInput stream (read ++ more)

def pathsOf (home : Option String) (i : CommandLine.Invocation) : List String :=
  (home.map Settings.profilePath).toList ++ [Settings.fileName]
    ++ (i.overrides.config.map (Files.expand home)).toList
    ++ match i.command with
      | .compile options => options.filterFile.toList
      | .resources => []

def readsInput (i : CommandLine.Invocation) : Bool :=
  match i.command with
  | .compile options => options.filterFile.isNone
  | .resources => false

def usageText : String := "Usage: scimsql [OPTIONS] <COMMAND>\n\nCommands: compile, resources, help"

end ScimQuery.Main

open ScimQuery Main

def main (words : List String) : IO UInt32 := do
  let values ← variableNames.mapM fun name => do return (name, ← IO.getEnv name)
  let environment := fun name => (values.lookup name).join
  let home ← IO.getEnv "HOME"
  let mut world : Surroundings := { files := Files.ofList [], home, environment }
  if let .ok i := CommandLine.parse environment words then
    let found ← (pathsOf home i).mapM fun path => do return (path, ← readFile path)
    world := { world with files := Files.ofList found }
    if readsInput i then
      let bytes ← readInput (← IO.getStdin) .empty
      world := { world with input := Files.decode bytes }
  let outcome := Program.run world words
  let directives := Program.logDirectives world
  for line in Log.complaints directives ++ outcome.log directives do IO.eprintln line
  if let .usage _ := outcome then IO.eprintln usageText
  IO.print outcome.stdout
  IO.eprint outcome.stderr
  return outcome.exitCode.toUInt32
