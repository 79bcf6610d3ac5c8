import Muster.CommandLine.Programs
import Muster.Server.Basic

/-!
# The command line

The first argument chooses the program: `serve` or `list`.  Streams are lines of
standard input and output, one frame a line.

While serving, every line starts with a connection's number and a mark.  On
input `+` opens the next connection, `>` brings a frame and `-` ends the stream;
on output `<` stands before a frame.  The listing writes its request as one line
and takes every line that follows as a frame of the relay.
-/

namespace Muster.Main

open CommandLine Text

def entryAt (path : String) : IO Entry := do
  try
    return .contents (← IO.FS.readBinFile path).toList
  catch
    | .noFileOrDirectory .. => return .unreachable .noSuchFile
    | .inappropriateType (some _) .. => return .unreachable .notDirectory
    | .invalidArgument (some _) .. => return .unreachable .nameTooLong
    | _ => return .directory

def filesAt (paths : List String) : IO Files := do
  let entries ← paths.mapM fun path => return (path, ← entryAt path)
  return fun path => (entries.lookup path).getD (.unreachable .noSuchFile)

def environmentOf (parameters : List Parameter) : IO (String → Option String) := do
  let entries ← (parameters.filterMap Parameter.environment).mapM fun name =>
    return (name, ← IO.getEnv name)
  return fun name => (entries.lookup name).join

/-- Reports a failure and yields the status to end with. -/
def fail (failure : Failure) : IO UInt32 := do
  if let .failed report := failure then IO.eprint report.text
  return failure.exitCode

/-- Writes what the peers have received, and forgets it. -/
def flush (server : Server) : IO Server := do
  let (received, sessions) := server.relay.sessions.collect
  for (session, sent) in received do
    for one in sent do
      if let .message frame := one then
        IO.println (decimal session.number.toNat ++ " < " ++ (ofUtf8? frame).getD "")
  (← IO.getStdout).flush
  return { server with relay := { server.relay with sessions } }

def obey (server : Server) (line : String) : Server :=
  match line.splitOn " " with
  | [_, "+"] => (server.connect false).2
  | [number, "-"] => server.hangUp ⟨(number.toNat?.getD 0).toUInt64⟩
  | number :: ">" :: words =>
    server.receive ⟨(number.toNat?.getD 0).toUInt64⟩ (utf8 (joined " " words))
  | _ => server

/-- Serves until the input ends. -/
partial def serveLines (server : Server) : IO Unit := do
  let line ← (← IO.getStdin).getLine
  if line.isEmpty then return
  serveLines (← flush (obey server (line.trimAsciiEnd.toString)))

/-- The lines of the input as frames. -/
partial def inputFrames : IO (List Frame) := do
  let line ← (← IO.getStdin).getLine
  if line.isEmpty then return []
  return utf8 line.trimAsciiEnd.toString :: (← inputFrames)

def serve (arguments : List String) : IO UInt32 := do
  let prepared ← match serverGiven (← environmentOf serverParameters) arguments with
    | .error failure => pure (Except.error failure)
    | .ok given =>
      match serverConfig (← filesAt (given.text? "config").toList) given with
      | .error failure => pure (.error failure)
      | .ok config =>
        let paths := config.tls.elim [] fun tls => [tls.certificate, tls.key]
        pure (launch (← filesAt paths) config)
  match prepared with
  | .error failure => fail failure
  | .ok launch =>
    serveLines (.start launch.sendTimeout)
    return 0

def list (arguments : List String) : IO UInt32 := do
  let environment ← environmentOf listingParameters
  match listingGiven environment arguments with
  | .error failure => fail failure
  | .ok given =>
    let files ← filesAt (given.text? "cert").toList
    IO.println ((ofUtf8? Request.dump.encode).getD "")
    (← IO.getStdout).flush
    match CommandLine.list files environment arguments .accepted (← inputFrames) .closed with
    | .error failure => fail failure
    | .ok text =>
      IO.print text
      return 0

end Muster.Main

/-- Runs the program that the first argument names. -/
def main (arguments : List String) : IO UInt32 :=
  match arguments with
  | "serve" :: arguments => Muster.Main.serve arguments
  | "list" :: arguments => Muster.Main.list arguments
  | _ => return 2
