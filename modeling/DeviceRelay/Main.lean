/-
# Starting a server

The command line may name the file of the configuration. If there is no such file
the server has the default settings. It starts once the configuration is read, its
store can be opened, its principals are distinct and its limits are positive, in
this order; the first of these that fails is told. A server that starts is shown.

Key definitions: `configPath`, `configOfFile`, `startServer`, `main`.
-/
import DeviceRelay.Description
import DeviceRelay.Pairing.EdgeTable

namespace DeviceRelay

/-- The path that follows the option, or the path that is looked at without it. -/
def configPath (args : List String) : String :=
  match args.dropWhile (· ≠ "--config") with
  | _ :: path :: _ => path
  | _ => "pairlink.toml"

/-- The configuration of a file. Without a file all settings have their defaults. -/
def configOfFile : Option (List UInt8) → Except ConfigError Config
  | some bytes => Config.parse bytes
  | none => .ok {}

/-- The server of a configuration, or why it does not start. -/
def startServer (path : String) (file : Option (List UInt8)) : Except String Server := do
  let config ← (configOfFile file).mapError fun e => s!"loading {path}: {e.message}"
  match EdgeTable.pathFault? config.storage.database with
  | some cause => throw s!"opening {config.storage.database}: {cause.message}"
  | none => (Server.ofConfig config 0).mapError ConfigError.message

/-- The bytes of a file, if it exists. -/
def readFile? (path : String) : IO (Option (List UInt8)) := do
  try
    return some (← IO.FS.readBinFile path).toList
  catch
    | .noFileOrDirectory .. => return none
    | e => throw e

end DeviceRelay

/-- Shows the server that the command line asks for, or why it does not start. -/
def main (args : List String) : IO UInt32 := do
  let path := DeviceRelay.configPath args
  let file ← DeviceRelay.readFile? path
  match DeviceRelay.startServer path file with
  | .ok server =>
    IO.println server.description
    return 0
  | .error reason =>
    IO.eprintln reason
    return 1
