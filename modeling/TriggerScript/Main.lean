import TriggerScript.Console

/-!
# Command line

Runs a session on the standard streams. Before every line the part of the file system that the line
may ask for is read into a file tree; a configuration that the answer wrote goes back to its file.
-/

namespace TriggerScript.Terminal

/-- Read what is at a path into a place of a tree. Below directories only tables are read. -/
partial def gather (path : String) (place : List String) (isWanted : Bool) (t : FileTree) :
    IO FileTree := do
  match ← (IO.FS.realPath path).toBaseIO with
  | .error _ => return t
  | .ok file =>
      match ← file.readDir.toBaseIO with
      | .ok entries =>
          entries.foldlM (fun t entry =>
            gather (Path.join path entry.fileName) (place ++ [entry.fileName])
              (Path.isTableName entry.fileName) t) (t.insert place .directory)
      | .error _ =>
          if !isWanted then return t.insert place .binary
          match ← (IO.FS.readBinFile file).toBaseIO with
          | .ok bytes => return t.insert place ((String.fromUTF8? bytes).elim .binary .text)
          | .error _ => return t.insert place .binary

/-- A tree with what is at a path now. -/
def snapshot (base : FileTree) (path : String) : IO FileTree :=
  gather path (base.place path) true base

/-- Write the configuration file if an answer changed it. -/
def keepConfig (before : FileTree) (directory : String) (c : Console) : IO Unit := do
  match c.files.read? c.configPath with
  | some text =>
      if before.read? c.configPath != some text then
        IO.FS.createDirAll directory
        IO.FS.writeFile c.configPath text
  | none => return

def randomSeed : IO UInt64 := do
  let bytes ← IO.getRandomBytes 8
  return bytes.toList.foldl (fun n b => n * 256 + b.toUInt64) 0

def say (text : String) : IO Unit := do
  let out ← IO.getStdout
  out.putStr text
  out.flush

partial def serve (base : FileTree) (configDirectory : String) (c : Console) : IO Unit := do
  say Console.prompt
  let line ← (← IO.getStdin).getLine
  if line.isEmpty || Console.isLeave line then
    say Console.farewell
  else
    let files ← match c.path? line with
      | some path => snapshot base path
      | none => pure base
    let a := { c with files, entropy := ← randomSeed }.answer line
    keepConfig files configDirectory a.console
    say a.text
    serve base configDirectory a.console

/-- A directory of the environment, or one below the home directory. -/
def homeDirectory (name directory : String) : IO String := do
  match ← IO.getEnv name with
  | some path => if path.startsWith "/" then return path
  | none => pure ()
  return Path.join ((← IO.getEnv "HOME").getD "") directory

def run : IO Unit := do
  let base : FileTree :=
    { location := ""
      workingDirectory := Path.follow [] (Path.parts (← IO.currentDir).toString) }
  let configDirectory := Path.join (← homeDirectory "XDG_CONFIG_HOME" ".config") "smartscript"
  let configPath := Path.join configDirectory "config.toml"
  let rules := Path.join (← homeDirectory "XDG_DATA_HOME" ".local/share") "smartscript/rules"
  let withConfig ← snapshot base configPath
  let config := AppConfig.ofFile withConfig configPath rules
  let files ← gather config.rulesDirectory (base.place config.rulesDirectory) true withConfig
  let a := Console.start files configPath rules (← randomSeed)
  keepConfig files configDirectory a.console
  say a.text
  serve base configDirectory a.console

end TriggerScript.Terminal

def main : IO Unit := TriggerScript.Terminal.run
