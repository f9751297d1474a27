import TriggerScript.Config

/-!
# Configuration text

The TOML document of a configuration, and how a configuration is taken from the file that keeps
it.
-/

namespace TriggerScript

/-- The digits of a control character in an escape. -/
def hexPair (n : Nat) : List Char := [Nat.digitChar (n / 16), Nat.digitChar (n % 16)]

def quotedChar (c : Char) : List Char :=
  if c = '"' ∨ c = '\\' then ['\\', c]
  else if c = '\n' then ['\\', 'n']
  else if c = '\t' then ['\\', 't']
  else if c = '\r' then ['\\', 'r']
  else if c.toNat < 0x20 ∨ c.toNat = 0x7F then ['\\', 'u', '0', '0'] ++ hexPair c.toNat
  else [c]

def quotedText (s : String) : String := .ofList ('"' :: s.toList.flatMap quotedChar ++ ['"'])

namespace AppConfig

def document (c : AppConfig) : String :=
  let seed := c.engine.rngSeed.toList.map fun seed => "rng_seed = " ++ toString seed.toNat
  let lines :=
    ["rules_directory = " ++ quotedText c.rulesDirectory,
      "tick_ms = " ++ toString c.tickMs.toNat, "", "[engine]",
      "max_link_depth = " ++ toString c.engine.maxLinkDepth.toNat] ++ seed ++
    ["debug_rules = " ++ (if c.engine.debugRules then "true" else "false"),
      "max_timed_lists = " ++ toString c.engine.maxTimedLists.toNat]
  String.join (lines.map (· ++ "\n"))

/-- The configuration in the file at a path. A file that cannot be understood counts as empty, and
a configuration without a directory takes the default one. -/
def ofFile (files : FileTree) (path defaultDirectory : String) : AppConfig :=
  let c := ((files.read? path).bind parse?).getD {}
  if c.rulesDirectory.isEmpty then { c with rulesDirectory := defaultDirectory } else c

end AppConfig

end TriggerScript
