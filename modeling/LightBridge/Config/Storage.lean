import LightBridge.Config.Reader
import LightBridge.Disk

/-!
Where configurations are kept.

A configuration is a file on a disk. One that is missing counts as the default configuration; a
folder in its place, or a file that is no text, is an error. Saving makes the folders above the file
and replaces what the file held.
-/

namespace LightBridge.Config

/-- The configuration in the file at a path. -/
def load (d : Disk) (path : String) : Except ConfigError Config :=
  match d.at? path with
  | none => .ok default
  | some (.file content) => (read content).mapError .text
  | some _ => .error .storage

/-- The text of the file that a configuration is saved in. -/
def fileText (c : Config) : String := c.toJson.indentedText

/-- The disk after a configuration was to be saved at a path. When that fails, folders that were
made for it stay. -/
def save (c : Config) (d : Disk) (path : String) : Disk × Except ConfigError Unit :=
  match d.put path (.file c.fileText) with
  | (d, true) => (d, .ok ())
  | (d, false) => (d, .error .storage)

/-- The home of a user: the one that the environment names, or else the one of the account. -/
def homeOf (account : String) (setting : String → Option String) : String :=
  ((setting "HOME").filter fun home => !home.isEmpty).getD account

/-- The path at which the configuration of a user is kept: below the folder for configurations that
the environment names by an absolute path, or else below the folder `.config` of the user's home. -/
def defaultPath (home : String) (setting : String → Option String) : String :=
  let base := ((setting "XDG_CONFIG_HOME").filter Text.startsWithSlash).getD
    (Disk.join home ".config")
  Disk.join (Disk.join base "hue-sdk") "bridge.json"

/-- The configuration of a user, with the overrides of the environment. -/
def loadDefault (d : Disk) (home : String) (setting : String → Option String) :
    Except ConfigError Config := do
  let c ← load d (defaultPath home setting)
  let (c, outcome) := c.override setting
  outcome
  pure c

end LightBridge.Config
