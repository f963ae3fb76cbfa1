import LightBridge.Logging.Filter

/-!
Where log events go.

A process has at most one log, which is opened once and then stays. The mode decides whether a log
is opened at all, and a filter which events it takes. The filter is checked before the log is
opened.
-/

namespace LightBridge

/-- How a process logs: not at all, in short lines, or at length. -/
inductive LogMode where
  | silent
  | development
  | debug
deriving DecidableEq, Repr

/-- Why no log was opened. -/
inductive LogError where
  /-- There is a log already. -/
  | alreadyOpen
  /-- The filter is not well formed. -/
  | invalidFilter (directives : String)
deriving DecidableEq, Repr

namespace LogMode

/-- The mode that a setting asks for, blanks around it and the case of its letters apart; what is
unknown is silent. -/
def ofSetting (setting : String) : LogMode :=
  let word := String.ofList ((Text.trimBlanks setting.toList).map Char.toLower)
  if word = "development" || word = "dev" then development
  else if word = "debug" then debug
  else silent

/-- The filter of a mode when the environment sets none. -/
def defaultFilter : LogMode → String
  | silent => "off"
  | development => "info"
  | debug => "debug"

end LogMode

namespace Logging

/-- The filter that an environment sets, or else the given one. -/
def filterFrom (setting : String → Option String) (fallback : String) : String :=
  ((setting "HUE_LOG_LEVEL").or (setting "RUST_LOG")).getD fallback

/-- Opens the log that a mode asks for, and tells whether there is a log afterwards. -/
def openLog (mode : LogMode) (setting : String → Option String) (isOpen : Bool) :
    Except LogError Unit × Bool :=
  match mode with
  | .silent => (.ok (), isOpen)
  | mode =>
    let directives := filterFrom setting mode.defaultFilter
    if !LogFilter.isValid directives then (.error (.invalidFilter directives), isOpen)
    else if isOpen then (.error .alreadyOpen, isOpen)
    else (.ok (), true)

/-- The mode that an environment asks for. -/
def modeFrom (setting : String → Option String) : LogMode :=
  ((setting "HUE_LOG_MODE").map LogMode.ofSetting).getD .silent

end Logging

end LightBridge
