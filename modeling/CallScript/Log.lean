import CallScript.Calendar

/-! # Log lines

Messages for the person at the terminal.

* **`Level`** is the weight of a message.
* **`Style`** says how log lines look; **`Style.line`** writes one. -/

namespace CallScript.Log

/-- The **level** of a message. -/
inductive Level where
  /-- Something to know. -/
  | info
  /-- Something to look at. -/
  | warn
  /-- Something that went wrong. -/
  | error
  deriving DecidableEq

/-- The name of a level. -/
def Level.name : Level → String
  | .info => "INFO"
  | .warn => "WARN"
  | .error => "ERROR"

/-- How log lines look. -/
structure Style where
  /-- Whether the terminal is told to change colours. -/
  color : Bool
  /-- Whether the level stands in front of the message. -/
  tag : Bool
  deriving DecidableEq

/-- Whether a terminal takes colours: its kind is known and not `dumb`, and nobody has asked for no
colours. -/
def wantsColor (terminal noColor : Option String) : Bool :=
  terminal.isSome && terminal ≠ some "dumb" && noColor.isNone

/-- The control sequence that sets an attribute of the terminal. -/
def control (code : String) : String :=
  s!"\x1b[{code}m"

/-- The control sequences in front of a message: plain for information, bold yellow for warnings and
bold red for errors. -/
def Level.opening : Level → String
  | .info => control "0"
  | .warn => control "0" ++ control "1" ++ control "33"
  | .error => control "0" ++ control "1" ++ control "31"

namespace Style

/-- The text of a log line: the time, the level and the message, as far as they are wanted. -/
def content (style : Style) (time : Option Timestamp) (level : Level) (message : String) : String :=
  let stamp := match time with
    | some timestamp => timestamp.text ++ " "
    | none => ""
  let tag := if style.tag then s!"[{level.name}] " else ""
  stamp ++ tag ++ message ++ "\n"

/-- A log line. In colour, the control sequences stand around the whole line with its newline. -/
def line (style : Style) (time : Option Timestamp) (level : Level) (message : String) : String :=
  let content := style.content time level message
  if style.color then level.opening ++ content ++ control "0" else content

end Style

end CallScript.Log
