/-!
# Log records
-/

namespace ContainerAudit

/-- How much a program writes to its log, from nothing to everything. -/
inductive LogLevel where
  | off
  | error
  | warn
  | info
  | debug
  | trace
deriving DecidableEq, Repr

namespace LogLevel

/-- How much a level lets through. -/
def rank : LogLevel → Nat
  | off => 0
  | error => 1
  | warn => 2
  | info => 3
  | debug => 4
  | trace => 5

/-- The name of a level. -/
def name : LogLevel → String
  | off => "OFF"
  | error => "ERROR"
  | warn => "WARN"
  | info => "INFO"
  | debug => "DEBUG"
  | trace => "TRACE"

/-- All levels. -/
def all : List LogLevel := [off, error, warn, info, debug, trace]

end LogLevel

/-- A line of the log. -/
structure LogRecord where
  level : LogLevel
  text : String
deriving DecidableEq

/-- A record for those who look for mistakes. -/
def LogRecord.debug (text : String) : LogRecord := ⟨.debug, text⟩

/-- A record for everyone. -/
def LogRecord.info (text : String) : LogRecord := ⟨.info, text⟩

end ContainerAudit
