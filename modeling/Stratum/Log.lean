/-!
# Logging

What the parts of the library tell a logger, and what the loggers at hand do with it: a silent one
does nothing, a printing one writes warnings always and other lines as its switches say. One logger
is the global one, and it can be exchanged.
-/

namespace Stratum

/-- How important a line is. -/
inductive Level
  | verbose
  | debug
  | warning
  deriving DecidableEq, Repr

/-- A message with its level and its topic. -/
structure Line where
  level : Level
  topic : String
  message : String
  deriving DecidableEq, Repr

/-- What becomes of a line. -/
inductive Logger
  | silent
  | printing (verbose debug : Bool)
  deriving DecidableEq, Repr

namespace Logger

/-- A printing logger. Whoever wants debugging lines gets the verbose ones too. -/
def printer (verbose debug : Bool) : Logger := .printing (verbose || debug) debug

/-- What a logger writes for a line. -/
def output : Logger → Line → String
  | .silent, _ => ""
  | .printing verbose debug, ⟨level, topic, message⟩ =>
    match level with
    | .verbose => if verbose then "[" ++ topic ++ "] " ++ message ++ "\n" else ""
    | .debug => if debug then "[" ++ topic ++ "] " ++ message ++ "\n" else ""
    | .warning => "[" ++ topic ++ "] WARNING: " ++ message ++ "\n"

end Logger

/-- The loggers made so far, and which of them is the global one. -/
structure Loggers where
  made : Array Logger
  global : Nat

namespace Loggers

/-- The first global logger is silent. -/
def initial : Loggers := ⟨#[.silent], 0⟩

/-- Another logger, with its number. -/
def add (ls : Loggers) (l : Logger) : Nat × Loggers :=
  (ls.made.size, { ls with made := ls.made.push l })

/-- Makes a logger the global one. -/
def setGlobal (ls : Loggers) (id : Nat) : Loggers := { ls with global := id }

/-- What the logger of a number writes for a line. -/
def output (ls : Loggers) (id : Nat) (line : Line) : String :=
  ((ls.made[id]?).getD .silent).output line

end Loggers
end Stratum
