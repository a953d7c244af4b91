import ApiClient.Text.Bytes

/-!
# ApiClient.Client.Journal

The effects of a call.

Design points:

* Everything that a call may touch beside its own values is one state: the world of the caller's
  hooks and transports, and the records that the client has logged.
* A hook is a function on this state. So the order in which hooks run is the order of function
  application, and that a hook does not run means that its function is not applied.
-/

namespace ApiClient

/-- How urgent a record is. -/
inductive LogLevel where
  /-- Of interest to developers. -/
  | debug
  /-- A failure that the caller sees too. -/
  | warn
deriving Repr, DecidableEq

/-- The name of a level. -/
def LogLevel.text : LogLevel → String
  | debug => "DEBUG"
  | warn => "WARN"

/-- A logged line. -/
structure LogRecord where
  /-- How urgent the record is. -/
  level : LogLevel
  /-- What happened. -/
  text : String
deriving Repr, DecidableEq

/-- The state of calls. -/
structure Journal (σ : Type) where
  /-- The world of the hooks and transports. -/
  world : σ
  /-- What was logged, in order. -/
  records : List LogRecord := []

/-- A computation with the effects of a call. -/
abbrev Call (σ α : Type) := StateM (Journal σ) α

namespace Call

variable {σ : Type}

/-- Logs a line. -/
def log (level : LogLevel) (text : String) : Call σ Unit :=
  modify fun j => { j with records := j.records ++ [⟨level, text⟩] }

/-- Runs a function on the world. -/
def onWorld {α : Type} (f : σ → α × σ) : Call σ α := fun j =>
  let (a, world) := f j.world
  (a, { j with world })

end Call

end ApiClient
