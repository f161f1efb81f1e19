/-!
# What is logged

A log shows the events from a level upwards in one of three layouts. The level named in the
environment goes before the one in the settings, and only the first log that is set up counts.
-/

namespace Neighbor

/-- How severe an event is. -/
inductive Level
  | error
  | warn
  | info
  | debug
  | trace
deriving DecidableEq

namespace Level

/-- All levels, the most severe first. -/
def all : List Level := [error, warn, info, debug, trace]

/-- How far down a level is. -/
def rank : Level → Nat
  | error => 1
  | warn => 2
  | info => 3
  | debug => 4
  | trace => 5

/-- The name of a level in a log. -/
def label : Level → String
  | error => "ERROR"
  | warn => "WARN"
  | info => "INFO"
  | debug => "DEBUG"
  | trace => "TRACE"

/-- The level of a name in capital or small letters. -/
def ofName? (s : String) : Option Level :=
  all.find? fun l => l.label.toLower == s.toLower

/-- The level of a name; a text that names none stands for `info`. -/
def ofName (s : String) : Level := (ofName? s).getD info

end Level

/-- How events are laid out. -/
inductive Layout
  | pretty
  | compact
  | json
deriving DecidableEq

/-- The layout of a name; a text that names none stands for `pretty`. -/
def Layout.ofName (s : String) : Layout :=
  if s = "json" then json else if s = "compact" then compact else pretty

/-- The wishes for a log. -/
structure LogSettings where
  level : String := "info"
  format : String := "pretty"
deriving DecidableEq

/-- A log at work. -/
structure Log where
  /-- The least severe level that is shown, if any is. -/
  threshold : Option Level
  layout : Layout
deriving DecidableEq

namespace Log

/-- The threshold that a text in the environment asks for: a level by name, nothing for `off`, and
`error` for an empty text. -/
def environmentThreshold (s : String) : Option Level :=
  if s.isEmpty then some .error else Level.ofName? s

/-- The log for a text in the environment and the wishes of a caller. -/
def make (environment : Option String) (wishes : Option LogSettings) : Log where
  threshold := match environment with
    | some s => environmentThreshold s
    | none => some (Level.ofName (wishes.getD {}).level)
  layout := Layout.ofName (wishes.getD {}).format

/-- Sets up a log unless there is one. -/
def setUp (environment : Option String) (current : Option Log) (wishes : Option LogSettings) :
    Option Log :=
  match current with
  | some log => some log
  | none => some (make environment wishes)

/-- Whether events of a level are shown. -/
def shows (log : Log) (l : Level) : Bool := log.threshold.any fun t => l.rank ≤ t.rank

end Log

end Neighbor
