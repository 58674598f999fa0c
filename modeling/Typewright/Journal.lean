import Typewright.Json.Basic
import Typewright.Text.Case

/-!
# Journals and thresholds

A journal is what a run has to say along the way: messages, each with its level. The threshold of a
log is the least level of importance that is recorded. It is set by name, in any letter case, or by
number; setting it replaces whatever the log was shown by.

- `LogSetup.set`: the log after its threshold is set by name.
- `LogSetup.setTo`: the log after its threshold is set to what a value says.
-/

namespace Typewright

/-- How much a message matters. -/
inductive Level where
  | debug
  | info
  | warning
  | error
  deriving DecidableEq, Repr

/-- A message of a journal. -/
structure Remark where
  level : Level
  message : String
  deriving DecidableEq, Repr

/-- The messages of a run in order. -/
abbrev Journal := List Remark

/-! ## Thresholds -/

/-- The names of thresholds. -/
def thresholds : List (String × Int) :=
  [("CRITICAL", 50), ("FATAL", 50), ("ERROR", 40), ("WARN", 30), ("WARNING", 30), ("INFO", 20),
   ("DEBUG", 10), ("NOTSET", 0)]

/-- What a log is shown by. -/
inductive LogDisplay where
  | silent
  | console
  deriving DecidableEq

/-- How a log is set up. -/
structure LogSetup where
  threshold : Int
  displays : List LogDisplay
  deriving DecidableEq

/-- A name that is not the name of a threshold, in upper case. -/
structure UnknownThreshold where
  name : String

def UnknownThreshold.message (u : UnknownThreshold) : String :=
  s!"Unknown logging level: Level {u.name}"

/-- Why a value sets no threshold. -/
inductive ThresholdFault where
  | unknown (name : UnknownThreshold)
  /-- The value is neither a name nor a whole number. -/
  | notThreshold (value : Json)

namespace LogSetup

/-- How a log is set up before its threshold is set: everything is recorded and nothing shown. -/
def initial : LogSetup :=
  ⟨10, [.silent]⟩

/-- The log with the given threshold, shown on the console alone. -/
def withThreshold (n : Int) : LogSetup :=
  ⟨n, [.console]⟩

/-- The log after its threshold is set by name. -/
def set (level : String) : Except UnknownThreshold LogSetup :=
  let name := Text.upper level
  match thresholds.lookup name with
  | some n => .ok (withThreshold n)
  | none => .error ⟨name⟩

/-- The log after its threshold is set to what a value says; a truth value counts as one or zero. -/
def setTo : Json → Except ThresholdFault LogSetup
  | .str name => (set name).mapError .unknown
  | .int n => .ok (withThreshold n)
  | .bool b => .ok (withThreshold b.toNat)
  | j => .error (.notThreshold j)

end LogSetup

end Typewright
