import ComponentUsage.Disk.Fault
/-!
# Journal records

What a program reports while it works, and how much each report matters.
-/

namespace ComponentUsage

/-- How much a record matters. -/
inductive Level where
  | debug
  | info
  | warning
  | error
  | critical
  deriving DecidableEq, Repr

namespace Level

def rank : Level → Nat
  | .debug => 10
  | .info => 20
  | .warning => 30
  | .error => 40
  | .critical => 50

def name : Level → String
  | .debug => "DEBUG"
  | .info => "INFO"
  | .warning => "WARNING"
  | .error => "ERROR"
  | .critical => "CRITICAL"

def all : List Level := [.debug, .info, .warning, .error, .critical]

/-- The level of that name. -/
def ofName? (name : String) : Option Level := all.find? (·.name == name)

/-- Whether a level matters at least as much as another one. -/
def atLeast (l bound : Level) : Bool := bound.rank ≤ l.rank

end Level

/-- One report. -/
structure Record where
  level : Level
  /-- The part of the program that reports. -/
  source : String
  message : String
  /-- The fault that the record is about, if the place where it arose is to be
  told. -/
  fault : Option Fault := none
  deriving DecidableEq, Repr

/-- The name of the source; the nameless one is the root of all sources. -/
def Record.sourceName (r : Record) : String := if r.source = "" then "root" else r.source

end ComponentUsage
