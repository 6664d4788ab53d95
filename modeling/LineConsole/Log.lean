import LineConsole.Text.Basic

/-!
# Log records

A log record is a level and a message. Levels are ranked by severity; a program that listens at
some level hears the records of that rank and above.

## Main definitions

* `Log.Level`, `Level.rank` — the levels and their order of severity
* `Level.ofName?` — the level a name stands for, in any case
* `Log.Entry` — a level with a message
-/

namespace LineConsole.Log

/-- The severities a record can have, from all to none but the gravest. -/
inductive Level where
  | unset
  | debug
  | info
  | warning
  | error
  | critical
deriving DecidableEq, Repr

namespace Level

/-- The severity of a level: the graver, the greater. -/
def rank : Level → Nat
  | unset => 0
  | debug => 10
  | info => 20
  | warning => 30
  | error => 40
  | critical => 50

/-- The name a level is written with. -/
def name : Level → String
  | unset => "NOTSET"
  | debug => "DEBUG"
  | info => "INFO"
  | warning => "WARNING"
  | error => "ERROR"
  | critical => "CRITICAL"

/-- The names a level answers to: its own, and a second one for two of them. -/
def ofUpperName? (name : String) : Option Level :=
  match name with
  | "NOTSET" => some unset
  | "DEBUG" => some debug
  | "INFO" => some info
  | "WARN" | "WARNING" => some warning
  | "ERROR" => some error
  | "FATAL" | "CRITICAL" => some critical
  | _ => none

/-- The capital of a character, as far as it can occur in a level's name: the ASCII letters, and
the dotless `ı` and the long `ſ`, whose capitals are the ASCII letters `I` and `S`. -/
def capital (c : Char) : Char :=
  if c = 'ı' then 'I' else if c = 'ſ' then 'S' else c.toUpper

/-- The level a name stands for, whatever the case of its letters. -/
def ofName? (name : Text) : Option Level := ofUpperName? (String.ofList (name.map capital))

end Level

/-- One record of the log. -/
structure Entry where
  level : Level
  message : String
deriving DecidableEq, Repr

end LineConsole.Log
