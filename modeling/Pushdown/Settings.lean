/-
  Pushdown/Settings.lean
  ======================
  **Settings.**  Three times in milliseconds, set by name or by a text of the form
  `Name=Value`.  Unknown names and negative values are refused.  A command timeout
  of zero means that commands wait for ever.
-/
import Pushdown.Text.Blank
import Pushdown.Text.Numeral

namespace Pushdown

open Text

/-- The times, in milliseconds: how long a command waits for its reply, how long
    to go on trying to reach a VM, and how long to wait between two attempts. -/
structure Settings where
  commandTimeout : Nat
  connectTimeout : Nat
  connectRetryInterval : Nat
deriving DecidableEq, Repr

namespace Settings

def default : Settings := ⟨10000, 10000, 100⟩

/-- The value of the setting with this name. -/
def get? (s : Settings) : String → Option Nat
  | "CommandTimeout" => some s.commandTimeout
  | "ConnectTimeout" => some s.connectTimeout
  | "ConnectRetryInterval" => some s.connectRetryInterval
  | _ => none

/-- Change the setting with this name. -/
def put? (s : Settings) (name : String) (ms : Nat) : Option Settings :=
  match name with
  | "CommandTimeout" => some { s with commandTimeout := ms }
  | "ConnectTimeout" => some { s with connectTimeout := ms }
  | "ConnectRetryInterval" => some { s with connectRetryInterval := ms }
  | _ => none

/-- Set a value by name, unless the name is unknown or the value negative. -/
def set? (s : Settings) (name : String) (value : Int) : Option Settings :=
  if value < 0 then none else s.put? name value.toNat

/-- Set a value by a text of the form `Name=Value`, blanks around both allowed. -/
def assign? (s : Settings) (setting : String) : Option Settings := do
  let cs := setting.toList
  let '=' :: text := cs.dropWhile (· != '=') | none
  let value ← readInt64? (trim text)
  s.set? (String.ofList (trim (cs.takeWhile (· != '=')))) value.toInt

/-- How long a command may take, if there is a limit. -/
def commandLimit (s : Settings) : Option Nat :=
  if s.commandTimeout = 0 then none else some s.commandTimeout

end Settings

end Pushdown
