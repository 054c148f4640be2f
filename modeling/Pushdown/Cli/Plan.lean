/-
  Pushdown/Cli/Plan.lean
  ======================
  **From options to a session.**  The settings are applied first, then the number
  of the VM's endpoint is read; with a VM command the debugger starts a VM, with
  an endpoint alone it attaches to one that is running.
-/
import Pushdown.Cli.Arguments
import Pushdown.Error
import Pushdown.Settings

namespace Pushdown.Cli

open Text

/-- Why the options cannot be followed. -/
inductive PlanFault where
  | badSetting (setting : String)
  | badEndpoint (text : String)
  | nothingToDebug
deriving DecidableEq, Repr

def PlanFault.message : PlanFault → String
  | .badSetting setting => "Can't apply config setting '" ++ setting ++ "'"
  | .badEndpoint text => "Can't understand port '" ++ text ++ "'"
  | .nothingToDebug => "Give either a port to attach to or a VM command to launch"

/-- The fault as the failure of the program. -/
def PlanFault.error (f : PlanFault) : Error := .invalidArgument (.described f.message)

/-- What the program is going to do. -/
structure Plan where
  settings : Settings
  host : String
  /-- The number at which the VM listens; a free one is chosen if there is none. -/
  listenAt : Option Nat
  asJson : Bool
  vmCommand : List String
deriving DecidableEq, Repr

/-- Apply the settings in order, up to the first that is refused. -/
def applySettings : Settings → List String → Except PlanFault Settings
  | s, [] => .ok s
  | s, setting :: rest =>
    match s.assign? setting with
    | some s => applySettings s rest
    | none => .error (.badSetting setting)

/-- The number of an endpoint, below 2^16. -/
def readEndpoint (text : String) : Except PlanFault Nat :=
  match readBelow? UInt16.size text.toList with
  | some n => .ok n
  | none => .error (.badEndpoint text)

def Plan.ofOptions (o : Options) : Except PlanFault Plan := do
  let settings ← applySettings Settings.default o.settings
  let listenAt ← o.listenAt.mapM readEndpoint
  if listenAt.isNone && o.vmCommand.isEmpty then .error .nothingToDebug
  else
    return ⟨settings, o.host.getD "127.0.0.1", listenAt, o.asJson, o.vmCommand⟩

/-- The program's name and version. -/
def versionLine : String := "PDA Debugger 0.2.0"

end Pushdown.Cli
