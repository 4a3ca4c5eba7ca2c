import ControlLogic.Machine.Config
import ControlLogic.Stimulus
import ControlLogic.Toml.Reader

/-!
Scenarios: settings for a run together with stimuli and the times they are applied at.
-/

set_option autoImplicit false
set_option relaxedAutoImplicit false

namespace ControlLogic

/-- A scenario. Times are in milliseconds from the start; the stimuli are in the order they are
listed in. -/
structure Scenario where
  stepLimit : Option Nat := none
  virtualClock : Option Bool := none
  defines : List String := []
  settle : Option Nat := none
  stimuli : List (Nat × Stimulus) := []
  deriving DecidableEq, Repr, Inhabited

namespace Scenario

open Toml (Item Entries)

def text? : Item → Option String
  | .text s => some s
  | _ => none

def integer? : Item → Option Int
  | .integer n => some n
  | _ => none

def natural? : Item → Option Nat
  | .integer n => if 0 ≤ n then some n.toNat else none
  | _ => none

def bool? : Item → Option Bool
  | .bool b => some b
  | _ => none

def field? {α : Type} (es : Entries) (key : String) (read : Item → Option α) : Option α :=
  es.get? key >>= read

def optional? {α : Type} (es : Entries) (key : String) (read : Item → Option α) :
    Option (Option α) :=
  match es.get? key with
  | none => some none
  | some item => (read item).map some

/-- What an entry does. Keys that its kind does not need are passed over. -/
def action? (es : Entries) : Option Stimulus := do
  match ← field? es "kind" text? with
  | "digital" => return .digital (← field? es "name" text?) (← field? es "value" integer?)
  | "analog" => return .analog (← field? es "name" text?) (← field? es "value" integer?)
  | "serial" => return .serial (← field? es "name" text?) (← field? es "value" text?)
  | "stop" => return .stop
  | _ => none

def stimulus? (es : Entries) : Option (Nat × Stimulus) := do
  let time ← field? es "at_ms" natural?
  let action ← action? es
  return (time, action)

def tables? : Item → Option (List Entries)
  | .tables elements => some elements
  | .list items => items.mapM fun
    | .inline es => some es
    | _ => none
  | _ => none

def texts? : Item → Option (List String)
  | .list items => items.mapM text?
  | _ => none

def keys : List String :=
  ["step_limit", "virtual_clock", "defines", "settle_ms", "stimulus"]

def ofEntries? (es : Entries) : Option Scenario := do
  if es.all fun (key, _) => keys.contains key then
    let stepLimit ← optional? es "step_limit" natural?
    let virtualClock ← optional? es "virtual_clock" bool?
    let defines ← optional? es "defines" texts?
    let settle ← optional? es "settle_ms" natural?
    let entries ← optional? es "stimulus" tables?
    let stimuli ← (entries.getD []).mapM stimulus?
    return ⟨stepLimit, virtualClock, defines.getD [], settle, stimuli⟩
  else none

def parse? (text : String) : Option Scenario :=
  Toml.parse? text >>= ofEntries?

/-- The stimuli by their times; those of one time stay in the order they are listed in. -/
def timeline (s : Scenario) : List (Nat × Stimulus) :=
  s.stimuli.mergeSort fun a b => a.1 ≤ b.1

/-- Settings with those of a scenario in their place; names it defines are added. -/
def configure (s : Scenario) (config : Config) : Config :=
  { config with
    stepLimit := s.stepLimit.getD config.stepLimit
    clock := if s.virtualClock = some true then .virtual else config.clock
    defines := config.defines ++ s.defines }

def parseFailure : String := "Failed to parse scenario"

end Scenario

end ControlLogic
