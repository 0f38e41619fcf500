/-
# Workflow definitions and captured plans

`workflow_schema.py`: a definition loaded from disk, and the plan that a run captures of it.  A
plan is the canonical JSON text of what will be executed; its digest is what an administrator
approves, and the definition that a worker executes is decoded from the text.

`definition_capture` is the round trip: the decoded definition is the captured one with its
mappings in key order, and capturing it again gives the same plan.
-/
import QDistro.CanonicalJson
import QDistro.Sha256

namespace Workflow

open JsonText

/-! ## Definitions -/

inductive TriggerType where
  | processSpawn
  | cron
  | dbusSignal
  | qbusEvent
  deriving DecidableEq, Repr

def TriggerType.text : TriggerType → String
  | .processSpawn => "process_spawn"
  | .cron => "cron"
  | .dbusSignal => "dbus_signal"
  | .qbusEvent => "qbus_event"

/-- `TriggerType(text)` -/
def TriggerType.ofText (text : String) : Option TriggerType :=
  [TriggerType.processSpawn, .cron, .dbusSignal, .qbusEvent].find? fun t => t.text = text

inductive StepType where
  | deliverSecret
  | waitForProcess
  | runHook
  | callDbus
  | callBroker
  deriving DecidableEq, Repr

def StepType.text : StepType → String
  | .deliverSecret => "deliver_secret"
  | .waitForProcess => "wait_for_process"
  | .runHook => "run_hook"
  | .callDbus => "call_dbus"
  | .callBroker => "call_broker"

/-- `StepType(text)` -/
def StepType.ofText (text : String) : Option StepType :=
  [StepType.deliverSecret, .waitForProcess, .runHook, .callDbus, .callBroker].find? fun t =>
    t.text = text

/-- A mapping with string keys. -/
abbrev Fields := List (String × Json)

structure TriggerDef where
  type : TriggerType
  config : Fields

structure StepDef where
  type : StepType
  name : String
  config : Fields

structure WorkflowDef where
  name : String
  trigger : TriggerDef
  steps : List StepDef
  conditions : List Fields := []
  needs : List String := []
  roles : List (String × String) := []
  autoRun : Bool := false
  sourcePath : String := ""
  description : String := ""

/-! ## Plans -/

def TriggerDef.data (t : TriggerDef) : Json :=
  .obj [("type", .str t.type.text), ("config", .obj t.config)]

def StepDef.data (s : StepDef) : Json :=
  .obj [("type", .str s.type.text), ("name", .str s.name), ("config", .obj s.config)]

/-- The mapping of roles. -/
def rolesFields (roles : List (String × String)) : Fields := roles.map fun r => (r.1, .str r.2)

/-- The dictionary that `WorkflowPlan.capture` writes. -/
def WorkflowDef.data (wf : WorkflowDef) : Json :=
  .obj [("name", .str wf.name), ("trigger", wf.trigger.data),
    ("steps", .arr (wf.steps.map StepDef.data)), ("conditions", .arr (wf.conditions.map .obj)),
    ("needs", .arr (wf.needs.map .str)), ("roles", .obj (rolesFields wf.roles)),
    ("auto_run", .bool wf.autoRun)]

/-- `WorkflowPlan` -/
structure WorkflowPlan where
  definitionJson : List Char
  deriving DecidableEq

/-- `WorkflowPlan.capture(wf)`.  A number that JSON cannot express is refused, and so is an
integer that Python does not write. -/
def WorkflowPlan.capture (wf : WorkflowDef) : Except String WorkflowPlan :=
  if hasAny isConstant wf.data then .error "workflow numbers must be finite"
  else if hasAny isLongInt wf.data then
    .error "Exceeds the limit (4300 digits) for integer string conversion"
  else .ok ⟨dumpsSorted compactSeps wf.data⟩

/-- `WorkflowPlan.digest` -/
def WorkflowPlan.digest (p : WorkflowPlan) : List Char := Sha256.hexdigest p.definitionJson

def asText : Json → Option String
  | .str s => some s
  | _ => none

def asFields : Json → Option Fields
  | .obj fs => some fs
  | _ => none

def asItems : Json → Option (List Json)
  | .arr vs => some vs
  | _ => none

def asFlag : Json → Option Bool
  | .bool b => some b
  | _ => none

/-- `d[key]` -/
def item (d : Fields) (key : String) : Option Json := PyDict.lookup d key

def StepDef.ofData (v : Json) : Option StepDef := do
  let d ← asFields v
  return ⟨← StepType.ofText (← asText (← item d "type")), ← asText (← item d "name"),
    ← asFields (← item d "config")⟩

def TriggerDef.ofData (v : Json) : Option TriggerDef := do
  let d ← asFields v
  return ⟨← TriggerType.ofText (← asText (← item d "type")), ← asFields (← item d "config")⟩

/-- The roles of a mapping. -/
def rolesOf (fs : Fields) : Option (List (String × String)) :=
  fs.mapM fun f => do return (f.1, ← asText f.2)

/-- The definition of a decoded dictionary. -/
def WorkflowDef.ofData (v : Json) : Option WorkflowDef := do
  let d ← asFields v
  let name ← asText (← item d "name")
  let trigger ← TriggerDef.ofData (← item d "trigger")
  let steps ← (← asItems (← item d "steps")).mapM StepDef.ofData
  let conditions ← (← asItems (← item d "conditions")).mapM asFields
  let needs ← (← asItems (← item d "needs")).mapM asText
  let roles ← rolesOf (← asFields (← item d "roles"))
  let autoRun ← asFlag (← item d "auto_run")
  return { name, trigger, steps, conditions, needs, roles, autoRun }

/-- `WorkflowPlan.definition()` -/
def WorkflowPlan.definition (p : WorkflowPlan) : Option WorkflowDef := do
  WorkflowDef.ofData (← loads p.definitionJson)

/-- A definition that the loader accepts: its mappings are dictionaries, and it can be
captured. -/
structure LoadedDef where
  wf : WorkflowDef
  dicts : Distinct wf.data
  plan : WorkflowPlan
  captured : WorkflowPlan.capture wf = .ok plan

/-! ## The round trip -/

/-- A mapping with its keys in order, at every depth. -/
def sortedFields (fs : Fields) : Fields := sortFields (sortKeysFields fs)

theorem sortKeys_obj (fs : Fields) : sortKeys (.obj fs) = .obj (sortedFields fs) := by
  rw [sortKeys]
  rfl

theorem sortKeys_arr (vs : List Json) : sortKeys (.arr vs) = .arr (vs.map sortKeys) := by
  rw [sortKeys]
  congr 1
  induction vs with
  | nil => rw [sortKeysItems, List.map_nil]
  | cons v vs ih => rw [sortKeysItems, ih, List.map_cons]

theorem item_sortedFields {fs : Fields} (h : (fs.map Prod.fst).Nodup) (key : String) :
    item (sortedFields fs) key = (item fs key).map sortKeys := lookup_sortFields h key

/-- The roles in the order of their names. -/
def sortedRoles (roles : List (String × String)) : List (String × String) :=
  roles.insertionSort fun a b => a.1 ≤ b.1

theorem sortedFields_roles (roles : List (String × String)) :
    sortedFields (rolesFields roles) = rolesFields (sortedRoles roles) := by
  have hsame : sortKeysFields (rolesFields roles) = rolesFields roles := by
    rw [sortKeysFields_eq_map, rolesFields, List.map_map]
    apply List.map_congr_left
    intro r _
    simp
  rw [sortedFields, hsame, sortedRoles]
  exact (List.map_insertionSort (fun a b : String × String => a.1 ≤ b.1)
    (fun a b : String × Json => a.1 ≤ b.1) _ _ fun a _ b _ => Iff.rfl).symm

def StepDef.sorted (s : StepDef) : StepDef := { s with config := sortedFields s.config }

def TriggerDef.sorted (t : TriggerDef) : TriggerDef := { t with config := sortedFields t.config }

/-- The definition as a plan keeps it. -/
def WorkflowDef.sorted (wf : WorkflowDef) : WorkflowDef where
  name := wf.name
  trigger := wf.trigger.sorted
  steps := wf.steps.map StepDef.sorted
  conditions := wf.conditions.map sortedFields
  needs := wf.needs
  roles := sortedRoles wf.roles
  autoRun := wf.autoRun

theorem stepTypeOfText_text (t : StepType) : StepType.ofText t.text = some t := by
  cases t <;> rfl

theorem triggerTypeOfText_text (t : TriggerType) : TriggerType.ofText t.text = some t := by
  cases t <;> rfl

theorem stepOfData_sortKeys (s : StepDef) : StepDef.ofData (sortKeys s.data) = some s.sorted := by
  have hnd : (([("type", Json.str s.type.text), ("name", .str s.name), ("config", .obj s.config)] :
      Fields).map Prod.fst).Nodup := by
    simp
  rw [StepDef.data, sortKeys_obj, StepDef.ofData]
  simp only [asFields, Option.bind_eq_bind, Option.bind_some, item_sortedFields hnd]
  simp [item, PyDict.lookup, asText, sortKeys_obj, stepTypeOfText_text, StepDef.sorted]

theorem triggerOfData_sortKeys (t : TriggerDef) :
    TriggerDef.ofData (sortKeys t.data) = some t.sorted := by
  have hnd : (([("type", Json.str t.type.text), ("config", .obj t.config)] :
      Fields).map Prod.fst).Nodup := by
    simp
  rw [TriggerDef.data, sortKeys_obj, TriggerDef.ofData]
  simp only [asFields, Option.bind_eq_bind, Option.bind_some, item_sortedFields hnd]
  simp [item, PyDict.lookup, asText, sortKeys_obj, triggerTypeOfText_text, TriggerDef.sorted]

theorem mapM_map_eq_some {α β γ : Type} (read : β → Option γ) (write : α → β) (f : α → γ)
    (h : ∀ a, read (write a) = some (f a)) (l : List α) :
    (l.map write).mapM read = some (l.map f) := by
  induction l with
  | nil => rfl
  | cons a l ih =>
    rw [List.map_cons, List.mapM_cons, h, ih]
    rfl

theorem rolesOf_rolesFields (roles : List (String × String)) :
    rolesOf (rolesFields roles) = some roles := by
  have hread := mapM_map_eq_some (fun f : String × Json => do return (f.1, ← asText f.2))
    (fun r : String × String => (r.1, .str r.2)) id (fun _ => rfl) roles
  rw [List.map_id] at hread
  exact hread

theorem ofData_sortKeys (wf : WorkflowDef) : WorkflowDef.ofData (sortKeys wf.data) = some wf.sorted := by
  set fields : Fields := [("name", .str wf.name), ("trigger", wf.trigger.data),
    ("steps", .arr (wf.steps.map StepDef.data)), ("conditions", .arr (wf.conditions.map .obj)),
    ("needs", .arr (wf.needs.map .str)), ("roles", .obj (rolesFields wf.roles)),
    ("auto_run", .bool wf.autoRun)] with hfields
  have hnd : (fields.map Prod.fst).Nodup := by
    rw [hfields]
    simp
  have hname : item (sortedFields fields) "name" = some (.str wf.name) := by
    rw [item_sortedFields hnd]
    simp [item, PyDict.lookup, hfields]
  have htrigger : item (sortedFields fields) "trigger" = some (sortKeys wf.trigger.data) := by
    rw [item_sortedFields hnd]
    simp [item, PyDict.lookup, hfields]
  have hsteps : item (sortedFields fields) "steps" =
      some (.arr (wf.steps.map fun s => sortKeys s.data)) := by
    rw [item_sortedFields hnd]
    simp [item, PyDict.lookup, hfields, sortKeys_arr, Function.comp_def]
  have hconditions : item (sortedFields fields) "conditions" =
      some (.arr (wf.conditions.map fun c => .obj (sortedFields c))) := by
    rw [item_sortedFields hnd]
    simp [item, PyDict.lookup, hfields, sortKeys_arr, sortKeys_obj, Function.comp_def]
  have hneeds : item (sortedFields fields) "needs" = some (.arr (wf.needs.map .str)) := by
    rw [item_sortedFields hnd]
    simp [item, PyDict.lookup, hfields, sortKeys_arr, Function.comp_def]
  have hroles : item (sortedFields fields) "roles" =
      some (.obj (rolesFields (sortedRoles wf.roles))) := by
    rw [item_sortedFields hnd, ← sortedFields_roles]
    simp [item, PyDict.lookup, hfields, sortKeys_obj]
  have hauto : item (sortedFields fields) "auto_run" = some (.bool wf.autoRun) := by
    rw [item_sortedFields hnd]
    simp [item, PyDict.lookup, hfields, sortKeys]
  have hconditionsRead : (wf.conditions.map fun c => Json.obj (sortedFields c)).mapM asFields =
      some (wf.conditions.map sortedFields) :=
    mapM_map_eq_some asFields (fun c => Json.obj (sortedFields c)) sortedFields (fun _ => rfl) _
  have hneedsRead : (wf.needs.map Json.str).mapM asText = some wf.needs := by
    have hread := mapM_map_eq_some asText Json.str id (fun _ => rfl) wf.needs
    rw [List.map_id] at hread
    exact hread
  rw [WorkflowDef.data, ← hfields, sortKeys_obj, WorkflowDef.ofData]
  show (item (sortedFields fields) "name" >>= _) = _
  rw [hname, htrigger, hsteps, hconditions, hneeds, hroles, hauto]
  show (TriggerDef.ofData (sortKeys wf.trigger.data) >>= _) = _
  rw [triggerOfData_sortKeys]
  show ((wf.steps.map fun s => sortKeys s.data).mapM StepDef.ofData >>= _) = _
  rw [mapM_map_eq_some _ _ _ stepOfData_sortKeys]
  show ((wf.conditions.map fun c => Json.obj (sortedFields c)).mapM asFields >>= _) = _
  rw [hconditionsRead]
  show ((wf.needs.map Json.str).mapM asText >>= _) = _
  rw [hneedsRead]
  show (rolesOf (rolesFields (sortedRoles wf.roles)) >>= _) = _
  rw [rolesOf_rolesFields]
  rfl

theorem sortKeys_data_sorted (wf : WorkflowDef) : sortKeys wf.sorted.data = sortKeys wf.data := by
  have hobj : ∀ fs : Fields, sortKeys (.obj (sortedFields fs)) = sortKeys (.obj fs) := by
    intro fs
    rw [← sortKeys_obj, sortKeys_sortKeys]
  have hroles : sortKeys (.obj (rolesFields (sortedRoles wf.roles))) =
      sortKeys (.obj (rolesFields wf.roles)) := by
    rw [← sortedFields_roles, hobj]
  have htrigger : sortKeys wf.trigger.sorted.data = sortKeys wf.trigger.data := by
    rw [TriggerDef.data, TriggerDef.data, sortKeys, sortKeys]
    simp only [sortKeysFields, TriggerDef.sorted, hobj]
  have hstep : ∀ s : StepDef, sortKeys s.sorted.data = sortKeys s.data := by
    intro s
    rw [StepDef.data, StepDef.data, sortKeys, sortKeys]
    simp only [sortKeysFields, StepDef.sorted, hobj]
  rw [WorkflowDef.data, WorkflowDef.data, sortKeys, sortKeys]
  simp only [sortKeysFields, WorkflowDef.sorted, sortKeys_arr, List.map_map, Function.comp_def, hobj,
    hroles, htrigger, hstep]

/-- **The round trip of a plan.** -/
theorem definition_capture {wf : WorkflowDef} {p : WorkflowPlan} (h : Distinct wf.data)
    (hcapture : WorkflowPlan.capture wf = .ok p) :
    p.definition = some wf.sorted ∧ WorkflowPlan.capture wf.sorted = .ok p := by
  have hconstant : hasAny isConstant wf.sorted.data = hasAny isConstant wf.data := by
    rw [← hasAny_sortKeys isConstant_sortKeys, sortKeys_data_sorted,
      hasAny_sortKeys isConstant_sortKeys]
  have hlong : hasAny isLongInt wf.sorted.data = hasAny isLongInt wf.data := by
    rw [← hasAny_sortKeys isLongInt_sortKeys, sortKeys_data_sorted,
      hasAny_sortKeys isLongInt_sortKeys]
  refine ⟨?_, ?_⟩
  · unfold WorkflowPlan.capture at hcapture
    split at hcapture
    · cases hcapture
    split at hcapture
    · cases hcapture
    obtain rfl := Except.ok.inj hcapture
    rw [WorkflowPlan.definition, loads_dumpsSorted compactSeps h]
    exact ofData_sortKeys wf
  · rw [← hcapture, WorkflowPlan.capture, WorkflowPlan.capture, hconstant, hlong, dumpsSorted,
      dumpsSorted, sortKeys_data_sorted]

end Workflow
