/-
# The offload pool of the session manager

`SessionManager._run_offloaded` and the teardown in `main` (`qdistro_session_manager.py`).  A call
on the bus is admitted against a bound, put on a queue and taken by a worker thread, which runs
`work()` and delivers the answer through the main loop.  The main thread also answers a call that
waited too long, and at shutdown it answers every call that is left.

A thread that acts on a call is a list of instructions, the next one first.  An instruction is one
lock section of the source, or one action between two sections, and says which instructions come
next: this is the closure that the source runs there.  The events of the threads interleave in any
order.  The dispatch thread, the callbacks of the loop and the teardown are one thread, `main`.
How many workers there are is left open.
-/
import Mathlib.Data.List.Count
import Mathlib.Data.Int.Order.Basic

namespace Offload

inductive Answer where
  | reply
  | error (message : String)
  deriving DecidableEq, Repr

/-- How `work()` ends. -/
inductive WorkEnd where
  | returns
  | raises (message : String)
  /-- A `BaseException` that is not an `Exception`. -/
  | escapes
  deriving DecidableEq, Repr

inductive Instr where
  /-- `on_worker`, its section -/
  | enter
  | work
  /-- `guarded`, the count of running operations -/
  | retire
  | abandon
  /-- `deliver`, its section -/
  | deliver (answer : Answer)
  | idleAdd
  /-- `deliver`, the second look at `_stopping` -/
  | recheck
  /-- `_idle_answer` -/
  | claimIdle
  /-- `deliver_now`, its first section -/
  | claimNow
  /-- `deliver_now`, its second section -/
  | refuseNow
  /-- `answer_stopped`, the count of answers in flight -/
  | countStopped
  /-- `answer_stopped`, its section -/
  | refuseStopped
  /-- `answer_stopped`, `finally` -/
  | uncountStopped
  /-- `_invoke` -/
  | callback (answer : Answer)
  /-- `_drop_answer_registration` -/
  | drop
  /-- `release_slot`, its first section -/
  | release
  /-- `release_slot`, its second section -/
  | uncount
  /-- The answer of a call that is not admitted. -/
  | answerInline (answer : Answer)
  | enqueue
  /-- The refusal when the queue is full. -/
  | expireFull
  /-- `GLib.timeout_add` -/
  | arm
  /-- `queue_deadline` -/
  | expireLate
  | settle
  deriving DecidableEq, Repr

/-- One call of `_run_offloaded`.  The last five fields only record what happened. -/
structure Call where
  op : String
  read : Bool
  admitted : Bool
  started : Bool := false
  expired : Bool := false
  released : Bool := false
  answered : Bool := false
  owned : Bool := false
  pendingAnswer : List Answer := []
  /-- The call is in `_offload_answers`. -/
  registered : Bool := false
  /-- The item of the call is on its queue. -/
  queued : Bool := false
  /-- The number of scheduled `_idle_answer` callbacks. -/
  idles : ℕ := 0
  /-- `queue_deadline` is armed. -/
  deadline : Bool := false
  /-- What the worker still does that took the item. -/
  worker : List Instr := []
  invoked : List Answer := []
  runs : ℕ := 0
  refused : Bool := false
  escaped : Bool := false
  abandoned : Bool := false
  uncounted : ℕ := 0
  deriving DecidableEq, Repr

/-- What the calls share. -/
structure Shared where
  stopping : Bool := false
  drained : Bool := false
  active : ℤ := 0
  delivering : ℤ := 0
  pending : ℤ := 0
  pendingReads : ℤ := 0
  deriving DecidableEq, Repr

def queueMax : ℕ := 16

def readMax : ℕ := 3

/-- The bound of a queue, and of the calls that are admitted to it. -/
def bound (read : Bool) : ℕ := if read then readMax else queueMax

/-- The counter of the admitted calls. -/
def Shared.slots (g : Shared) (read : Bool) : ℤ := if read then g.pendingReads else g.pending

def Shared.addSlots (g : Shared) (read : Bool) (n : ℤ) : Shared :=
  if read then { g with pendingReads := g.pendingReads + n } else { g with pending := g.pending + n }

def stoppedMessage (op : String) : String := s!"{op} refused: session manager is shutting down"

def fullMessage (op : String) : String :=
  s!"{op} refused: offloaded work queue is full — retry shortly"

def lateMessage (op : String) : String :=
  s!"{op} waited behind a saturated worker pool; the operation was not started — retry"

def boundMessage (op : String) (read : Bool) : String :=
  if read then s!"{op} refused: {readMax} offloaded reads already outstanding — retry shortly"
  else s!"{op} refused: {queueMax} offloaded operations already outstanding — retry shortly"

/-! ## Instructions -/

/-- `_claim_pending`: the call is answered with its scheduled answer, if it has one. -/
def claimPending (g : Shared) (c : Call) (otherwise : List Instr) : Shared × Call × List Instr :=
  if c.answered || c.pendingAnswer.isEmpty then (g, c, otherwise)
  else
    (g, { c with pendingAnswer := c.pendingAnswer.dropLast, answered := true },
      [.callback (c.pendingAnswer.getLastD .reply)])

/-- The shutdown refusal of a call that is neither answered nor owned by a worker. -/
def refuse (g : Shared) (c : Call) : Shared × Call × List Instr :=
  if c.answered || c.owned then (g, c, [])
  else
    (g, { c with answered := true, pendingAnswer := [], refused := true },
      [.callback (.error (stoppedMessage c.op))])

/-- A refusal on the main thread, for a call that no worker has started. -/
def expire (g : Shared) (c : Call) (next : List Instr) : Shared × Call × List Instr :=
  if c.started || c.expired then (g, c, [])
  else (g, { c with expired := true, refused := true }, next)

/-- One instruction on a call: `full` says whether the queue of the call is full, `ends` how
`work()` ends, and the result holds the instructions that come next. -/
def exec (full : Bool) (ends : WorkEnd) (x : Instr) (g : Shared) (c : Call) :
    Shared × Call × List Instr :=
  match x with
  | .enter =>
    let c := { c with started := true }
    if c.expired then (g, c, [])
    else if g.stopping && g.drained then (g, c, [])
    else if g.stopping then
      ({ g with delivering := g.delivering + 1 }, c, [.refuseStopped, .uncountStopped])
    else ({ g with active := g.active + 1 }, { c with owned := true }, [.work])
  | .work =>
    let c := { c with runs := c.runs + 1 }
    match ends with
    | .returns => (g, c, [.deliver .reply])
    | .raises message => (g, c, [.deliver (.error message)])
    | .escapes => (g, { c with escaped := true }, [])
  | .retire => if c.owned then ({ g with active := g.active - 1 }, c, []) else (g, c, [])
  | .abandon =>
    if !c.owned then (g, c, [])
    else if c.answered || !c.pendingAnswer.isEmpty then (g, c, [])
    else (g, { c with answered := true, abandoned := true }, [.release, .drop])
  | .deliver answer =>
    if c.answered then (g, c, [])
    else if g.stopping then
      (g, { c with pendingAnswer := c.pendingAnswer.dropLast, answered := true },
        [.callback (c.pendingAnswer.getLastD answer)])
    else (g, { c with pendingAnswer := c.pendingAnswer ++ [answer] }, [.idleAdd, .recheck])
  | .idleAdd => (g, { c with idles := c.idles + 1 }, [])
  | .recheck => (g, c, if g.stopping then [.claimNow] else [])
  | .claimIdle => claimPending g c []
  | .claimNow => claimPending g c [.refuseNow]
  | .refuseNow => refuse g c
  | .countStopped =>
    ({ g with delivering := g.delivering + 1 }, c, [.refuseStopped, .uncountStopped])
  | .refuseStopped => refuse g c
  | .uncountStopped => ({ g with delivering := g.delivering - 1 }, c, [])
  | .callback answer => (g, { c with invoked := c.invoked ++ [answer] }, [.drop, .release])
  | .drop => (g, { c with registered := false }, [])
  | .release => if c.released then (g, c, []) else (g, { c with released := true }, [.uncount])
  | .uncount => (g.addSlots c.read (-1), { c with uncounted := c.uncounted + 1 }, [])
  | .answerInline answer => (g, { c with invoked := c.invoked ++ [answer] }, [])
  | .enqueue => if full then (g, c, [.expireFull]) else (g, { c with queued := true }, [.arm])
  | .expireFull => expire g c [.deliver (.error (fullMessage c.op))]
  | .arm => (g, { c with deadline := true }, [])
  | .expireLate => expire g c [.deliver (.error (lateMessage c.op))]
  | .settle =>
    if c.started || c.expired then (g, c, [.claimNow])
    else (g, { c with expired := true, refused := true }, [.countStopped])

/-! ## The threads -/

/-- A stage of the teardown. -/
inductive Stage where
  | drainQueue (read : Bool)
  /-- The wait for running work and for answers in flight. -/
  | waitIdle
  | drainAnswers
  /-- `_offload_drained` is set. -/
  | fence
  /-- The wait for answers in flight. -/
  | waitDelivered
  deriving DecidableEq, Repr

def teardown : List Stage :=
  [.drainQueue false, .drainQueue true, .waitIdle, .drainAnswers, .fence, .waitDelivered]

structure Daemon where
  shared : Shared := {}
  calls : List Call := []
  /-- What the main thread still does for calls. -/
  todo : List (ℕ × Instr) := []
  /-- What the main thread still does of the teardown. -/
  stages : List Stage := []
  /-- A wait of the teardown gave up. -/
  timedOut : Bool := false
  deriving DecidableEq, Repr

namespace Daemon

/-- The items on a queue, oldest first.  They are put there in the order of the calls. -/
def queue (s : Daemon) (read : Bool) : List ℕ :=
  (List.range s.calls.length).filter fun i =>
    match s.calls[i]? with
    | some c => c.queued && c.read == read
    | none => false

def isFull (s : Daemon) (read : Bool) : Bool := decide (bound read ≤ (s.queue read).length)

/-- The main loop is up and waits for an event. -/
def loopIdle (s : Daemon) : Bool := s.todo.isEmpty && !s.shared.stopping

/-- The section of `_run_offloaded` that admits a call or refuses it. -/
def admitCall (s : Daemon) (op : String) (read : Bool) : Daemon :=
  let refuse (message : String) : Daemon :=
    { s with
      calls := s.calls ++ [{ op, read, admitted := false }]
      todo := [(s.calls.length, .answerInline (.error message))] }
  if s.shared.stopping then refuse (stoppedMessage op)
  else if bound read ≤ s.shared.slots read then refuse (boundMessage op read)
  else
    { s with
      shared := s.shared.addSlots read 1
      calls := s.calls ++ [{ op, read, admitted := true, registered := true }]
      todo := [(s.calls.length, .enqueue)] }

/-- The main thread goes on with a call. -/
def runTodo (s : Daemon) (i : ℕ) (x : Instr) (rest : List (ℕ × Instr)) : Option Daemon :=
  match s.calls[i]? with
  | none => none
  | some c =>
    let (g, c', next) := exec (s.isFull c.read) .returns x s.shared c
    some { s with
      shared := g
      calls := s.calls.set i c'
      todo := next.map (fun y => (i, y)) ++ rest }

/-- The calls whose answers are drained. -/
def registeredCalls (s : Daemon) : List ℕ :=
  (List.range s.calls.length).filter fun i =>
    match s.calls[i]? with
    | some c => c.registered
    | none => false

/-- The main thread goes on with the teardown. -/
def runStage (s : Daemon) (stage : Stage) (rest : List Stage) : Option Daemon :=
  match stage with
  | .drainQueue read =>
    match (s.queue read).head? with
    | none => some { s with stages := rest }
    | some i =>
      some { s with
        calls := s.calls.modify i fun c => { c with queued := false }
        todo := [(i, .settle)] }
  | .waitIdle =>
    if s.shared.active = 0 ∧ s.shared.delivering = 0 then some { s with stages := rest } else none
  | .drainAnswers =>
    some { s with todo := s.registeredCalls.map fun i => (i, .claimNow), stages := rest }
  | .fence => some { s with shared := { s.shared with drained := true }, stages := rest }
  | .waitDelivered => if s.shared.delivering = 0 then some { s with stages := rest } else none

end Daemon

inductive Event where
  /-- A call arrives on the bus. -/
  | call (op : String) (read : Bool)
  /-- The loop runs a scheduled `_idle_answer`. -/
  | idle (i : ℕ)
  /-- The loop runs `queue_deadline`. -/
  | deadline (i : ℕ)
  | shutdown
  /-- The main thread goes on. -/
  | main
  /-- A wait of the teardown gives up. -/
  | timeout
  /-- A worker takes the oldest item of a queue. -/
  | take (read : Bool)
  /-- The worker of a call goes on. -/
  | worker (i : ℕ) (ends : WorkEnd)
  deriving DecidableEq, Repr

/-- One event, if it is possible. -/
def Daemon.step (s : Daemon) (ev : Event) : Option Daemon :=
  match ev with
  | .call op read => if s.loopIdle then some (s.admitCall op read) else none
  | .idle i =>
    match s.calls[i]? with
    | none => none
    | some c =>
      if s.loopIdle && decide (0 < c.idles) then
        some { s with
          calls := s.calls.set i { c with idles := c.idles - 1 }
          todo := [(i, .claimIdle)] }
      else none
  | .deadline i =>
    match s.calls[i]? with
    | none => none
    | some c =>
      if s.loopIdle && c.deadline then
        some { s with
          calls := s.calls.set i { c with deadline := false }
          todo := [(i, .expireLate)] }
      else none
  | .shutdown =>
    if s.loopIdle then
      some { s with shared := { s.shared with stopping := true }, stages := teardown }
    else none
  | .main =>
    match s.todo with
    | (i, x) :: rest => s.runTodo i x rest
    | [] =>
      match s.stages with
      | stage :: rest => s.runStage stage rest
      | [] => none
  | .timeout =>
    match s.todo, s.stages with
    | [], .waitIdle :: rest => some { s with stages := rest, timedOut := true }
    | [], .waitDelivered :: rest => some { s with stages := rest, timedOut := true }
    | _, _ => none
  | .take read =>
    match (s.queue read).head? with
    | none => none
    | some i =>
      some { s with
        calls := s.calls.modify i fun c =>
          { c with queued := false, worker := [.enter, .retire, .abandon] } }
  | .worker i ends =>
    match s.calls[i]? with
    | none => none
    | some c =>
      match c.worker with
      | [] => none
      | x :: rest =>
        let (g, c', next) := exec (s.isFull c.read) ends x s.shared c
        some { s with
          shared := g
          calls := s.calls.set i { c' with worker := next ++ rest } }

/-- The states that some order of events leads to. -/
inductive Reachable : Daemon → Prop
  | start : Reachable {}
  | step {s s' : Daemon} (h : Reachable s) (ev : Event) (hstep : s.step ev = some s') : Reachable s'

end Offload
