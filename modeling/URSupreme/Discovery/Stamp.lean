import URSupreme.Lib.Bytes
import URSupreme.Lib.Ledger
import URSupreme.Lib.Run

/-!
# The stamp worker

`Discovery/Stamp.h`: the worker task that searches for stamps and scores them, one job at a time,
and the calls that submit a job, cancel it and take its result. Each critical section under the
mutex is one step, and so is each stretch of the worker between two of them. The search itself comes
to what its step is told. A call that does not get the mutex in time does nothing.

Jobs are numbered. Beside the state of the worker, the jobs accepted, the results they came to, the
results handed over, and the jobs for which a cancel was called are kept. The result of a discovery
job is its stamp, which goes to the cache and the callback; the result of another job goes to the
mailbox.
-/

namespace URSupreme.Stamp
open Lib

def RESULTS_MAX : Nat := 8
def STAMP_SIZE : Nat := 32

/-- `JobKind`. -/
inductive JobKind where
  | discoveryGenerate
  | lxmfGenerate
  | lxmfValue
  deriving DecidableEq, Repr

/-- `Job`, with its number; a discovery job may have a callback. -/
structure Job where
  id : Nat
  kind : JobKind
  input : Bytes
  stamp : Bytes := []
  cost : Nat := 0
  onDone : Bool := false
  deriving DecidableEq, Repr

/-- `JobResult`. -/
structure JobResult where
  stamp : Bytes := []
  value : Nat := 0
  valid : Bool := false
  ok : Bool := false
  deriving DecidableEq, Repr

/-- A result under its key, of a job. -/
structure Post where
  id : Nat
  key : Bytes
  result : JobResult
  deriving DecidableEq, Repr

/-- Where the worker is: before the signal, before the queue, with a job before and after it is made
the current one, after the search, and after the result is posted. -/
inductive Phase where
  | waiting
  | woken
  | taken (j : Job)
  | published (j : Job)
  | running (j : Job)
  | finished (j : Job) (r : JobResult)
  | posted (j : Job)
  deriving DecidableEq, Repr

/-- A job that has no result yet. -/
def Phase.job : Phase → Option Job
  | .taken j | .published j | .running j | .finished j _ => some j
  | _ => none

/-- The current job of the search. -/
def Phase.current : Phase → Option Job
  | .published j | .running j => some j
  | _ => none

def Phase.busy : Phase → Bool
  | .waiting | .woken => false
  | _ => true

/-- The worker and what it shares. `owed` counts the submitters that have queued a job and have not
given the signal yet. -/
structure Worker where
  signal : Bool := false
  owed : Nat := 0
  pending : Option Job := none
  busy : Bool := false
  currentKey : Bytes := []
  cancelFlag : Bool := false
  cacheKey : Bytes := []
  cacheStamp : Bytes := []
  results : List Post := []
  phase : Phase := .waiting
  accepted : List (Nat × Bytes) := []
  ends : List Post := []
  handed : List (Bytes × Post) := []
  cancelled : List Nat := []
  callbacks : List (Nat × Bytes) := []
  deriving DecidableEq, Repr

/-- What the search comes to when it is not aborted. -/
inductive Outcome where
  | failed
  | done (stamp : { b : Bytes // b.length = STAMP_SIZE }) (value : Nat) (valid : Bool)
  deriving DecidableEq, Repr

/-- The result of a search. -/
def Job.result (j : Job) : Outcome → JobResult
  | .failed => {}
  | .done stamp value valid =>
    match j.kind with
    | .lxmfValue => { value, valid, ok := true }
    | _ => { stamp := stamp.1, value, valid := true, ok := true }

section

variable (fullHash : Bytes → Bytes)

/-- The key of a job. -/
def Job.material (j : Job) : Bytes :=
  match j.kind with
  | .discoveryGenerate => fullHash j.input
  | _ => j.input

/-- The end of `post_result`. -/
def Worker.post (s : Worker) (p : Post) : Worker :=
  let results := s.results ++ [p]
  { s with results := results.drop (results.length - RESULTS_MAX), ends := s.ends ++ [p] }

/-- The job that is accepted and has no result yet. -/
def Worker.job (s : Worker) : Option Job := s.pending.or s.phase.job

/-- `submit_job`, up to the signal. -/
def Worker.submit (kind : JobKind) (input stamp : Bytes) (cost : Nat) (onDone : Bool) (s : Worker) :
    Worker :=
  if s.busy ∨ s.pending.isSome then s
  else
    let j : Job := { id := s.accepted.length, kind, input, stamp, cost, onDone }
    { s with
      pending := some j, owed := s.owed + 1
      accepted := s.accepted ++ [(j.id, j.material fullHash)] }

/-- The first half of `cancel`: a job in the queue. -/
def Worker.drop (material : Bytes) (s : Worker) : Worker :=
  match s.pending with
  | none => s
  | some j =>
    if j.material fullHash = material then
      { s with pending := none }.post { id := j.id, key := material, result := {} }
    else s

/-- The second half of `cancel`: the current job. -/
def Worker.raise (material : Bytes) (s : Worker) : Worker :=
  if s.currentKey = material then { s with cancelFlag := true } else s

/-- The critical section of `cancel`. -/
def Worker.cancel (material : Bytes) (s : Worker) : Worker :=
  (s.drop fullHash material).raise material

/-- The jobs that a call of `cancel` is about. -/
def Worker.cancels (material : Bytes) (s : Worker) : List Nat :=
  (s.job.toList.filter (·.material fullHash = material)).map (·.id)

/-- `take_result_if`. -/
def Worker.take (key : Bytes) (s : Worker) : Worker :=
  match s.results.find? (·.key = key) with
  | none => s
  | some p =>
    { s with results := s.results.eraseP (·.key = key), handed := s.handed ++ [(key, p)] }

/-- The worker takes the job off the queue. -/
def Worker.dequeue (s : Worker) : Worker :=
  match s.phase, s.pending with
  | .woken, none => { s with phase := .waiting }
  | .woken, some j => { s with pending := none, busy := true, phase := .taken j }
  | _, _ => s

/-- The worker makes the job the current one. -/
def Worker.publish (s : Worker) : Worker :=
  match s.phase with
  | .taken j =>
    { s with
      currentKey := j.material fullHash, cancelFlag := false
      phase := if j.kind = .discoveryGenerate then .published j else .running j }
  | _ => s

/-- The look into the cache for a discovery job. -/
def Worker.lookup (s : Worker) : Worker :=
  match s.phase with
  | .published j =>
    if s.cacheKey = j.material fullHash ∧ s.cacheStamp.length = STAMP_SIZE then
      { s with phase := .finished j { stamp := s.cacheStamp, ok := true } }
    else { s with phase := .running j }
  | _ => s

/-- The search looks at the flag. -/
def Worker.check (s : Worker) : Worker :=
  match s.phase with
  | .running j => if s.cancelFlag then { s with phase := .finished j {} } else s
  | _ => s

/-- The search ends, and a discovery stamp is cached. -/
def Worker.complete (o : Outcome) (s : Worker) : Worker :=
  match s.phase with
  | .running j =>
    let r := j.result o
    let s := { s with phase := .finished j r }
    if j.kind = .discoveryGenerate ∧ r.ok then
      { s with cacheKey := j.material fullHash, cacheStamp := r.stamp }
    else s
  | _ => s

/-- The result goes to the mailbox, or the stamp to the callback. -/
def Worker.deliver (s : Worker) : Worker :=
  match s.phase with
  | .finished j r =>
    let s := { s with phase := .posted j }
    let p : Post := { id := j.id, key := j.material fullHash, result := r }
    match j.kind with
    | .discoveryGenerate =>
      if r.stamp.length = STAMP_SIZE then
        { s with
          ends := s.ends ++ [p]
          callbacks := s.callbacks ++ if j.onDone then [(j.id, r.stamp)] else [] }
      else s
    | _ => s.post p
  | _ => s

/-- The worker is free again. -/
def Worker.clear (s : Worker) : Worker :=
  match s.phase with
  | .posted _ =>
    { s with currentKey := [], cancelFlag := false, busy := false, phase := .waiting }
  | _ => s

/-- A step of a caller or of the worker; `locked` is whether a call gets the mutex. -/
inductive Event where
  | submit (kind : JobKind) (input stamp : Bytes) (cost : Nat) (onDone locked : Bool)
  | signal
  | cancel (material : Bytes) (locked : Bool)
  | take (key : Bytes) (locked : Bool)
  | wake
  | dequeue
  | publish
  | lookup
  | check
  | complete (o : Outcome)
  | deliver
  | clear

def Worker.step (s : Worker) : Event → Worker
  | .submit kind input stamp cost onDone locked =>
    if locked then s.submit fullHash kind input stamp cost onDone else s
  | .signal => if s.owed = 0 then s else { s with owed := s.owed - 1, signal := true }
  | .cancel material locked =>
    let s' := if locked then s.cancel fullHash material else s
    { s' with cancelled := s.cancelled ++ s.cancels fullHash material }
  | .take key locked => if locked then s.take key else s
  | .wake => if s.phase = .waiting ∧ s.signal then { s with signal := false, phase := .woken }
      else s
  | .dequeue => s.dequeue
  | .publish => s.publish fullHash
  | .lookup => s.lookup fullHash
  | .check => s.check
  | .complete o => s.complete fullHash o
  | .deliver => s.deliver fullHash
  | .clear => s.clear

end

end URSupreme.Stamp
