import URSupreme.Lib.Bytes
import URSupreme.Lib.Run
import URSupreme.Lib.Trace

/-!
# The SD writer

`Storage/SdWriter.h`: one task that does all writing to the card, and the calls that make jobs for
it. A job has its bytes from the start, or gets them over time through a ring. Each critical section
under the table mutex is one step, and so is each call to the card and each look at what a caller
can change in between; a call of `feed` looks up its ring first and then sends piece by piece.

Jobs are numbered, apart from their handles. Beside the writer's own state the bytes that `feed` has
put into the ring of a job, how many they were at `finish`, the file of the job, and what was done
to each file are kept.
-/

namespace URSupreme.SdWriter
open Lib

def SCRATCH : Nat := 32 * 1024
def ABANDON_MS : Nat := 15000
def MAX_STREAMS : Nat := 2
def MAX_JOBS : Nat := 8
def INLINE_MAX_BYTES : Nat := 128 * 1024
def INLINE_TOTAL_BYTES : Nat := 256 * 1024

inductive Op where
  | truncate
  | appendSeek
  deriving DecidableEq, Repr

/-- What is done to a file. -/
inductive Mark where
  | opened (path : String) (op : Op) (seekBack : Nat)
  | wrote (bytes : Bytes)
  | synced
  | closed
  deriving DecidableEq, Repr

/-- `Job`; `id = 0` is a free slot. -/
structure Job where
  id : Nat := 0
  priority : Nat := 128
  rrTick : Nat := 0
  path : String := ""
  op : Op := .truncate
  seekBack : Nat := 0
  streaming : Bool := false
  ringIdx : Option (Fin MAX_STREAMS) := none
  inbuf : Bytes := []
  ownsBuf : Bool := false
  inoff : Nat := 0
  fd : Option Nat := none
  written : Nat := 0
  ending : Bool := false
  aborting : Bool := false
  error : Bool := false
  servicing : Bool := false
  lastActiveMs : Nat := 0
  wantSha : Bool := false
  sha : Bytes := []
  digestReady : Bool := false
  callerReaps : Bool := false
  doneFlag : Bool := false
  done : Bool := false
  /-- the job's number -/
  serial : Nat := 0
  /-- the bytes that went into its ring -/
  fed : Bytes := []
  /-- how many they were at `finish` -/
  finishAt : Option Nat := none
  /-- the file it was given -/
  file : Option Nat := none

/-- `RingSlot`: the stream buffer, once it is allocated, and its content. -/
structure Ring where
  size : Option Nat := none
  inUse : Bool := false
  data : Bytes := []

/-- A call of `feed` under way: the handle, the number of the job it found, its ring, and what is
left to send. -/
structure Feed where
  handle : Nat
  serial : Nat
  ring : Fin MAX_STREAMS
  rest : Bytes

/-- Where the writer task is with which slot: before `service`, with the file open, with no data in
the ring, with a chunk of which so much is written, behind the chunk, before `fsync`, behind
`service` when the job has come to its end, and before the table mutex is taken again. -/
inductive Phase where
  | parked
  | picked (i : Fin MAX_JOBS)
  | opened (i : Fin MAX_JOBS)
  | empty (i : Fin MAX_JOBS)
  | writing (i : Fin MAX_JOBS) (src : Bytes) (off : Nat)
  | wrote (i : Fin MAX_JOBS)
  | finalizing (i : Fin MAX_JOBS)
  | ended (i : Fin MAX_JOBS)
  | leaving (i : Fin MAX_JOBS) (terminal : Bool)
  deriving DecidableEq, Repr

/-- The slot that is serviced. -/
def Phase.slot : Phase → Option (Fin MAX_JOBS)
  | .parked => none
  | .picked i | .opened i | .empty i | .writing i _ _ | .wrote i | .finalizing i | .ended i
  | .leaving i _ => some i

/-- `State`, with the calls of `feed` under way, where the task is, the answers to waiting callers,
and what was done to the files. -/
structure Writer where
  jobs : Fin MAX_JOBS → Job := fun _ => {}
  rings : Fin MAX_STREAMS → Ring := fun _ => {}
  nextId : Nat := 1
  rrClock : Nat := 0
  inlineBytes : Nat := 0
  pendingClose : List Nat := []
  phase : Phase := .parked
  feeds : List Feed := []
  answers : List (Nat × Bool) := []
  disk : List (Nat × Mark) := []
  files : Nat := 0
  created : Nat := 0
  issued : List Nat := []
  accepted : List (Nat × Bytes) := []

namespace Writer

/-- `find_job`. -/
def findJob (h : Nat) (s : Writer) : Option (Fin MAX_JOBS) :=
  if h = 0 then none else (List.finRange MAX_JOBS).find? fun i => (s.jobs i).id = h

/-- `find_free`. -/
def findFree (s : Writer) : Option (Fin MAX_JOBS) :=
  (List.finRange MAX_JOBS).find? fun i => (s.jobs i).id = 0

/-- A slot and nothing else changes. -/
def setJob (i : Fin MAX_JOBS) (j : Job) (s : Writer) : Writer :=
  { s with jobs := Function.update s.jobs i j }

/-- Something is done to an open file. -/
def log (fd : Option Nat) (m : Mark) (s : Writer) : Writer :=
  { s with disk := s.disk ++ fd.toList.map fun fd => (fd, m) }

/-- What is in the ring of a job. -/
def ringData (j : Job) (s : Writer) : Bytes :=
  match j.ringIdx with
  | none => []
  | some r => (s.rings r).data

def setRing (r : Fin MAX_STREAMS) (data : Bytes) (s : Writer) : Writer :=
  { s with rings := Function.update s.rings r { s.rings r with data } }

/-- An open file is left to the task to close. -/
def dropFd (fd : Option Nat) (s : Writer) : Writer :=
  match fd with
  | none => s
  | some f =>
    if s.pendingClose.length < MAX_JOBS then { s with pendingClose := f :: s.pendingClose }
    else s.log fd .closed

/-- A ring is emptied and given back. -/
def freeRing (ringIdx : Option (Fin MAX_STREAMS)) (s : Writer) : Writer :=
  match ringIdx with
  | none => s
  | some r =>
    { s with rings := Function.update s.rings r { s.rings r with data := [], inUse := false } }

/-- `release_job`. -/
def releaseJob (i : Fin MAX_JOBS) (s : Writer) : Writer :=
  let j := s.jobs i
  let s := s.dropFd j.fd
  let s := if j.streaming then s.freeRing j.ringIdx else s
  let s := { s with answers := if j.done then s.answers ++ [(j.id, !j.error)] else s.answers }
  let ringIdx := if j.streaming then none else j.ringIdx
  s.setJob i { j with fd := none, ringIdx, inbuf := [], ownsBuf := false, id := 0 }

/-- `claim_ring` over the rings of a list; `size` is what can be allocated. -/
def claimRing (rings : Fin MAX_STREAMS → Ring) (size : Option Nat) :
    List (Fin MAX_STREAMS) → Option (Fin MAX_STREAMS × Ring)
  | [] => none
  | r :: rs =>
    if (rings r).inUse then claimRing rings size rs
    else
      match (rings r).size with
      | some _ => some (r, { rings r with inUse := true })
      | none => size.map fun n => (r, { rings r with size := some n, inUse := true })

/-- `s.next_id++; if (s.next_id == 0) s.next_id = 1;` -/
def bumpId (nextId : Nat) : Nat :=
  let n := (nextId + 1) % 2 ^ 32
  if n = 0 then 1 else n

/-- A job goes into a free slot, with the next handle. -/
def addJob (i : Fin MAX_JOBS) (j : Job) (s : Writer) : Writer :=
  { s.setJob i { j with id := s.nextId, serial := s.created } with
    nextId := bumpId s.nextId, created := s.created + 1 }

/-- `write`: whether the job is taken; `up` and `alloc` answer `ensure` and the allocation of the
copy, `done` tells whether the caller waits. -/
def write (up alloc : Bool) (path : String) (data : Bytes) (op : Op) (seekBack priority : Nat)
    (done : Bool) (s : Writer) : Bool × Writer :=
  if !up ∨ data = [] ∨ data.length > INLINE_MAX_BYTES then (false, s)
  else
    let owns := !done
    if owns ∧ (s.inlineBytes + data.length > INLINE_TOTAL_BYTES ∨ !alloc) then (false, s)
    else
      match s.findFree with
      | none => (false, s)
      | some i =>
        let s := s.addJob i { priority, path, op, seekBack, inbuf := data, ownsBuf := owns, done }
        (true, if owns then { s with inlineBytes := s.inlineBytes + data.length } else s)

/-- `open`: the handle, or 0. -/
def openJob (up : Bool) (size : Option Nat) (path : String) (op : Op) (seekBack priority : Nat)
    (wantSha keep : Bool) (now : Nat) (s : Writer) : Nat × Writer :=
  if !up then (0, s)
  else
    match s.findFree, claimRing s.rings size (List.finRange MAX_STREAMS) with
    | some i, some (r, ring) =>
      let h := s.nextId
      let s := { s with rings := Function.update s.rings r ring, issued := s.issued ++ [h] }
      (h, s.addJob i { priority, path, op, seekBack, streaming := true, ringIdx := some r,
                       lastActiveMs := now, wantSha, callerReaps := keep })
    | _, _ => (0, s)

/-- The start of `feed`. -/
def feed (h : Nat) (data : Bytes) (s : Writer) : Writer :=
  match s.findJob h with
  | none => s
  | some i =>
    let j := s.jobs i
    match j.ringIdx with
    | some ring =>
      if j.streaming ∧ !j.error ∧ data ≠ [] then
        { s with feeds := s.feeds ++ [{ handle := h, serial := j.serial, ring, rest := data }] }
      else s
    | none => s

/-- The `k`-th call of `feed` puts `n` bytes into its ring. -/
def sent (k n : Nat) (f : Feed) (s : Writer) : Writer :=
  let bytes := f.rest.take n
  let rest := f.rest.drop n
  { s.setRing f.ring ((s.rings f.ring).data ++ bytes) with
    jobs := fun i =>
      let j := s.jobs i
      if j.id ≠ 0 ∧ j.serial = f.serial then { j with fed := j.fed ++ bytes } else j
    accepted := s.accepted ++ [(f.handle, bytes)]
    feeds := if rest = [] then s.feeds.eraseIdx k else s.feeds.set k { f with rest } }

/-- The `k`-th call of `feed` sends `n` bytes, for which there is room. -/
def send (k n : Nat) (s : Writer) : Writer :=
  match s.feeds[k]? with
  | none => s
  | some f =>
    let ring := s.rings f.ring
    if 0 < n ∧ n ≤ f.rest.length ∧ ring.data.length + n ≤ ring.size.getD 0 then s.sent k n f else s

/-- The `k`-th call of `feed` has waited too long for room in the ring. -/
def timeout (k : Nat) (s : Writer) : Writer :=
  match s.feeds[k]? with
  | none => s
  | some f =>
    let s := { s with feeds := s.feeds.eraseIdx k }
    match s.findJob f.handle with
    | none => s
    | some i => s.setJob i { s.jobs i with error := true }

/-- `finish`. -/
def finish (h : Nat) (s : Writer) : Writer :=
  match s.findJob h with
  | none => s
  | some i =>
    let j := s.jobs i
    s.setJob i { j with ending := true, finishAt := some (j.finishAt.getD j.fed.length) }

/-- `poll`. -/
def poll (h : Nat) (s : Writer) : Int :=
  match s.findJob h with
  | none => 1
  | some i =>
    let j := s.jobs i
    if !j.doneFlag ∧ !j.error then -1 else if j.error then 0 else 1

/-- `release`. -/
def release (h : Nat) (s : Writer) : Writer :=
  match s.findJob h with
  | none => s
  | some i =>
    let j := s.jobs i
    if j.servicing then s.setJob i { j with aborting := true } else s.releaseJob i

/-! ### The scheduler -/

/-- `ready`. -/
def ready (s : Writer) (j : Job) : Bool :=
  if j.id = 0 ∨ j.doneFlag then false
  else if j.aborting then true
  else if j.streaming then j.error || !(s.ringData j).isEmpty || j.ending
  else !j.error

/-- A stream whose producer has vanished. -/
def silent (now : Nat) (s : Writer) (j : Job) : Bool :=
  j.id ≠ 0 ∧ j.streaming ∧ !j.ending ∧ !j.aborting ∧ !j.error ∧ s.ringData j = [] ∧
    (now + 2 ^ 32 - j.lastActiveMs) % 2 ^ 32 ≥ ABANDON_MS

/-- Whether the scheduler takes `j` before the best job so far. -/
def before (j best : Job) : Bool :=
  j.priority > best.priority ∨ (j.priority = best.priority ∧ j.rrTick < best.rrTick)

/-- The best job of those that are ready. -/
def best (s : Writer) : Option (Fin MAX_JOBS) :=
  (List.finRange MAX_JOBS).foldl (fun best i =>
    if !s.ready (s.jobs i) then best
    else
      match best with
      | none => some i
      | some b => if before (s.jobs i) (s.jobs b) then some i else some b) none

/-- The silent streams are given up. -/
def abandon (now : Nat) (s : Writer) : Writer :=
  { s with jobs := fun i =>
      if s.silent now (s.jobs i) then { s.jobs i with aborting := true } else s.jobs i }

/-- `pick`, and the job is marked. -/
def pick (now : Nat) (s : Writer) : Writer :=
  match s.phase with
  | .parked =>
    let s := s.abandon now
    match s.best with
    | none => s
    | some i =>
      let rrClock := (s.rrClock + 1) % 2 ^ 32
      { s.setJob i { s.jobs i with servicing := true, rrTick := rrClock } with
        rrClock, phase := .picked i }
  | _ => s

/-- `service` up to the open file; `opened` and `seeked` answer `open` and `lseek`. -/
def start (opened seeked : Bool) (s : Writer) : Writer :=
  match s.phase with
  | .picked i =>
    let j := s.jobs i
    if j.aborting then { s with phase := .ended i }
    else
      match j.fd with
      | some _ => { s with phase := .opened i }
      | none =>
        if !opened then { s.setJob i { j with error := true } with phase := .ended i }
        else
          let fd := s.files
          let s := { s.log fd (.opened j.path j.op j.seekBack) with files := fd + 1 }
          if j.op = .appendSeek ∧ !seeked then
            { (s.log fd .closed).setJob i { j with error := true } with phase := .ended i }
          else
            { s.setJob i { j with fd := some fd, file := some fd } with phase := .opened i }
  | _ => s

/-- `service` takes a chunk from the source of the job. -/
def receive (now : Nat) (s : Writer) : Writer :=
  match s.phase with
  | .opened i =>
    let j := s.jobs i
    match j.streaming, j.ringIdx with
    | true, some r =>
      let data := (s.rings r).data
      if data = [] then { s with phase := .empty i }
      else
        { (s.setRing r (data.drop SCRATCH)).setJob i { j with lastActiveMs := now } with
          phase := .writing i (data.take SCRATCH) 0 }
    | true, none => { s with phase := .empty i }
    | false, _ =>
      let src := (j.inbuf.drop j.inoff).take SCRATCH
      { s with phase := if src = [] then .wrote i else .writing i src 0 }
  | _ => s

/-- Nothing came from the ring: whether the stream has ended. -/
def look (s : Writer) : Writer :=
  match s.phase with
  | .empty i =>
    let j := s.jobs i
    { s with phase := if j.ending ∧ s.ringData j = [] then .wrote i else .leaving i false }
  | _ => s

/-- A call of the card's `write`, which writes `n` bytes or fails. -/
def put (n : Nat) (s : Writer) : Writer :=
  match s.phase with
  | .writing i src off =>
    let j := s.jobs i
    if n = 0 then { s.setJob i { j with error := true } with phase := .ended i }
    else
      let bytes := (src.drop off).take n
      let s := s.log j.fd (.wrote bytes)
      let off := off + bytes.length
      if off < src.length then { s with phase := .writing i src off }
      else
        let j := { j with
          sha := if j.wantSha then j.sha ++ src else j.sha
          written := j.written + off
          inoff := if j.streaming then j.inoff else j.inoff + off }
        { s.setJob i j with phase := .wrote i }
  | _ => s

/-- Whether the job is finished. -/
def check (s : Writer) : Writer :=
  match s.phase with
  | .wrote i =>
    let j := s.jobs i
    let done := if j.streaming then j.ending && (s.ringData j).isEmpty else j.inoff ≥ j.inbuf.length
    { s with phase := if done then .finalizing i else .leaving i false }
  | _ => s

/-- The card's `fsync`. -/
def sync (ok : Bool) (s : Writer) : Writer :=
  match s.phase with
  | .finalizing i =>
    let j := s.jobs i
    if ok then
      let digestReady := j.digestReady || (!j.error && j.wantSha)
      { (s.log j.fd .synced).setJob i { j with digestReady } with phase := .ended i }
    else { s.setJob i { j with error := true } with phase := .ended i }
  | _ => s

/-- The file of a job that has come to its end is closed. -/
def close (s : Writer) : Writer :=
  match s.phase with
  | .ended i =>
    let j := s.jobs i
    { (s.log j.fd .closed).setJob i { j with fd := none } with phase := .leaving i true }
  | _ => s

/-- The end of a pass of the task. -/
def commit (s : Writer) : Writer :=
  match s.phase with
  | .leaving i terminal =>
    let j := { s.jobs i with servicing := false }
    let s := { s.setJob i j with phase := .parked }
    if terminal then
      let s := if !j.streaming ∧ j.ownsBuf then
        { s with inlineBytes := s.inlineBytes - j.inbuf.length } else s
      if j.callerReaps ∧ !j.aborting then s.setJob i { j with doneFlag := true }
      else s.releaseJob i
    else s
  | _ => s

/-- A file of a released job is closed. -/
def drain (s : Writer) : Writer :=
  match s.phase, s.pendingClose with
  | .parked, fd :: fds => { s.log fd .closed with pendingClose := fds }
  | _, _ => s

end Writer

/-- A call, a part of a call of `feed`, or a step of the writer task. -/
inductive Event where
  | write (up alloc : Bool) (path : String) (data : Bytes) (op : Op) (seekBack priority : Nat)
      (done : Bool)
  | openJob (up : Bool) (size : Option Nat) (path : String) (op : Op) (seekBack priority : Nat)
      (wantSha keep : Bool) (now : Nat)
  | feed (h : Nat) (data : Bytes)
  | send (k n : Nat)
  | timeout (k : Nat)
  | finish (h : Nat)
  | release (h : Nat)
  | pick (now : Nat)
  | start (opened seeked : Bool)
  | receive (now : Nat)
  | look
  | put (n : Nat)
  | check
  | sync (ok : Bool)
  | close
  | commit
  | drain

def Writer.step (s : Writer) : Event → Writer
  | .write up alloc path data op seekBack priority done =>
    (s.write up alloc path data op seekBack priority done).2
  | .openJob up size path op seekBack priority wantSha keep now =>
    (s.openJob up size path op seekBack priority wantSha keep now).2
  | .feed h data => s.feed h data
  | .send k n => s.send k n
  | .timeout k => s.timeout k
  | .finish h => s.finish h
  | .release h => s.release h
  | .pick now => s.pick now
  | .start opened seeked => s.start opened seeked
  | .receive now => s.receive now
  | .look => s.look
  | .put n => s.put n
  | .check => s.check
  | .sync ok => s.sync ok
  | .close => s.close
  | .commit => s.commit
  | .drain => s.drain

end URSupreme.SdWriter
