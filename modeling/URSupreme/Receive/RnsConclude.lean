import URSupreme.Lib.Extents
import URSupreme.Lib.Run

/-!
# Off-loop receive

`RnsConclude.h`: the loop hands the parts of resources and their conclusion to one worker through a
FIFO queue. A part that is not taken by the queue is written on the loop. The worker writes the
parts, keeps the file of the last one open, and at a conclusion reads the file back and removes it.

Each access to an atomic or to the queue is one step, and so is what is done under one guard of the
bus. Beside the state of the firmware the parts that were handed over, the resources that were
concluded and what was read back are kept.
-/

namespace URSupreme.RnsConclude
open Lib

def PATH_LEN : Nat := 96
def READ_CHUNK : Nat := 16 * 1024
def QUEUE_DEPTH : Nat := 48
def INFLIGHT_CAP : Nat := 512 * 1024

/-- What can be mapped of the external RAM. -/
def EXTERNAL_RAM : Nat := 32 * 1024 * 1024

abbrev Path := Bytes

/-- The receive buffers of the resources: their backing files have names of their own that fit in a
job, and the sizes of what they receive. -/
structure Buffers (ι : Type) where
  path : ι → Path
  totalSize : ι → Nat
  inj : ∀ r r', path r = path r' → r = r'
  fits : ∀ r, (path r).length < PATH_LEN

/-- `Job`; a part belongs to the resource that it was received for. -/
inductive Job (ι : Type) where
  | writePart (owner : ι) (path : Path) (part : Extent)
  | conclude (resource : ι)
  deriving DecidableEq, Repr

/-- `part_write_hook`: with a copy that is not counted yet, with one that is, and before the write
on the loop. -/
inductive Hook (ι : Type) where
  | idle
  | copied (owner : ι) (part : Extent)
  | counted (owner : ι) (part : Extent)
  | inline (owner : ι) (part : Extent)
  deriving DecidableEq, Repr

/-- `worker_task`: before the write of a part, before its copy is freed, and while a file is
read. -/
inductive Worker (ι : Type) where
  | idle
  | writing (owner : ι) (path : Path) (part : Extent)
  | freeing (part : Extent)
  | reading (resource : ι) (out : Bytes)
  deriving DecidableEq, Repr

structure Receiver (ι : Type) where
  files : Path → Option Bytes := fun _ => none
  queue : List (Job ι) := []
  inflightBytes : Nat := 0
  /-- `cur_fd` and `cur_path` -/
  cur : Option Path := none
  hook : Hook ι := .idle
  worker : Worker ι := .idle
  /-- the parts that were handed over -/
  accepted : List (ι × Extent) := []
  /-- the resources whose conclusion was asked for -/
  concluded : List ι := []
  /-- what was read back -/
  results : List (ι × Bytes) := []

variable {ι : Type} [DecidableEq ι] (B : Buffers ι)

namespace Receiver

/-- `heap_caps_malloc`; it never gives more than there is. -/
def malloc (ok : Bool) (len : Nat) : Bool := ok && len ≤ EXTERNAL_RAM

/-- `::open` with `O_CREAT`, `::lseek` and `::write`. -/
def writeFile (path : Path) (part : Extent) (s : Receiver ι) : Receiver ι :=
  { s with files := Function.update s.files path (some (writeAt ((s.files path).getD []) part)) }

/-- The start of `part_write_hook`, up to the copy. -/
def partWriteHook (r : ι) (part : Extent) (alloc : Bool) (s : Receiver ι) : Receiver ι :=
  match s.hook with
  | .idle =>
    let len := part.data.length
    let copy := (s.inflightBytes + len) % 2 ^ 32 ≤ INFLIGHT_CAP ∧ malloc alloc len
    { s with
      accepted := s.accepted ++ [(r, part)]
      hook := if copy then .copied r part else .inline r part }
  | _ => s

/-- `inflight_bytes().fetch_add`. -/
def count (s : Receiver ι) : Receiver ι :=
  match s.hook with
  | .copied r part =>
    { s with
      inflightBytes := (s.inflightBytes + part.data.length) % 2 ^ 32, hook := .counted r part }
  | _ => s

/-- `xQueueSend`, which does not wait. -/
def enqueue (s : Receiver ι) : Receiver ι :=
  match s.hook with
  | .counted r part =>
    if s.queue.length < QUEUE_DEPTH then
      { s with
        queue := s.queue ++ [.writePart r ((B.path r).take (PATH_LEN - 1)) part], hook := .idle }
    else
      { s with
        inflightBytes := (s.inflightBytes + 2 ^ 32 - part.data.length) % 2 ^ 32
        hook := .inline r part }
  | _ => s

/-- The write on the loop. -/
def inlineWrite (s : Receiver ι) : Receiver ι :=
  match s.hook with
  | .inline r part => { s.writeFile (B.path r) part with hook := .idle }
  | _ => s

/-- `deferrer`, which waits for room in the queue; without a job the resource is delivered at once,
from its own buffer. -/
def deferrer (r : ι) (alloc : Bool) (s : Receiver ι) : Receiver ι :=
  match s.hook with
  | .idle =>
    if !alloc then { s with concluded := s.concluded ++ [r] }
    else if s.queue.length < QUEUE_DEPTH then
      { s with queue := s.queue ++ [.conclude r], concluded := s.concluded ++ [r] }
    else s
  | _ => s

/-- The worker takes a job; before a conclusion it closes its file. -/
def take (s : Receiver ι) : Receiver ι :=
  match s.worker, s.queue with
  | .idle, .writePart r path part :: queue => { s with queue, worker := .writing r path part }
  | .idle, .conclude r :: queue => { s with queue, cur := none, worker := .reading r [] }
  | _, _ => s

/-- `do_write`. A file that was removed while it was open gets no bytes. -/
def doWrite (s : Receiver ι) : Receiver ι :=
  match s.worker with
  | .writing _ path part =>
    let s := { s with worker := .freeing part }
    if s.cur = some path then
      match s.files path with
      | some _ => s.writeFile path part
      | none => s
    else { s.writeFile path part with cur := some path }
  | _ => s

/-- The copy is freed. -/
def free (s : Receiver ι) : Receiver ι :=
  match s.worker with
  | .freeing part =>
    { s with
      inflightBytes := (s.inflightBytes + 2 ^ 32 - part.data.length) % 2 ^ 32
      worker := .idle }
  | _ => s

/-- A call of `::read` in `read_back`, which gives at least a byte where there is one, or the end of
it: then the file is removed. -/
def read (n : Nat) (s : Receiver ι) : Receiver ι :=
  match s.worker with
  | .reading r out =>
    let file := (s.files (B.path r)).getD []
    let rest := (file.take (B.totalSize r)).drop out.length
    if rest = [] then
      { s with
        files := Function.update s.files (B.path r) none
        worker := .idle
        results := s.results ++ [(r, out)] }
    else { s with worker := .reading r (out ++ rest.take (max 1 (min n READ_CHUNK))) }
  | _ => s

end Receiver

inductive Event (ι : Type) where
  | partWriteHook (r : ι) (part : Extent) (alloc : Bool)
  | count
  | enqueue
  | inlineWrite
  | deferrer (r : ι) (alloc : Bool)
  | take
  | doWrite
  | free
  | read (n : Nat)
  deriving DecidableEq, Repr

def Receiver.step (s : Receiver ι) : Event ι → Receiver ι
  | .partWriteHook r part alloc => s.partWriteHook r part alloc
  | .count => s.count
  | .enqueue => s.enqueue B
  | .inlineWrite => s.inlineWrite B
  | .deferrer r alloc => s.deferrer r alloc
  | .take => s.take
  | .doWrite => s.doWrite
  | .free => s.free
  | .read n => s.read B n

/-- What a resource asks for: each part lies in the resource and agrees with the other ones, none
comes behind its conclusion, and it is concluded once. -/
def Proper (s : Receiver ι) : Event ι → Prop
  | .partWriteHook r part _ => r ∉ s.concluded ∧ part.off + part.data.length ≤ B.totalSize r ∧
      ∀ x ∈ s.accepted, x.1 = r → Agree x.2 part
  | .deferrer r _ => r ∉ s.concluded
  | _ => True

end URSupreme.RnsConclude
