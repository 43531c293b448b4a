import URSupreme.Clock.Manager
import URSupreme.Lib.Bytes
import URSupreme.Lib.Slots

/-!
# Outbound staging

`Storage/OutboundStaging.h`: the buffers that hold uploaded attachments until they are sent. Free
space and what the backends answer come with the calls. `data` is what can be read back, so it is
empty once the file of a buffer is gone; `uses` lists the reads and releases of each id since its
buffer was handed to a send.
-/

namespace URSupreme.Staging
open Lib
open Clock (elapsed)

def STAGING_TIMEOUT_MS : Nat := 60000

/-- `Backend`. -/
inductive Backend where
  | psram
  | sd
  | flash
  deriving DecidableEq, Repr

/-- `Buffer`. -/
structure Buffer where
  id : Nat
  backend : Backend
  totalBytes : Nat
  written : Nat := 0
  createdMs : Nat
  /-- whether there is an `sd_handle` -/
  sdHandle : Bool
  data : Bytes := []
  deriving DecidableEq, Repr

/-- What is done with a buffer. -/
inductive Use where
  | read
  | release
  deriving DecidableEq, Repr

/-- The buffers, `next_id` and the uses. -/
structure Buffers where
  buffers : List Buffer := []
  nextId : Nat := 1
  uses : Nat → List Use := fun _ => []

/-- `Caps`. -/
structure Caps where
  sdMax : Nat
  psramMax : Nat
  flashMax : Nat
  deriving DecidableEq, Repr

/-- `max_bytes`. -/
def Caps.maxBytes (c : Caps) : Nat :=
  if c.sdMax > 0 then c.sdMax else if c.psramMax > 0 then c.psramMax else c.flashMax

/-- The backend of an allocation. -/
def Caps.backend (c : Caps) (totalBytes : Nat) : Option Backend :=
  if c.sdMax ≥ totalBytes then some .sd
  else if c.psramMax ≥ totalBytes then some .psram
  else if c.flashMax ≥ totalBytes then some .flash
  else none

/-- `find`. -/
def Buffers.find (s : Buffers) (id : Nat) : Option Buffer := s.buffers.find? (·.id = id)

/-- A buffer is stale. -/
def Buffer.stale (b : Buffer) (now : Nat) : Bool :=
  if b.written < b.totalBytes then elapsed now b.createdMs > STAGING_TIMEOUT_MS
  else elapsed now b.createdMs > 5 * STAGING_TIMEOUT_MS

/-- `gc`. -/
def Buffers.gc (s : Buffers) (now : Nat) : Buffers :=
  { s with buffers := s.buffers.filter fun b => !b.stale now }

/-- The loop of `allocate` that takes the writer from earlier uploads to the card: their files
go. -/
def Buffers.reclaim (s : Buffers) : Buffers :=
  { s with
    buffers := s.buffers.map fun b =>
      if b.backend = .sd ∧ b.sdHandle then { b with sdHandle := false, data := [] } else b }

/-- `allocate`, and the id; `opened` tells whether the backend could be opened. -/
def Buffers.allocate (s : Buffers) (totalBytes : Nat) (caps : Caps) (opened : Bool) (now : Nat) :
    Buffers × Nat :=
  let s := s.gc now
  if totalBytes = 0 then (s, 0)
  else if totalBytes > caps.maxBytes then (s, 0)
  else
    let id := s.nextId
    let s := { s with nextId := (id + 1) % 2 ^ 32 }
    match caps.backend totalBytes with
    | none => (s, 0)
    | some backend =>
      let s := if backend = .sd then s.reclaim else s
      if opened then
        let b : Buffer := { id, backend, totalBytes, createdMs := now, sdHandle := backend = .sd }
        ({ s with buffers := s.buffers ++ [b] }, id)
      else (s, 0)

/-- `append`; `stored` tells whether the backend takes the bytes. -/
def Buffers.append (s : Buffers) (id : Nat) (data : Bytes) (stored : Bool) : Buffers :=
  match s.find id with
  | none => s
  | some b =>
    if data.length > b.totalBytes - b.written ∨ !stored then s
    else
      { s with
        buffers := modifyFirst (·.id = id)
          (fun b => { b with written := b.written + data.length, data := b.data ++ data })
          s.buffers }

/-- `complete`. -/
def Buffers.complete (s : Buffers) (id : Nat) : Bool :=
  match s.find id with
  | none => false
  | some b => b.written = b.totalBytes

/-- The bytes that `read` gives from the start of a buffer on. -/
def Buffers.bytes (s : Buffers) (id : Nat) : Bytes :=
  match s.find id with
  | none => []
  | some b => b.data

/-- A use of a buffer. -/
def Buffers.use (s : Buffers) (u : Use) (id : Nat) : Buffers :=
  { s with uses := Function.update s.uses id (s.uses id ++ [u]) }

/-- `release`. -/
def Buffers.release (s : Buffers) (id : Nat) : Buffers :=
  { s.use .release id with buffers := s.buffers.eraseP (·.id = id) }

end URSupreme.Staging
