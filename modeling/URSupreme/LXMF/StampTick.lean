import URSupreme.LXMF.Prepare

/-!
# The front of the stamp queue

`tick_pending_stamp_sends` of `LXMF/LXMFGateway.h` on the front entry: the sidecar write is
resolved, the stamp is searched for, and the message is dispatched, again after a while when that
fails. The sidecar writer, the worker and `send_prepared` answer from outside.
-/

namespace URSupreme.StampTick
open Lib LXMF

def STAMP_DISPATCH_MAX_ATTEMPTS : Nat := 6
def STAMP_DISPATCH_BACKOFF_MS : Nat := 4000

/-- The members of `PendingStampSend` that the tick changes. -/
structure PendingStampSend where
  messageId : Bytes
  cost : Nat
  sidecar : Bool
  sidecarHandle : Bool := false
  payload : Bytes := []
  submitted : Bool := false
  stamp : Bytes := []
  stampValue : Nat := 0
  dispatchAttempts : Nat := 0
  nextDispatchMs : Nat := 0
  deriving DecidableEq, Repr

/-- `JobResult`, without its key. -/
structure JobResult where
  ok : Bool
  stamp : Bytes
  value : Nat
  deriving DecidableEq, Repr

/-- What is around a tick: the identity with its outbox, the sidecar writer (no answer yet, or
whether the file is durable), the worker, the sidecar file with its message id, and the error of
`send_prepared`, if any. -/
structure World where
  identity : Bool
  poll : Option Bool
  submit : Bool
  result : Option JobResult
  file : Option (Bytes × Bytes)
  sendPrepared : PreparedMessage → Bytes → Option String

/-- What becomes of the front entry. -/
inductive Front where
  | kept (f : PendingStampSend)
  | dropped
  | failed (why : String)
  | dispatched (pm : PreparedMessage) (stamp : Bytes)
  deriving DecidableEq, Repr

/-- The dispatch phase, from the check of the time on. -/
def dispatch (now : Nat) (w : World) (f : PendingStampSend) : Front :=
  if now < f.nextDispatchMs then .kept f
  else
    let payload : Option Bytes :=
      if f.payload = [] ∧ f.sidecar then
        w.file.bind fun (messageId, payload) => if messageId = f.messageId then some payload
        else none
      else some f.payload
    match payload with
    | none => .failed "the stored message payload is missing or corrupt"
    | some payload =>
      if payload = [] then .failed "the prepared payload is no longer available"
      else
        let pm : PreparedMessage := { payload, messageId := f.messageId, ts := 0 }
        match w.sendPrepared pm f.stamp with
        | none => .dispatched pm f.stamp
        | some err =>
          let attempts := f.dispatchAttempts + 1
          if attempts ≥ STAMP_DISPATCH_MAX_ATTEMPTS then .failed err
          else
            .kept { f with
              dispatchAttempts := attempts
              nextDispatchMs := now + STAMP_DISPATCH_BACKOFF_MS * attempts }

/-- The generation phase, and the dispatch of a stamp that is there. -/
def generate (now : Nat) (w : World) (f : PendingStampSend) : Front :=
  if f.stamp ≠ [] then dispatch now w f
  else if !f.submitted then .kept { f with submitted := w.submit }
  else
    match w.result with
    | none => .kept f
    | some r =>
      if !r.ok ∨ r.stamp = [] then
        .failed "stamp generation was cancelled or could not allocate its workblock"
      else dispatch now w { f with stamp := r.stamp, stampValue := r.value }

/-- `tick_pending_stamp_sends`, on the front entry. -/
def tickFront (now : Nat) (w : World) (f : PendingStampSend) : Front :=
  if !w.identity then .dropped
  else if f.sidecarHandle then
    match w.poll with
    | none => .kept f
    | some true => generate now w { f with sidecarHandle := false, payload := [] }
    | some false => generate now w { f with sidecarHandle := false, sidecar := false }
  else generate now w f

variable {now : Nat} {w : World} {f : PendingStampSend}

/-- A stamp that is there waits for its time. -/
lemma tickFront_stamped (hw : w.identity = true) (hh : f.sidecarHandle = false)
    (hs : f.stamp ≠ []) : tickFront now w f = dispatch now w f := by
  rw [tickFront, if_neg (by simp [hw]), if_neg (by simp [hh]), generate, if_pos hs]

lemma dispatch_early (h : now < f.nextDispatchMs) : dispatch now w f = .kept f := if_pos h

/-- A dispatch that fails counts. -/
lemma dispatch_late (h : f.nextDispatchMs ≤ now) : dispatch now w f ≠ .kept f := by
  unfold dispatch
  rw [if_neg (not_lt.mpr h)]
  dsimp only
  intro he
  split at he
  next => cases he
  next payload _ =>
    split at he
    next => cases he
    next =>
      split at he
      next => cases he
      next =>
        split at he
        next => cases he
        next =>
          have := congrArg PendingStampSend.dispatchAttempts (Front.kept.inj he)
          exact Nat.succ_ne_self _ this

end URSupreme.StampTick
