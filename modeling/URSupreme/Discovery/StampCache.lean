import Mathlib
import URSupreme.Common.MsgPackWrite
import URSupreme.Discovery.Stamp
import URSupreme.Discovery.StampValue

/-!
# The stamps that are handed out

`Discovery/Stamp.h` as its callers see it: `submit` with its own look into the cache before it
queues a job, the worker with the searches that it runs, and what goes to the callbacks and to the
mailbox. The hashes are a parameter. Beside the worker stand the cost at which the cached stamp was
searched, and each stamp or verdict that was handed out, with its request.
-/

namespace URSupreme.StampCache
open Lib Stamp StampValue

def WORKBLOCK_EXPAND_ROUNDS : Nat := 20
def HKDF_LEN_DISCOVERY : Nat := 32
def LXMF_WORKBLOCK_EXPAND_ROUNDS : Nat := 3000
def LXMF_HKDF_LEN : Nat := 256

/-- The hashes of the libraries: SHA-256 by pieces, `full_hash`, and `hkdf` without a context. -/
structure Crypto (σ : Type) where
  sha : Sha σ
  fullHash : Bytes → Bytes
  hkdf : Nat → Bytes → Bytes → Bytes

/-- The rounds of a job's work block. -/
def rounds : JobKind → Nat
  | .discoveryGenerate => WORKBLOCK_EXPAND_ROUNDS
  | _ => LXMF_WORKBLOCK_EXPAND_ROUNDS

/-- The length of a block. -/
def hkdfLen : JobKind → Nat
  | .discoveryGenerate => HKDF_LEN_DISCOVERY
  | _ => LXMF_HKDF_LEN

/-- A request to `submit`. -/
structure Request where
  input : Bytes
  cost : Nat
  onDone : Bool
  deriving DecidableEq

/-- A stamp or a verdict, with the job it is for. -/
structure Handed where
  job : Job
  result : JobResult

/-- The worker, the submits that have missed the cache and are not queued yet, the cost of the
cached stamp, and what was handed out. -/
structure Office where
  worker : Worker := {}
  waiting : List Request := []
  cacheCost : Nat := 0
  handed : List Handed := []

section
variable {σ : Type} (C : Crypto σ)

/-- The `n`-th block of a work block. -/
def block (material : Bytes) (hkdfLen n : Nat) : Bytes :=
  let salt := C.fullHash (material ++ (MsgPack.packInt 4 (Int64.ofNat n)).getD [])
  C.hkdf hkdfLen material salt

/-- The loop of `build_workblock`, with `k` blocks left from the `n`-th on. -/
def buildFrom (material : Bytes) (hkdfLen : Nat) (shouldAbort : Nat → Bool) :
    Nat → Nat → Bytes → Option Bytes
  | 0, _, wb => some wb
  | k + 1, n, wb =>
    let block := block C material hkdfLen n
    if block.length ≠ hkdfLen then none
    else if n &&& 0x3F = 0x3F ∧ shouldAbort n then none
    else buildFrom material hkdfLen shouldAbort k (n + 1) (wb ++ block)

/-- `build_workblock`; `alloc` is whether its buffer is there. -/
def buildWorkblock (material : Bytes) (rounds hkdfLen : Nat) (alloc : Bool)
    (shouldAbort : Nat → Bool) : Option Bytes :=
  if alloc then buildFrom C material hkdfLen shouldAbort rounds 0 [] else none

/-- The work block of a kind of job. -/
def workblock (kind : JobKind) (material : Bytes) : Bytes :=
  (List.range (rounds kind)).flatMap (block C material (hkdfLen kind))

lemma length_of_searchFrom {base : σ} {cost fuel value : Nat} {shouldAbort : UInt64 → Bool}
    {n : UInt64} {stamp : Bytes}
    (h : searchFrom C.sha base cost shouldAbort fuel n = .found stamp value) :
    stamp.length = Stamp.STAMP_SIZE := by
  induction fuel generalizing n with
  | zero => cases h
  | succ fuel ih =>
    unfold searchFrom at h
    dsimp only at h
    split at h
    next =>
      obtain ⟨rfl, -⟩ := Search.found.inj h
      unfold candidate counterBytes
      rw [List.length_append, List.length_replicate, List.length_map, List.length_range]
      rfl
    next =>
      split at h
      next => cases h
      next => exact ih h

lemma length_noStamp : (List.replicate Stamp.STAMP_SIZE (0 : UInt8)).length = Stamp.STAMP_SIZE :=
  List.length_replicate

/-- What a search or a scoring comes to, if it ends: the job is aborted, a stamp is found, or one is
scored. -/
def outcome (j : Job) (alloc : Bool) (abortBuild : Nat → Bool) (abortSearch : UInt64 → Bool)
    (fuel : Nat) : Option Outcome :=
  match buildWorkblock C (j.material C.fullHash) (rounds j.kind)
    (hkdfLen j.kind) alloc abortBuild with
  | none => some .failed
  | some wb =>
    if wb.length = 0 then some .failed
    else if j.kind = .lxmfValue then
      let digest := hashWorkblockStamp C.sha wb j.stamp
      some (.done ⟨List.replicate Stamp.STAMP_SIZE 0, length_noStamp⟩ (digestValue digest)
        (digestValid digest j.cost))
    else
      match h : generateSearch C.sha wb j.cost abortSearch fuel with
      | .found stamp value => some (.done ⟨stamp, length_of_searchFrom C h⟩ value true)
      | .aborted => some .failed
      | .searching => none

/-- The look of `submit` into the cache. -/
def Office.Hit (d : Office) (material : Bytes) : Prop :=
  d.worker.cacheKey = material ∧ d.worker.cacheStamp.length = Stamp.STAMP_SIZE

instance {d : Office} {material} : Decidable (d.Hit material) := inferInstanceAs (Decidable (_ ∧ _))

/-- A step that is neither a submit nor the end of a search. -/
def Plain : Stamp.Event → Prop
  | .submit .. => False
  | .complete _ => False
  | _ => True

/-- A step of a caller or of the worker; a search is told when it is to be aborted, and how far it
gets. -/
inductive Event where
  | submit (r : Request) (locked : Bool)
  | queue (r : Request) (locked : Bool)
  | lxmfGenerate (messageId : Bytes) (cost : Nat) (locked : Bool)
  | lxmfValue (messageId stamp : Bytes) (cost : Nat) (locked : Bool)
  | complete (alloc : Bool) (abortBuild : Nat → Bool) (abortSearch : UInt64 → Bool) (fuel : Nat)
  | step (e : { e : Stamp.Event // Plain e })

/-- A result that goes to the callback, or to the mailbox with `ok` set. -/
def Handed.Out (h : Handed) : Prop :=
  match h.job.kind with
  | .discoveryGenerate => h.job.onDone = true ∧ h.result.stamp.length = Stamp.STAMP_SIZE
  | _ => h.result.ok = true

instance {h : Handed} : Decidable h.Out := by
  unfold Handed.Out
  split
  next => exact inferInstance
  next => exact inferInstance

/-- What the worker hands out with a step. -/
def Office.given (d : Office) : Stamp.Event → List Handed
  | .deliver =>
    match d.worker.phase with
    | .finished j r => if Handed.Out ⟨j, r⟩ then [⟨j, r⟩] else []
    | _ => []
  | _ => []

/-- What `submit` hands out for a request from the cache. -/
def Office.served (d : Office) (r : Request) : Handed where
  job :=
    { id := d.worker.accepted.length
      kind := .discoveryGenerate
      input := r.input
      cost := r.cost
      onDone := true }
  result := { stamp := d.worker.cacheStamp, ok := true }

def Office.step (d : Office) : Event → Office
  | .submit r locked =>
    if locked = false then d
    else if d.Hit (C.fullHash r.input) then
      if r.onDone then { d with handed := d.handed ++ [d.served r] } else d
    else { d with waiting := r :: d.waiting }
  | .queue r locked =>
    if r ∈ d.waiting then
      { d with
        waiting := d.waiting.erase r
        worker := d.worker.step C.fullHash
          (.submit .discoveryGenerate r.input [] r.cost r.onDone locked) }
    else d
  | .lxmfGenerate messageId cost locked =>
    { d with
      worker := d.worker.step C.fullHash (.submit .lxmfGenerate messageId [] cost false locked) }
  | .lxmfValue messageId stamp cost locked =>
    { d with
      worker := d.worker.step C.fullHash (.submit .lxmfValue messageId stamp cost false locked) }
  | .complete alloc abortBuild abortSearch fuel =>
    match d.worker.phase with
    | .running j =>
      match outcome C j alloc abortBuild abortSearch fuel with
      | some o =>
        { d with
          worker := d.worker.step C.fullHash (.complete o)
          cacheCost :=
            if j.kind = .discoveryGenerate ∧ (j.result o).ok then j.cost else d.cacheCost }
      | none => d
    | _ => d
  | .step e =>
    { d with worker := d.worker.step C.fullHash e.1, handed := d.handed ++ d.given e.1 }

/-- What is handed out is right for its own request: a stamp is valid for the material at the cost,
and a verdict is that of the stamp it was asked about. -/
def Handed.Valid (h : Handed) : Prop :=
  let wb := workblock C h.job.kind (h.job.material C.fullHash)
  match h.job.kind with
  | .lxmfValue =>
    h.result.value = digestValue (hashWorkblockStamp C.sha wb h.job.stamp) ∧
      h.result.valid = stampValid C.sha h.job.stamp h.job.cost wb
  | _ => stampValid C.sha h.result.stamp h.job.cost wb = true

/-- The condition on a request with a callback that finds its stamp in the cache: its cost is at
most that at which the stamp was searched. -/
def Sound (d : Office) : Event → Prop
  | .submit r locked =>
    locked = true → r.onDone = true → d.Hit (C.fullHash r.input) → r.cost ≤ d.cacheCost
  | .step e => e.1 = .lookup → ∀ j, d.worker.phase = .published j → j.onDone = true →
      d.Hit (j.material C.fullHash) → j.cost ≤ d.cacheCost
  | _ => True

end

section
variable {σ : Type} {C : Crypto σ} {d : Office} {e : Event} {j : Job} {r : JobResult}

/-! ### The work block -/

lemma buildFrom_eq {material wb wb' : Bytes} {len k n : Nat} {abort : Nat → Bool}
    (h : buildFrom C material len abort k n wb = some wb') :
    wb' = wb ++ (List.range' n k).flatMap (block C material len) := by
  induction k generalizing n wb with
  | zero =>
    obtain rfl := Option.some.inj h
    exact (List.append_nil _).symm
  | succ k ih =>
    unfold buildFrom at h
    dsimp only at h
    split at h
    next => cases h
    next =>
      split at h
      next => cases h
      next => rw [ih h, List.range'_succ, List.flatMap_cons, List.append_assoc]

/-- A work block that is built is that of the material. -/
lemma buildWorkblock_eq {kind : JobKind} {material wb : Bytes} {alloc : Bool} {abort : Nat → Bool}
    (h : buildWorkblock C material (rounds kind) (hkdfLen kind) alloc abort = some wb) :
    wb = workblock C kind material := by
  unfold buildWorkblock at h
  split at h
  next =>
    rw [buildFrom_eq h, List.nil_append]
    unfold workblock
    rw [List.range_eq_range']
  next => cases h

/-- A stamp that goes out is held against the cost of its request. -/
lemma Handed.valid_stamp {h : Handed} (hk : h.job.kind ≠ .lxmfValue) :
    h.Valid C ↔ stampValid C.sha h.result.stamp h.job.cost
      (workblock C h.job.kind (h.job.material C.fullHash)) = true := by
  unfold Handed.Valid
  dsimp only
  split
  next hv => exact absurd hv hk
  next => exact Iff.rfl

/-- A job that has failed hands nothing out. -/
lemma not_out_failed : ¬ Handed.Out ⟨j, {}⟩ := by
  unfold Handed.Out
  dsimp only
  split
  next => exact fun h => absurd h.2 (by decide)
  next => exact Bool.false_ne_true

lemma result_stamp {stamp value valid} (hk : j.kind ≠ .lxmfValue) :
    (j.result (.done stamp value valid)).stamp = stamp.1 := by
  unfold Job.result
  dsimp only
  split
  next hv => exact absurd hv hk
  next => rfl

/-- What goes out is the result of a search or a scoring that has come to its end. -/
lemma ok_of_out {o : Outcome} (h : Handed.Out ⟨j, j.result o⟩) : (j.result o).ok = true := by
  cases o with
  | failed => exact absurd h not_out_failed
  | done stamp value valid =>
    unfold Job.result
    dsimp only
    split
    next => rfl
    next => rfl

/-- What a search or a scoring comes to is right for its job. -/
lemma valid_outcome {alloc : Bool} {abortBuild : Nat → Bool} {abortSearch : UInt64 → Bool}
    {fuel : Nat} {o : Outcome} (h : outcome C j alloc abortBuild abortSearch fuel = some o)
    (hok : (j.result o).ok = true) : Handed.Valid C ⟨j, j.result o⟩ := by
  unfold outcome at h
  split at h
  next =>
    obtain rfl := Option.some.inj h
    exact absurd hok Bool.false_ne_true
  next wb hwb =>
    obtain rfl := buildWorkblock_eq hwb
    split at h
    next =>
      obtain rfl := Option.some.inj h
      exact absurd hok Bool.false_ne_true
    next =>
      split at h
      next hk =>
        obtain rfl := Option.some.inj h
        unfold Handed.Valid Job.result
        dsimp only
        rw [hk]
        exact ⟨rfl, rfl⟩
      next hk =>
        split at h
        next hs =>
          obtain rfl := Option.some.inj h
          rw [Handed.valid_stamp hk, result_stamp hk]
          exact digestValid_search.2 _ _ _ _ _ _ hs _ le_rfl
        next =>
          obtain rfl := Option.some.inj h
          exact absurd hok Bool.false_ne_true
        next => cases h

/-! ### The worker -/

/-- A step that ends no search leaves the cache, and a job has its result from before, has none, or
has the stamp from the cache. -/
structure Spared (fullHash : Bytes → Bytes) (s s' : Worker) (e : Stamp.Event) : Prop where
  key : s'.cacheKey = s.cacheKey
  stamp : s'.cacheStamp = s.cacheStamp
  published : ∀ j, s'.phase = .published j → s.phase = .published j ∨ j.kind = .discoveryGenerate
  finished : ∀ j r, s'.phase = .finished j r → s.phase = .finished j r ∨ r = {} ∨
    (e = .lookup ∧ s.phase = .published j ∧ s.cacheKey = j.material fullHash ∧
      s.cacheStamp.length = Stamp.STAMP_SIZE ∧ r = { stamp := s.cacheStamp, ok := true })

variable {fullHash : Bytes → Bytes} {s s' : Worker} {w : Stamp.Event}

lemma Spared.of_phase (hk : s'.cacheKey = s.cacheKey) (hs : s'.cacheStamp = s.cacheStamp)
    (hp : s'.phase = s.phase) : Spared fullHash s s' w :=
  ⟨hk, hs, fun _ h => .inl (hp.symm.trans h), fun _ _ h => .inl (hp.symm.trans h)⟩

/-- The worker goes on to a phase without a result. -/
lemma Spared.of_plain (hk : s'.cacheKey = s.cacheKey) (hs : s'.cacheStamp = s.cacheStamp)
    (hp : ∀ j, s'.phase = .published j → j.kind = .discoveryGenerate)
    (hf : ∀ j r, s'.phase ≠ .finished j r) : Spared fullHash s s' w :=
  ⟨hk, hs, fun j h => .inr (hp j h), fun j r h => absurd h (hf j r)⟩

/-- A cancel leaves the cache and the phase. -/
lemma cancel_kept {material : Bytes} : (s.cancel fullHash material).cacheKey = s.cacheKey ∧
    (s.cancel fullHash material).cacheStamp = s.cacheStamp ∧
    (s.cancel fullHash material).phase = s.phase := by
  have hd : (s.drop fullHash material).cacheKey = s.cacheKey ∧
      (s.drop fullHash material).cacheStamp = s.cacheStamp ∧
      (s.drop fullHash material).phase = s.phase := by
    unfold Worker.drop
    split
    next => exact ⟨rfl, rfl, rfl⟩
    next =>
      split
      next => exact ⟨rfl, rfl, rfl⟩
      next => exact ⟨rfl, rfl, rfl⟩
  unfold Worker.cancel Worker.raise
  split
  next => exact hd
  next => exact hd

lemma spared_step (hw : ∀ o, w ≠ .complete o) : Spared fullHash s (s.step fullHash w) w := by
  cases w with
  | submit kind input stamp cost onDone locked =>
    dsimp only [Worker.step, Worker.submit]
    split
    next =>
      split
      next => exact .of_phase rfl rfl rfl
      next => exact .of_phase rfl rfl rfl
    next => exact .of_phase rfl rfl rfl
  | signal =>
    dsimp only [Worker.step]
    split
    next => exact .of_phase rfl rfl rfl
    next => exact .of_phase rfl rfl rfl
  | cancel material locked =>
    dsimp only [Worker.step]
    split
    next =>
      obtain ⟨hk, hs, hp⟩ := @cancel_kept fullHash s material
      exact .of_phase hk hs hp
    next => exact .of_phase rfl rfl rfl
  | take key locked =>
    dsimp only [Worker.step, Worker.take]
    split
    next =>
      split
      next => exact .of_phase rfl rfl rfl
      next => exact .of_phase rfl rfl rfl
    next => exact .of_phase rfl rfl rfl
  | wake =>
    dsimp only [Worker.step]
    split
    next => exact .of_plain rfl rfl (fun _ h => by cases h) fun _ _ h => by cases h
    next => exact .of_phase rfl rfl rfl
  | dequeue =>
    dsimp only [Worker.step, Worker.dequeue]
    split
    next => exact .of_plain rfl rfl (fun _ h => by cases h) fun _ _ h => by cases h
    next => exact .of_plain rfl rfl (fun _ h => by cases h) fun _ _ h => by cases h
    next => exact .of_phase rfl rfl rfl
  | publish =>
    dsimp only [Worker.step, Worker.publish]
    split
    next j _ =>
      by_cases hk : j.kind = .discoveryGenerate
      · rw [if_pos hk]
        refine .of_plain rfl rfl (fun i h => ?_) fun _ _ h => by cases h
        cases h
        exact hk
      · rw [if_neg hk]
        exact .of_plain rfl rfl (fun _ h => by cases h) fun _ _ h => by cases h
    next => exact .of_phase rfl rfl rfl
  | lookup =>
    dsimp only [Worker.step, Worker.lookup]
    split
    next j hj =>
      split
      next hit =>
        refine ⟨rfl, rfl, (fun _ h => by cases h), fun i r h => .inr (.inr ?_)⟩
        cases h
        exact ⟨rfl, hj, hit.1, hit.2, rfl⟩
      next => exact .of_plain rfl rfl (fun _ h => by cases h) fun _ _ h => by cases h
    next => exact .of_phase rfl rfl rfl
  | check =>
    dsimp only [Worker.step, Worker.check]
    split
    next =>
      split
      next =>
        refine ⟨rfl, rfl, (fun _ h => by cases h), fun i r h => .inr (.inl ?_)⟩
        cases h
        rfl
      next => exact .of_phase rfl rfl rfl
    next => exact .of_phase rfl rfl rfl
  | complete o => exact absurd rfl (hw o)
  | deliver =>
    dsimp only [Worker.step, Worker.deliver]
    split
    next =>
      split
      next =>
        split
        next => exact .of_plain rfl rfl (fun _ h => by cases h) fun _ _ h => by cases h
        next => exact .of_plain rfl rfl (fun _ h => by cases h) fun _ _ h => by cases h
      next => exact .of_plain rfl rfl (fun _ h => by cases h) fun _ _ h => by cases h
    next => exact .of_phase rfl rfl rfl
  | clear =>
    dsimp only [Worker.step, Worker.clear]
    split
    next => exact .of_plain rfl rfl (fun _ h => by cases h) fun _ _ h => by cases h
    next => exact .of_phase rfl rfl rfl

/-! ### What is handed out -/

/-- The cached stamp is valid at the cost it was searched for, a result that will go out is valid
for its job, and so is all that went out. -/
structure Inv (C : Crypto σ) (d : Office) : Prop where
  cached : d.worker.cacheStamp.length = Stamp.STAMP_SIZE →
    stampValid C.sha d.worker.cacheStamp d.cacheCost
      (workblock C .discoveryGenerate d.worker.cacheKey) = true
  published : ∀ j, d.worker.phase = .published j → j.kind = .discoveryGenerate
  finished : ∀ j r, d.worker.phase = .finished j r → Handed.Out ⟨j, r⟩ → Handed.Valid C ⟨j, r⟩
  handed : ∀ x ∈ d.handed, x.Valid C

lemma Inv.init : Inv C {} := ⟨nofun, nofun, nofun, nofun⟩

/-- The cached stamp is valid for each request with its material whose cost is no higher. -/
lemma Inv.serve (h : Inv C d) (hk : j.kind = .discoveryGenerate)
    (hit : d.Hit (j.material C.fullHash)) (hc : j.cost ≤ d.cacheCost) :
    Handed.Valid C ⟨j, { stamp := d.worker.cacheStamp, ok := true }⟩ := by
  have hv := h.cached hit.2
  rw [hit.1] at hv
  rw [Handed.valid_stamp (by rw [hk]; nofun), hk]
  exact digestValid_mono hv hc

/-- The worker takes a step that ends no search. -/
lemma Inv.spare {handed : List Handed} {waiting : List Request} (h : Inv C d)
    (hs : Spared C.fullHash d.worker s' w)
    (hw : w = .lookup → ∀ j, d.worker.phase = .published j → j.onDone = true →
      d.Hit (j.material C.fullHash) → j.cost ≤ d.cacheCost)
    (hh : ∀ x ∈ handed, x.Valid C) : Inv C { d with worker := s', handed, waiting } := by
  refine ⟨fun hl => ?_, fun j hj => ?_, fun j r hj hout => ?_, hh⟩
  · have hl : s'.cacheStamp.length = Stamp.STAMP_SIZE := hl
    rw [hs.stamp] at hl
    dsimp only
    rw [hs.stamp, hs.key]
    exact h.cached hl
  · rcases hs.published j hj with hp | hk
    · exact h.published j hp
    · exact hk
  · rcases hs.finished j r hj with hp | rfl | ⟨rfl, hp, hkey, hlen, rfl⟩
    · exact h.finished j r hp hout
    · exact absurd hout not_out_failed
    · have hk := h.published j hp
      unfold Handed.Out at hout
      dsimp only at hout
      rw [hk] at hout
      exact h.serve hk ⟨hkey, hlen⟩ (hw rfl j hp hout.1 ⟨hkey, hlen⟩)

/-- A request that finds its stamp in the cache is served. -/
lemma step_served {r : Request} (hit : d.Hit (C.fullHash r.input)) (hr : r.onDone = true) :
    d.step C (.submit r true) = { d with handed := d.handed ++ [d.served r] } := by
  dsimp only [Office.step]
  rw [if_neg nofun, if_pos hit, if_pos hr]

/-- A stamp or a verdict goes out. -/
lemma Inv.given (h : Inv C d) : ∀ x ∈ d.handed ++ d.given w, x.Valid C := by
  intro x hx
  rcases List.mem_append.mp hx with hx | hx
  · exact h.handed x hx
  · unfold Office.given at hx
    split at hx
    next =>
      split at hx
      next j r hp =>
        split at hx
        next hout =>
          obtain rfl := List.mem_singleton.mp hx
          exact h.finished j r hp hout
        next => cases hx
      next => cases hx
    next => cases hx

/-- A search or a scoring ends. -/
lemma Inv.complete {o : Outcome} (h : Inv C d) (hp : d.worker.phase = .running j)
    (hv : (j.result o).ok = true → Handed.Valid C ⟨j, j.result o⟩) :
    Inv C { d with
      worker := d.worker.step C.fullHash (.complete o)
      cacheCost := if j.kind = .discoveryGenerate ∧ (j.result o).ok then j.cost
        else d.cacheCost } := by
  dsimp only [Worker.step, Worker.complete]
  rw [hp]
  dsimp only
  split
  next hk =>
    refine ⟨fun _ => ?_, nofun, fun i r hi hout => ?_, h.handed⟩
    · have hv := (Handed.valid_stamp (by rw [hk.1]; nofun)).mp (hv hk.2)
      dsimp only at hv
      rw [hk.1] at hv
      exact hv
    · cases hi
      exact hv (ok_of_out hout)
  next =>
    refine ⟨h.cached, nofun, fun i r hi hout => ?_, h.handed⟩
    cases hi
    exact hv (ok_of_out hout)

lemma Inv.step (h : Inv C d) (he : Sound C d e) : Inv C (d.step C e) := by
  cases e with
  | submit r locked =>
    dsimp only [Office.step]
    split
    next => exact h
    next hl =>
      split
      next hit =>
        split
        next hdone =>
          refine ⟨h.cached, h.published, h.finished, fun x hx => ?_⟩
          rcases List.mem_append.mp hx with hx | hx
          · exact h.handed x hx
          · obtain rfl := List.mem_singleton.mp hx
            exact h.serve rfl hit (he (Bool.eq_true_of_not_eq_false hl) hdone hit)
        next => exact h
      next => exact ⟨h.cached, h.published, h.finished, h.handed⟩
  | queue r locked =>
    dsimp only [Office.step]
    split
    next => exact h.spare (spared_step nofun) nofun h.handed
    next => exact h
  | lxmfGenerate messageId cost locked => exact h.spare (spared_step nofun) nofun h.handed
  | lxmfValue messageId stamp cost locked => exact h.spare (spared_step nofun) nofun h.handed
  | complete alloc abortBuild abortSearch fuel =>
    dsimp only [Office.step]
    split
    next j hp =>
      split
      next o ho => exact h.complete hp (valid_outcome ho)
      next => exact h
    next => exact h
  | step e =>
    have hw : ∀ o, e.1 ≠ .complete o := fun o ho => by
      have := e.2
      rw [ho] at this
      exact this
    exact h.spare (spared_step hw) he h.given

/-- **Every stamp handed out is valid for its own request**: for every run in which no request is
served from the cache at a cost above that of the cached stamp, each stamp that goes to a callback
or to the mailbox is valid for the material and at the cost of its request, and each verdict is that
of its stamp. -/
theorem valid_of_sound {events : List Event} (h : Allowed (Office.step C) (Sound C) {} events) :
    ∀ x ∈ (events.foldl (Office.step C) {}).handed, x.Valid C :=
  ((Reach.init.run h).invariant Inv.init fun he hI => hI.step he).handed

/-! ### A stamp that is asked for twice -/

/-- Hashes that do not look at their input. -/
def plainCrypto : Crypto Nat where
  sha := countHash
  fullHash := id
  hkdf n _ _ := List.replicate n 0

/-- A stamp is asked for at cost 3, and the worker comes to its search. -/
def asked : List Event :=
  [.submit ⟨[1], 3, true⟩ true, .queue ⟨[1], 3, true⟩ true, .step ⟨.signal, trivial⟩,
    .step ⟨.wake, trivial⟩, .step ⟨.dequeue, trivial⟩, .step ⟨.publish, trivial⟩,
    .step ⟨.lookup, trivial⟩]

/-- The stamp is found and handed out; then it is asked for at `cost`. -/
def sample (cost : Nat) : List Event :=
  asked ++ [.complete true (fun _ => false) (fun _ => false) 1, .step ⟨.deliver, trivial⟩,
    .step ⟨.clear, trivial⟩, .submit ⟨[1], cost, true⟩ true]

lemma updateBlock_count {h : Nat} {wb : Bytes} : updateBlock countHash h wb = h + wb.length := by
  induction h, wb using updateBlock.induct countHash with
  | case1 h wb hlt ih =>
    rw [updateBlock, if_pos hlt, ih]
    dsimp only [countHash]
    rw [Nat.add_assoc, ← List.length_append, List.take_append_drop]
  | case2 h wb hge => rw [updateBlock, if_neg hge, Nat.eq_zero_of_not_pos hge, Nat.add_zero]

/-- Blocks of the right length come to a work block. -/
lemma buildFrom_some {material wb : Bytes} {len k n : Nat}
    (h : ∀ n, (block C material len n).length = len) :
    ∃ wb', buildFrom C material len (fun _ => false) k n wb = some wb' ∧
      wb'.length = wb.length + k * len := by
  induction k generalizing n wb with
  | zero => exact ⟨wb, rfl, by rw [Nat.zero_mul, Nat.add_zero]⟩
  | succ k ih =>
    obtain ⟨wb', hwb, hlen⟩ := @ih (wb ++ block C material len n) (n + 1)
    refine ⟨wb', ?_, ?_⟩
    · unfold buildFrom
      dsimp only
      rw [if_neg (not_not.mpr (h n)), if_neg (fun hn => Bool.false_ne_true hn.2)]
      exact hwb
    · rw [hlen, List.length_append, h n, Nat.succ_mul, Nat.add_assoc, Nat.add_comm len]

/-- The first candidate is found. -/
lemma outcome_plain (hk : j.kind = .discoveryGenerate) (hc : j.cost = 3) :
    outcome plainCrypto j true (fun _ => false) (fun _ => false) 1 =
      some (.done ⟨candidate 0, rfl⟩ 248 true) := by
  obtain ⟨wb, hwb, hlen⟩ := @buildFrom_some _ plainCrypto (j.material id) [] 32 20 0
    fun n => List.length_replicate
  have hs : generateSearch countHash wb 3 (fun _ => false) 1 = .found (candidate 0) 248 := by
    rw [generateSearch, updateBlock_count, hlen]
    decide
  have hb : buildWorkblock plainCrypto (j.material plainCrypto.fullHash) (rounds j.kind)
      (hkdfLen j.kind) true (fun _ => false) = some wb := by
    rw [hk]
    exact hwb
  unfold outcome
  rw [hb]
  dsimp only
  rw [if_neg (by rw [hlen]; decide), if_neg (by simp [hk])]
  split
  next stamp value h =>
    rw [hc] at h
    cases hs.symm.trans h
    rfl
  next h =>
    rw [hc] at h
    cases hs.symm.trans h
  next h =>
    rw [hc] at h
    cases hs.symm.trans h

end

/-- The worker of the sample before its search and after it. -/
def searching : Office where
  worker :=
    { busy := true
      currentKey := [1]
      phase := .running ⟨0, .discoveryGenerate, [1], [], 3, true⟩
      accepted := [(0, [1])] }

def found : Office where
  worker :=
    { searching.worker with
      cacheKey := [1]
      cacheStamp := candidate 0
      phase := .finished ⟨0, .discoveryGenerate, [1], [], 3, true⟩
        ⟨candidate 0, 248, true, true⟩ }
  cacheCost := 3

lemma asked_searching : asked.foldl (Office.step plainCrypto) {} = searching := rfl

lemma searching_complete :
    searching.step plainCrypto (.complete true (fun _ => false) (fun _ => false) 1) = found := by
  dsimp only [Office.step, searching]
  rw [outcome_plain rfl rfl]
  rfl

lemma allowed_sample {cost : Nat} (h : cost ≤ 3) :
    Allowed (Office.step plainCrypto) (Sound plainCrypto) {} (sample cost) := by
  refine ⟨fun _ _ hit => absurd hit (by decide), trivial, nofun, nofun, nofun, nofun,
    fun _ j hj _ hit => ?_, trivial, ?_⟩
  · cases hj
    exact absurd hit.2 (by decide)
  · show Allowed _ _ (searching.step plainCrypto (.complete true _ _ 1)) _
    rw [searching_complete]
    exact ⟨nofun, nofun, fun _ _ _ => h, trivial⟩

/-- The stamp is asked for again at a lower cost. -/
theorem valid_of_sound_lower :
    Allowed (Office.step plainCrypto) (Sound plainCrypto) {} (sample 2) ∧
      ∀ x ∈ ((sample 2).foldl (Office.step plainCrypto) {}).handed, x.Valid plainCrypto :=
  have h := allowed_sample (by decide)
  ⟨h, valid_of_sound h⟩

/-- The cache does not keep the cost: a stamp that was searched at cost 3 is handed out at cost
250. -/
theorem not_valid_dearer :
    ¬ ∀ x ∈ ((sample 250).foldl (Office.step plainCrypto) {}).handed, x.Valid plainCrypto := by
  intro h
  let d := (found.step plainCrypto (.step ⟨.deliver, trivial⟩)).step plainCrypto
    (.step ⟨.clear, trivial⟩)
  have hrun : (sample 250).foldl (Office.step plainCrypto) {} =
      d.step plainCrypto (.submit ⟨[1], 250, true⟩ true) := by
    rw [sample, List.foldl_append, asked_searching, List.foldl_cons, searching_complete]
    rfl
  have hit : d.Hit [1] := by decide
  rw [hrun, step_served hit rfl] at h
  have hv := h _ (List.mem_append_right _ (List.mem_singleton.mpr rfl))
  have hv := (Handed.valid_stamp (C := plainCrypto) (by nofun)).mp hv
  obtain ⟨wb, hwb, hlen⟩ := @buildFrom_some _ plainCrypto [1] [] 32 20 0
    fun n => List.length_replicate
  have hwb : buildWorkblock plainCrypto [1] (rounds .discoveryGenerate) (hkdfLen .discoveryGenerate)
      true (fun _ => false) = some wb := hwb
  have hv : stampValid countHash (candidate 0) 250
    (workblock plainCrypto .discoveryGenerate [1]) = true :=
    hv
  rw [← buildWorkblock_eq hwb, stampValid, hashWorkblockStamp, updateBlock_count, hlen] at hv
  exact absurd hv (by decide)

end URSupreme.StampCache
