import URSupreme.Lib.Ring

/-!
# The FIFOs

`FIFOBuffer` and `FIFOBuffer16` of `Utilities.h`, which differ in their elements only. Pointers are
addresses, counted in elements, and an access outside the array at `begin` fails. Guarded calls
make such a FIFO a queue of as many elements as it was initialised with, in an array of one more.
-/

namespace URSupreme.Utilities
open Lib

/-! ### The FIFOs -/

/-- `FIFOBuffer` and `FIFOBuffer16`; `array` is what stands at `begin`. -/
structure Fifo (α : Type) where
  array : List α
  begin_ : ℤ
  end_ : ℤ
  head : ℤ
  tail : ℤ
  deriving DecidableEq, Repr

namespace Fifo
variable {α : Type}

/-- `*p`. -/
def read (f : Fifo α) (p : ℤ) : Option α :=
  if f.begin_ ≤ p then f.array[(p - f.begin_).toNat]? else none

/-- `*p = c`. -/
def write (f : Fifo α) (p : ℤ) (c : α) : Option (Fifo α) :=
  if f.begin_ ≤ p ∧ (p - f.begin_).toNat < f.array.length then
    some { f with array := f.array.set (p - f.begin_).toNat c }
  else none

def isEmpty (f : Fifo α) : Bool := f.head = f.tail

def isFull (f : Fifo α) : Bool := (f.head = f.begin_ ∧ f.tail = f.end_) ∨ f.tail = f.head - 1

def push (f : Fifo α) (c : α) : Option (Fifo α) := do
  let f ← f.write f.tail c
  if f.tail = f.end_ then some { f with tail := f.begin_ }
  else some { f with tail := f.tail + 1 }

def pop (f : Fifo α) : Option (α × Fifo α) :=
  if f.head = f.end_ then do
    let f := { f with head := f.begin_ }
    some (← f.read f.end_, f)
  else do some (← f.read f.head, { f with head := f.head + 1 })

def flush (f : Fifo α) : Fifo α := { f with head := f.tail }

/-- Over an array at the address `buffer`. -/
def init (buffer : ℤ) (array : List α) (size : ℕ) : Fifo α :=
  { array, begin_ := buffer, end_ := buffer + size, head := buffer, tail := buffer }

def len (f : Fifo α) : ℤ := f.end_ - f.begin_

lemma len_init {buffer : ℤ} {array : List α} {size : ℕ} : (init buffer array size).len = size :=
  add_sub_cancel_left buffer size

end Fifo

abbrev FIFOBuffer : Type := Fifo UInt8
def fifoIsempty : FIFOBuffer → Bool := Fifo.isEmpty
def fifoIsfull : FIFOBuffer → Bool := Fifo.isFull
def fifoPush : FIFOBuffer → UInt8 → Option FIFOBuffer := Fifo.push
def fifoPop : FIFOBuffer → Option (UInt8 × FIFOBuffer) := Fifo.pop
def fifoFlush : FIFOBuffer → FIFOBuffer := Fifo.flush
def fifoInit : ℤ → List UInt8 → ℕ → FIFOBuffer := Fifo.init
def fifoLen : FIFOBuffer → ℤ := Fifo.len

abbrev FIFOBuffer16 : Type := Fifo UInt16
def fifo16Isempty : FIFOBuffer16 → Bool := Fifo.isEmpty
def fifo16Isfull : FIFOBuffer16 → Bool := Fifo.isFull
def fifo16Push : FIFOBuffer16 → UInt16 → Option FIFOBuffer16 := Fifo.push
def fifo16Pop : FIFOBuffer16 → Option (UInt16 × FIFOBuffer16) := Fifo.pop
def fifo16Flush : FIFOBuffer16 → FIFOBuffer16 := Fifo.flush
def fifo16Init : ℤ → List UInt16 → ℕ → FIFOBuffer16 := Fifo.init
def fifo16Len : FIFOBuffer16 → ℤ := Fifo.len

/-- The functions of a FIFO. -/
structure Operations (α : Type) where
  isEmpty : Fifo α → Bool
  isFull : Fifo α → Bool
  push : Fifo α → α → Option (Fifo α)
  pop : Fifo α → Option (α × Fifo α)
  flush : Fifo α → Fifo α

def fifo : Operations UInt8 := ⟨fifoIsempty, fifoIsfull, fifoPush, fifoPop, fifoFlush⟩

def fifo16 : Operations UInt16 :=
  ⟨fifo16Isempty, fifo16Isfull, fifo16Push, fifo16Pop, fifo16Flush⟩

/-! ### Guarded calls -/

/-- A push where the FIFO is not full, a pop where it is not empty, or a flush. -/
inductive Call (α : Type) where
  | push (c : α)
  | pop
  | flush
  deriving DecidableEq, Repr

section calls
variable {α : Type}

/-- What a call gives back, and the FIFO behind it. -/
def Operations.step (o : Operations α) (f : Fifo α) : Call α → Option (List α × Fifo α)
  | .push c => if o.isFull f then some ([], f) else do some ([], ← o.push f c)
  | .pop =>
    if o.isEmpty f then some ([], f) else do
      let (c, f) ← o.pop f
      some ([c], f)
  | .flush => some ([], o.flush f)

def Operations.run (o : Operations α) : Fifo α → List (Call α) → Option (List α × Fifo α)
  | f, [] => some ([], f)
  | f, e :: es => do
    let (out, f) ← o.step f e
    let (outs, f) ← o.run f es
    some (out ++ outs, f)

/-! ### Queues -/

/-- A queue of at most `n` elements, the oldest first. -/
structure Queue (α : Type) (n : ℕ) where
  items : List α
  room : items.length ≤ n

namespace Queue
variable {n : ℕ}

def empty (n : ℕ) : Queue α n := ⟨[], Nat.zero_le n⟩

def step (q : Queue α n) : Call α → List α × Queue α n
  | .push c =>
    if h : q.items.length = n then ([], q)
    else ([], ⟨q.items ++ [c], by
      rw [List.length_append]
      exact Nat.lt_of_le_of_ne q.room h⟩)
  | .pop =>
    match q with
    | ⟨[], h⟩ => ([], ⟨[], h⟩)
    | ⟨c :: l, h⟩ => ([c], ⟨l, Nat.le_of_succ_le h⟩)
  | .flush => ([], empty n)

def run : Queue α n → List (Call α) → List α × Queue α n
  | q, [] => ([], q)
  | q, e :: es =>
    let (out, q) := q.step e
    let (outs, q) := run q es
    (out ++ outs, q)

end Queue

/-- The FIFO behaves as a queue of `n` elements: no guarded call accesses anything outside the
array, they give back what those of the queue do, and the FIFO is full or empty exactly where the
queue is. -/
def IsQueue (o : Operations α) (f : Fifo α) (n : ℕ) : Prop :=
  ∀ calls, ∃ f', o.run f calls = some (((Queue.empty n).run calls).1, f') ∧
    (o.isFull f' = true ↔ ((Queue.empty n).run calls).2.items.length = n) ∧
    (o.isEmpty f' = true ↔ ((Queue.empty n).run calls).2.items = [])

end calls

/-! ### The elements in the array -/

namespace Fifo
variable {α : Type} {f : Fifo α} {n : ℕ} {l : List α} {c : α} {p : ℕ}

/-- The functions that both FIFOs have. -/
def operations : Operations α := ⟨isEmpty, isFull, push, pop, flush⟩

/-- The FIFO has an array of `n + 1` elements and holds `l`, oldest first, from the head on. -/
structure Holds (f : Fifo α) (n : ℕ) (l : List α) : Prop where
  array : f.array.length = n + 1
  end_ : f.end_ = f.begin_ + n
  room : l.length ≤ n
  place : ∃ h ≤ n, f.head = f.begin_ + h ∧
    f.tail = f.begin_ + ((h + l.length) % (n + 1) : ℕ) ∧
    Spans (n + 1) (fun i => f.array[i]?) h (l.map some)

lemma holds_init {buffer : ℤ} {array : List α} (h : array.length = n + 1) :
    (init buffer array n).Holds n [] where
  array := h
  end_ := rfl
  room := Nat.zero_le n
  place := ⟨0, Nat.zero_le n, by simp [init], by simp [init], spans_nil⟩

lemma read_begin_add : f.read (f.begin_ + p) = f.array[p]? := by
  rw [read, if_pos (by omega), show (f.begin_ + p - f.begin_).toNat = p by omega]

lemma write_begin_add (h : p < f.array.length) :
    f.write (f.begin_ + p) c = some { f with array := f.array.set p c } := by
  rw [write, show (f.begin_ + p - f.begin_).toNat = p by omega, if_pos ⟨by omega, h⟩]

lemma getElem?_set_eq (h : p < f.array.length) :
    (fun i => (f.array.set p c)[i]?) = Function.update (fun i => f.array[i]?) p (some c) := by
  funext i
  by_cases hi : i = p
  · subst hi
    rw [Function.update_self, List.getElem?_set_self h]
  · rw [Function.update_of_ne hi, List.getElem?_set_ne (Ne.symm hi)]

lemma Holds.isEmpty_iff (h : f.Holds n l) : f.isEmpty = true ↔ l = [] := by
  have hroom := h.room
  obtain ⟨k, hk, hhead, htail, -⟩ := h.place
  rw [add_mod_ring (by omega) (by omega)] at htail
  rw [isEmpty, decide_eq_true_eq, hhead, htail, ← List.length_eq_zero_iff]
  split <;> omega

lemma Holds.isFull_iff (h : f.Holds n l) : f.isFull = true ↔ l.length = n := by
  have hroom := h.room
  obtain ⟨k, hk, hhead, htail, -⟩ := h.place
  rw [add_mod_ring (by omega) (by omega)] at htail
  rw [isFull, decide_eq_true_eq, hhead, htail, h.end_]
  split <;> omega

/-- A push to a FIFO that is not full. -/
lemma Holds.push (h : f.Holds n l) (hl : l.length < n) :
    ∃ f', f.push c = some f' ∧ f'.Holds n (l ++ [c]) := by
  have harray := h.array
  have hend := h.end_
  obtain ⟨k, hk, hhead, htail, hspans⟩ := h.place
  have hlt : (k + l.length) % (n + 1) < f.array.length := by
    rw [harray]
    exact Nat.mod_lt _ (Nat.succ_pos n)
  have hsnoc := hspans.snoc (a := some c) (by rw [List.length_map]; omega)
  rw [List.length_map, ← getElem?_set_eq hlt] at hsnoc
  have hnext := add_mod_ring (by omega : k < n + 1) (by omega : l.length + 1 ≤ n + 1)
  have hmod := add_mod_ring (by omega : k < n + 1) (by omega : l.length ≤ n + 1)
  have hmap : (l ++ [c]).map some = l.map some ++ [some c] := List.map_append
  rw [Fifo.push, htail, write_begin_add hlt]
  dsimp only [Option.bind_eq_bind, Option.bind_some]
  rw [hmod] at htail
  split
  next he =>
    -- the tail starts over
    refine ⟨_, rfl, by rw [List.length_set, harray], hend, by simpa using hl, k, hk, hhead, ?_, ?_⟩
    · rw [List.length_append, List.length_singleton, hnext]
      dsimp only
      split at htail <;> split <;> omega
    · rw [hmap]
      exact hsnoc
  next he =>
    refine ⟨_, rfl, by rw [List.length_set, harray], hend, by simpa using hl, k, hk, hhead, ?_, ?_⟩
    · rw [List.length_append, List.length_singleton, hnext]
      dsimp only
      split at htail <;> split <;> omega
    · rw [hmap]
      exact hsnoc

/-- A pop from a FIFO that is not empty. -/
lemma Holds.pop (h : f.Holds n (c :: l)) : ∃ f', f.pop = some (c, f') ∧ f'.Holds n l := by
  have hroom := h.room
  have hend := h.end_
  obtain ⟨k, hk, hhead, htail, hfirst, hrest⟩ := h.place
  rw [Nat.mod_eq_of_lt (by omega)] at hfirst
  rw [List.length_cons] at hroom htail
  have hread : f.read f.head = some c := by
    rw [hhead, read_begin_add]
    exact hfirst
  rw [Fifo.pop]
  split
  next he =>
    -- the head starts over
    have hkn : k = n := by omega
    have hread' : ({ f with head := f.begin_ } : Fifo α).read f.end_ = some c := by
      rw [← he]
      exact hread
    dsimp only
    rw [hread']
    refine ⟨_, rfl, h.array, hend, by omega, 0, Nat.zero_le n, by simp, ?_, ?_⟩
    · rw [htail, hkn, show n + (l.length + 1) = 0 + l.length + (n + 1) by omega, Nat.add_mod_right]
    · refine (spans_congr ?_).mp hrest
      rw [hkn, Nat.mod_self, Nat.zero_mod]
  next he =>
    rw [hread]
    refine ⟨_, rfl, h.array, hend, by omega, k + 1, by omega, ?_, ?_, hrest⟩
    · dsimp only
      rw [hhead]
      push_cast
      ring
    · rw [htail, show k + (l.length + 1) = k + 1 + l.length by omega]

lemma Holds.flush (h : f.Holds n l) : f.flush.Holds n [] := by
  have hroom := h.room
  obtain ⟨k, hk, hhead, htail, -⟩ := h.place
  have hlt : (k + l.length) % (n + 1) < n + 1 := Nat.mod_lt _ (Nat.succ_pos n)
  refine ⟨h.array, h.end_, Nat.zero_le n, (k + l.length) % (n + 1), by omega, htail, ?_, spans_nil⟩
  rw [List.length_nil, Nat.add_zero, Nat.mod_mod]
  exact htail

/-- A guarded call does to the FIFO what it does to the queue. -/
lemma Holds.step {q : Queue α n} (h : f.Holds n q.items) (e : Call α) :
    ∃ f', operations.step f e = some ((q.step e).1, f') ∧ f'.Holds n (q.step e).2.items := by
  cases e with
  | push c =>
    by_cases hfull : q.items.length = n
    · have hf : operations.isFull f = true := h.isFull_iff.mpr hfull
      refine ⟨f, ?_, ?_⟩
      · rw [Operations.step, if_pos hf, Queue.step, dif_pos hfull]
      · rw [Queue.step, dif_pos hfull]
        exact h
    · obtain ⟨f', e, h'⟩ := @Holds.push α f n q.items c h (Nat.lt_of_le_of_ne q.room hfull)
      have hf : ¬ operations.isFull f = true := fun hn => hfull (h.isFull_iff.mp hn)
      refine ⟨f', ?_, ?_⟩
      · rw [Operations.step, if_neg hf, Queue.step, dif_neg hfull]
        change (do some ([], ← f.push c)) = _
        rw [e]
        rfl
      · rw [Queue.step, dif_neg hfull]
        exact h'
  | pop =>
    match q, h with
    | ⟨[], hq⟩, h =>
      have hf : operations.isEmpty f = true := h.isEmpty_iff.mpr rfl
      refine ⟨f, ?_, h⟩
      rw [Operations.step, if_pos hf]
      rfl
    | ⟨c :: l, hq⟩, h =>
      obtain ⟨f', e, h'⟩ := h.pop
      have hf : ¬ operations.isEmpty f = true :=
        fun hn => absurd (h.isEmpty_iff.mp hn) (List.cons_ne_nil c l)
      refine ⟨f', ?_, h'⟩
      rw [Operations.step, if_neg hf]
      change (do let (c, f) ← f.pop; some ([c], f)) = _
      rw [e]
      rfl
  | flush => exact ⟨f.flush, rfl, h.flush⟩

lemma Holds.run {q : Queue α n} (h : f.Holds n q.items) (calls : List (Call α)) :
    ∃ f', operations.run f calls = some ((q.run calls).1, f') ∧
      f'.Holds n (q.run calls).2.items := by
  induction calls generalizing f q with
  | nil => exact ⟨f, rfl, h⟩
  | cons e es ih =>
    obtain ⟨f1, e1, h1⟩ := h.step e
    obtain ⟨f2, e2, h2⟩ := ih h1
    refine ⟨f2, ?_, h2⟩
    rw [Operations.run, e1]
    dsimp only [Option.bind_eq_bind, Option.bind_some]
    rw [e2]
    rfl

/-- A FIFO of size `n` over an array of `n + 1` elements is a queue of `n` elements. -/
lemma init_isQueue (buffer : ℤ) (array : Vector α (n + 1)) :
    IsQueue operations (init buffer array.toList n) n := by
  intro calls
  have h0 : (init buffer array.toList n).Holds n (Queue.empty n : Queue α n).items :=
    holds_init array.size_toArray
  obtain ⟨f, e, h⟩ := h0.run calls
  exact ⟨f, e, h.isFull_iff, h.isEmpty_iff⟩

end Fifo

/-- Both FIFOs, initialised with any size over an array of one element more, wherever it stands, are
queues of that size. -/
theorem fifos_are_queues :
    (∀ n (buffer : ℤ) (array : Vector UInt8 (n + 1)),
      IsQueue fifo (fifoInit buffer array.toList n) n) ∧
    ∀ n (buffer : ℤ) (array : Vector UInt16 (n + 1)),
      IsQueue fifo16 (fifo16Init buffer array.toList n) n :=
  ⟨fun _ => Fifo.init_isQueue, fun _ => Fifo.init_isQueue⟩

end URSupreme.Utilities
