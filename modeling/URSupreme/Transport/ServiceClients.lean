import URSupreme.Transport.TcpClients

/-!
# The service loop of the TCP clients

`add_client`, `remove_client` and `service_clients` of `TCPTransport.h`, with the count of the
clients. The loop stops at the count, so it reaches a client in a higher slot only when no slot
below is free.
-/

namespace URSupreme.TcpClients
open Lib

/-- `client_impls` and `client_count`. -/
structure Transport where
  slots : Slots := List.replicate TCP_MAX_CLIENTS none
  clientCount : Nat := 0

/-- The number of occupied slots. -/
def occupied (slots : Slots) : Nat := slots.countP (·.isSome)

/-- `add_client`. -/
def Transport.add (s : Transport) (name host : Bytes) (port : UInt16) (cfg : Entry) :
    Transport × Bool :=
  match addClient s.slots name host port cfg with
  | (slots, true) => ({ slots, clientCount := occupied slots }, true)
  | (_, false) => (s, false)

/-- `remove_client`. -/
def Transport.remove (s : Transport) (name : Bytes) : Transport × Bool :=
  if hasClient name s.slots then
    let slots := removeClient name s.slots
    ({ slots, clientCount := occupied slots }, true)
  else (s, false)

/-- `service_clients`, as the slots whose clients are serviced. -/
def Transport.serviceClients (s : Transport) : List Nat :=
  (List.range s.clientCount).filter fun i => (s.slots[i]?.join).isSome

/-- A call, or a pass of the loop. -/
inductive Call where
  | add (name host : Bytes) (port : UInt16) (cfg : Entry)
  | remove (name : Bytes)
  | service
  deriving DecidableEq, Repr

def Transport.step (s : Transport) : Call → Transport
  | .add name host port cfg => (s.add name host port cfg).1
  | .remove name => (s.remove name).1
  | .service => s

/-- There is a client in the slot. -/
def Transport.Live (s : Transport) (i : Nat) : Prop := ∃ c, s.slots[i]? = some (some c)

/-- The count is right, a client is added exactly when its name is unused and a slot is free, and a
pass services each client once. -/
structure Transport.Serves (s : Transport) : Prop where
  count : s.clientCount = occupied s.slots
  add : ∀ name host port cfg, name ≠ [] → host ≠ [] →
    ((s.add name host port cfg).2 = true ↔ hasClient name s.slots = false ∧ none ∈ s.slots)
  service : ∀ i, s.Live i → s.serviceClients.count i = 1

/-- No free slot stands below a client. -/
def Transport.Packed (s : Transport) : Prop := ∀ i j, i ≤ j → s.Live j → s.Live i

section
variable {s : Transport} {slots : Slots} {c : Client} {name host : Bytes} {port : UInt16}
  {cfg : Entry} {i : Nat}

lemma place_isSome : (place c slots).isSome ↔ none ∈ slots := by
  induction slots with
  | nil => exact ⟨nofun, fun h => absurd h List.not_mem_nil⟩
  | cons o slots ih =>
    cases o with
    | none => exact ⟨fun _ => List.mem_cons_self, fun _ => rfl⟩
    | some d =>
      rw [place, Option.isSome_map, ih, List.mem_cons]
      exact ⟨.inr, fun h => h.resolve_left nofun⟩

/-- When `add_client` succeeds. -/
lemma addClient_iff (hname : name ≠ []) (hhost : host ≠ []) :
    (addClient slots name host port cfg).2 = true ↔ hasClient name slots = false ∧
    none ∈ slots := by
  unfold addClient
  rw [if_neg (not_or.mpr ⟨hname, hhost⟩)]
  cases hc : hasClient name slots with
  | true => exact ⟨nofun, fun h => nomatch h.1⟩
  | false =>
    rw [if_neg Bool.false_ne_true,
      ← place_isSome (c := applyModeIfac { name, host, port } cfg .full)]
    cases place (applyModeIfac { name, host, port } cfg .full) slots with
    | none => exact ⟨nofun, fun h => nomatch h.2⟩
    | some slots' => exact ⟨fun _ => ⟨rfl, rfl⟩, fun _ => rfl⟩

/-- The count is kept. -/
lemma count_step {call : Call} (h : s.clientCount = occupied s.slots) :
    (s.step call).clientCount = occupied (s.step call).slots := by
  cases call with
  | add name host port cfg =>
    unfold Transport.step Transport.add
    dsimp only
    split
    next => rfl
    next => exact h
  | remove name =>
    unfold Transport.step Transport.remove
    dsimp only
    split
    next => rfl
    next => exact h
  | service => exact h

lemma live_iff : s.Live i ↔ (s.slots[i]?.join).isSome = true := by
  unfold Transport.Live
  rcases s.slots[i]? with _ | _ | c
  · exact ⟨fun ⟨_, h⟩ => (Option.some_ne_none _ h.symm).elim, nofun⟩
  · exact ⟨fun ⟨_, h⟩ => (Option.some_ne_none _ (Option.some.inj h).symm).elim, nofun⟩
  · exact ⟨fun _ => rfl, fun _ => ⟨c, rfl⟩⟩

instance : Decidable (s.Live i) := decidable_of_iff _ live_iff.symm

lemma Transport.Live.lt (h : s.Live i) : i < s.slots.length :=
  (List.getElem?_eq_some_iff.mp h.choose_spec).1

instance : Decidable s.Packed :=
  decidable_of_iff (∀ j < s.slots.length, ∀ i < j + 1, s.Live j → s.Live i)
    ⟨fun h i j hij hj => h j hj.lt i (Nat.lt_succ_of_le hij) hj,
      fun h j _ i hi hj => h i j (Nat.le_of_lt_succ hi) hj⟩

/-- A pass reaches a client below the count, and services it once. -/
lemma count_serviceClients (h : s.Live i) : s.serviceClients.count i = 1 ↔ i < s.clientCount := by
  have hmem : i ∈ s.serviceClients ↔ i < s.clientCount := by
    rw [Transport.serviceClients, List.mem_filter, List.mem_range]
    exact and_iff_left (live_iff.mp h)
  have hnodup : s.serviceClients.Nodup := List.nodup_range.filter _
  rw [hnodup.count, ← hmem]
  exact ⟨fun h => by_contra fun hn => absurd h (by rw [if_neg hn]; decide), fun h => if_pos h⟩

/-- The clients fill the first slots exactly when each is below the count. -/
lemma packed_iff (h : s.clientCount = occupied s.slots) :
    (∀ i, s.Live i → i < s.clientCount) ↔ s.Packed := by
  have hlive : ∀ i (hi : i < s.slots.length), s.Live i ↔ (s.slots.get ⟨i, hi⟩).isSome = true := by
    intro i hi
    rw [live_iff, List.getElem?_eq_getElem hi]
    rfl
  constructor
  · intro hlt i j hij hj
    -- no client stands behind the count, so all slots before it are taken
    have hdrop : (s.slots.drop s.clientCount).countP (·.isSome) = 0 := by
      refine List.countP_eq_zero.mpr fun o ho hsome => ?_
      obtain ⟨k, hk, rfl⟩ := List.getElem_of_mem ho
      rw [List.length_drop] at hk
      rw [List.getElem_drop] at hsome
      have := hlt (s.clientCount + k) ((hlive _ (by omega)).mpr hsome)
      omega
    have htake : (s.slots.take s.clientCount).countP (·.isSome) = s.clientCount := by
      rw [← Nat.add_zero (List.countP _ _), ← hdrop, ← List.countP_append, List.take_append_drop]
      exact h.symm
    have hlength : (s.slots.take s.clientCount).length ≤ s.clientCount := List.length_take_le _ _
    have hall := List.countP_eq_length.mp
      (le_antisymm List.countP_le_length (hlength.trans htake.ge))
    have hi : i < s.clientCount := lt_of_le_of_lt hij (hlt j hj)
    have hilen : i < s.slots.length := lt_of_le_of_lt hij hj.lt
    refine (hlive i hilen).mpr (hall _ ?_)
    exact List.mem_take_iff_getElem.mpr ⟨i, by omega, rfl⟩
  · intro hp j hj
    have hall : ∀ o ∈ s.slots.take (j + 1), o.isSome = true := by
      intro o ho
      obtain ⟨i, hi, rfl⟩ := List.getElem_of_mem ho
      rw [List.length_take] at hi
      rw [List.getElem_take]
      exact (hlive i (by omega)).mp (hp i j (by omega) hj)
    have hc := List.countP_eq_length.mpr hall
    rw [List.length_take_of_le hj.lt] at hc
    rw [h, occupied]
    exact (Nat.lt_succ_self j).trans_le (hc.ge.trans (List.take_sublist (j + 1) s.slots).countP_le)

/-- **A pass of the service loop reaches every client** exactly when no free slot stands below one;
the count and `add_client` are always right. -/
theorem serves_iff (h : Reach Transport.step (fun _ _ => True) {} s) : s.Serves ↔ s.Packed := by
  have hcount : s.clientCount = occupied s.slots :=
    h.invariant (P := fun s => s.clientCount = occupied s.slots) rfl fun _ h => count_step h
  rw [← packed_iff hcount]
  refine ⟨fun hs i hi => (count_serviceClients hi).mp (hs.service i hi),
    fun hlt => ⟨hcount, ?_, ?_⟩⟩
  · intro name host port cfg hname hhost
    have hadd := @addClient_iff s.slots name host port cfg hname hhost
    rw [← hadd]
    unfold Transport.add
    split
    next he => rw [he]
    next he => rw [he]
  · exact fun i hi => (count_serviceClients hi).mpr (hlt i hi)

/-- The second of two clients leaves, and another takes its slot. -/
def leaving : List Call :=
  [.add [0x61] [0x68] 4965 {}, .add [0x62] [0x68] 4965 {}, .service, .remove [0x62],
    .add [0x63] [0x68] 4965 {}]

theorem serves_iff_leaving : (leaving.foldl Transport.step {}).Serves :=
  (serves_iff (Reach.init.run (by decide))).mpr (by decide)

/-- Two clients, of which the first leaves. -/
def gap : List Call := [.add [0x61] [0x68] 4965 {}, .add [0x62] [0x68] 4965 {}, .remove [0x61]]

/-- The other is not serviced. -/
theorem not_serves_gap : ¬ (gap.foldl Transport.step {}).Serves := by
  intro h
  have hlive : (gap.foldl Transport.step {}).Live 1 := ⟨_, rfl⟩
  exact absurd (h.service 1 hlive) (by decide)

end

end URSupreme.TcpClients
