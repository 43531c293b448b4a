import URSupreme.LXMF.Keyed
import URSupreme.LXMF.WireKept

/-!
# One record for each send

A status that is raised for a send changes the record of that send and no other. A send over a
reused link takes the hash of that link again, so this holds as long as no record in the outbox has
it.
-/

namespace URSupreme.Outbound
open Lib LXMF

variable {C : Crypto} {s s' : Pending} {k : Nat} {packetHash : Bytes} {tag : Tag}
  {status : OutboxStatus}

/-- Hashes that are not empty are different. -/
abbrev Apart (h h' : Bytes) : Prop := h = h' → h = []

/-- The hashes of the records of an outbox are different. -/
def Distinct (a : Slot) : Prop := (a.outbox.map (·.packetHash)).Pairwise Apart

lemma Apart.symm {h h' : Bytes} (ha : Apart h h') : Apart h' h := fun e => e.trans (ha e.symm)

/-- A send that reuses a link has no other record with its hash in the outbox. -/
def Event.OwnHash (s : Pending) : Event → Prop
  | .send id destHash pm stamp _ env => ∀ k ∈ s.byId id,
    ∀ link ∈ reusedLink destHash pm stamp env s, ∀ r ∈ (s.slot k).outbox, r.packetHash ≠ link
  | _ => True

/-- No record is related to the send but its own. -/
lemma Event.OwnHash.related {e : Event} (h : e.OwnHash s) : e.Related Eq s := by
  cases e with
  | send => exact fun k hk link hl r hr e => absurd e (h k hk link hl r hr)
  | _ => trivial

lemma Distinct.traced (h : Distinct (s.slot k)) (ht : Traced s s') : Distinct (s'.slot k) := by
  have e : (s'.slot k).outbox.map (·.packetHash) = (s.slot k).outbox.map (·.packetHash) := by
    have e := congrArg (List.map Prod.fst) (ht.outbox k)
    rwa [List.map_map, List.map_map] at e
  unfold Distinct
  rw [e]
  exact h

/-- A record with a hash of its own is stored. -/
lemma Distinct.store {a : Slot} {store : Store} (h : Distinct a)
    (hn : ∀ r ∈ a.outbox, Apart packetHash r.packetHash) :
    Distinct (a.store packetHash status tag store) := by
  cases store with
  | append useSeq written =>
    unfold Slot.store
    dsimp only
    split
    next =>
      unfold Distinct
      dsimp only
      rw [List.map_drop, List.map_append]
      refine List.Pairwise.drop (List.pairwise_append.mpr ⟨h, List.pairwise_singleton _ _, ?_⟩)
      intro x hx y hy
      obtain ⟨r, hr, rfl⟩ := List.mem_map.mp hx
      obtain rfl := List.mem_singleton.mp hy
      exact (hn r hr).symm
    next => exact h
  | mutate seq =>
    unfold Slot.store Distinct
    dsimp only
    cases hf : a.outbox.find? (·.seq = seq) with
    | none => rwa [modifyFirst_of_none hf]
    | some r =>
      obtain ⟨-, l1, l2, e, hm⟩ := modifyFirst_of_find hf
      unfold Distinct at h
      rw [e, List.pairwise_map, pairwise_split Apart.symm] at h
      rw [hm, List.pairwise_map, pairwise_split Apart.symm]
      exact ⟨fun b hb => hn b (e ▸ mem_split.mpr (.inr hb)), h.2⟩
  | machinery => exact h

/-- A slot that is changed to a distinct one. -/
lemma Distinct.update {slot : Nat → Slot} {a : Slot} (h : ∀ j, Distinct (slot j))
    (ha : Distinct a) (j : Nat) : Distinct (Function.update slot k a j) := by
  by_cases hj : j = k
  · subst hj
    rwa [Function.update_self]
  · rw [Function.update_of_ne hj]
    exact h j

/-- Any step, in a state where hashes are keyed. -/
lemma Distinct.step {e : Event} (h : ∀ k, Distinct (s.slot k)) (hk : Keyed Eq s) (hf : e.Fresh s)
    (ho : e.OwnHash s) : ∀ k, Distinct ((s.step C e).slot k) := by
  cases e with
  | send id destHash pm stamp store env =>
    dsimp only [Pending.step]
    unfold send
    split
    next => exact h
    next j hj =>
      split
      next => exact h
      next s' packetHash status hsent =>
        obtain ⟨hp, s1, e1, -, -, -, hc⟩ :=
          hk.sendPrepared ⟨hf.1, hf.2.1⟩ hf.2.2 (ho.related j hj) hsent
        have ht := Traced.changes hc
        have h' : ∀ k, Distinct (s'.slot k) := fun k =>
          Distinct.traced (s := s1) (by rw [e1]; exact h k) ht
        refine Distinct.update h' ((h' j).store fun r hr e => ?_)
        obtain ⟨r', hr', e', -⟩ := ht.mem hr
        rw [e1] at hr'
        rcases hp with hp | hp
        · exact absurd (e'.symm.trans e.symm) (hk.unnamed hp.1 hp.2 j r' hr')
        · exact absurd (e'.symm.trans e.symm) (ho j hj _ hp r' hr')
  | stampRecord id seq =>
    dsimp only [Pending.step, stampRecord]
    split
    next => exact h
    next j _ =>
      refine Distinct.update h ?_
      cases seq with
      | none => exact (h j).store fun _ _ _ => rfl
      | some seq =>
        unfold Distinct
        dsimp only
        cases hf : (s.slot j).outbox.find? (·.seq = seq) with
        | none => rw [modifyFirst_of_none hf]; exact h j
        | some r =>
          obtain ⟨-, l1, l2, e, hm⟩ := modifyFirst_of_find hf
          have hj := h j
          unfold Distinct at hj
          rw [e] at hj
          rw [hm]
          simpa using hj
  | prune j keep =>
    refine Distinct.update h ?_
    exact (h j).sublist ((List.filter_sublist).map _)
  | activate => exact Distinct.update h List.Pairwise.nil
  | delete => exact Distinct.update h List.Pairwise.nil
  | established | closed | concluded | retry | sweep | clean | opportunistic | manualRetry
  | announced =>
    exact fun k => (h k).traced (.changes (Changes.delivery trivial hf))

/-- What the hashes are for: a status change reaches the record of its send and no other, and a hash
names one record of an outbox at most. -/
structure OneRecord (s : Pending) : Prop where
  applied : ∀ p ∈ s.applied, p.record = p.send
  distinct : ∀ k, (s.slot k).outbox.Pairwise fun r r' =>
    r.packetHash = r'.packetHash → r.packetHash = []

instance {s : Pending} : ∀ e : Event, Decidable (e.OwnHash s)
  | .send id destHash pm stamp _ env =>
    inferInstanceAs (Decidable (∀ k ∈ s.byId id, ∀ link ∈ reusedLink destHash pm stamp env s,
      ∀ r ∈ (s.slot k).outbox, r.packetHash ≠ link))
  | .established .. | .stampRecord .. | .closed .. | .concluded .. | .retry .. | .sweep ..
  | .clean .. | .opportunistic .. | .manualRetry .. | .announced .. | .prune .. | .activate ..
  | .delete .. => .isTrue trivial

end URSupreme.Outbound
