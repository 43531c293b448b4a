import URSupreme.LXMF.Gateway

/-!
# What a reboot leaves

The slots `load_existing_identities` fills: one identity each, as its files say, with the screen
flag left to the first that claims it.
-/

namespace URSupreme.Gateway
open Lib

/-- Two slots do not hold the same identity. -/
def Differ (a b : LXMFIdentity) : Prop := a.active = true → b.active = true → a.id ≠ b.id

lemma Differ.symm {a b : LXMFIdentity} (h : Differ a b) : Differ b a :=
  fun hb ha e => h ha hb e.symm

/-- The slot shows on the screen. -/
def Shows (a : LXMFIdentity) : Prop := a.active = true ∧ a.settings.screen = true

variable {g : LXMFGateway} {loads : IdentityId → Bool} {slots : List LXMFIdentity}
  {a b : LXMFIdentity}

/-- The slots filled from the directory entries `done`. -/
structure Loaded (g : LXMFGateway) (slots : List LXMFIdentity) (done : List IdentityId) : Prop where
  differ : slots.Pairwise Differ
  fresh : ∀ a ∈ slots, a.active = false → a = {}
  log : ∀ a ∈ slots, a.log = none
  id : ∀ a ∈ slots, a.active = true → a.id ∈ done
  screen : ∀ a ∈ slots, Shows a → ∃ m, (g.disk a.id).metaJson = some m ∧ m.settings.screen = true

lemma loaded_nil : Loaded g (List.replicate LXMF_GATEWAY_MAX_IDENTITIES {}) [] where
  differ := List.pairwise_replicate.mpr (.inr nofun)
  fresh a ha _ := List.eq_of_mem_replicate ha
  log a ha := by rw [List.eq_of_mem_replicate ha]
  id a ha h := by
    rw [List.eq_of_mem_replicate ha] at h
    cases h
  screen a ha h := by
    have h1 := h.1
    rw [List.eq_of_mem_replicate ha] at h1
    cases h1

lemma Loaded.mono {done done' : List IdentityId} (h : Loaded g slots done) (hs : done ⊆ done') :
    Loaded g slots done' :=
  ⟨h.differ, h.fresh, h.log, fun a ha hact => hs (h.id a ha hact), h.screen⟩

lemma readMeta_id {files : Saved} : (readMeta a files).id = a.id := by
  unfold readMeta
  split <;> rfl

lemma readMeta_log {files : Saved} : (readMeta a files).log = a.log := by
  unfold readMeta
  split <;> rfl

/-- The screen flag of a fresh slot comes from the file. -/
lemma readMeta_screen {files : Saved} (ha : a.settings.screen = false)
    (h : (readMeta a files).settings.screen = true) :
    ∃ m, files.metaJson = some m ∧ m.settings.screen = true := by
  unfold readMeta at h
  split at h
  next =>
    rw [ha] at h
    cases h
  next m hmeta => exact ⟨m, hmeta, h⟩

/-- One directory entry. -/
lemma Loaded.entry {done : List IdentityId} {entry : IdentityId} {s : List LXMFIdentity × Nat}
    (h : Loaded g s.1 done) (hnew : entry ∉ done) :
    Loaded g (loadEntry g loads s entry).1 (entry :: done) := by
  have hkeep : Loaded g s.1 (entry :: done) := h.mono (List.subset_cons_self _ _)
  unfold loadEntry
  split
  next => exact hkeep
  next =>
    split
    next a identity hf hdat =>
      split
      next =>
        obtain ⟨hfree, l1, l2, e, hm⟩ := modifyFirst_of_find hf
        have hinact : a.active = false := by simpa [isFree] using hfree
        have ha : a = {} := h.fresh a (e ▸ mem_split.mpr (.inl rfl)) hinact
        have hrest : ∀ b ∈ l1 ++ l2, b ∈ s.1 := fun b hb => e ▸ mem_split.mpr (.inr hb)
        have hd := ((pairwise_split Differ.symm).mp (e ▸ h.differ)).2
        dsimp only
        rw [hm]
        clear hm e
        subst ha
        refine ⟨(pairwise_split Differ.symm).mpr ⟨fun b hb _ hact he => ?_, hd⟩, fun b hb => ?_,
          fun b hb => ?_, fun b hb => ?_, fun b hb => ?_⟩
        · have he : entry = b.id := readMeta_id.symm.trans he
          exact hnew (he ▸ h.id b (hrest b hb) hact)
        · rcases mem_split.mp hb with rfl | hb
          · exact nofun
          · exact h.fresh b (hrest b hb)
        · rcases mem_split.mp hb with rfl | hb
          · exact readMeta_log
          · exact h.log b (hrest b hb)
        · rcases mem_split.mp hb with rfl | hb
          · exact fun _ => List.mem_cons.mpr (.inl readMeta_id)
          · exact fun hact => List.mem_cons_of_mem _ (h.id b (hrest b hb) hact)
        · rcases mem_split.mp hb with rfl | hb
          · rintro ⟨_, hs⟩
            show ∃ m, (g.disk (readMeta _ (g.disk entry)).id).metaJson = some m ∧ _
            rw [readMeta_id]
            exact readMeta_screen rfl hs
          · exact h.screen b (hrest b hb)
      next => exact hkeep
    next => exact hkeep

/-- All directory entries. -/
lemma loaded_foldl {entries done : List IdentityId} {s : List LXMFIdentity × Nat}
    (h : Loaded g s.1 done) (hn : (done ++ entries).Nodup) :
    Loaded g (entries.foldl (loadEntry g loads) s).1 (entries.reverse ++ done) := by
  induction entries generalizing s done with
  | nil => exact h
  | cons entry entries ih =>
    rw [List.nodup_middle, List.nodup_cons, List.mem_append, not_or] at hn
    have hn' : (entry :: done ++ entries).Nodup := by
      rw [List.cons_append, List.nodup_cons, List.mem_append, not_or]
      exact hn
    rw [List.reverse_cons, List.append_assoc]
    exact ih (h.entry hn.1.1) hn'

/-- What `load_existing_identities` loads. -/
lemma loaded_loadEntries {entries : List IdentityId} (hn : entries.Nodup) :
    Loaded g (loadEntries g loads entries) entries.reverse := by
  rw [← List.append_nil entries.reverse]
  exact loaded_foldl loaded_nil hn

/-- What the pass over the screen flags leaves alone. -/
lemma dedupe_keeps (now : Nat) (held : Bool) (slots : List LXMFIdentity) (g : LXMFGateway) :
    (dedupe now held slots g).1.map (fun a => (a.active, a.id, a.log)) =
      slots.map fun a => (a.active, a.id, a.log) := by
  induction slots generalizing held g with
  | nil => rfl
  | cons a slots ih =>
    unfold dedupe
    split
    next =>
      split
      next => exact congrArg (_ :: ·) (ih _ _)
      next => exact congrArg (_ :: ·) (ih _ _)
    next => exact congrArg (_ :: ·) (ih _ _)

/-- Slots that agree in id and active flag differ alike. -/
lemma differ_of_map {slots' : List LXMFIdentity}
    (e : slots'.map (fun a => (a.active, a.id, a.log)) = slots.map fun a => (a.active, a.id, a.log))
    (h : slots.Pairwise Differ) : slots'.Pairwise Differ := by
  have key : ∀ l : List LXMFIdentity, l.Pairwise Differ ↔
      (l.map fun a => (a.active, a.id, a.log)).Pairwise
        fun x y => x.1 = true → y.1 = true → x.2.1 ≠ y.2.1 := by
    intro l
    rw [List.pairwise_map]
    exact Iff.rfl
  rw [key, e, ← key]
  exact h

end URSupreme.Gateway
