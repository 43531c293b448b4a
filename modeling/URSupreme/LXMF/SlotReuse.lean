import URSupreme.Lib.Run
import URSupreme.LXMF.GatewayBoot

/-!
# Reused slots

An identity that was created on the device is what its own calls made it, whatever the slot held
before, as long as every creation lands in a slot with default settings and an empty ratchet ring:
`delete_identity` resets neither.
-/

namespace URSupreme.Gateway
open Lib

/-- An identity and its files after `calls`, starting from a slot that was never used. -/
def replay (calls : List Call) : LXMFIdentity × Saved := calls.foldl (fun s c => c.run s) ({}, {})

/-- The slot and its files are what the calls in its log made them. -/
def Made (disk : IdentityId → Saved) (a : LXMFIdentity) : Prop :=
  a.active = true → ∀ calls, a.log = some calls →
    ({ a with log := none }, disk a.id) = replay calls

/-- No two slots hold the same identity, and each is what its calls made it. -/
structure Replayed (slots : List LXMFIdentity) (disk : IdentityId → Saved) : Prop where
  differ : slots.Pairwise Differ
  made : ∀ a ∈ slots, Made disk a

variable {g : LXMFGateway} {slots l1 l2 : List LXMFIdentity} {disk : IdentityId → Saved}
  {a a' : LXMFIdentity} {id : IdentityId} {files : Saved}

/-- A change of one slot and the files of one identity. -/
lemma Replayed.replace (h : Replayed (l1 ++ a :: l2) disk) (hd : ∀ b ∈ l1 ++ l2, Differ a' b)
    (hid : ∀ b ∈ l1 ++ l2, b.active = true → b.id ≠ id)
    (hm : Made (Function.update disk id files) a') :
    Replayed (l1 ++ a' :: l2) (Function.update disk id files) := by
  refine ⟨(pairwise_split Differ.symm).mpr ⟨hd, ((pairwise_split Differ.symm).mp h.differ).2⟩,
    fun b hb => ?_⟩
  rcases mem_split.mp hb with rfl | hb
  · exact hm
  · intro hact calls hlog
    rw [Function.update_of_ne (hid b hb hact)]
    exact h.made b (mem_split.mpr (.inr hb)) hact calls hlog

/-- A call other than a creation leaves id, log and the active flag alone. -/
lemma Call.run_keeps {c : Call} {s : LXMFIdentity × Saved}
    (hc : ∀ i d p q r n, c ≠ .create i d p q r n) :
    (c.run s).1.id = s.1.id ∧ (c.run s).1.active = s.1.active ∧ (c.run s).1.log = s.1.log := by
  cases c with
  | create => exact absurd rfl (hc _ _ _ _ _ _)
  | set s now => cases s <;> exact ⟨rfl, rfl, rfl⟩
  | screen => exact ⟨rfl, rfl, rfl⟩
  | peerRetention => exact ⟨rfl, rfl, rfl⟩
  | defaultRetention => exact ⟨rfl, rfl, rfl⟩
  | rotate => exact ⟨rfl, rfl, rfl⟩

/-- A call does not depend on the log. -/
lemma Call.run_log {c : Call} {a : LXMFIdentity} {files : Saved} {l : Option (List Call)} :
    c.run ({ a with log := l }, files) =
      ({ (c.run (a, files)).1 with log := l }, (c.run (a, files)).2) := by
  cases c with
  | set s now => cases s <;> rfl
  | _ => rfl

/-- One more call. -/
lemma Made.call {c : Call} (hc : ∀ i d p q r n, c ≠ .create i d p q r n) (ha : a.active = true)
    (h : Made disk a) :
    Made (Function.update disk a.id (c.run (a, disk a.id)).2)
      { (c.run (a, disk a.id)).1 with log := a.log.map (· ++ [c]) } := by
  intro _ calls hlog
  obtain ⟨l, hl, rfl⟩ := Option.map_eq_some_iff.mp hlog
  have e := h ha l hl
  have hid := (Call.run_keeps (s := (a, disk a.id)) hc).1
  show ({ (c.run (a, disk a.id)).1 with log := none },
    Function.update disk a.id (c.run (a, disk a.id)).2 (c.run (a, disk a.id)).1.id) = _
  rw [hid, Function.update_self, replay, List.foldl_append, ← replay, ← e]
  exact Call.run_log.symm

/-- `callOn`. -/
lemma Replayed.callOn {p : LXMFIdentity → Bool} {c : Call} (h : Replayed g.slots g.disk)
    (hp : ∀ {a}, p a = true → a.active = true)
    (hc : ∀ i d p q r n, c ≠ .create i d p q r n) :
    Replayed (callOn p c g).slots (callOn p c g).disk := by
  unfold Gateway.callOn
  split
  next => exact h
  next a hf =>
    obtain ⟨hpa, l1, l2, e, hm⟩ := modifyFirst_of_find hf
    have hact := hp hpa
    dsimp only
    rw [hm]
    rw [e] at h
    have hd := ((pairwise_split Differ.symm).mp h.differ).1
    have hk := Call.run_keeps (s := (a, g.disk a.id)) hc
    refine h.replace (fun b hb _ hbact => ?_) (fun b hb hbact => ?_) ?_
    · show (c.run (a, g.disk a.id)).1.id ≠ b.id
      rw [hk.1]
      exact hd b hb hact hbact
    · exact (hd b hb hact hbact).symm
    · exact (h.made a (mem_split.mpr (.inl rfl))).call hc hact

/-- The slot holds the defaults of a slot that was never used. -/
def Blank (a : LXMFIdentity) : Prop := a.settings = {} ∧ a.ratchets = []

/-- A stored creation lands in a slot that holds the defaults. -/
def Event.Clean (g : LXMFGateway) : Event → Prop
  | .create _ _ _ _ stored _ => stored = true → ∀ a ∈ g.slots.find? isFree, Blank a
  | _ => True

/-- `create_identity`. -/
lemma Replayed.createIdentity {identity : RNSIdentity} {displayName salt hash : Bytes}
    {stored : Bool} {now : Nat} (h : Replayed g.slots g.disk) (hf : Fresh g identity.id)
    (hc : stored = true → ∀ a ∈ g.slots.find? isFree, Blank a) :
    let g' := createIdentity identity displayName salt hash stored now g
    Replayed g'.slots g'.disk := by
  unfold Gateway.createIdentity
  split
  next => exact h
  next =>
    split
    next => exact h
    next a hfind =>
      obtain ⟨_, l1, l2, e, hm⟩ := modifyFirst_of_find hfind
      have hne : ∀ b ∈ l1 ++ l2, b.active = true → b.id ≠ identity.id := fun b hb =>
        hf.1 b (e ▸ mem_split.mpr (.inr hb))
      rw [e] at h
      split
      next hs =>
        obtain ⟨h1, h2⟩ := hc hs a hfind
        dsimp only
        rw [hm]
        refine h.replace (fun b hb _ hact e => hne b hb hact e.symm) hne ?_
        -- a blank slot is overwritten member by member
        intro _ calls hlog
        obtain rfl : [_] = calls := Option.some.inj hlog
        show (_, Function.update g.disk identity.id _ identity.id) = _
        rw [Function.update_self, hf.2]
        obtain ⟨_, _, _, _, _, _, _, _, _, settings, _, _, _, ratchets, _⟩ := a
        obtain rfl : settings = {} := h1
        obtain rfl : ratchets = [] := h2
        rfl
      next =>
        dsimp only
        rw [hm]
        refine ⟨(pairwise_split Differ.symm).mpr ⟨fun b _ => nofun,
          ((pairwise_split Differ.symm).mp h.differ).2⟩, fun b hb => ?_⟩
        rcases mem_split.mp hb with rfl | hb
        · exact nofun
        · exact h.made b (mem_split.mpr (.inr hb))

/-- `delete_identity`. -/
lemma Replayed.deleteIdentity (h : Replayed g.slots g.disk) :
    Replayed (deleteIdentity id g).slots (deleteIdentity id g).disk := by
  unfold Gateway.deleteIdentity
  split
  next => exact h
  next a hfind =>
    obtain ⟨hp, l1, l2, e, hm⟩ := modifyFirst_of_find hfind
    obtain ⟨_, hact, hid⟩ := isCalled_iff.mp hp
    rw [e] at h
    have hd := ((pairwise_split Differ.symm).mp h.differ).1
    dsimp only
    rw [hm]
    exact h.replace (fun b _ => nofun)
      (fun b hb hbact he => hd b hb hact hbact (hid.trans he.symm)) nofun

/-- `apply_inbox_config_to_all`. -/
lemma Replayed.applyInboxConfigToAll {r : Retention} (h : Replayed g.slots g.disk) :
    Replayed (applyInboxConfigToAll r g).slots g.disk := by
  have hk (a : LXMFIdentity) : (a.applyInboxConfig r).active = a.active ∧
      (a.applyInboxConfig r).id = a.id := by
    unfold LXMFIdentity.applyInboxConfig
    split <;> exact ⟨rfl, rfl⟩
  refine ⟨List.pairwise_map.mpr (h.differ.imp fun {a b} hd ha hb => ?_), fun a' ha' hact => ?_⟩
  · rw [(hk a).2, (hk b).2]
    exact hd ((hk a).1 ▸ ha) ((hk b).1 ▸ hb)
  · obtain ⟨a, ha, rfl⟩ := List.mem_map.mp ha'
    have hact' := (hk a).1 ▸ hact
    -- the call is about the slot alone: the files stay
    have hm := (h.made a ha).call (c := .defaultRetention r) nofun hact'
    rw [Call.run, Function.update_eq_self] at hm
    have e : a.applyInboxConfig r =
        { a with defaultRetention := r, log := a.log.map (· ++ [.defaultRetention r]) } :=
      if_pos hact'
    rw [e]
    exact hm hact'

/-- A reboot. -/
lemma Replayed.boot {entries : List IdentityId} {loads : IdentityId → Bool} {now : Nat}
    (hn : entries.Nodup) : Replayed (boot entries loads now g).slots
    (boot entries loads now g).disk := by
  have h : Loaded g (loadEntries g loads entries) _ := loaded_loadEntries hn
  have e := dedupe_keeps now false (loadEntries g loads entries) g
  refine ⟨differ_of_map e h.differ, fun a ha _ calls hlog => ?_⟩
  obtain ⟨b, hb, he⟩ := List.mem_map.mp (e ▸ List.mem_map_of_mem ha)
  have hlog' : b.log = a.log := congrArg (·.2.2) he
  rw [h.log b hb, hlog] at hlog'
  cases hlog'

lemma replayed_powerOn {r : Retention} :
    Replayed (powerOn r disk).slots (powerOn r disk).disk where
  differ := List.pairwise_replicate.mpr (.inr nofun)
  made a ha := by
    obtain rfl := List.eq_of_mem_replicate ha
    exact nofun

/-- A clean event keeps every identity what its calls made it. -/
lemma Replayed.step {e : Event} (hs : e.Sound g) (hc : e.Clean g) (h : Replayed g.slots g.disk) :
    Replayed (g.step e).slots (g.step e).disk := by
  have hp {id a} (h : isCalled id a = true) : a.active = true := (isCalled_iff.mp h).2.1
  cases e with
  | create => exact h.createIdentity hs hc
  | delete => exact h.deleteIdentity
  | set => exact h.callOn hp nofun
  | setScreen id enable now =>
    have hk := h.callOn (c := .screen enable now) (p := isCalled id) hp nofun
    show Replayed (setScreenIdentity id enable now g).slots _
    unfold LXMFGateway.step setScreenIdentity
    dsimp only
    split
    next => exact h
    next =>
      split
      next =>
        split
        next =>
          split
          next => exact h
          next => exact hk
        next => exact hk
      next => exact hk
  | peerRetention => exact h.callOn hp nofun
  | defaultRetention => exact h.applyInboxConfigToAll
  | rotate => exact h.callOn (fun h => (Bool.and_eq_true _ _ ▸ h).1) nofun
  | boot => exact .boot hs

/-- Identities that the same calls made are the same in memory and on the disk. -/
def Alike (g g' : LXMFGateway) : Prop :=
  ∀ a ∈ g.slots, ∀ a' ∈ g'.slots, a.active = true → a'.active = true →
    ∀ calls, a.log = some calls → a'.log = some calls → a = a' ∧ g.disk a.id = g'.disk a'.id

/-- Whatever the slots held before, in runs whose creations land in blank slots the same calls make
the same identity. -/
theorem alike_of_clean {g g' : LXMFGateway} {r r' : Retention} {disk disk' : IdentityId → Saved}
    (h : Reach LXMFGateway.step (fun g e => e.Sound g ∧ e.Clean g) (powerOn r disk) g)
    (h' : Reach LXMFGateway.step (fun g e => e.Sound g ∧ e.Clean g) (powerOn r' disk') g') :
    Alike g g' := by
  have hr := h.invariant (P := fun g => Replayed g.slots g.disk) replayed_powerOn
    fun hok hP => hP.step hok.1 hok.2
  have hr' := h'.invariant (P := fun g => Replayed g.slots g.disk) replayed_powerOn
    fun hok hP => hP.step hok.1 hok.2
  intro a ha a' ha' hact hact' calls hl hl'
  have e := (hr.made a ha hact calls hl).trans (hr'.made a' ha' hact' calls hl').symm
  obtain ⟨e1, e2⟩ := Prod.ext_iff.mp e
  refine ⟨?_, e2⟩
  have hlog : a.log = a'.log := hl.trans hl'.symm
  cases a
  cases a'
  simp_all

instance {g : LXMFGateway} : ∀ e : Event, Decidable (e.Clean g)
  | .create .. => inferInstanceAs (Decidable (_ → ∀ a ∈ g.slots.find? isFree, _ ∧ _))
  | .boot .. | .delete .. | .set .. | .setScreen .. | .peerRetention .. | .defaultRetention ..
  | .rotate .. => .isTrue trivial

/-- The slot of a deleted identity that never changed a default. -/
theorem alike_of_clean_reused :
    let boot := Event.boot [] (fun _ => false) 0
    let create (key : UInt8) := Event.create ⟨[key], [key]⟩ [] [] [] true 0
    Alike ([boot, create 1, .delete [1], create 2].foldl LXMFGateway.step (powerOn {} fun _ => {}))
      ([boot, create 2].foldl LXMFGateway.step (powerOn {} fun _ => {})) :=
  alike_of_clean (Reach.init.run (by decide +kernel)) (Reach.init.run (by decide +kernel))

/-- The first identity rotates in a ratchet and sets a stamp cost; the next one in its slot owns the
private key and asks for the stamps. -/
theorem not_alike_reused :
    let ratchet : RatchetEntry := ⟨0, [0xA0], [0xA1]⟩
    let boot := Event.boot [] (fun _ => false) 0
    let create (key : UInt8) := Event.create ⟨[key], [key]⟩ [] [] [] true 0
    let used := [boot, create 1, .rotate [1] ratchet, .set [1] (.stampCost 8) 0, .delete [1],
      create 2]
    let g := used.foldl LXMFGateway.step (powerOn {} fun _ => {})
    let g' := [boot, create 2].foldl LXMFGateway.step (powerOn {} fun _ => {})
    Reach LXMFGateway.step (fun g e => e.Sound g) (powerOn {} fun _ => {}) g ∧
      Reach LXMFGateway.step (fun g e => e.Sound g) (powerOn {} fun _ => {}) g' ∧
      (∃ a ∈ g.slots, a.id = [2] ∧ a.ratchets = [ratchet] ∧ a.lxmfStampCost = 8) ∧
      ¬ Alike g g' := by
  intro ratchet boot create used g g'
  refine ⟨Reach.init.run (by decide +kernel), Reach.init.run (by decide +kernel),
    by decide +kernel, fun h => ?_⟩
  let calls := [Call.create ⟨[2], [2]⟩ [] [] [] {} 0]
  obtain ⟨a, ha, hact, hlog, hr⟩ : ∃ a ∈ g.slots, a.active = true ∧ a.log = some calls ∧
      a.ratchets = [ratchet] := by decide +kernel
  obtain ⟨a', ha', hact', hlog', hr'⟩ : ∃ a ∈ g'.slots, a.active = true ∧ a.log = some calls ∧
      a.ratchets = [] := by decide +kernel
  obtain ⟨rfl, _⟩ := h a ha a' ha' hact hact' calls hlog hlog'
  cases hr.symm.trans hr'

end URSupreme.Gateway
