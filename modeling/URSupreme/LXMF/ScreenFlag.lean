import URSupreme.Lib.Run
import URSupreme.LXMF.GatewayBoot

/-!
# The screen flag

One identity at most shows on the screen, and it is the one that was selected, as long as every
creation lands in a slot whose flag is clear: `delete_identity` leaves the flag behind.
-/

namespace URSupreme.Gateway
open Lib

/-- Not both show. -/
def NotBoth (a b : LXMFIdentity) : Prop := ¬ (Shows a ∧ Shows b)

lemma NotBoth.symm {a b : LXMFIdentity} (h : NotBoth a b) : NotBoth b a :=
  fun hs => h hs.symm

instance : Std.Symm NotBoth := ⟨fun _ _ => NotBoth.symm⟩

lemma shows_iff {a : LXMFIdentity} : Shows a ↔ (a.active && a.settings.screen) = true := by
  rw [Bool.and_eq_true]
  rfl

/-- A saved flag was selected. -/
def SavedChosen (disk : IdentityId → Saved) (selected : IdentityId → Bool) : Prop :=
  ∀ id m, (disk id).metaJson = some m → m.settings.screen = true → selected id = true

/-- At most one identity shows, and the flag is where it was selected, in the slots and saved. -/
structure Screened (slots : List LXMFIdentity) (disk : IdentityId → Saved)
    (selected : IdentityId → Bool) : Prop where
  differ : slots.Pairwise Differ
  single : slots.Pairwise NotBoth
  chosen : ∀ a ∈ slots, Shows a → selected a.id = true
  saved : SavedChosen disk selected

variable {g : LXMFGateway} {slots l1 l2 : List LXMFIdentity} {disk : IdentityId → Saved}
  {selected : IdentityId → Bool} {a a' : LXMFIdentity} {id : IdentityId} {files : Saved} {v : Bool}

lemma SavedChosen.update (h : SavedChosen disk selected)
    (hf : ∀ m, files.metaJson = some m → m.settings.screen = true → v = true) :
    SavedChosen (Function.update disk id files) (Function.update selected id v) := by
  intro i m hm hs
  by_cases hi : i = id
  · subst hi
    rw [Function.update_self] at hm ⊢
    exact hf m hm hs
  · rw [Function.update_of_ne hi] at hm ⊢
    exact h i m hm hs

/-- A change of one slot, with the files and the selection of one identity. -/
lemma Screened.replace (h : Screened (l1 ++ a :: l2) disk selected)
    (hd : ∀ b ∈ l1 ++ l2, Differ a' b) (hid : ∀ b ∈ l1 ++ l2, b.active = true → b.id ≠ id)
    (hone : ∀ b ∈ l1 ++ l2, NotBoth a' b) (hsel : Shows a' → a'.id = id ∧ v = true)
    (hf : ∀ m, files.metaJson = some m → m.settings.screen = true → v = true) :
    Screened (l1 ++ a' :: l2) (Function.update disk id files) (Function.update selected id v) := by
  refine ⟨(pairwise_split Differ.symm).mpr ⟨hd, ((pairwise_split Differ.symm).mp h.differ).2⟩,
    (pairwise_split NotBoth.symm).mpr ⟨hone, ((pairwise_split NotBoth.symm).mp h.single).2⟩,
    fun b hb hs => ?_, h.saved.update hf⟩
  rcases mem_split.mp hb with rfl | hb
  · obtain ⟨rfl, rfl⟩ := hsel hs
    exact Function.update_self ..
  · rw [Function.update_of_ne (hid b hb hs.1)]
    exact h.chosen b (mem_split.mpr (.inr hb)) hs

/-- The calls that leave the screen flag alone. -/
def Call.KeepsScreen : Call → Prop
  | .create .. | .screen .. => False
  | _ => True

/-- What such a call saves is the flag of the slot. -/
lemma Call.run_screen {c : Call} (hc : c.KeepsScreen) :
    let r := c.run (a, files)
    r.1.id = a.id ∧ r.1.active = a.active ∧ r.1.settings.screen = a.settings.screen ∧
      ∀ m, r.2.metaJson = some m →
        files.metaJson = some m ∨ m.settings.screen = a.settings.screen := by
  cases c with
  | create => exact hc.elim
  | screen => exact hc.elim
  | set s now =>
    cases s <;>
    · refine ⟨rfl, rfl, rfl, fun m hm => .inr ?_⟩
      obtain rfl := Option.some.inj hm
      rfl
  | peerRetention => exact ⟨rfl, rfl, rfl, fun m hm => .inl hm⟩
  | defaultRetention => exact ⟨rfl, rfl, rfl, fun m hm => .inl hm⟩
  | rotate => exact ⟨rfl, rfl, rfl, fun m hm => .inl hm⟩

/-- `callOn`, for the calls that leave the screen flag alone. -/
lemma Screened.callOn {p : LXMFIdentity → Bool} {c : Call} (hc : c.KeepsScreen)
    (h : Screened g.slots g.disk g.selected) (hp : ∀ {a}, p a = true → a.active = true) :
    Screened (callOn p c g).slots (callOn p c g).disk (callOn p c g).selected := by
  unfold Gateway.callOn
  split
  next => exact h
  next a hf =>
    obtain ⟨hpa, l1, l2, e, hm⟩ := modifyFirst_of_find hf
    have hact := hp hpa
    dsimp only
    rw [hm, ← Function.update_eq_self a.id g.selected]
    rw [e] at h
    have hd := ((pairwise_split Differ.symm).mp h.differ).1
    have hone := ((pairwise_split NotBoth.symm).mp h.single).1
    obtain ⟨hid, hact', hscreen, hmeta⟩ := Call.run_screen hc
    have hshow : Shows (c.run (a, g.disk a.id)).1 → Shows a := fun hs =>
      ⟨hact' ▸ hs.1, hscreen ▸ hs.2⟩
    have hchosen := h.chosen a (mem_split.mpr (.inl rfl))
    refine h.replace (fun b hb _ hb' => ?_) (fun b hb hb' => (hd b hb hact hb').symm)
      (fun b hb hs => hone b hb ⟨hshow hs.1, hs.2⟩) (fun hs => ⟨hid, hchosen (hshow hs)⟩)
      fun m hm hs => ?_
    · show (c.run (a, g.disk a.id)).1.id ≠ b.id
      rw [hid]
      exact hd b hb hact hb'
    · rcases hmeta m hm with hm | hm
      · exact h.saved a.id m hm hs
      · exact hchosen ⟨hact, hm ▸ hs⟩

/-- The one identity that can show when `set_screen_identity` enables another. -/
lemma Screened.holder (h : Screened g.slots g.disk g.selected)
    (hh : ∀ holder, screenIdentity g = some holder → holder.id = id) :
    ∀ b ∈ g.slots, Shows b → b.id = id := by
  intro b hb hs
  cases hf : screenIdentity g with
  | none => exact absurd (shows_iff.mp hs) (List.find?_eq_none.mp hf b hb)
  | some holder =>
    have hp := List.find?_some hf
    have hshow : Shows holder := shows_iff.mpr hp
    by_cases hbh : b = holder
    · exact hbh ▸ hh holder hf
    · have hn : NotBoth b holder := h.single.forall hb (List.mem_of_find?_eq_some hf) hbh
      exact absurd ⟨hs, hshow⟩ hn

/-- The flag of one identity is set, or cleared. -/
lemma Screened.screen {enable : Bool} {now : Nat} (h : Screened g.slots g.disk g.selected)
    (hf : g.slots.find? (isCalled id) = some a)
    (hone : enable = true → ∀ b ∈ g.slots, Shows b → b.id = id) :
    let g' := Gateway.callOn (isCalled id) (.screen enable now) g
    Screened g'.slots g'.disk (Function.update g.selected id enable) := by
  obtain ⟨hp, l1, l2, e, hm⟩ := modifyFirst_of_find hf
  obtain ⟨_, hact, rfl⟩ := isCalled_iff.mp hp
  have hb' : ∀ b ∈ l1 ++ l2, b ∈ g.slots := fun b hb => e ▸ mem_split.mpr (.inr hb)
  unfold Gateway.callOn
  rw [hf]
  dsimp only
  rw [hm]
  rw [e] at h
  have hd := ((pairwise_split Differ.symm).mp h.differ).1
  refine h.replace (fun b hb => hd b hb) (fun b hb hb' => (hd b hb hact hb').symm)
    (fun b hb hs => ?_) (fun hs => ⟨rfl, hs.2⟩) fun m hm hs => ?_
  · exact hd b hb hact hs.2.1 (hone hs.1.2 b (hb' b hb) hs.2).symm
  · obtain rfl := Option.some.inj hm
    exact hs

/-- `set_screen_identity`. -/
lemma Screened.setScreenIdentity {enable : Bool} {now : Nat}
    (h : Screened g.slots g.disk g.selected) :
    let g' := setScreenIdentity id enable now g
    Screened g'.slots g'.disk g'.selected := by
  unfold Gateway.setScreenIdentity
  dsimp only
  split
  next => exact h
  next a hf =>
    split
    next =>
      split
      next holder hh =>
        split
        next => exact h
        next hid =>
          refine h.screen hf fun _ => h.holder fun holder' hh' => ?_
          obtain rfl := Option.some.inj (hh.symm.trans hh')
          exact not_not.mp hid
      next hh => exact h.screen hf fun _ => h.holder fun _ hh' => by cases hh.symm.trans hh'
    next he => exact h.screen hf fun he' => absurd he' he

/-- A stored creation lands in a slot whose screen flag is clear. -/
def Event.Dark (g : LXMFGateway) : Event → Prop
  | .create _ _ _ _ stored _ =>
    stored = true → ∀ a ∈ g.slots.find? isFree, a.settings.screen = false
  | _ => True

/-- `create_identity`. -/
lemma Screened.createIdentity {identity : RNSIdentity} {displayName salt hash : Bytes}
    {stored : Bool} {now : Nat} (h : Screened g.slots g.disk g.selected)
    (hf : Fresh g identity.id)
    (hc : stored = true → ∀ a ∈ g.slots.find? isFree, a.settings.screen = false) :
    let g' := createIdentity identity displayName salt hash stored now g
    Screened g'.slots g'.disk g'.selected := by
  unfold Gateway.createIdentity
  split
  next => exact h
  next =>
    split
    next => exact h
    next a hfind =>
      obtain ⟨_, l1, l2, e, hm⟩ := modifyFirst_of_find hfind
      have hne : ∀ b ∈ l1 ++ l2, b.active = true → b.id ≠ identity.id := fun b hb =>
        hf.1 b (e ▸ mem_split.mpr (.inr hb))
      rw [e] at h
      split
      next hs =>
        have hdark : a.settings.screen = false := hc hs a hfind
        dsimp only
        rw [hm, ← Function.update_eq_self identity.id g.selected]
        -- the slot keeps its flag, and the first `meta.json` has it too
        have hno (hs : a.settings.screen = true) : False :=
          Bool.false_ne_true (hdark.symm.trans hs)
        refine h.replace (fun b hb _ hb' he => hne b hb hb' he.symm) hne
          (fun b _ hs => hno hs.1.2) (fun hs => (hno hs.2).elim) fun m hm hs => ?_
        obtain rfl := Option.some.inj hm
        exact (hno hs).elim
      next =>
        dsimp only
        rw [hm, ← Function.update_eq_self identity.id g.selected,
          ← Function.update_eq_self identity.id g.disk]
        refine h.replace (fun b _ => nofun) hne (fun b _ hs => ?_) nofun
          fun m hm hs => h.saved _ m hm hs
        exact absurd hs.1.1 Bool.false_ne_true

/-- `delete_identity`. -/
lemma Screened.deleteIdentity (h : Screened g.slots g.disk g.selected) :
    let g' := deleteIdentity id g
    Screened g'.slots g'.disk g'.selected := by
  unfold Gateway.deleteIdentity
  split
  next => exact h
  next a hfind =>
    obtain ⟨hp, l1, l2, e, hm⟩ := modifyFirst_of_find hfind
    obtain ⟨_, hact, rfl⟩ := isCalled_iff.mp hp
    dsimp only
    rw [hm]
    rw [e] at h
    have hd := ((pairwise_split Differ.symm).mp h.differ).1
    refine h.replace (fun b _ => nofun) (fun b hb hb' => (hd b hb hact hb').symm)
      (fun b _ hs => ?_) nofun nofun
    exact absurd hs.1.1 Bool.false_ne_true

/-- `apply_inbox_config_to_all`. -/
lemma Screened.applyInboxConfigToAll {r : Retention} (h : Screened g.slots g.disk g.selected) :
    Screened (applyInboxConfigToAll r g).slots g.disk g.selected := by
  have hk (a : LXMFIdentity) : (a.applyInboxConfig r).active = a.active ∧
      (a.applyInboxConfig r).id = a.id ∧ (a.applyInboxConfig r).settings = a.settings := by
    unfold LXMFIdentity.applyInboxConfig
    split <;> exact ⟨rfl, rfl, rfl⟩
  have hs {a : LXMFIdentity} (hs : Shows (a.applyInboxConfig r)) : Shows a :=
    ⟨(hk a).1 ▸ hs.1, (hk a).2.2 ▸ hs.2⟩
  refine ⟨List.pairwise_map.mpr (h.differ.imp fun {a b} hd ha hb => ?_),
    List.pairwise_map.mpr (h.single.imp fun hn hb => hn ⟨hs hb.1, hs hb.2⟩), fun a' ha' hs' => ?_,
    h.saved⟩
  · rw [(hk a).2.1, (hk b).2.1]
    exact hd ((hk a).1 ▸ ha) ((hk b).1 ▸ hb)
  · obtain ⟨a, ha, rfl⟩ := List.mem_map.mp ha'
    rw [(hk a).2.1]
    exact h.chosen a ha (hs hs')

lemma not_shows_hide : ¬ Shows a.hide :=
  fun hs => absurd hs.2 Bool.false_ne_true

lemma saveHidden_selected {now : Nat} (h : id ≠ a.id) :
    (saveHidden a now g).selected id = g.selected id :=
  Function.update_of_ne h ..

lemma SavedChosen.saveHidden {now : Nat} (h : SavedChosen g.disk g.selected) :
    SavedChosen (saveHidden a now g).disk (saveHidden a now g).selected := by
  refine h.update fun m hm hs => ?_
  obtain rfl := Option.some.inj hm
  exact hs

/-- The pass over the screen flags leaves at most one, and none when one was held before. -/
lemma dedupe_spec {now : Nat} {h : Bool} (hd : slots.Pairwise Differ)
    (hc : ∀ a ∈ slots, Shows a → g.selected a.id = true) (hs : SavedChosen g.disk g.selected) :
    let r := dedupe now h slots g
    r.1.Pairwise NotBoth ∧ (∀ a ∈ r.1, Shows a → h = false ∧ r.2.selected a.id = true) ∧
      SavedChosen r.2.disk r.2.selected ∧
      ∀ id, (∀ a ∈ slots, a.active = true → a.id ≠ id) → r.2.selected id = g.selected id := by
  induction slots generalizing h g with
  | nil =>
    unfold dedupe
    exact ⟨.nil, fun b hb => absurd hb List.not_mem_nil, hs, fun _ _ => rfl⟩
  | cons a slots ih =>
    obtain ⟨hda, hd⟩ := List.pairwise_cons.mp hd
    have hc' : ∀ b ∈ slots, Shows b → g.selected b.id = true := fun b hb =>
      hc b (List.mem_cons_of_mem _ hb)
    unfold dedupe
    split
    next hshow =>
      have hshow := shows_iff.mpr hshow
      split
      next hheld =>
        have hc'' : ∀ b ∈ slots, Shows b → (saveHidden a now g).selected b.id = true :=
          fun b hb hsb =>
            (saveHidden_selected (hda b hb hshow.1 hsb.1).symm).trans (hc' b hb hsb)
        obtain ⟨h1, h2, h3, h4⟩ := ih (h := h) hd hc'' hs.saveHidden
        refine ⟨List.pairwise_cons.mpr ⟨fun b _ hb => not_shows_hide hb.1, h1⟩,
          fun b hb hsb => ?_, h3, fun i hi => ?_⟩
        · rcases List.mem_cons.mp hb with rfl | hb
          · exact absurd hsb not_shows_hide
          · exact h2 b hb hsb
        · obtain ⟨hia, hi⟩ := List.forall_mem_cons.mp hi
          exact (h4 i hi).trans (saveHidden_selected (hia hshow.1).symm)
      next hheld =>
        obtain ⟨h1, h2, h3, h4⟩ := ih (h := true) hd hc' hs
        refine ⟨List.pairwise_cons.mpr ⟨fun b hb hsb => ?_, h1⟩, fun b hb hsb => ?_, h3,
          fun i hi => h4 i (List.forall_mem_cons.mp hi).2⟩
        · exact absurd (h2 b hb hsb.2).1 (by decide)
        · refine ⟨Bool.eq_false_iff.mpr hheld, ?_⟩
          rcases List.mem_cons.mp hb with rfl | hb
          · rw [h4 b.id fun c hc hact => (hda c hc hshow.1 hact).symm]
            exact hc b List.mem_cons_self hsb
          · exact (h2 b hb hsb).2
    next hshow =>
      have hshow := mt shows_iff.mp hshow
      obtain ⟨h1, h2, h3, h4⟩ := ih (h := h) hd hc' hs
      refine ⟨List.pairwise_cons.mpr ⟨fun b _ hsb => hshow hsb.1, h1⟩, fun b hb hsb => ?_, h3,
        fun i hi => h4 i (List.forall_mem_cons.mp hi).2⟩
      rcases List.mem_cons.mp hb with rfl | hb
      · exact absurd hsb hshow
      · exact h2 b hb hsb

/-- A reboot. -/
lemma Screened.boot {entries : List IdentityId} {loads : IdentityId → Bool} {now : Nat}
    (hn : entries.Nodup) (h : SavedChosen g.disk g.selected) :
    let g' := boot entries loads now g
    Screened g'.slots g'.disk g'.selected := by
  have hl : Loaded g (loadEntries g loads entries) _ := loaded_loadEntries hn
  have hc : ∀ a ∈ loadEntries g loads entries, Shows a → g.selected a.id = true := by
    intro a ha hs
    obtain ⟨m, hm, hsm⟩ := hl.screen a ha hs
    exact h a.id m hm hsm
  obtain ⟨h1, h2, h3, _⟩ := dedupe_spec hl.differ hc h
  exact ⟨differ_of_map (dedupe_keeps ..) hl.differ, h1, fun a ha hs => (h2 a ha hs).2, h3⟩

lemma screened_powerOn {r : Retention} :
    let g := powerOn r fun _ => {}
    Screened g.slots g.disk g.selected where
  differ := List.pairwise_replicate.mpr (.inr nofun)
  single := List.pairwise_replicate.mpr (.inr fun h => absurd h.1.1 Bool.false_ne_true)
  chosen a ha hs := by
    obtain rfl := List.eq_of_mem_replicate ha
    exact absurd hs.1 Bool.false_ne_true
  saved := nofun

/-- An event that does not reuse a slot with its flag set keeps the flags as they should be. -/
lemma Screened.step {e : Event} (hs : e.Sound g) (hc : e.Dark g)
    (h : Screened g.slots g.disk g.selected) :
    Screened (g.step e).slots (g.step e).disk (g.step e).selected := by
  have hp {id a} (h : isCalled id a = true) : a.active = true := (isCalled_iff.mp h).2.1
  cases e with
  | create => exact h.createIdentity hs hc
  | delete => exact h.deleteIdentity
  | set => exact h.callOn trivial hp
  | setScreen => exact h.setScreenIdentity
  | peerRetention => exact h.callOn trivial hp
  | defaultRetention => exact h.applyInboxConfigToAll
  | rotate => exact h.callOn trivial fun h => (Bool.and_eq_true _ _ ▸ h).1
  | boot => exact .boot hs h.saved

/-- At most one identity shows on the screen, and only one that was selected and not cleared. -/
structure OneScreen (g : LXMFGateway) : Prop where
  single : g.slots.Pairwise NotBoth
  chosen : ∀ a ∈ g.slots, Shows a → g.selected a.id = true

/-- From a factory-new device on, as long as creations land in slots whose screen flag is clear. -/
theorem oneScreen_of_dark {r : Retention}
    (h : Reach LXMFGateway.step (fun g e => e.Sound g ∧ e.Dark g) (powerOn r fun _ => {}) g) :
    OneScreen g := by
  have hs := h.invariant (P := fun g => Screened g.slots g.disk g.selected) screened_powerOn
    fun hok hP => hP.step hok.1 hok.2
  exact ⟨hs.single, hs.chosen⟩

instance {g : LXMFGateway} : ∀ e : Event, Decidable (e.Dark g)
  | .create .. => inferInstanceAs (Decidable (_ → ∀ a ∈ g.slots.find? isFree, _ = false))
  | .boot .. | .delete .. | .set .. | .setScreen .. | .peerRetention .. | .defaultRetention ..
  | .rotate .. => .isTrue trivial

/-- The screen changes hands, over a reboot and a deletion. -/
theorem oneScreen_of_dark_handOff :
    let create (key : UInt8) := Event.create ⟨[key], [key]⟩ [] [] [] true 0
    OneScreen ([.boot [] (fun _ => false) 0, create 1, create 2, .setScreen [1] true 0,
      .boot [[1], [2]] (fun _ => true) 0, .setScreen [1] false 0, .setScreen [2] true 0,
      .delete [1], create 3].foldl LXMFGateway.step (powerOn {} fun _ => {})) :=
  oneScreen_of_dark (Reach.init.run (by decide +kernel))

/-- An identity that shows is deleted, another one selected, and a third created in the slot of the
first: it shows without being selected, and two do. -/
theorem not_oneScreen_reused :
    let create (key : UInt8) := Event.create ⟨[key], [key]⟩ [] [] [] true 0
    let g := [.boot [] (fun _ => false) 0, create 1, create 2, .setScreen [1] true 0, .delete [1],
      .setScreen [2] true 0, create 3].foldl LXMFGateway.step (powerOn {} fun _ => {})
    Reach LXMFGateway.step (fun g e => e.Sound g) (powerOn {} fun _ => {}) g ∧
      (∃ a ∈ g.slots, Shows a ∧ a.id = [3] ∧ g.selected [3] = false) ∧
      (∃ a ∈ g.slots, Shows a ∧ a.id = [2]) ∧ ¬ OneScreen g := by
  intro create g
  have h3 : ∃ a ∈ g.slots, Shows a ∧ a.id = [3] ∧ g.selected [3] = false := by
    simp only [shows_iff]
    decide +kernel
  refine ⟨Reach.init.run (by decide +kernel), h3, ?_, fun h => ?_⟩
  · simp only [shows_iff]
    decide +kernel
  · obtain ⟨a, ha, hs, hid, hn⟩ := h3
    have hc := h.chosen a ha hs
    rw [hid, hn] at hc
    cases hc

end URSupreme.Gateway
