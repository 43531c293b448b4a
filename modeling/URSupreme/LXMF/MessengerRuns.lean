import URSupreme.Lib.Run
import URSupreme.LXMF.Messenger
import URSupreme.LXMF.ScreenFlag

/-!
# Runs of the messenger

The slots, the saved flags and the messenger agree on one holder, or none, as long as the holder is
switched off before another identity is, before it is deleted, and comes up again at a reboot:
`on_screen_identity_changed` destroys the presets of whoever holds the screen, and `delete_identity`
does not call it.
-/

namespace URSupreme.Gateway
open Lib

variable {g : LXMFGateway} {slots l1 l2 : List LXMFIdentity} {disk : IdentityId → Saved}
  {a a' : LXMFIdentity} {id : IdentityId} {files : Saved} {o o' : Option IdentityId}

/-- The slots and the saved flags agree on the identity that holds the screen. -/
structure Held (slots : List LXMFIdentity) (disk : IdentityId → Saved) (o : Option IdentityId) :
    Prop where
  differ : slots.Pairwise Differ
  flag : ∀ a ∈ slots, a.settings.screen = true ↔ a.active = true ∧ o = some a.id
  loaded : ∀ id, o = some id → ∃ a ∈ slots, a.active = true ∧ a.id = id
  saved : ∀ id, (∃ m, (disk id).metaJson = some m ∧ m.settings.screen = true) ↔ o = some id

lemma held_powerOn : Held (List.replicate LXMF_GATEWAY_MAX_IDENTITIES {}) (fun _ => {}) none where
  differ := List.pairwise_replicate.mpr (.inr nofun)
  flag a ha := by
    rw [List.eq_of_mem_replicate ha]
    exact ⟨nofun, nofun⟩
  loaded := nofun
  saved id := ⟨nofun, nofun⟩

/-- A change of one slot, with the files of its identity. -/
lemma Held.replace (h : Held (l1 ++ a :: l2) disk o) (ha : a.active = true → a.id = id)
    (hid : ∀ b ∈ l1 ++ l2, b.active = true → b.id ≠ id) (ha' : a'.active = true → a'.id = id)
    (ho : ∀ i ≠ id, o' = some i ↔ o = some i)
    (hflag : a'.settings.screen = true ↔ a'.active = true ∧ o' = some id)
    (hact : o' = some id → a'.active = true)
    (hsaved : (∃ m, files.metaJson = some m ∧ m.settings.screen = true) ↔ o' = some id) :
    Held (l1 ++ a' :: l2) (Function.update disk id files) o' := by
  refine ⟨(pairwise_split Differ.symm).mpr ⟨fun b hb hx hy => ?_,
    ((pairwise_split Differ.symm).mp h.differ).2⟩, fun b hb => ?_, fun i hi => ?_, fun i => ?_⟩
  · rw [ha' hx]
    exact (hid b hb hy).symm
  · rcases mem_split.mp hb with rfl | hb
    · refine hflag.trans (and_congr_right fun hact => ?_)
      rw [ha' hact]
    · refine (h.flag b (mem_split.mpr (.inr hb))).trans (and_congr_right fun hact => ?_)
      exact (ho b.id (hid b hb hact)).symm
  · by_cases he : i = id
    · subst he
      exact ⟨a', mem_split.mpr (.inl rfl), hact hi, ha' (hact hi)⟩
    · obtain ⟨b, hb, hbact, rfl⟩ := h.loaded i ((ho i he).mp hi)
      rcases mem_split.mp hb with rfl | hb
      · exact absurd (ha hbact) he
      · exact ⟨b, mem_split.mpr (.inr hb), hbact, rfl⟩
  · by_cases he : i = id
    · subst he
      rw [Function.update_self]
      exact hsaved
    · rw [Function.update_of_ne he]
      exact (h.saved i).trans (ho i he).symm

/-- The holder is the identity `screen_identity` finds. -/
lemma Held.screenIdentity (h : Held g.slots g.disk o) : (screenIdentity g).map (·.id) = o := by
  cases hs : Gateway.screenIdentity g with
  | none =>
    cases o with
    | none => rfl
    | some id =>
      obtain ⟨a, ha, hact, rfl⟩ := h.loaded id rfl
      have hshow := shows_iff.mp ⟨hact, (h.flag a ha).mpr ⟨hact, rfl⟩⟩
      exact absurd hshow (List.find?_eq_none.mp hs a ha)
  | some a =>
    have hp := List.find?_some hs
    have hshow : Shows a := shows_iff.mpr hp
    exact ((h.flag a (List.mem_of_find?_eq_some hs)).mp hshow.2).2.symm

/-- What a call that keeps the screen flag leaves in `meta.json`. -/
lemma Call.run_saves {c : Call} (hc : c.KeepsScreen) :
    (c.run (a, files)).2.metaJson = files.metaJson ∨
      ∃ m, (c.run (a, files)).2.metaJson = some m ∧ m.settings.screen = a.settings.screen := by
  cases c with
  | create => exact hc.elim
  | screen => exact hc.elim
  | set s now => cases s <;> exact .inr ⟨_, rfl, rfl⟩
  | peerRetention => exact .inl rfl
  | defaultRetention => exact .inl rfl
  | rotate => exact .inl rfl

/-- `callOn`, for the calls that leave the screen flag alone. -/
lemma Held.callOn {p : LXMFIdentity → Bool} {c : Call} (hc : c.KeepsScreen)
    (h : Held g.slots g.disk o) (hp : ∀ {a}, p a = true → a.active = true) :
    Held (callOn p c g).slots (callOn p c g).disk o := by
  unfold Gateway.callOn
  split
  next => exact h
  next a hf =>
    obtain ⟨hpa, l1, l2, e, hm⟩ := modifyFirst_of_find hf
    have hact := hp hpa
    dsimp only
    rw [hm]
    rw [e] at h
    have hd := ((pairwise_split Differ.symm).mp h.differ).1
    obtain ⟨hid, hact', hscreen, -⟩ := @Call.run_screen a (g.disk a.id) c hc
    have hflag := h.flag a (mem_split.mpr (.inl rfl))
    refine h.replace (fun _ => rfl) (fun b hb hb' => (hd b hb hact hb').symm) (fun _ => hid)
      (fun _ _ => Iff.rfl) ?_ (fun _ => hact'.trans hact) ?_
    · show (c.run (a, g.disk a.id)).1.settings.screen = true ↔
        (c.run (a, g.disk a.id)).1.active = true ∧ _
      rw [hscreen, hact']
      exact hflag
    · rcases @Call.run_saves a (g.disk a.id) c hc with hm | ⟨m, hm, hs⟩
      · rw [hm]
        exact h.saved a.id
      · rw [hm]
        refine ⟨fun ⟨m', he, hs'⟩ => ?_, fun ho => ⟨m, rfl, hs.trans (hflag.mpr ⟨hact, ho⟩)⟩⟩
        obtain rfl := Option.some.inj he
        exact (hflag.mp (hs.symm.trans hs')).2

/-- `create_identity`. -/
lemma Held.createIdentity {identity : RNSIdentity} {displayName salt hash : Bytes} {stored : Bool}
    {now : Nat} (h : Held g.slots g.disk o) (hf : Fresh g identity.id) :
    let g' := createIdentity identity displayName salt hash stored now g
    Held g'.slots g'.disk o := by
  unfold Gateway.createIdentity
  split
  next => exact h
  next =>
    split
    next => exact h
    next a hfind =>
      obtain ⟨hfree, l1, l2, e, hm⟩ := modifyFirst_of_find hfind
      have hinact : a.active ≠ true := by
        rw [isFree, Bool.not_eq_true'] at hfree
        rw [hfree]
        exact Bool.false_ne_true
      have hne : ∀ b ∈ l1 ++ l2, b.active = true → b.id ≠ identity.id := fun b hb =>
        hf.1 b (e ▸ mem_split.mpr (.inr hb))
      have hnot : o ≠ some identity.id := by
        intro ho
        obtain ⟨m, hm, -⟩ := (h.saved identity.id).mpr ho
        rw [hf.2] at hm
        cases hm
      rw [e] at h
      have hdark : ¬ a.settings.screen = true := fun hs =>
        hinact ((h.flag a (mem_split.mpr (.inl rfl))).mp hs).1
      have hdark' : ¬ (a.active = true ∧ o = some identity.id) := fun hs => hnot hs.2
      split
      next hs =>
        dsimp only
        rw [hm]
        refine h.replace (fun hact => absurd hact hinact) hne (fun _ => rfl) (fun _ _ => Iff.rfl)
          ⟨fun hs => absurd hs hdark, fun hs => absurd hs.2 hnot⟩ (fun ho => absurd ho hnot)
          ⟨fun hm => ?_, fun ho => absurd ho hnot⟩
        obtain ⟨m, he, hs⟩ := hm
        obtain rfl := Option.some.inj he
        exact absurd hs hdark
      next =>
        dsimp only
        rw [hm, ← Function.update_eq_self identity.id g.disk]
        refine h.replace (fun hact => absurd hact hinact) hne (fun _ => rfl) (fun _ _ => Iff.rfl)
          ⟨fun hs => absurd hs hdark, fun hs => absurd hs.2 hnot⟩ (fun ho => absurd ho hnot)
          (h.saved identity.id)

/-- `delete_identity` of an identity that does not hold the screen. -/
lemma Held.deleteIdentity (h : Held g.slots g.disk o) (ho : o ≠ some id) :
    let g' := deleteIdentity id g
    Held g'.slots g'.disk o := by
  unfold Gateway.deleteIdentity
  split
  next => exact h
  next a hfind =>
    obtain ⟨hp, l1, l2, e, hm⟩ := modifyFirst_of_find hfind
    obtain ⟨_, hact, rfl⟩ := isCalled_iff.mp hp
    dsimp only
    rw [hm]
    rw [e] at h
    have hd := ((pairwise_split Differ.symm).mp h.differ).1
    have hdark : ¬ a.settings.screen = true := fun hs =>
      ho ((h.flag a (mem_split.mpr (.inl rfl))).mp hs).2
    refine h.replace (fun _ => rfl) (fun b hb hb' => (hd b hb hact hb').symm) nofun
      (fun _ _ => Iff.rfl) ⟨fun hs => absurd hs hdark, fun hs => absurd hs.2 ho⟩
      (fun hs => absurd hs ho) ⟨nofun, fun hs => absurd hs ho⟩

/-- `apply_inbox_config_to_all`. -/
lemma Held.applyInboxConfigToAll {r : Retention} (h : Held g.slots g.disk o) :
    Held (applyInboxConfigToAll r g).slots g.disk o := by
  have hk (a : LXMFIdentity) : (a.applyInboxConfig r).active = a.active ∧
      (a.applyInboxConfig r).id = a.id ∧ (a.applyInboxConfig r).settings = a.settings := by
    unfold LXMFIdentity.applyInboxConfig
    split <;> exact ⟨rfl, rfl, rfl⟩
  refine ⟨List.pairwise_map.mpr (h.differ.imp fun {a b} hd ha hb => ?_), fun a' ha' => ?_,
    fun id ho => ?_, h.saved⟩
  · rw [(hk a).2.1, (hk b).2.1]
    exact hd ((hk a).1 ▸ ha) ((hk b).1 ▸ hb)
  · obtain ⟨a, ha, rfl⟩ := List.mem_map.mp ha'
    rw [(hk a).1, (hk a).2.1, (hk a).2.2]
    exact h.flag a ha
  · obtain ⟨a, ha, hact, rfl⟩ := h.loaded id ho
    exact ⟨_, List.mem_map_of_mem ha, (hk a).1.trans hact, (hk a).2.1⟩

/-- Who holds the screen when the flag of an identity is set, or cleared. -/
def holderAfter (id : IdentityId) (enable : Bool) (o : Option IdentityId) : Option IdentityId :=
  if enable then some id else if o = some id then none else o

/-- The flag of one identity is set, or cleared. -/
lemma Held.screen {enable : Bool} {now : Nat} (h : Held g.slots g.disk o)
    (hf : g.slots.find? (isCalled id) = some a) (ho : enable = true → o = none ∨ o = some id) :
    let g' := Gateway.callOn (isCalled id) (.screen enable now) g
    Held g'.slots g'.disk (holderAfter id enable o) := by
  obtain ⟨hp, l1, l2, e, hm⟩ := modifyFirst_of_find hf
  obtain ⟨_, hact, rfl⟩ := isCalled_iff.mp hp
  unfold Gateway.callOn
  rw [hf]
  dsimp only
  rw [hm]
  rw [e] at h
  have hd := ((pairwise_split Differ.symm).mp h.differ).1
  have hother : ∀ i ≠ a.id, holderAfter a.id enable o = some i ↔ o = some i := by
    intro i hi
    unfold holderAfter
    cases enable with
    | true =>
      rw [if_pos rfl, Option.some.injEq]
      refine ⟨fun he => absurd he.symm hi, fun hs => ?_⟩
      rcases ho rfl with hn | hn
      · exact absurd (hn.symm.trans hs) (Option.some_ne_none i).symm
      · exact Option.some.inj (hn.symm.trans hs)
    | false =>
      rw [if_neg Bool.false_ne_true]
      split
      next hs =>
        rw [hs, Option.some.injEq]
        exact ⟨nofun, fun he => absurd he.symm hi⟩
      next => exact Iff.rfl
  have hself : enable = true ↔ holderAfter a.id enable o = some a.id := by
    unfold holderAfter
    cases enable with
    | true => exact ⟨fun _ => rfl, fun _ => rfl⟩
    | false =>
      refine ⟨nofun, fun hs => ?_⟩
      rw [if_neg Bool.false_ne_true] at hs
      split at hs
      next => cases hs
      next hn => exact absurd hs hn
  refine h.replace (fun _ => rfl) (fun b hb hb' => (hd b hb hact hb').symm) (fun _ => rfl) hother
    (hself.trans ⟨fun hs => ⟨hact, hs⟩, fun hs => hs.2⟩) (fun _ => hact)
    ⟨fun ⟨m, he, hs⟩ => ?_, fun hs => ⟨_, rfl, hself.mpr hs⟩⟩
  obtain rfl := Option.some.inj he
  exact hself.mp hs

/-- The screen flag of a loaded slot is the saved one. -/
def FlagSaved (g : LXMFGateway) (a : LXMFIdentity) : Prop :=
  a.active = true → ∀ m, (g.disk a.id).metaJson = some m → a.settings.screen = m.settings.screen

lemma flagSaved_entry {loads : IdentityId → Bool} {s : List LXMFIdentity × Nat} {entry : IdentityId}
    (h : ∀ a ∈ s.1, FlagSaved g a) : ∀ a ∈ (loadEntry g loads s entry).1, FlagSaved g a := by
  unfold loadEntry
  split
  next => exact h
  next =>
    split
    next a identity hf hdat =>
      split
      next =>
        intro b hb
        rcases of_mem_modifyFirst hb with hb | ⟨c, -, rfl⟩
        · exact h b hb
        · intro _ m hm
          change (g.disk (readMeta _ (g.disk entry)).id).metaJson = some m at hm
          rw [readMeta_id] at hm
          change (readMeta _ (g.disk entry)).settings.screen = _
          unfold readMeta
          rw [hm]
      next => exact h
    next => exact h

lemma flagSaved_loadEntries {loads : IdentityId → Bool} {entries : List IdentityId} :
    ∀ a ∈ loadEntries g loads entries, FlagSaved g a := by
  have key : ∀ (entries : List IdentityId) (s : List LXMFIdentity × Nat),
      (∀ a ∈ s.1, FlagSaved g a) →
        ∀ a ∈ (entries.foldl (loadEntry g loads) s).1, FlagSaved g a := by
    intro entries
    induction entries with
    | nil => exact fun _ h => h
    | cons entry entries ih => exact fun s h => ih _ (flagSaved_entry h)
  refine key entries _ fun a ha => ?_
  rw [List.eq_of_mem_replicate ha]
  exact nofun

/-- Where only one slot shows, the pass over the flags changes nothing. -/
lemma dedupe_eq {now : Nat} {held : Bool} (h1 : slots.Pairwise NotBoth)
    (h2 : held = true → ∀ a ∈ slots, ¬ Shows a) : dedupe now held slots g = (slots, g) := by
  induction slots generalizing held with
  | nil => rfl
  | cons a slots ih =>
    obtain ⟨h1a, h1⟩ := List.pairwise_cons.mp h1
    unfold dedupe
    split
    next hs =>
      have hs := shows_iff.mpr hs
      split
      next hheld => exact absurd hs (h2 hheld a List.mem_cons_self)
      next => rw [ih h1 fun _ b hb hsb => h1a b hb ⟨hs, hsb⟩]
    next => rw [ih h1 fun hheld b hb => h2 hheld b (List.mem_cons_of_mem _ hb)]

/-- A reboot that loads the holder. -/
lemma Held.boot {entries : List IdentityId} {loads : IdentityId → Bool} {now : Nat}
    (h : Held g.slots g.disk o) (hn : entries.Nodup)
    (hl : ∀ id, o = some id → ∃ a ∈ loadEntries g loads entries, a.active = true ∧ a.id = id) :
    let g' := boot entries loads now g
    Held g'.slots g'.disk o := by
  have hload : Loaded g (loadEntries g loads entries) _ := loaded_loadEntries hn
  have hflag : ∀ a ∈ loadEntries g loads entries,
      a.settings.screen = true ↔ a.active = true ∧ o = some a.id := by
    intro a ha
    cases hact : a.active with
    | false =>
      rw [hload.fresh a ha hact]
      exact ⟨nofun, nofun⟩
    | true =>
      refine ⟨fun hs => ⟨rfl, (h.saved a.id).mp (hload.screen a ha ⟨hact, hs⟩)⟩, fun ⟨_, ho⟩ => ?_⟩
      obtain ⟨m, hm, hs⟩ := (h.saved a.id).mpr ho
      exact (flagSaved_loadEntries a ha hact m hm).trans hs
  have hone : (loadEntries g loads entries).Pairwise NotBoth := by
    refine hload.differ.imp_of_mem fun {a b} ha hb hd hs => ?_
    have hoa := ((hflag a ha).mp hs.1.2).2
    have hob := ((hflag b hb).mp hs.2.2).2
    exact hd hs.1.1 hs.2.1 (Option.some.inj (hoa.symm.trans hob))
  unfold Gateway.boot
  dsimp only
  rw [dedupe_eq hone fun h => absurd h Bool.false_ne_true]
  exact ⟨hload.differ, hflag, hl, h.saved⟩

end URSupreme.Gateway

namespace URSupreme.Messenger
open Lib Gateway

/-! ## What is claimed -/

/-- What the messenger holds and stores is the holder's, and was shown to nobody else. -/
structure Device.Private (s : Device) : Prop where
  holder : ∀ h ∈ screenIdentity s.gateway,
    s.storePath = presetsPath h.id ∧ ∀ p ∈ s.presets, p.owner = h.id
  nobody : screenIdentity s.gateway = none → s.storePath = [] ∧ s.presets = []
  gone : ∀ id, (∀ h ∈ screenIdentity s.gateway, h.id ≠ id) → s.files (presetsPath id) = none
  shown : ∀ x ∈ s.shown, x.2.owner = x.1

/-- The screen is switched off only for its holder, the holder is not deleted, and a reboot loads
it. -/
def Event.Keeps (s : Device) : Event → Prop
  | .gateway (.setScreen id enable _) =>
    enable = false → accepts id enable s.gateway = true → ∀ h ∈ screenIdentity s.gateway, h.id = id
  | .gateway (.delete id) => ∀ h ∈ screenIdentity s.gateway, h.id ≠ id
  | .gateway (.boot entries loads _) =>
    ∀ h ∈ screenIdentity s.gateway,
      ∃ a ∈ loadEntries s.gateway loads entries, a.active = true ∧ a.id = h.id
  | _ => True

/-- What the gateway is promised. -/
def Event.Sound (s : Device) : Event → Prop
  | .gateway e => e.Sound s.gateway
  | _ => True

instance {s : Device} : ∀ ev : Event, Decidable (ev.Sound s)
  | .gateway e => inferInstanceAs (Decidable (e.Sound s.gateway))
  | .getPresets _ | .postPresets _ _ | .next | .sendSelected => .isTrue trivial

instance {s : Device} : ∀ ev : Event, Decidable (ev.Keeps s)
  | .gateway (.setScreen _ enable _) =>
    inferInstanceAs (Decidable (enable = false → _ → ∀ h ∈ screenIdentity s.gateway, _))
  | .gateway (.delete _) => inferInstanceAs (Decidable (∀ h ∈ screenIdentity s.gateway, _))
  | .gateway (.boot entries loads _) =>
    inferInstanceAs (Decidable (∀ h ∈ screenIdentity s.gateway,
      ∃ a ∈ loadEntries s.gateway loads entries, _))
  | .gateway (.create ..) | .gateway (.set ..) | .gateway (.peerRetention ..)
  | .gateway (.defaultRetention ..) | .gateway (.rotate ..) | .getPresets _ | .postPresets _ _
  | .next | .sendSelected => .isTrue trivial

/-- The promise and the condition. -/
def Event.Ok (s : Device) (ev : Event) : Prop := ev.Sound s ∧ ev.Keeps s

instance {s : Device} {ev : Event} : Decidable (ev.Ok s) := inferInstanceAs (Decidable (_ ∧ _))

/-! ## The presets -/

variable {s : Device} {o : Option IdentityId} {id caller : IdentityId} {ps : List Preset}
  {p : Preset}

lemma presetsPath_inj {a b : IdentityId} (h : presetsPath a = presetsPath b) : a = b :=
  List.append_cancel_left (List.append_cancel_right h)

lemma presetsPath_ne_nil : presetsPath id ≠ [] :=
  List.append_ne_nil_of_right_ne_nil _ (by decide)

/-- A preset within the limits reads back. -/
lemma readPreset_eq (hl : p.label ≠ []) (hlabel : p.label.length ≤ MAX_LABEL_LEN)
    (hc : p.content ≠ []) (hcontent : p.content.length ≤ MAX_CONTENT_LEN)
    (hd : p.destHex = [] ∨ p.destHex.length = 32) : readPreset p = some p := by
  unfold readPreset
  rw [List.take_of_length_le hlabel, List.take_of_length_le hcontent]
  dsimp only
  rw [if_neg (not_or.mpr ⟨hl, hc⟩), if_neg fun ⟨h1, h2⟩ => hd.elim h1 h2]

lemma preset_owner {b : PresetBody} : (b.preset caller).owner = caller := by
  unfold PresetBody.preset
  cases b.telemetry with
  | none => rfl
  | some t => rfl

/-- What the handler accepts is the caller's, and reads back. -/
lemma parse_spec {b : PresetBody} (h : b.parse caller = .ok p) :
    p.owner = caller ∧ readPreset p = some p := by
  unfold PresetBody.parse at h
  dsimp only at h
  split at h
  next => cases h
  next hl =>
    split at h
    next => cases h
    next hd =>
      split at h
      next => cases h
      next hc =>
        obtain ⟨hl1, hl2⟩ := not_or.mp hl
        obtain ⟨hc1, hc2⟩ := not_or.mp hc
        obtain rfl := Except.ok.inj h
        refine ⟨preset_owner, readPreset_eq hl1 (not_lt.mp hl2) hc1 (not_lt.mp hc2) ?_⟩
        by_contra hn
        obtain ⟨hn1, hn2⟩ := not_or.mp hn
        exact hd ⟨hn1, .inl hn2⟩

lemma parseAll_spec {arr : List PresetBody} (h : parseAll caller arr = .ok ps) :
    ps.length = arr.length ∧ ∀ p ∈ ps, p.owner = caller ∧ readPreset p = some p := by
  induction arr generalizing ps with
  | nil =>
    obtain rfl := Except.ok.inj h
    exact ⟨rfl, fun p hp => absurd hp List.not_mem_nil⟩
  | cons b arr ih =>
    unfold parseAll at h
    cases hb : b.parse caller with
    | error code =>
      rw [hb] at h
      cases h
    | ok q =>
      rw [hb] at h
      cases hr : parseAll caller arr with
      | error code =>
        rw [hr] at h
        cases h
      | ok qs =>
        rw [hr] at h
        obtain rfl := Except.ok.inj h
        obtain ⟨hlen, hall⟩ := ih hr
        exact ⟨congrArg (· + 1) hlen, List.forall_mem_cons.mpr ⟨parse_spec hb, hall⟩⟩

/-- Presets that read back one by one do so together. -/
lemma readPresets_eq (h : ∀ p ∈ ps, readPreset p = some p) (hlen : ps.length ≤ MAX_PRESETS) :
    readPresets ps = ps := by
  have hmap : ps.filterMap readPreset = ps := by
    induction ps with
    | nil => rfl
    | cons p ps ih =>
      obtain ⟨hp, hps⟩ := List.forall_mem_cons.mp h
      rw [List.filterMap_cons_some hp, ih hps (Nat.le_of_succ_le hlen)]
  rw [readPresets, hmap, List.take_of_length_le hlen]

lemma defaultTemplates_spec : ∀ p ∈ defaultTemplates id, p.owner = id ∧ readPreset p = some p := by
  intro p hp
  simp only [defaultTemplates, templates, List.mapIdx_cons, List.mapIdx_nil, List.mem_cons,
    List.not_mem_nil, or_false] at hp
  rcases hp with rfl | rfl | rfl <;> exact ⟨rfl, rfl⟩

/-- The files and the messenger are those of the holder. -/
structure Kept (s : Device) (o : Option IdentityId) : Prop where
  path : s.storePath = o.elim [] presetsPath
  file : ∀ id, s.files (presetsPath id) = if o = some id then some s.presets else none
  own : ∀ p ∈ s.presets, o = some p.owner
  read : readPresets s.presets = s.presets

/-- The screen is switched on where it was off, or again; or the holder is loaded. -/
lemma kept_enabled (hfile : ∀ i, s.files (presetsPath i) = if o = some i then some ps else none)
    (ho : o = none ∨ o = some id) (hown : ∀ p ∈ ps, o = some p.owner)
    (hread : readPresets ps = ps) : Kept (onScreenIdentityChanged true id s) (some id) := by
  unfold onScreenIdentityChanged
  rw [if_pos rfl]
  dsimp only
  rcases ho with rfl | rfl
  · rw [hfile id, if_neg (Option.some_ne_none id).symm]
    dsimp only [persist]
    rw [if_neg presetsPath_ne_nil]
    refine ⟨rfl, fun i => ?_, fun p hp => ?_, ?_⟩
    · dsimp only
      by_cases hi : i = id
      · rw [hi, if_pos rfl, Function.update_self]
      · rw [Function.update_of_ne fun he => hi (presetsPath_inj he), hfile i,
          if_neg (Option.some_ne_none i).symm, if_neg fun he => hi (Option.some.inj he).symm]
    · rw [(defaultTemplates_spec p hp).1]
    · exact readPresets_eq (fun p hp => (defaultTemplates_spec p hp).2) (Nat.le_of_ble_eq_true rfl)
  · rw [hfile id, if_pos rfl]
    dsimp only
    rw [hread]
    exact ⟨rfl, hfile, hown, hread⟩

/-- The screen is switched off. -/
lemma Kept.disabled (h : Kept s o) : Kept (onScreenIdentityChanged false id s) none := by
  unfold onScreenIdentityChanged
  rw [if_neg Bool.false_ne_true]
  refine ⟨rfl, fun i => ?_, fun p hp => absurd hp List.not_mem_nil, rfl⟩
  dsimp only
  rw [if_neg (Option.some_ne_none i).symm, h.path]
  cases o with
  | none =>
    rw [Option.elim_none, if_pos rfl, h.file i, if_neg (Option.some_ne_none i).symm]
  | some id =>
    rw [Option.elim_some, if_neg presetsPath_ne_nil]
    by_cases hi : i = id
    · rw [hi, Function.update_self]
    · rw [Function.update_of_ne fun he => hi (presetsPath_inj he), h.file i,
        if_neg fun he => hi (Option.some.inj he).symm]

/-- The holder stores another list. -/
lemma Kept.replaced (h : Kept s (some id)) (hown : ∀ p ∈ ps, p.owner = id)
    (hread : readPresets ps = ps) : Kept (persist (replacePresets ps s)) (some id) := by
  have hpath : (replacePresets ps s).storePath = presetsPath id := h.path
  unfold persist
  rw [hpath, if_neg presetsPath_ne_nil]
  refine ⟨rfl, fun i => ?_, fun p hp => congrArg some (hown p hp).symm, hread⟩
  dsimp only
  by_cases hi : i = id
  · rw [hi, if_pos rfl, Function.update_self]
  · rw [Function.update_of_ne fun he => hi (presetsPath_inj he), if_neg fun he =>
      hi (Option.some.inj he).symm]
    show s.files _ = none
    rw [h.file i, if_neg fun he => hi (Option.some.inj he).symm]

/-! ## Runs -/

/-- The slots, the saved flags, the files and the messenger agree on the holder. -/
structure Inv (s : Device) (o : Option IdentityId) : Prop where
  held : Held s.gateway.slots s.gateway.disk o
  kept : Kept s o
  shown : ∀ x ∈ s.shown, x.2.owner = x.1

lemma inv_powerOn {r : Retention} : Inv (powerOn r) none where
  held := held_powerOn
  kept := ⟨rfl, fun _ => rfl, fun _ hp => absurd hp List.not_mem_nil, rfl⟩
  shown _ hx := absurd hx List.not_mem_nil

/-- The holder's presets are shown to the holder. -/
lemma Inv.show {qs : List Preset} (h : Inv s (some id)) (hq : ∀ q ∈ qs, q ∈ s.presets) :
    Inv { s with shown := s.shown ++ qs.map (id, ·) } (some id) := by
  refine ⟨h.held, ⟨h.kept.path, h.kept.file, h.kept.own, h.kept.read⟩, fun x hx => ?_⟩
  rcases List.mem_append.mp hx with hx | hx
  · exact h.shown x hx
  · obtain ⟨q, hm, rfl⟩ := List.mem_map.mp hx
    exact (Option.some.inj (h.kept.own q (hq q hm))).symm

/-- Who passes `messenger_presets_allowed` holds the screen. -/
lemma Inv.allowed (h : Inv s o) (hr : refusal caller s.gateway = none) : o = some caller := by
  have hscr := h.held.screenIdentity
  unfold refusal at hr
  split at hr
  next => cases hr
  next =>
    cases hs : screenIdentity s.gateway with
    | none =>
      rw [hs] at hr
      cases hr
    | some scr =>
      rw [hs] at hr hscr
      dsimp only at hr
      split at hr
      next => cases hr
      next he => exact hscr.symm.trans (congrArg some (not_not.mp he))

/-- The gateway changes nothing on the screen. -/
lemma Inv.gateway {g : LXMFGateway} (h : Inv s o) (hg : Held g.slots g.disk o) :
    Inv { s with gateway := g } o :=
  ⟨hg, ⟨h.kept.path, h.kept.file, h.kept.own, h.kept.read⟩, h.shown⟩

/-- Neither before nor after does this identity have presets. -/
lemma Inv.frame {s' : Device} {o' : Option IdentityId} (h : Inv s o) (h' : Inv s' o')
    (ho : o ≠ some id) (ho' : o' ≠ some id) :
    s'.files (presetsPath id) = s.files (presetsPath id) := by
  rw [h.kept.file id, h'.kept.file id, if_neg ho, if_neg ho']

lemma setScreenIdentity_eq {enable : Bool} {now : Nat} {g : LXMFGateway} :
    setScreenIdentity id enable now g =
      if accepts id enable g then
        { callOn (isCalled id) (.screen enable now) g with
          selected := Function.update g.selected id enable }
      else g := by
  unfold setScreenIdentity accepts
  dsimp only
  cases hf : g.slots.find? (isCalled id) with
  | none => rfl
  | some a =>
    cases enable with
    | false => rfl
    | true =>
      cases hs : screenIdentity g with
      | none => rfl
      | some scr =>
        rw [Option.isSome_some, Bool.true_and, Bool.not_true, Bool.false_or, Option.all_some]
        dsimp only
        rw [if_pos rfl]
        by_cases he : scr.id = id
        · rw [if_neg (not_not.mpr he), if_pos (decide_eq_true he)]
        · rw [if_pos he, if_neg (by rw [decide_eq_false he]; exact Bool.false_ne_true)]

/-- What an accepted call finds. -/
lemma accepts_spec {enable : Bool} (h : Inv s o) (ha : accepts id enable s.gateway = true)
    (hoff : enable = false → ∀ h ∈ screenIdentity s.gateway, h.id = id) :
    (∃ a, s.gateway.slots.find? (isCalled id) = some a) ∧ (o = none ∨ o = some id) := by
  obtain ⟨hf, hs⟩ := Bool.and_eq_true_iff.mp ha
  refine ⟨Option.isSome_iff_exists.mp hf, ?_⟩
  have hscr := h.held.screenIdentity
  cases hsome : screenIdentity s.gateway with
  | none =>
    rw [hsome] at hscr
    exact .inl hscr.symm
  | some scr =>
    rw [hsome] at hs hoff hscr
    refine .inr (hscr.symm.trans (congrArg some ?_))
    cases enable with
    | true => exact of_decide_eq_true hs
    | false => exact hoff rfl scr rfl

lemma persist_gateway : (persist s).gateway = s.gateway := by
  unfold persist
  split <;> rfl

lemma persist_shown : (persist s).shown = s.shown := by
  unfold persist
  split <;> rfl

/-- The messenger leaves the gateway and the log alone. -/
lemma onScreenIdentityChanged_other {enabled : Bool} :
    (onScreenIdentityChanged enabled id s).gateway = s.gateway ∧
      (onScreenIdentityChanged enabled id s).shown = s.shown := by
  unfold onScreenIdentityChanged
  cases enabled with
  | false => exact ⟨rfl, rfl⟩
  | true =>
    dsimp only
    rw [if_pos rfl]
    split
    next => exact ⟨rfl, rfl⟩
    next => exact ⟨persist_gateway, persist_shown⟩

/-- The presets of a loaded holder are only read. -/
lemma onScreenIdentityChanged_files {file : List Preset}
    (h : s.files (presetsPath id) = some file) :
    (onScreenIdentityChanged true id s).files = s.files := by
  unfold onScreenIdentityChanged
  rw [if_pos rfl]
  dsimp only
  rw [h]

/-- The messenger after the screen has changed hands. -/
lemma Inv.changed {enabled : Bool} {o' : Option IdentityId} {s' : Device}
    (hs : s' = onScreenIdentityChanged enabled id s)
    (held : Held s.gateway.slots s.gateway.disk o') (kept : Kept s' o')
    (shown : ∀ x ∈ s.shown, x.2.owner = x.1) : Inv s' o' := by
  subst hs
  obtain ⟨hg, hs⟩ := @onScreenIdentityChanged_other s id enabled
  refine ⟨?_, kept, ?_⟩
  · rw [hg]
    exact held
  · rw [hs]
    exact shown

/-- What one event leaves: presets in step with one holder, and those of no other identity than the
one it is issued for are changed. -/
def Next (s s' : Device) (issuer : Option IdentityId) : Prop :=
  ∃ o, Inv s' o ∧ ∀ b, issuer ≠ some b → s'.files (presetsPath b) = s.files (presetsPath b)

/-- `set_screen_identity`. -/
lemma Inv.setScreen {enable : Bool} {now : Nat} (h : Inv s o)
    (hoff : enable = false → accepts id enable s.gateway = true →
      ∀ h ∈ screenIdentity s.gateway, h.id = id) : Next s (s.setScreen id enable now)
      (some id) := by
  unfold Device.setScreen
  rw [setScreenIdentity_eq]
  dsimp only
  split
  next ha =>
    obtain ⟨⟨a, hf⟩, ho⟩ := accepts_spec h ha fun he => hoff he ha
    have hheld : Held (callOn (isCalled id) (.screen enable now) s.gateway).slots
        (callOn (isCalled id) (.screen enable now) s.gateway).disk (holderAfter id enable o) :=
      h.held.screen hf fun _ => ho
    generalize hg : ({ callOn (isCalled id) (.screen enable now) s.gateway with
      selected := Function.update s.gateway.selected id enable } : LXMFGateway) = g
    have hheld' : Held g.slots g.disk (holderAfter id enable o) := by
      rw [← hg]
      exact hheld
    have hne : ∀ b, some id ≠ some b → o ≠ some b := by
      rintro b hb rfl
      exact ho.elim (Option.some_ne_none b) fun he => hb he.symm
    have hkept : Kept { s with gateway := g } o :=
      ⟨h.kept.path, h.kept.file, h.kept.own, h.kept.read⟩
    cases enable with
    | true =>
      have hnext := Inv.changed rfl hheld' (kept_enabled hkept.file ho hkept.own hkept.read) h.shown
      exact ⟨some id, hnext, fun b hb => h.frame hnext (hne b hb) hb⟩
    | false =>
      have hnone : holderAfter id false o = none := by
        rcases ho with rfl | rfl
        · rfl
        · exact if_pos rfl
      rw [hnone] at hheld'
      have hnext : Inv (onScreenIdentityChanged false id { s with gateway := g }) none :=
        Inv.changed rfl hheld' hkept.disabled h.shown
      exact ⟨none, hnext, fun b hb => h.frame hnext (hne b hb) (Option.some_ne_none b).symm⟩
  next => exact ⟨o, h, fun _ _ => rfl⟩

/-- A reboot that loads the holder. -/
lemma Inv.boot {entries : List IdentityId} {loads : IdentityId → Bool} {now : Nat} (h : Inv s o)
    (hn : entries.Nodup)
    (hl : ∀ h ∈ screenIdentity s.gateway,
      ∃ a ∈ loadEntries s.gateway loads entries, a.active = true ∧ a.id = h.id) :
    Next s (s.boot entries loads now) none := by
  have hscr := h.held.screenIdentity
  have hheld : Held (Gateway.boot entries loads now s.gateway).slots
      (Gateway.boot entries loads now s.gateway).disk o := by
    refine h.held.boot hn fun i hi => ?_
    rw [hi] at hscr
    obtain ⟨a, ha, rfl⟩ := Option.map_eq_some_iff.mp hscr
    exact hl a ha
  have hscr' := hheld.screenIdentity
  unfold Device.boot
  generalize Gateway.boot entries loads now s.gateway = g at hheld hscr'
  dsimp only
  cases hs : screenIdentity g with
  | none =>
    rw [hs] at hscr'
    obtain rfl : none = o := hscr'
    refine ⟨none, ⟨hheld, ⟨rfl, fun i => ?_, fun p hp => absurd hp List.not_mem_nil, rfl⟩, h.shown⟩,
      fun _ _ => rfl⟩
    exact h.kept.file i
  | some scr =>
    rw [hs] at hscr'
    obtain rfl : some scr.id = o := hscr'
    have hfile := h.kept.file scr.id
    rw [if_pos rfl] at hfile
    have hnext := Inv.changed (s := { s with
      gateway := g, storePath := [], presets := [], cursor := 0 })
      rfl hheld (kept_enabled h.kept.file (.inr rfl) h.kept.own h.kept.read) h.shown
    refine ⟨some scr.id, hnext, fun b _ => ?_⟩
    exact congrFun (onScreenIdentityChanged_files
      (s := { s with gateway := g, storePath := [], presets := [], cursor := 0 }) hfile) _

/-- The requests of the holder. -/
lemma Inv.getPresets (h : Inv s o) : Next s (s.getPresets caller).1 (some caller) := by
  unfold Device.getPresets
  cases hr : refusal caller s.gateway with
  | some r => exact ⟨o, h, fun _ _ => rfl⟩
  | none =>
    obtain rfl := h.allowed hr
    exact ⟨some caller, h.show fun _ hq => hq, fun _ _ => rfl⟩

lemma Inv.postPresets {body : Option (List PresetBody)} (h : Inv s o) :
    Next s (s.postPresets caller body).1 (some caller) := by
  have hsame : Next s s (some caller) := ⟨o, h, fun _ _ => rfl⟩
  unfold Device.postPresets
  cases hr : refusal caller s.gateway with
  | some r => exact hsame
  | none =>
    obtain rfl := h.allowed hr
    cases body with
    | none => exact hsame
    | some arr =>
      dsimp only
      split
      next => exact hsame
      next hlen =>
        cases hp : parseAll caller arr with
        | error code => exact hsame
        | ok next =>
          obtain ⟨hnext, hall⟩ := parseAll_spec hp
          have hread : readPresets next = next :=
            readPresets_eq (fun p hp => (hall p hp).2) (hnext ▸ not_lt.mp hlen)
          have hkept := h.kept.replaced (fun p hp => (hall p hp).1) hread
          have hinv : Inv (persist (replacePresets next s)) (some caller) := by
            refine ⟨?_, hkept, ?_⟩
            · rw [persist_gateway]
              exact h.held
            · rw [persist_shown]
              exact h.shown
          have hfill := hinv.show fun _ hq => hq
          exact ⟨some caller, hfill, fun b hb => h.frame hfill hb hb⟩

/-- The buttons. -/
lemma Inv.sendSelected (h : Inv s o) : Inv s.sendSelected o := by
  unfold Device.sendSelected
  split
  next p a hp ha =>
    have hscr := h.held.screenIdentity
    rw [ha] at hscr
    obtain rfl : some a.id = o := hscr
    have hmem : p ∈ s.presets := List.mem_of_mem_filter (List.mem_of_getElem? hp)
    have hshow : Inv { s with shown := s.shown ++ [p].map (a.id, ·) } (some a.id) :=
      h.show fun q hq => List.mem_singleton.mp hq ▸ hmem
    exact hshow
  next => exact h

lemma Inv.next (h : Inv s o) : Inv s.next o := by
  unfold Device.next
  split
  next => exact h
  next => exact ⟨h.held, ⟨h.kept.path, h.kept.file, h.kept.own, h.kept.read⟩, h.shown⟩

/-- One event. -/
lemma Inv.step {ev : Event} (h : Inv s o) (hok : ev.Ok s) : Next s (s.step ev) ev.issuer := by
  have hp {id : IdentityId} {a : LXMFIdentity} (h : isCalled id a = true) : a.active = true :=
    (isCalled_iff.mp h).2.1
  obtain ⟨hsound, hkeeps⟩ := hok
  cases ev with
  | gateway e =>
    cases e with
    | create => exact ⟨o, h.gateway (h.held.createIdentity hsound), fun _ _ => rfl⟩
    | delete id =>
      refine ⟨o, h.gateway (h.held.deleteIdentity fun ho => ?_), fun _ _ => rfl⟩
      have hscr := h.held.screenIdentity
      rw [ho] at hscr
      obtain ⟨a, ha, hid⟩ := Option.map_eq_some_iff.mp hscr
      exact hkeeps a ha hid
    | set => exact ⟨o, h.gateway (h.held.callOn trivial hp), fun _ _ => rfl⟩
    | setScreen id enable now => exact h.setScreen hkeeps
    | peerRetention => exact ⟨o, h.gateway (h.held.callOn trivial hp), fun _ _ => rfl⟩
    | defaultRetention => exact ⟨o, h.gateway h.held.applyInboxConfigToAll, fun _ _ => rfl⟩
    | rotate =>
      exact ⟨o, h.gateway (h.held.callOn trivial fun h => (Bool.and_eq_true _ _ ▸ h).1),
        fun _ _ => rfl⟩
    | boot => exact h.boot hsound hkeeps
  | getPresets caller => exact h.getPresets
  | postPresets caller body => exact h.postPresets
  | next =>
    refine ⟨o, h.next, fun _ _ => ?_⟩
    unfold Device.step Device.next
    dsimp only
    split <;> rfl
  | sendSelected =>
    exact ⟨o, h.sendSelected, fun _ _ => by
      unfold Device.step Device.sendSelected; dsimp only; split <;> rfl⟩

lemma Inv.toPrivate (h : Inv s o) : s.Private := by
  have hscr := h.held.screenIdentity
  refine ⟨fun a ha => ?_, fun hn => ?_, fun id hid => ?_, h.shown⟩
  · rw [ha] at hscr
    obtain rfl : some a.id = o := hscr
    exact ⟨h.kept.path, fun p hp => (Option.some.inj (h.kept.own p hp)).symm⟩
  · rw [hn] at hscr
    obtain rfl : none = o := hscr
    refine ⟨h.kept.path, List.eq_nil_iff_forall_not_mem.mpr fun p hp => ?_⟩
    exact Option.some_ne_none p.owner (h.kept.own p hp).symm
  · rw [h.kept.file id, if_neg]
    rintro rfl
    obtain ⟨a, ha, he⟩ := Option.map_eq_some_iff.mp hscr
    exact hid a ha he

/-- **The presets stay with the holder of the screen** in a run that keeps to the condition, and no
event changes the stored presets of another identity than the one it is issued for. -/
theorem private_of_keeps {r : Retention}
    (h : Reach Device.step (fun s ev => ev.Ok s) (powerOn r) s) :
    s.Private ∧ ∀ ev : Event, ev.Ok s → ∀ b, ev.issuer ≠ some b →
      (s.step ev).files (presetsPath b) = s.files (presetsPath b) := by
  have hinv : ∃ o, Inv s o := by
    refine h.invariant (P := fun s => ∃ o, Inv s o) ⟨none, inv_powerOn⟩ fun hok hi => ?_
    obtain ⟨o, ho⟩ := hi
    obtain ⟨o', ho', -⟩ := ho.step hok
    exact ⟨o', ho'⟩
  obtain ⟨o, ho⟩ := hinv
  refine ⟨ho.toPrivate, fun ev hok b hb => ?_⟩
  obtain ⟨_, -, hf⟩ := ho.step hok
  exact hf b hb

/-- Two identities are created, and the first is switched on. -/
def first : List Event :=
  [.gateway (.boot [] (fun _ => false) 0), .gateway (.create ⟨[1], [1]⟩ [] [] [] true 0),
    .gateway (.create ⟨[2], [2]⟩ [] [] [] true 0), .gateway (.setScreen [1] true 0)]

/-- The screen changes hands, over a reboot, and its first holder is deleted. -/
def handOff : List Event :=
  first ++ [.postPresets [1] (some [⟨[0x61], List.replicate 32 0x30, [0x62], none⟩]),
    .getPresets [2], .sendSelected, .gateway (.boot [[1], [2]] (fun _ => true) 0), .getPresets [1],
    .gateway (.setScreen [1] false 0), .gateway (.setScreen [2] true 0), .gateway (.delete [1]),
    .sendSelected]

theorem private_of_keeps_handOff :
    (handOff.foldl Device.step (powerOn {})).Private ∧
      (handOff.foldl Device.step (powerOn {})).shown.length = 3 :=
  ⟨(private_of_keeps (Reach.init.run (by decide +kernel))).1, by decide +kernel⟩

/-- The second identity switches the screen off, which it does not hold. -/
def offByOther : List Event := first ++ [.gateway (.setScreen [2] false 0)]

/-- The first identity still holds it, and its presets are gone. -/
theorem not_private_off : ¬ (offByOther.foldl Device.step (powerOn {})).Private := by
  intro h
  have hpath : ∀ a ∈ screenIdentity (offByOther.foldl Device.step (powerOn {})).gateway,
      (offByOther.foldl Device.step (powerOn {})).storePath = presetsPath a.id :=
    fun a ha => (h.holder a ha).1
  exact absurd hpath (by decide +kernel)

end URSupreme.Messenger
