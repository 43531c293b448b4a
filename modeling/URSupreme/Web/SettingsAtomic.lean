import URSupreme.Web.IdentitySettings

/-!
# Settings applied all or nothing

What the groups of a request leave behind them, up to the first that is refused: each its own part
of the settings of the caller, and the meta file as the settings are. From this follows exactly when
a refused request has changed nothing.
-/

namespace URSupreme.IdentitySettings
open Lib Gateway
open IdentityCode (Code)

variable {caller : IdentityId} {body : Body} {now : ℕ} {d d' d₀ : Device}
  {l1 l2 : List LXMFIdentity} {a a' b : LXMFIdentity} {g r : Group}
  {pre post done rest : List Group}
  {gw : LXMFGateway}

/-! ### One group -/

/-- The settings are the parts. -/
lemma eq_of_part (h : part a = part b) : a.displayName = b.displayName ∧
    a.settings = b.settings := by
  have hi := congrFun h .announceInterval
  have hp := congrFun h .persistOutboundAttachments
  have hc := congrFun h .stampCost
  have he := congrFun h .enforceStamps
  have hs := congrFun h .screen
  have ht := congrFun h .telemetry
  refine ⟨congrFun h .displayName, ?_⟩
  simp only [part, Prod.mk.injEq] at hi hp hc he hs ht
  rcases hset : a.settings with ⟨⟩
  rcases hset' : b.settings with ⟨⟩
  simp_all

/-- A call on the caller, where no slot before is called so. -/
lemma callOn_split {c : Call} (hs : gw.slots = l1 ++ a :: l2)
    (h1 : ∀ b ∈ l1, isCalled caller b = false) (ha : isCalled caller a = true) :
    (callOn (isCalled caller) c gw).slots =
      l1 ++ { (c.run (a, gw.disk caller)).1 with log := a.log.map (· ++ [c]) } :: l2 ∧
    (callOn (isCalled caller) c gw).disk =
      Function.update gw.disk caller (c.run (a, gw.disk caller)).2 := by
  have hid : a.id = caller := (isCalled_iff.mp ha).2.2
  unfold callOn
  rw [hs, find_split h1 ha]
  dsimp only
  rw [modifyFirst_split h1 ha, hid]
  exact ⟨rfl, rfl⟩

lemma identityById_split (hs : d.gateway.slots = l1 ++ a :: l2)
    (h1 : ∀ b ∈ l1, isCalled caller b = false) (ha : isCalled caller a = true) :
    d.identityById caller = some a := by
  unfold Device.identityById
  rw [hs]
  exact find_split h1 ha

/-- Who holds the screen does not depend on what the other settings of an identity are. -/
lemma screenIdentity_split {gw' : LXMFGateway} (hs : gw.slots = l1 ++ a :: l2)
    (hs' : gw'.slots = l1 ++ b :: l2) (hid : b.id = a.id) (hact : b.active = a.active)
    (hscreen : b.settings.screen = a.settings.screen) :
    (screenIdentity gw').map (·.id) = (screenIdentity gw).map (·.id) := by
  unfold screenIdentity
  rw [hs, hs', List.find?_append, List.find?_append, List.find?_cons, List.find?_cons, hact,
    hscreen]
  cases l1.find? fun a => a.active && a.settings.screen with
  | some x => rfl
  | none =>
    cases a.active && a.settings.screen with
    | true => exact congrArg some hid
    | false => rfl

lemma accepts_congr {on : Bool} {gw' : LXMFGateway}
    (hf : (gw'.slots.find? (isCalled caller)).isSome = (gw.slots.find? (isCalled caller)).isSome)
    (hs : (screenIdentity gw').map (·.id) = (screenIdentity gw).map (·.id)) :
    Messenger.accepts caller on gw' = Messenger.accepts caller on gw := by
  have hall : ∀ gw : LXMFGateway, (screenIdentity gw).all (·.id = caller) =
      ((screenIdentity gw).map (·.id)).all (· = caller) := fun gw => by
    cases screenIdentity gw with
    | none => rfl
    | some x => rfl
  unfold Messenger.accepts
  rw [hf, hall, hall, hs]

/-- A proof that is accepted uses the code up, and any other leaves it. -/
lemma explain_code : (d.code.explain body.identityCode now).1 =
    if proves body now d then { d.code with consumed := true } else d.code := by
  unfold proves
  obtain ⟨-, he⟩ | ⟨-, why, he⟩ := IdentityCode.explain_spec d.code body.identityCode now
  · rw [he]
    rfl
  · rw [he]
    rfl

/-- What is accepted was not used up. -/
lemma consumed_of_proves (h : proves body now d = true) : d.code.consumed = false := by
  obtain ⟨hf, -⟩ | ⟨-, why, he⟩ := IdentityCode.explain_spec d.code body.identityCode now
  · exact hf.2.2.1
  · unfold proves at h
    rw [he] at h
    cases h

/-! ### What the groups before a refusal leave -/

/-- The groups of `done` have been applied to the caller, who was in the slot of `a`. -/
structure Along (caller : IdentityId) (body : Body) (d₀ : Device) (l1 : List LXMFIdentity)
    (a : LXMFIdentity) (l2 : List LXMFIdentity) (done : List Group) (d : Device) : Prop where
  slots : ∃ a', d.gateway.slots = l1 ++ a' :: l2 ∧ isCalled caller a' = true ∧
    part a' = writeParts body.write (part a) done ∧
    fileOf (d.gateway.disk caller) =
      if done.any body.gives then some (a'.displayName, a'.settings)
      else fileOf (d₀.gateway.disk caller)
  other : ∀ id ≠ caller, d.gateway.disk id = d₀.gateway.disk id
  code : d.code =
    if .screen ∈ done ∧ body.screen = some true then { d₀.code with consumed := true } else d₀.code

lemma Along.start (hs : d₀.gateway.slots = l1 ++ a :: l2) (ha : isCalled caller a = true) :
    Along caller body d₀ l1 a l2 [] d₀ where
  slots := ⟨a, hs, ha, rfl, rfl⟩
  other := fun _ _ => rfl
  code := rfl

lemma write_of_not_gives (h : body.gives g = false) (v : Part g) : body.write g v = v := by
  cases g with
  | announceInterval =>
    have h : body.announceIntervalMs = none := by simpa [Body.gives] using h
    simp [Body.write, h]
  | persistOutboundAttachments =>
    have h : body.persistOutboundAttachments = none := by simpa [Body.gives] using h
    simp [Body.write, h]
  | stampCost =>
    have h : body.stampCost = none := by simpa [Body.gives] using h
    simp [Body.write, h]
  | enforceStamps =>
    have h : body.enforceStamps = none := by simpa [Body.gives] using h
    simp [Body.write, h]
  | screen =>
    have h : body.screen = none := by simpa [Body.gives] using h
    simp [Body.write, h]
  | telemetry =>
    have h : body.telemetry = none := by simpa [Body.gives] using h
    simp [Body.write, h]
  | displayName =>
    have h : body.displayName = none := by simpa [Body.gives] using h
    simp [Body.write, h]

/-- A group that is not there changes nothing. -/
lemma Along.skip (h : Along caller body d₀ l1 a l2 done d) (hg : body.gives g = false) :
    Along caller body d₀ l1 a l2 (done ++ [g]) d := by
  obtain ⟨a', hs, ha, hpart, hfile⟩ := h.slots
  refine ⟨⟨a', hs, ha, ?_, ?_⟩, h.other, ?_⟩
  · rw [writeParts_append, ← hpart]
    show _ = Function.update (part a') g (body.write g (part a' g))
    rw [write_of_not_gives hg, Function.update_eq_self]
  · rw [List.any_append, hfile]
    simp [hg]
  · rw [h.code]
    refine if_congr ?_ rfl rfl
    have hne : body.screen = some true → g ≠ .screen := by
      rintro he rfl
      simp [Body.gives, he] at hg
    constructor
    · exact fun ⟨hm, he⟩ => ⟨List.mem_append_left _ hm, he⟩
    · intro ⟨hm, he⟩
      refine ⟨(List.mem_append.mp hm).resolve_right fun hm => ?_, he⟩
      exact hne he (List.mem_singleton.mp hm).symm

/-- A call on the caller that saves it. -/
lemma Along.saved {c : Call} (h : Along caller body d₀ l1 a l2 done d)
    (h1 : ∀ b ∈ l1, isCalled caller b = false) (hs : d.gateway.slots = l1 ++ a' :: l2)
    (ha : isCalled caller a' = true) (hpart : part a' = writeParts body.write (part a) done)
    (hg : body.gives g = true)
    (hrun : c.run (a', d.gateway.disk caller) = (b, writeMeta b now (d.gateway.disk caller)))
    (hb : isCalled caller b = true)
    (hwrite : part b = Function.update (part a') g (body.write g (part a' g)))
    (hslots : d'.gateway.slots = (callOn (isCalled caller) c d.gateway).slots)
    (hdisk : d'.gateway.disk = (callOn (isCalled caller) c d.gateway).disk)
    (hcode : d'.code = if g = .screen ∧ body.screen = some true then
      { d₀.code with consumed := true } else d.code) :
    Along caller body d₀ l1 a l2 (done ++ [g]) d' := by
  obtain ⟨hcs, hcd⟩ := callOn_split (c := c) hs h1 ha
  rw [hrun] at hcs hcd
  refine ⟨⟨_, hslots.trans hcs, hb, ?_, ?_⟩, fun id hid => ?_, ?_⟩
  · rw [writeParts_append, ← hpart]
    exact hwrite
  · rw [hdisk, hcd, Function.update_self, List.any_append]
    simp [hg, fileOf, writeMeta]
  · rw [hdisk, hcd, Function.update_of_ne hid]
    exact h.other id hid
  · rw [hcode, h.code]
    by_cases he : body.screen = some true
    · by_cases hm : g = .screen
      · simp [he, hm]
      · simp [he, hm, Ne.symm hm]
    · simp [he]

/-- A setter writes the part of its group. -/
lemma Along.set {s : Setter} (h : Along caller body d₀ l1 a l2 done d)
    (h1 : ∀ b ∈ l1, isCalled caller b = false) (hg : body.gives g = true) (hn : g ≠ .screen)
    (hwrite : ∀ a', d.identityById caller = some a' →
      part (a'.set now s) = Function.update (part a') g (body.write g (part a' g))) :
    ∃ d', d.set caller s now = (d', none) ∧ Along caller body d₀ l1 a l2 (done ++ [g]) d' := by
  obtain ⟨a', hs, ha, hpart, -⟩ := h.slots
  have hf : d.identityById caller = some a' := identityById_split hs h1 ha
  unfold Device.set
  rw [hf]
  refine ⟨_, rfl, h.saved (c := .set s now) h1 hs ha hpart hg rfl ?_ (hwrite a' hf) rfl rfl ?_⟩
  · cases s with
    | announceInterval => exact ha
    | persistOutboundAttachments => exact ha
    | stampCost => exact ha
    | enforceStamps => exact ha
    | telemetryDefaults => exact ha
    | displayName => exact ha
  · rw [if_neg fun hc => hn hc.1]

/-- The parts after a setter. -/
lemma part_set {s : Setter} {v : Part g} (hv : part (a.set now s) g = v)
    (ho : ∀ g' ≠ g, part (a.set now s) g' = part a g') :
    part (a.set now s) = Function.update (part a) g v := by
  funext g'
  by_cases hg : g' = g
  · subst hg
    rw [Function.update_self]
    exact hv
  · rw [Function.update_of_ne hg]
    exact ho g' hg

/-- The screen is given to the caller, or taken back. -/
lemma Along.screen {on : Bool} (h : Along caller body d₀ l1 a l2 done d)
    (h1 : ∀ b ∈ l1, isCalled caller b = false) (hon : body.screen = some on)
    (hacc : Messenger.accepts caller on d.gateway = true) {code : Code}
    (hcode : code = if on then { d₀.code with consumed := true } else d.code) :
    ∃ d', Device.setScreenIdentity { d with code := code } caller on now = (d', none) ∧
      Along caller body d₀ l1 a l2 (done ++ [.screen]) d' := by
  obtain ⟨a', hs, ha, hpart, -⟩ := h.slots
  have hf : d.identityById caller = some a' := identityById_split hs h1 ha
  have hnone : (Device.identityById { d with code := code } caller).isNone = false := by
    show (d.identityById caller).isNone = false
    rw [hf]
    rfl
  unfold Device.setScreenIdentity
  rw [hnone, if_neg Bool.false_ne_true, if_pos hacc]
  have hgw : (d.messenger.setScreen caller on now).gateway =
      { callOn (isCalled caller) (.screen on now) d.gateway with
        selected := Function.update d.gateway.selected caller on } := by
    unfold Messenger.Device.setScreen
    rw [if_pos hacc, (Messenger.onScreenIdentityChanged_other).1]
    dsimp only
    rw [Messenger.setScreenIdentity_eq, if_pos hacc]
  refine ⟨_, rfl, h.saved (c := .screen on now) h1 hs ha hpart ?_ rfl ha ?_ ?_ ?_ ?_⟩
  · simp [Body.gives, hon]
  · funext g'
    cases g' with
    | screen => simp [part, Body.write, hon]
    | announceInterval => rfl
    | persistOutboundAttachments => rfl
    | stampCost => rfl
    | enforceStamps => rfl
    | telemetry => rfl
    | displayName => rfl
  · show (d.messenger.setScreen caller on now).gateway.slots = _
    rw [hgw]
  · show (d.messenger.setScreen caller on now).gateway.disk = _
    rw [hgw]
  · show code = _
    rw [hcode, hon]
    cases on with
    | true => simp
    | false => simp

/-! ### The first group that is refused -/

/-- What a refused group leaves: what was left before it, but for the code that it used up. -/
def Stopped (body : Body) (now : ℕ) (d₀ : Device) (I : List Group → Device → Prop)
    (done : List Group) (r : Group) (d' : Device) : Prop :=
  ∃ d, I done d ∧ d'.messenger = d.messenger ∧
    d'.code = if r = .screen ∧ body.screen = some true ∧ proves body now d₀ = true then
      { d₀.code with consumed := true } else d.code

/-- What the screen group looks at is as it was before the request. -/
lemma Along.before_screen (h : Along caller body d₀ l1 a l2 done d)
    (hs₀ : d₀.gateway.slots = l1 ++ a :: l2) (h1 : ∀ b ∈ l1, isCalled caller b = false)
    (ha : isCalled caller a = true) (hn : .screen ∉ done) :
    d.code = d₀.code ∧ ∀ on, Messenger.accepts caller on d.gateway =
      Messenger.accepts caller on d₀.gateway := by
  obtain ⟨a', hs, ha', hpart, -⟩ := h.slots
  obtain ⟨-, hact, hid⟩ := isCalled_iff.mp ha
  obtain ⟨-, hact', hid'⟩ := isCalled_iff.mp ha'
  have hscreen : a'.settings.screen = a.settings.screen := by
    have := congrFun hpart .screen
    rw [writeParts_of_notMem hn] at this
    exact this
  refine ⟨?_, fun on => accepts_congr ?_ ?_⟩
  · rw [h.code, if_neg fun hc => hn hc.1]
  · rw [hs, hs₀, find_split h1 ha, find_split h1 ha']
    rfl
  · exact screenIdentity_split hs₀ hs (hid'.trans hid.symm) (hact'.trans hact.symm) hscreen

lemma screen_apply {on : Bool} (hon : body.screen = some on) :
    applyScreen caller body now d =
      if on = true ∧ proves body now d = false then
        (d, some ⟨403, "identity_code_required",
          some ((d.code.explain body.identityCode now).2.getD "")⟩)
      else Device.setScreenIdentity { d with code :=
        if on then { d.code with consumed := true } else d.code } caller on now := by
  unfold applyScreen
  rw [hon]
  cases on with
  | false => simp
  | true =>
    dsimp only
    unfold proves
    obtain ⟨-, he⟩ | ⟨-, why, he⟩ := IdentityCode.explain_spec d.code body.identityCode now
    · rw [he]
      simp
    · rw [he]
      simp

/-- A group that is in order is applied. -/
lemma Along.go (h : Along caller body d₀ l1 a l2 done d)
    (hs₀ : d₀.gateway.slots = l1 ++ a :: l2) (h1 : ∀ b ∈ l1, isCalled caller b = false)
    (ha : isCalled caller a = true) (hn : g ∉ done) (hr : refuses caller body now d₀ g = false) :
    ∃ d', apply caller body now g d = (d', none) ∧
      Along caller body d₀ l1 a l2 (done ++ [g]) d' := by
  have hf₀ : d₀.identityById caller = some a := identityById_split hs₀ h1 ha
  cases hg : body.gives g with
  | false =>
    refine ⟨d, ?_, h.skip hg⟩
    cases g with
    | announceInterval => simp_all [Body.gives, apply, applyAnnounceInterval]
    | persistOutboundAttachments => simp_all [Body.gives, apply, applyPersistOutboundAttachments]
    | stampCost => simp_all [Body.gives, apply, applyStampCost]
    | enforceStamps => simp_all [Body.gives, apply, applyEnforceStamps]
    | screen => simp_all [Body.gives, apply, applyScreen]
    | telemetry => simp_all [Body.gives, apply, applyTelemetry]
    | displayName => simp_all [Body.gives, apply, applyDisplayName]
  | true =>
    have hr' := hr
    unfold refuses at hr'
    rw [hg, hf₀] at hr'
    cases g with
    | announceInterval =>
      obtain ⟨ms, hms⟩ := Option.isSome_iff_exists.mp hg
      have he : apply caller body now .announceInterval d =
          d.set caller (.announceInterval (clampInterval ms)) now := by
        simp [apply, applyAnnounceInterval, hms]
      rw [he]
      refine h.set h1 hg nofun fun a' _ => part_set ?_ ?_
      · simp [part, LXMFIdentity.set, Body.write, hms]
      · intro g' hg'
        cases g' with
        | announceInterval => exact absurd rfl hg'
        | _ => rfl
    | persistOutboundAttachments =>
      obtain ⟨on, hon⟩ := Option.isSome_iff_exists.mp hg
      have he : apply caller body now .persistOutboundAttachments d =
          d.set caller (.persistOutboundAttachments on) now := by
        simp [apply, applyPersistOutboundAttachments, hon]
      rw [he]
      refine h.set h1 hg nofun fun a' _ => part_set ?_ ?_
      · simp [part, LXMFIdentity.set, Body.write, hon]
      · intro g' hg'
        cases g' with
        | persistOutboundAttachments => exact absurd rfl hg'
        | _ => rfl
    | stampCost =>
      obtain ⟨cost, hcost⟩ := Option.isSome_iff_exists.mp hg
      have hrange : ¬ (cost < 0 ∨ 254 < cost) := by simpa [hcost] using hr'
      have he : apply caller body now .stampCost d =
          d.set caller (.stampCost cost.toNat) now := by
        simp only [apply, applyStampCost, hcost]
        exact if_neg hrange
      have hclamp : (if 1 ≤ cost.toNat ∧ cost.toNat ≤ 254 then cost.toNat else 0) = cost.toNat := by
        split
        next => rfl
        next => omega
      rw [he]
      refine h.set h1 hg nofun fun a' _ => part_set ?_ ?_
      · simp only [part, LXMFIdentity.set, Body.write, hcost, hclamp, Option.elim_some]
      · intro g' hg'
        cases g' with
        | stampCost => exact absurd rfl hg'
        | _ => rfl
    | enforceStamps =>
      obtain ⟨on, hon⟩ := Option.isSome_iff_exists.mp hg
      have he : apply caller body now .enforceStamps d = d.set caller (.enforceStamps on) now := by
        simp [apply, applyEnforceStamps, hon]
      rw [he]
      refine h.set h1 hg nofun fun a' _ => part_set ?_ ?_
      · simp [part, LXMFIdentity.set, Body.write, hon]
      · intro g' hg'
        cases g' with
        | enforceStamps => exact absurd rfl hg'
        | _ => rfl
    | screen =>
      obtain ⟨on, hon⟩ := Option.isSome_iff_exists.mp hg
      obtain ⟨hcode, hacc⟩ := h.before_screen hs₀ h1 ha hn
      have hr' : (on = true → proves body now d₀ = true) ∧
          Messenger.accepts caller on d₀.gateway = true := by simpa [hon] using hr'
      have hproves : proves body now d = proves body now d₀ := by
        unfold proves
        rw [hcode]
      have he : apply caller body now .screen d = Device.setScreenIdentity { d with code :=
          if on then { d.code with consumed := true } else d.code } caller on now := by
        show applyScreen caller body now d = _
        rw [screen_apply hon, if_neg]
        rintro ⟨hon', hno⟩
        rw [hproves, hr'.1 hon'] at hno
        cases hno
      rw [he]
      exact h.screen h1 hon ((hacc on).trans hr'.2) (by rw [hcode])
    | telemetry =>
      obtain ⟨t, ht⟩ := Option.isSome_iff_exists.mp hg
      obtain ⟨a', hs, ha', -, -⟩ := h.slots
      have hf : d.identityById caller = some a' := identityById_split hs h1 ha'
      show ∃ d', applyTelemetry caller body now d = (d', none) ∧ _
      unfold applyTelemetry
      simp only [ht, hf]
      refine h.set h1 hg nofun fun a'' hf' => part_set ?_ ?_
      · obtain rfl := Option.some.inj (hf.symm.trans hf')
        simp [part, LXMFIdentity.set, Body.write, ht]
      · intro g' hg'
        cases g' with
        | telemetry => exact absurd rfl hg'
        | _ => rfl
    | displayName =>
      obtain ⟨n, hname⟩ := Option.isSome_iff_exists.mp hg
      have htrim : trim n ≠ [] := by simpa [hname] using hr'
      have he : apply caller body now .displayName d =
          d.set caller (.displayName ((trim n).take 96)) now := by
        simp only [apply, applyDisplayName, hname]
        exact if_neg htrim
      rw [he]
      refine h.set h1 hg nofun fun a' _ => part_set ?_ ?_
      · simp [part, LXMFIdentity.set, Body.write, hname]
      · intro g' hg'
        cases g' with
        | displayName => exact absurd rfl hg'
        | _ => rfl

/-- A group that is out of order is refused. -/
lemma Along.stop (h : Along caller body d₀ l1 a l2 done d)
    (hs₀ : d₀.gateway.slots = l1 ++ a :: l2) (h1 : ∀ b ∈ l1, isCalled caller b = false)
    (ha : isCalled caller a = true) (hn : g ∉ done) (hr : refuses caller body now d₀ g = true) :
    ∃ d' e, apply caller body now g d = (d', some e) ∧
      Stopped body now d₀ (Along caller body d₀ l1 a l2) done g d' := by
  have hf₀ : d₀.identityById caller = some a := identityById_split hs₀ h1 ha
  have hsame : g ≠ .screen → Stopped body now d₀ (Along caller body d₀ l1 a l2) done g d :=
    fun hg => ⟨d, h, rfl, (if_neg fun hc => hg hc.1).symm⟩
  obtain ⟨hg, hr'⟩ := Bool.and_eq_true_iff.mp hr
  rw [hf₀] at hr'
  cases g with
  | announceInterval => simp at hr'
  | persistOutboundAttachments => simp at hr'
  | enforceStamps => simp at hr'
  | telemetry => simp at hr'
  | stampCost =>
    obtain ⟨cost, hcost⟩ := Option.isSome_iff_exists.mp hg
    have hrange : cost < 0 ∨ 254 < cost := by simpa [hcost] using hr'
    refine ⟨d, INVALID_STAMP_COST, ?_, hsame nofun⟩
    simp only [apply, applyStampCost, hcost]
    exact if_pos hrange
  | displayName =>
    obtain ⟨n, hname⟩ := Option.isSome_iff_exists.mp hg
    have htrim : trim n = [] := by simpa [hname] using hr'
    refine ⟨d, EMPTY_NAME, ?_, hsame nofun⟩
    simp only [apply, applyDisplayName, hname]
    exact if_pos htrim
  | screen =>
    obtain ⟨on, hon⟩ := Option.isSome_iff_exists.mp hg
    obtain ⟨hcode, hacc⟩ := h.before_screen hs₀ h1 ha hn
    have hproves : proves body now d = proves body now d₀ := by
      unfold proves
      rw [hcode]
    show ∃ d' e, applyScreen caller body now d = (d', some e) ∧ _
    rw [screen_apply hon, hproves]
    split
    next hc =>
      refine ⟨d, _, rfl, d, h, rfl, (if_neg fun hc' => ?_).symm⟩
      exact Bool.false_ne_true (hc.2.symm.trans hc'.2.2)
    next hc =>
      -- the code was good, or none was asked for, and another identity holds the screen
      have hother : Messenger.accepts caller on d.gateway = false := by
        rw [hacc on]
        have : on = true ∧ proves body now d₀ = false ∨
            Messenger.accepts caller on d₀.gateway = false := by simpa [hon] using hr'
        exact this.resolve_left hc
      obtain ⟨a', hs, ha', -, -⟩ := h.slots
      have hf : d.identityById caller = some a' := identityById_split hs h1 ha'
      unfold Device.setScreenIdentity
      rw [if_neg (by show ¬ (d.identityById caller).isNone = true; simp [hf]),
        if_neg (by show ¬ Messenger.accepts caller on d.gateway = true; simp [hother])]
      refine ⟨_, _, rfl, d, h, rfl, ?_⟩
      show (if on = true then { d.code with consumed := true } else d.code) = _
      rw [hcode, hon]
      refine if_congr ?_ rfl rfl
      constructor
      · intro hon'
        subst hon'
        exact ⟨rfl, rfl, by simpa using hc⟩
      · exact fun hc' => Option.some.inj hc'.2.1

/-- A caller that is not there: every group that is given is refused. -/
lemma unknown_go (hf : d.identityById caller = none) (hr : refuses caller body now d g = false) :
    apply caller body now g d = (d, none) := by
  have hg : body.gives g = false := by simpa [refuses, hf] using hr
  cases g with
  | announceInterval => simp_all [Body.gives, apply, applyAnnounceInterval]
  | persistOutboundAttachments => simp_all [Body.gives, apply, applyPersistOutboundAttachments]
  | stampCost => simp_all [Body.gives, apply, applyStampCost]
  | enforceStamps => simp_all [Body.gives, apply, applyEnforceStamps]
  | screen => simp_all [Body.gives, apply, applyScreen]
  | telemetry => simp_all [Body.gives, apply, applyTelemetry]
  | displayName => simp_all [Body.gives, apply, applyDisplayName]

lemma unknown_stop (hf : d.identityById caller = none) (hr : refuses caller body now d g = true) :
    ∃ d' e, apply caller body now g d = (d', some e) ∧
      Stopped body now d (fun _ d' => d' = d) done g d' := by
  have hsame : g ≠ .screen → Stopped body now d (fun _ d' => d' = d) done g d :=
    fun hg => ⟨d, rfl, rfl, (if_neg fun hc => hg hc.1).symm⟩
  have hset : ∀ s, d.set caller s now = (d, some UNKNOWN_IDENTITY) := by
    intro s
    simp [Device.set, hf]
  obtain ⟨hg, -⟩ := Bool.and_eq_true_iff.mp hr
  cases g with
  | announceInterval =>
    obtain ⟨ms, hms⟩ := Option.isSome_iff_exists.mp hg
    exact ⟨d, UNKNOWN_IDENTITY, by simp [apply, applyAnnounceInterval, hms, hset], hsame nofun⟩
  | persistOutboundAttachments =>
    obtain ⟨on, hon⟩ := Option.isSome_iff_exists.mp hg
    exact ⟨d, UNKNOWN_IDENTITY, by simp [apply, applyPersistOutboundAttachments, hon, hset],
      hsame nofun⟩
  | stampCost =>
    obtain ⟨cost, hcost⟩ := Option.isSome_iff_exists.mp hg
    simp only [apply, applyStampCost, hcost, hset]
    split
    next => exact ⟨d, _, rfl, hsame nofun⟩
    next => exact ⟨d, _, rfl, hsame nofun⟩
  | enforceStamps =>
    obtain ⟨on, hon⟩ := Option.isSome_iff_exists.mp hg
    exact ⟨d, UNKNOWN_IDENTITY, by simp [apply, applyEnforceStamps, hon, hset], hsame nofun⟩
  | telemetry =>
    obtain ⟨t, ht⟩ := Option.isSome_iff_exists.mp hg
    exact ⟨d, UNKNOWN_IDENTITY, by simp [apply, applyTelemetry, ht, hf], hsame nofun⟩
  | displayName =>
    obtain ⟨n, hname⟩ := Option.isSome_iff_exists.mp hg
    simp only [apply, applyDisplayName, hname, hset]
    split
    next => exact ⟨d, _, rfl, hsame nofun⟩
    next => exact ⟨d, _, rfl, hsame nofun⟩
  | screen =>
    obtain ⟨on, hon⟩ := Option.isSome_iff_exists.mp hg
    show ∃ d' e, applyScreen caller body now d = (d', some e) ∧ _
    rw [screen_apply hon]
    split
    next hc =>
      refine ⟨d, _, rfl, d, rfl, rfl, (if_neg fun hc' => ?_).symm⟩
      exact Bool.false_ne_true (hc.2.symm.trans hc'.2.2)
    next hc =>
      unfold Device.setScreenIdentity
      rw [if_pos (by show (d.identityById caller).isNone = true; simp [hf])]
      refine ⟨_, _, rfl, d, rfl, rfl, ?_⟩
      show (if on = true then { d.code with consumed := true } else d.code) = _
      rw [hon]
      refine if_congr ?_ rfl rfl
      constructor
      · intro hon'
        subst hon'
        exact ⟨rfl, rfl, by simpa using hc⟩
      · exact fun hc' => Option.some.inj hc'.2.1

/-! ### The request -/

lemma takeWhile_split {α : Type} {p : α → Bool} {x : α} {xs ys : List α}
    (h : ∀ y ∈ xs, p y = true) (hx : p x = false) : (xs ++ x :: ys).takeWhile p = xs := by
  rw [List.takeWhile_append_of_pos h, List.takeWhile_cons, hx]
  exact List.append_nil xs

/-- Where a request is split, the groups are those before the one it is split at. -/
lemma pre_eq (h : groups = pre ++ r :: post) : pre = groups.takeWhile (· ≠ r) := by
  have hn : (pre ++ r :: post).Nodup := h ▸ (by decide : groups.Nodup)
  rw [h, takeWhile_split]
  · intro y hy
    have hne : y ≠ r := by
      rintro rfl
      exact (List.nodup_append.mp hn).2.2 y hy y List.mem_cons_self rfl
    simpa using hne
  · simp

/-- What the groups before a refusal have changed. -/
lemma Along.unchanged_iff (h : Along caller body d₀ l1 a l2 pre d) (hn : pre.Nodup)
    (hs₀ : d₀.gateway.slots = l1 ++ a :: l2) (h1 : ∀ b ∈ l1, isCalled caller b = false)
    (ha : isCalled caller a = true) :
    Unchanged d₀.gateway d.gateway ↔
      ∀ g ∈ pre, body.gives g = true → Idle caller body d₀ g := by
  obtain ⟨a', hs, ha', hpart, hfile⟩ := h.slots
  have hid : a'.id = a.id := (isCalled_iff.mp ha').2.2.trans (isCalled_iff.mp ha).2.2.symm
  have hf₀ : d₀.identityById caller = some a := identityById_split hs₀ h1 ha
  have hram : d.gateway.slots.map (fun a => (a.id, part a)) =
      d₀.gateway.slots.map (fun a => (a.id, part a)) ↔ part a' = part a := by
    rw [hs, hs₀]
    simp [hid]
  have hparts : part a' = part a ↔ ∀ g ∈ pre, body.write g (part a g) = part a g := by
    rw [hpart]
    exact writeParts_eq_iff hn
  constructor
  · intro hu g hg hgives x hx
    obtain rfl := Option.some.inj (hf₀.symm.trans hx)
    have hpa := hram.mp hu.ram
    refine ⟨hparts.mp hpa g hg, ?_⟩
    rw [← hu.file caller, hfile, if_pos (List.any_eq_true.mpr ⟨g, hg, hgives⟩),
      (eq_of_part hpa).1, (eq_of_part hpa).2]
  · intro hidle
    have hpa : part a' = part a := by
      refine hparts.mpr fun g hg => ?_
      cases hgives : body.gives g with
      | false => exact write_of_not_gives hgives _
      | true => exact (hidle g hg hgives a hf₀).1
    refine ⟨hram.mpr hpa, fun id => ?_⟩
    by_cases he : id = caller
    · subst he
      rw [hfile]
      split
      next hany =>
        obtain ⟨g, hg, hgives⟩ := List.any_eq_true.mp hany
        rw [(hidle g hg hgives a hf₀).2, (eq_of_part hpa).1, (eq_of_part hpa).2]
      next => rfl
    · rw [h.other id he]

/-- A refusal comes before the screen group, at it, or after it. -/
lemma screen_cases (h : groups = pre ++ r :: post) :
    (r ∈ groups.takeWhile (· ≠ .screen) ∧ r ≠ .screen ∧ .screen ∉ pre) ∨
    (r = .screen ∧ .screen ∉ pre ∧ pre = groups.takeWhile (· ≠ .screen)) ∨
    (r ≠ .screen ∧ .screen ∈ pre ∧ ∀ g ∈ groups.takeWhile (· ≠ .screen), g ∈ pre) := by
  rw [pre_eq h]
  cases r with
  | announceInterval => decide
  | persistOutboundAttachments => decide
  | stampCost => decide
  | enforceStamps => decide
  | screen => decide
  | telemetry => decide
  | displayName => decide

/-- The code is used up when it was good and the request came as far as the screen. -/
lemma code_iff (hsplit : groups = pre ++ r :: post)
    (hpre : ∀ g ∈ pre, refuses caller body now d₀ g = false)
    (hr : refuses caller body now d₀ r = true)
    (hcode : d.code = if .screen ∈ pre ∧ body.screen = some true then
      { d₀.code with consumed := true } else d₀.code)
    (hd' : d'.code = if r = .screen ∧ body.screen = some true ∧ proves body now d₀ = true then
      { d₀.code with consumed := true } else d.code) :
    d'.code = d₀.code ↔ ¬ (body.screen = some true ∧ proves body now d₀ = true ∧
      ∀ g ∈ groups.takeWhile (· ≠ .screen), refuses caller body now d₀ g = false) := by
  have hused : proves body now d₀ = true →
    ({ d₀.code with consumed := true } : Code) ≠ d₀.code := by
    intro hp he
    have := (congrArg Code.consumed he).symm
    rw [consumed_of_proves hp] at this
    cases this
  obtain ⟨hm, hne, hn⟩ | ⟨rfl, hn, he⟩ | ⟨hne, hm, hsub⟩ := screen_cases hsplit
  · rw [if_neg fun hc => hne hc.1] at hd'
    rw [if_neg fun hc => hn hc.1] at hcode
    rw [hd', hcode]
    refine iff_of_true rfl fun hc => ?_
    exact Bool.false_ne_true ((hc.2.2 r hm).symm.trans hr)
  · rw [if_neg fun hc => hn hc.1] at hcode
    rw [hd', hcode]
    by_cases hc : body.screen = some true ∧ proves body now d₀ = true
    · rw [if_pos ⟨rfl, hc⟩]
      refine iff_of_false (hused hc.2) (not_not.mpr ⟨hc.1, hc.2, ?_⟩)
      rw [← he]
      exact hpre
    · rw [if_neg fun hc' => hc hc'.2]
      exact iff_of_true rfl fun hc' => hc ⟨hc'.1, hc'.2.1⟩
  · rw [if_neg fun hc => hne hc.1] at hd'
    rw [hd', hcode]
    by_cases hon : body.screen = some true
    · have hproves : proves body now d₀ = true := by
        have hno := hpre .screen hm
        cases hp : proves body now d₀ with
        | true => rfl
        | false => simp [refuses, Body.gives, hon, hp] at hno
      rw [if_pos ⟨hm, hon⟩]
      exact iff_of_false (hused hproves)
        (not_not.mpr ⟨hon, hproves, fun g hg => hpre g (hsub g hg)⟩)
    · rw [if_neg fun hc => hon hc.2]
      exact iff_of_true rfl fun hc => hon hc.1

/-- The groups before the first refused one. -/
lemma before_eq (hsplit : groups = pre ++ r :: post)
    (hpre : ∀ g ∈ pre, refuses caller body now d g = false)
    (hr : refuses caller body now d r = true) : before caller body now d = pre := by
  unfold before
  rw [hsplit]
  apply takeWhile_split
  · intro g hg
    rw [hpre g hg]
    rfl
  · rw [hr]
    rfl

/-- What a request comes to: all of it is applied, or the first group that is out of order stops
it. -/
lemma request_cases (caller : IdentityId) (body : Body) (now : ℕ) (d : Device) :
    ((∀ g ∈ groups, refuses caller body now d g = false) ∧
      ∃ d', runStages (groups.map (apply caller body now)) d = (d', none)) ∨
    ∃ pre r post d' e, groups = pre ++ r :: post ∧
      (∀ g ∈ pre, refuses caller body now d g = false) ∧ refuses caller body now d r = true ∧
      runStages (groups.map (apply caller body now)) d = (d', some e) ∧
      (Unchanged d.gateway d'.gateway ↔
        ∀ g ∈ pre, body.gives g = true → Idle caller body d g) ∧
      (d'.code = d.code ↔ ¬ (body.screen = some true ∧ proves body now d = true ∧
        ∀ g ∈ groups.takeWhile (· ≠ .screen), refuses caller body now d g = false)) := by
  have hnodup : ∀ {pre : List Group} {r post}, pre ++ r :: post = groups → r ∉ pre ∧ pre.Nodup := by
    intro pre r post h
    have hn : (pre ++ r :: post).Nodup := h ▸ (by decide : groups.Nodup)
    obtain ⟨hp, -, hd⟩ := List.nodup_append.mp hn
    exact ⟨fun hm => hd r hm r List.mem_cons_self rfl, hp⟩
  cases hf : d.identityById caller with
  | none =>
    obtain ⟨d', hrun, -, hall⟩ | ⟨pre, r, post, d', e, hs, hpre, hr, hrun, d₁, hd, hm, hc⟩ :=
      runStages_all (apply caller body now) (refuses caller body now d) groups
        (I := fun _ d' => d' = d) (Q := Stopped body now d fun _ d' => d' = d)
        (fun _ hi hr => ⟨d, by rw [hi]; exact unknown_go hf hr, rfl⟩)
        (fun _ hi hr => by rw [hi]; exact unknown_stop hf hr) rfl
    · exact .inl ⟨hall, d', hrun⟩
    · subst hd
      refine .inr ⟨pre, r, post, d', e, hs, hpre, hr, hrun, ?_, ?_⟩
      · have hg : d'.gateway = d₁.gateway := congrArg Messenger.Device.gateway hm
        rw [hg]
        refine iff_of_true ⟨rfl, fun _ => rfl⟩ fun g _ _ a ha => ?_
        rw [hf] at ha
        cases ha
      · have hon : ¬ (.screen ∈ pre ∧ body.screen = some true) := by
          rintro ⟨hm, hon⟩
          have := hpre .screen hm
          simp [refuses, Body.gives, hon, hf] at this
        exact code_iff hs hpre hr (if_neg hon).symm hc
  | some a =>
    obtain ⟨ha, l1, l2, hs₀, h1⟩ := List.find?_eq_some_iff_append.mp hf
    have h1 : ∀ b ∈ l1, isCalled caller b = false := fun b hb => by simpa using h1 b hb
    obtain ⟨d', hrun, -, hall⟩ | ⟨pre, r, post, d', e, hs, hpre, hr, hrun, d₁, hd, hm, hc⟩ :=
      runStages_all (apply caller body now) (refuses caller body now d) groups
        (I := Along caller body d l1 a l2) (Q := Stopped body now d (Along caller body d l1 a l2))
        (fun hi h hr => h.go hs₀ h1 ha (hnodup hi).1 hr)
        (fun hi h hr => h.stop hs₀ h1 ha (hnodup hi).1 hr) (.start hs₀ ha)
    · exact .inl ⟨hall, d', hrun⟩
    · refine .inr ⟨pre, r, post, d', e, hs, hpre, hr, hrun, ?_, code_iff hs hpre hr hd.code hc⟩
      have hg : d'.gateway = d₁.gateway := congrArg Messenger.Device.gateway hm
      rw [hg]
      exact hd.unchanged_iff (hnodup hs.symm).2 hs₀ h1 ha

/-- **All or nothing.** A refused request has changed no setting and used up no code exactly when
no group before the refused one gives anything new, and no code is accepted on the way. -/
theorem allOrNothing_iff (auth : Except Refusal IdentityId) (body : Body) (now : ℕ) (d : Device) :
    AllOrNothing auth body now d ↔ ∀ caller, auth = .ok caller → Sound caller body now d := by
  cases auth with
  | error e =>
    refine iff_of_true (fun _ => ⟨⟨rfl, fun _ => rfl⟩, rfl⟩) nofun
  | ok caller =>
    have hall : (∀ c, Except.ok caller = (.ok c : Except Refusal IdentityId) → Sound c body now d) ↔
        Sound caller body now d :=
      ⟨fun h => h caller rfl, fun h c hc => Except.ok.inj hc ▸ h⟩
    rw [hall]
    unfold AllOrNothing
    obtain ⟨hok, d', hrun⟩ | ⟨pre, r, post, d', e, hs, hpre, hr, hrun, hu, hc⟩ :=
      request_cases caller body now d
    · have hh : handleIdentitySettings (.ok caller) body now d =
        (d', .ok (settings caller d')) := by
        unfold handleIdentitySettings
        dsimp only
        rw [hrun]
      rw [hh]
      refine iff_of_true (fun ⟨e, he⟩ => by cases he) fun ⟨g, hg, hr⟩ => ?_
      exact absurd ((hok g hg).symm.trans hr) Bool.false_ne_true
    · have hmem : r ∈ groups := hs ▸ List.mem_append_right _ List.mem_cons_self
      have hh : handleIdentitySettings (.ok caller) body now d = (d', .error e) := by
        unfold handleIdentitySettings
        dsimp only
        rw [hrun]
      rw [hh]
      unfold Sound
      rw [before_eq hs hpre hr]
      constructor
      · intro h _
        obtain ⟨hu', hc'⟩ := h ⟨e, rfl⟩
        exact ⟨hu.mp hu', hc.mp hc'⟩
      · intro h _
        obtain ⟨hidle, hno⟩ := h ⟨r, hmem, hr⟩
        exact ⟨hu.mpr hidle, hc.mpr hno⟩

/-- A device with two identities, and no code pending. -/
def sample : Device := { messenger := Messenger.first.foldl (·.step ·) (Messenger.powerOn {}),
                         code := {} }

/-- An announce interval, and an empty name. -/
def emptyName : Body := { announceIntervalMs := some 60000, displayName := some [0x20] }

/-- The empty name is refused, and the announce interval is set. -/
theorem emptyName_not_allOrNothing :
    ¬ ∀ auth body now d, AllOrNothing auth body now d := by
  intro h
  obtain ⟨hu, -⟩ := h (.ok [1]) emptyName 0 sample ⟨EMPTY_NAME, by decide +kernel⟩
  have hi := congrArg (List.map fun x => x.2 .announceInterval) hu.ram
  rw [List.map_map, List.map_map] at hi
  exact absurd hi (by decide +kernel)

end URSupreme.IdentitySettings
