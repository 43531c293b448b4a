import URSupreme.LXMF.InboxSpool
import URSupreme.LXMF.MessengerRuns

/-!
# The confirm page

The pages of `LXMF/Messenger.h` in the rotation of `Display/ScreenFramework.h`: the two buttons, the
page of an incoming message, the timers, and what a redraw shows, over the presets and the slots of
the device. The main loop and the web task take turns inside `send_selected` and
`set_screen_identity`: the first has copied its preset when it looks for the identity, and the
second has set the flag when it tells the messenger.

Beside the device it is kept what the confirm page showed last, whether that is still what a commit
would send, and what was sent. How a recipient is read from hex is a parameter.
-/

namespace URSupreme.ConfirmPage
open Lib Gateway
open Messenger (Device Preset PresetBody)

/-- `Page`. -/
inductive Page where
  | hidden
  | noIdentity
  | noPresets
  | list
  | confirm
  | result
  | message
  deriving DecidableEq, Repr

/-- The screens, in the order of `set_screens`. -/
inductive Screen where
  | status
  | transport
  | radio
  | messenger
  | gps
  | heading
  | environment
  deriving DecidableEq, Repr

/-- The screen after this one; the last is followed by the first. -/
def Screen.next : Screen → Screen
  | .status => .transport
  | .transport => .radio
  | .radio => .messenger
  | .messenger => .gps
  | .gps => .heading
  | .heading => .environment
  | .environment => .status

/-- What the confirm page shows: a preset, and whose screen it is. -/
abbrev Shown := Option IdentityId × Preset

/-- `send_selected` has copied its preset: from which page, and what the confirm page showed
last. -/
structure Commit where
  preset : Preset
  page : Page
  shown : Option Shown
  deriving DecidableEq, Repr

/-- What a call of `LXMFGateway::send` is given, with the telemetry that is asked for. -/
structure Message where
  sender : IdentityId
  dest : Bytes
  content : Bytes
  telLocation : Bool
  telEnvironment : Bool
  telBattery : Bool
  telCompass : Bool
  telShareS : ℕ
  telRateS : ℕ
  deriving DecidableEq, Repr

/-- A message that was sent, and the commit it was sent by. -/
structure Sent where
  message : Message
  commit : Commit
  deriving DecidableEq, Repr

/-- The device with its screen: `active`, `sending` while the main loop is in `send_selected`, and
`hook` while the web task is in `set_screen_identity`. -/
structure State where
  device : Device
  active : Option Screen := some .status
  page : Page := .hidden
  sending : Option Commit := none
  hook : Option (Bool × IdentityId) := none
  /-- what the confirm page showed when it was drawn last -/
  shown : Option Shown := none
  /-- what it is drawn from has not changed since -/
  asShown : Bool := false
  sent : List Sent := []

/-- The preset under the cursor. -/
def State.selected (s : State) : Option Preset := s.device.usable[s.device.cursor]?

/-- The identity that `screen_identity` finds. -/
def State.holder (s : State) : Option IdentityId := (screenIdentity s.device.gateway).map (·.id)

/-! ### The rotation -/

/-- `plugin_enter`. -/
def State.pluginEnter (s : State) : State :=
  if s.page ≠ .hidden then s
  else
    let s := { s with device := { s.device with cursor := 0 } }
    if s.holder = none then { s with page := .noIdentity }
    else if s.device.usable = [] then { s with page := .noPresets }
    else { s with page := .list }

/-- `plugin_exit`. -/
def State.pluginExit (s : State) : State :=
  { s with page := .hidden, device := { s.device with cursor := 0 } }

/-- `enter`; no screen is the legacy status screen. -/
def State.enter (s : State) (screen : Option Screen) : State :=
  if s.active = screen then s
  else
    let s := if s.active = some .messenger then s.pluginExit else s
    let s := { s with active := screen }
    if screen = some .messenger then s.pluginEnter else s

/-- `exit_active`. -/
def State.exitActive (s : State) : State := s.enter none

/-- `exit_mode`. -/
def State.exitMode (s : State) : State := if s.page ≠ .hidden then s.exitActive else s

/-- How long the BOOT button was held. -/
inductive Press where
  | tap
  | hold
  | global
  deriving DecidableEq, Repr

/-- `plugin_back`, where it pops a level. -/
def State.pluginBack (s : State) : Option State :=
  if s.page = .confirm then some { s with page := .list } else none

/-- `handle_boot`. -/
def State.handleBoot (s : State) : Press → State
  | .global => s.exitActive
  | .tap => s.enter (some (s.active.elim .status Screen.next))
  | .hold =>
    match s.active with
    | none => s
    | some .messenger => s.pluginBack.getD (s.enter (some .status))
    | some _ => s.enter (some .status)

/-- `plugin_next`. -/
def State.pluginNext (s : State) : State :=
  match s.page with
  | .list =>
    if s.device.usable = [] then { s with page := .noPresets }
    else { s with device := s.device.next }
  | .confirm => s
  | _ => s.exitActive

/-- `send_selected`, until it has copied the preset. -/
def State.sendSelected (s : State) : State :=
  match s.selected with
  | none => s.exitActive
  | some p => { s with sending := some ⟨p, s.page, s.shown⟩ }

/-- `plugin_select`. -/
def State.pluginSelect (s : State) : State :=
  match s.page with
  | .list => { s with page := .confirm }
  | .confirm => s.sendSelected
  | _ => s.exitActive

/-- `handle_power`; the other screens have nothing to do with the messenger. -/
def State.handlePower (s : State) (held : Bool) : State :=
  if s.active = some .messenger then
    if held then s.pluginSelect else s.pluginNext
  else s

/-- `show_incoming`. -/
def State.showIncoming (s : State) : State :=
  if s.page ≠ .hidden ∧ s.page ≠ .message then s
  else { s with page := .message }.enter (some .messenger)

/-- `tick` when the time of a page is over. -/
def State.tick (s : State) : State :=
  if s.page = .result ∨ s.page = .message then s.exitMode else s

/-- What the confirm page draws; a cursor that is out of range counts as the first. -/
def State.drawn (s : State) : Option Preset :=
  s.device.usable[if s.device.cursor < s.device.usable.length then s.device.cursor else 0]?

/-- `render_body`. -/
def State.renderBody (s : State) : State :=
  if s.active = some .messenger ∧ s.page = .confirm then
    match s.drawn with
    | none => { s with page := .noPresets }
    | some p => { s with shown := some (s.holder, p), asShown := true }
  else s

/-! ### Sending -/

variable (assignHex : Bytes → Bytes)

/-- The message of a preset. -/
def messageOf (sender : IdentityId) (p : Preset) : Message where
  sender := sender
  dest := assignHex p.destHex
  content := p.content
  telLocation := p.telLocation
  telEnvironment := p.telEnvironment
  telBattery := p.telBattery
  telCompass := p.telCompass
  telShareS := p.telShareS
  telRateS := p.telRateS

/-- The rest of `send_selected`. -/
def State.finish (s : State) : State :=
  match s.sending with
  | none => s
  | some c =>
    match s.holder with
    | none => { s with page := .noIdentity, sending := none }
    | some a =>
      if (assignHex c.preset.destHex).length ≠ 16 then
        { s with page := .result, sending := none }
      else
        { s with
          page := .result
          sending := none
          sent := s.sent ++ [⟨messageOf assignHex a c.preset, c⟩] }

/-! ### The web task -/

/-- `set_screen_identity` until the messenger is told. -/
def State.setScreenIdentity (s : State) (id : IdentityId) (enable : Bool) (now : ℕ) : State :=
  let g := s.device.gateway
  { s with
    device := { s.device with gateway := Gateway.setScreenIdentity id enable now g }
    hook := if Messenger.accepts id enable g then some (enable, id) else none }

/-- `on_screen_identity_changed`, with the page that is left. -/
def State.onScreenIdentityChanged (s : State) : State :=
  match s.hook with
  | none => s
  | some (enable, id) =>
    let s := { s with
      device := Messenger.onScreenIdentityChanged enable id s.device
      hook := none }
    if enable then s else s.exitMode

/-- An event at the gateway, or a reboot. -/
def State.gateway (s : State) : Gateway.Event → State
  | .boot entries loads now =>
    { s with
      device := s.device.boot entries loads now
      active := some .status
      page := .hidden
      sending := none
      hook := none }
  | .setScreen id enable now =>
    if s.hook.isSome then s else s.setScreenIdentity id enable now
  | e => if s.hook.isSome then s else { s with device := s.device.step (.gateway e) }

/-- `handle_messenger_presets_post`. -/
def State.postPresets (s : State) (caller : IdentityId) (body : Option (List PresetBody)) : State :=
  if s.hook.isSome then s else { s with device := (s.device.postPresets caller body).1 }

/-! ### Runs -/

inductive Event where
  | bootButton (press : Press)
  | powerKey (held : Bool)
  | redraw
  | showIncoming
  | tick
  | finish
  | gateway (e : Gateway.Event)
  | screenIdentityChanged
  | postPresets (caller : IdentityId) (body : Option (List PresetBody))

/-- The main loop does something else than send. -/
def State.mainLoop (s : State) (f : State → State) : State := if s.sending.isSome then s else f s

/-- What an event does to the device. -/
def State.act (s : State) : Event → State
  | .bootButton press => s.mainLoop (·.handleBoot press)
  | .powerKey held => s.mainLoop (·.handlePower held)
  | .redraw => s.mainLoop (·.renderBody)
  | .showIncoming => s.mainLoop (·.showIncoming)
  | .tick => s.mainLoop (·.tick)
  | .finish => s.finish assignHex
  | .gateway e => s.gateway e
  | .screenIdentityChanged => s.onScreenIdentityChanged
  | .postPresets caller body => s.postPresets caller body

/-- An event has left what a commit sends as it was: the holder, and the preset under the cursor as
long as it is not copied. -/
def State.same (s s' : State) : Bool :=
  s'.holder = s.holder &&
  match s.sending, s'.sending with
  | none, _ => s'.selected = s.selected
  | some _, some _ => true
  | some c, none => s'.selected = some c.preset

/-- One event. -/
def State.step (s : State) (e : Event) : State :=
  let s' := s.act assignHex e
  { s' with asShown := s'.asShown && s.same s' }

/-- A message is sent only while nothing has changed of what the confirm page showed. -/
def State.Meets (s : State) : Event → Prop
  | .finish => ∀ c ∈ s.sending, s.holder.isSome = true →
    (assignHex c.preset.destHex).length = 16 → s.asShown = true
  | _ => True

instance instDecidableConfirmMeets {s : State} : ∀ {e}, Decidable (s.Meets assignHex e)
  | .finish => inferInstanceAs (Decidable (∀ c ∈ s.sending, _ → _ → _))
  | .bootButton _ | .powerKey _ | .redraw | .showIncoming | .tick | .gateway _ |
    .screenIdentityChanged | .postPresets .. => .isTrue trivial

/-- A message was sent by a commit on the confirm page, and it is that of the preset that the page
showed last before. -/
def Sent.Confirmed (x : Sent) : Prop :=
  x.commit.page = .confirm ∧
    ∃ a p, x.commit.shown = some (some a, p) ∧ x.message = messageOf assignHex a p

/-- A factory-new device. -/
def powerOn (r : Retention) : State := { device := Messenger.powerOn r }

/-! ### What an event does to a commit -/

variable {assignHex} {s s' : State} {e : Event}

/-- Nothing is drawn, copied or sent. -/
structure Quiet (s s' : State) : Prop where
  sending : s'.sending = s.sending
  shown : s'.shown = s.shown
  asShown : s'.asShown = s.asShown
  sent : s'.sent = s.sent

lemma Quiet.refl : Quiet s s := ⟨rfl, rfl, rfl, rfl⟩

lemma pluginEnter_quiet : Quiet s s.pluginEnter := by
  unfold State.pluginEnter
  dsimp only
  split_ifs
  all_goals exact ⟨rfl, rfl, rfl, rfl⟩

lemma enter_quiet {screen : Option Screen} : Quiet s (s.enter screen) := by
  have hexit : Quiet s (if s.active = some .messenger then s.pluginExit else s) := by
    split
    next => exact ⟨rfl, rfl, rfl, rfl⟩
    next => exact .refl
  unfold State.enter
  split
  next => exact .refl
  next =>
    generalize (if s.active = some .messenger then s.pluginExit else s) = t at hexit
    dsimp only
    split
    next =>
      obtain ⟨h1, h2, h3, h4⟩ := pluginEnter_quiet (s := { t with active := screen })
      exact ⟨h1.trans hexit.sending, h2.trans hexit.shown, h3.trans hexit.asShown,
        h4.trans hexit.sent⟩
    next => exact ⟨hexit.sending, hexit.shown, hexit.asShown, hexit.sent⟩

lemma exitMode_quiet : Quiet s s.exitMode := by
  unfold State.exitMode
  split
  next => exact enter_quiet
  next => exact .refl

lemma handleBoot_quiet {press : Press} : Quiet s (s.handleBoot press) := by
  cases press with
  | global => exact enter_quiet
  | tap => exact enter_quiet
  | hold =>
    unfold State.handleBoot
    dsimp only
    split
    next => exact .refl
    next =>
      unfold State.pluginBack
      split
      next => exact ⟨rfl, rfl, rfl, rfl⟩
      next => exact enter_quiet
    next => exact enter_quiet

lemma pluginNext_quiet : Quiet s s.pluginNext := by
  unfold State.pluginNext
  split
  next =>
    split
    next => exact ⟨rfl, rfl, rfl, rfl⟩
    next => exact ⟨rfl, rfl, rfl, rfl⟩
  next => exact .refl
  next => exact enter_quiet

lemma showIncoming_quiet : Quiet s s.showIncoming := by
  unfold State.showIncoming
  split
  next => exact .refl
  next =>
    obtain ⟨h1, h2, h3, h4⟩ : Quiet { s with page := .message }
        (State.enter { s with page := .message } (some .messenger)) := enter_quiet
    exact ⟨h1, h2, h3, h4⟩

lemma onScreenIdentityChanged_quiet : Quiet s s.onScreenIdentityChanged := by
  unfold State.onScreenIdentityChanged
  split
  next => exact .refl
  next enable id hk =>
    dsimp only
    split
    next => exact ⟨rfl, rfl, rfl, rfl⟩
    next =>
      obtain ⟨h1, h2, h3, h4⟩ := exitMode_quiet (s := { s with
        device := Messenger.onScreenIdentityChanged enable id s.device, hook := none })
      exact ⟨h1, h2, h3, h4⟩

/-- What an event can do to a commit. -/
inductive Acts (assignHex : Bytes → Bytes) (s : State) (e : Event) (s' : State) : Prop where
  | quiet : Quiet s s' → Acts assignHex s e s'
  | drawn {p} : s.sending = none → s.drawn = some p →
    s' = { s with shown := some (s.holder, p), asShown := true } → Acts assignHex s e s'
  | copied {p} : s.sending = none → s.page = .confirm → s.selected = some p →
    s' = { s with sending := some ⟨p, s.page, s.shown⟩ } → Acts assignHex s e s'
  | dropped : s'.sending = none → s'.shown = s.shown → s'.asShown = s.asShown →
    s'.sent = s.sent → Acts assignHex s e s'
  | sent {c a} : e = .finish → s.sending = some c → s.holder = some a →
    (assignHex c.preset.destHex).length = 16 → s'.sending = none → s'.shown = s.shown →
    s'.asShown = s.asShown → s'.sent = s.sent ++ [⟨messageOf assignHex a c.preset, c⟩] →
    Acts assignHex s e s'

lemma mainLoop_acts {f : State → State} (hf : s.sending = none → Acts assignHex s e (f s)) :
    Acts assignHex s e (s.mainLoop f) := by
  unfold State.mainLoop
  split
  next => exact .quiet .refl
  next h => exact hf (by simpa using h)

lemma handlePower_acts {held : Bool} (h : s.sending = none) :
    Acts assignHex s e (s.handlePower held) := by
  unfold State.handlePower
  split_ifs
  · unfold State.pluginSelect
    split
    next => exact .quiet ⟨rfl, rfl, rfl, rfl⟩
    next hp =>
      unfold State.sendSelected
      split
      next => exact .quiet enter_quiet
      next p hs => exact .copied h hp hs rfl
    next => exact .quiet enter_quiet
  · exact .quiet pluginNext_quiet
  · exact .quiet .refl

lemma renderBody_acts (h : s.sending = none) : Acts assignHex s e s.renderBody := by
  unfold State.renderBody
  split
  next =>
    split
    next => exact .quiet ⟨rfl, rfl, rfl, rfl⟩
    next p hd => exact .drawn h hd rfl
  next => exact .quiet .refl

lemma finish_acts : Acts assignHex s .finish (s.finish assignHex) := by
  unfold State.finish
  split
  next => exact .quiet .refl
  next c hc =>
    split
    next => exact .dropped rfl rfl rfl rfl
    next a ha =>
      split
      next => exact .dropped rfl rfl rfl rfl
      next hl => exact .sent rfl hc ha (not_not.mp hl) rfl rfl rfl rfl

lemma gateway_acts {g : Gateway.Event} : Acts assignHex s e (s.gateway g) := by
  unfold State.gateway
  split
  next => exact .dropped rfl rfl rfl rfl
  next =>
    split
    next => exact .quiet .refl
    next => exact .quiet ⟨rfl, rfl, rfl, rfl⟩
  next =>
    split
    next => exact .quiet .refl
    next => exact .quiet ⟨rfl, rfl, rfl, rfl⟩

lemma act_acts : Acts assignHex s e (s.act assignHex e) := by
  cases e with
  | bootButton press =>
    apply mainLoop_acts
    exact fun _ => .quiet handleBoot_quiet
  | powerKey held =>
    apply mainLoop_acts
    exact handlePower_acts
  | redraw => exact mainLoop_acts renderBody_acts
  | showIncoming =>
    apply mainLoop_acts
    exact fun _ => .quiet showIncoming_quiet
  | tick =>
    apply mainLoop_acts
    intro h
    unfold State.tick
    split
    next => exact .quiet exitMode_quiet
    next => exact .quiet .refl
  | finish => exact finish_acts
  | gateway e => exact gateway_acts
  | screenIdentityChanged => exact .quiet onScreenIdentityChanged_quiet
  | postPresets caller body =>
    show Acts assignHex s (.postPresets caller body) (s.postPresets caller body)
    unfold State.postPresets
    split
    next => exact .quiet .refl
    next => exact .quiet ⟨rfl, rfl, rfl, rfl⟩

/-! ### What was shown is what is sent -/

/-- What was drawn is what a commit copies, what was copied is what was drawn, and what was sent is
what was copied, as long as nothing has changed. -/
structure Inv (assignHex : Bytes → Bytes) (s : State) : Prop where
  drawn : s.asShown = true → s.sending = none → ∀ p, s.selected = some p →
    s.shown = some (s.holder, p)
  copied : ∀ c, s.sending = some c → c.page = .confirm ∧ c.shown = s.shown ∧
    (s.asShown = true → s.shown = some (s.holder, c.preset))
  sent : ∀ x ∈ s.sent, x.Confirmed assignHex

variable {r : Retention}

lemma Inv.powerOn : Inv assignHex (powerOn r) where
  drawn h := absurd h Bool.false_ne_true
  copied c h := by
    have hnone : (ConfirmPage.powerOn r).sending = none := rfl
    rw [hnone] at h
    cases h
  sent _ hx := absurd hx List.not_mem_nil

/-- What `same` leaves while nothing is copied, while the preset is copied, and after it. -/
lemma same_holder (h : s.same s' = true) : s'.holder = s.holder := by
  have := (Bool.and_eq_true_iff.mp h).1
  simpa using this

lemma same_selected (hs : s.sending = none) (h : s.same s' = true) : s'.selected = s.selected := by
  have h := (Bool.and_eq_true_iff.mp h).2
  rw [hs] at h
  simpa using h

lemma same_preset {c : Commit} (hs : s.sending = some c) (hs' : s'.sending = none)
    (h : s.same s' = true) : s'.selected = some c.preset := by
  have h := (Bool.and_eq_true_iff.mp h).2
  rw [hs, hs'] at h
  simpa using h

/-- No preset is copied any more: the page still shows what the next commit sends if it showed that
of the last one and nothing has changed. -/
lemma Inv.settled (h : Inv assignHex s) (hs' : s'.sending = none) (hshown : s'.shown = s.shown)
    (has : s'.asShown = s.asShown) (hsent : ∀ x ∈ s'.sent, x.Confirmed assignHex) :
    Inv assignHex { s' with asShown := s'.asShown && s.same s' } where
  drawn := by
    intro ha _ p hp
    obtain ⟨ha, hsame⟩ := Bool.and_eq_true_iff.mp ha
    rw [has] at ha
    show s'.shown = some (s'.holder, p)
    rw [hshown, same_holder hsame]
    have hp : s'.selected = some p := hp
    cases hc : s.sending with
    | none =>
      rw [same_selected hc hsame] at hp
      exact h.drawn ha hc p hp
    | some c =>
      rw [same_preset hc hs' hsame] at hp
      rw [← Option.some.inj hp]
      exact (h.copied c hc).2.2 ha
  copied := fun c hc => absurd (hs'.symm.trans hc) nofun
  sent := hsent

lemma Inv.step (hok : s.Meets assignHex e) (h : Inv assignHex s) :
    Inv assignHex (s.step assignHex e) := by
  unfold State.step
  dsimp only
  have hacts : Acts assignHex s e (s.act assignHex e) := act_acts
  generalize s.act assignHex e = s' at hacts
  cases hacts with
  | quiet hq =>
    obtain ⟨hsending, hshown, has, hsent⟩ := hq
    cases hc : s.sending with
    | none =>
      apply h.settled (hsending.trans hc) hshown has
      rw [hsent]
      exact h.sent
    | some c =>
      refine ⟨fun _ hn => ?_, fun c' hc' => ?_, ?_⟩
      · exact absurd ((hsending.trans hc).symm.trans hn) nofun
      · obtain rfl : c = c' := Option.some.inj ((hsending.trans hc).symm.trans hc')
        obtain ⟨hp, hs, hd⟩ := h.copied c hc
        refine ⟨hp, hs.trans hshown.symm, fun ha => ?_⟩
        obtain ⟨ha, hsame⟩ := Bool.and_eq_true_iff.mp ha
        show s'.shown = some (s'.holder, c.preset)
        rw [hshown, same_holder hsame]
        exact hd (has ▸ ha)
      · show ∀ x ∈ s'.sent, _
        rw [hsent]
        exact h.sent
  | drawn hn hd he =>
    subst he
    refine ⟨fun _ _ p hp => ?_, fun c hc => absurd (hn.symm.trans hc) nofun, h.sent⟩
    -- the cursor is in range where a preset is under it
    have hp : s.selected = some p := hp
    have hlt : s.device.cursor < s.device.usable.length := (List.getElem?_eq_some_iff.mp hp).1
    unfold State.drawn at hd
    rw [if_pos hlt] at hd
    rw [Option.some.inj (hp.symm.trans hd)]
    rfl
  | @copied p hn hp hs he =>
    subst he
    refine ⟨fun _ hn' => absurd hn' nofun, fun c hc => ?_, h.sent⟩
    obtain rfl := Option.some.inj hc
    refine ⟨hp, rfl, fun ha => ?_⟩
    exact h.drawn (Bool.and_eq_true_iff.mp ha).1 hn p hs
  | dropped hn hshown has hsent =>
    apply h.settled hn hshown has
    rw [hsent]
    exact h.sent
  | @sent c a he hc ha hl hn hshown has hsent =>
    subst he
    apply h.settled hn hshown has
    rw [hsent]
    intro x hx
    cases List.mem_append.mp hx with
    | inl hx => exact h.sent x hx
    | inr hx =>
      obtain rfl := List.mem_singleton.mp hx
      obtain ⟨hp, hs, hd⟩ := h.copied c hc
      refine ⟨hp, a, c.preset, ?_, rfl⟩
      have hd := hd (hok c hc (by rw [ha]; rfl) hl)
      rw [ha] at hd
      exact hs.trans hd

/-- **The device sends what was confirmed**: in a run in which a message is sent only while nothing
has changed of what the confirm page showed, every message is that of the preset that the page
showed last before it was committed there. -/
theorem sent_confirmed
    (h : Reach (State.step assignHex) (State.Meets assignHex) (powerOn r) s) :
    ∀ x ∈ s.sent, x.Confirmed assignHex :=
  Inv.sent (h.invariant .powerOn fun hok h => h.step hok)

/-- A preset with a text for a recipient. -/
def body (content : Bytes) : PresetBody := ⟨[0x61], List.replicate 32 0x30, content, none⟩

/-- An identity takes the screen and sets two presets, and the second is on the confirm page. -/
def confirming : List Event :=
  [.gateway (.boot [] (fun _ => false) 0), .gateway (.create ⟨[1], [1]⟩ [] [] [] true 0),
    .gateway (.setScreen [1] true 0), .screenIdentityChanged,
    .postPresets [1] (some [body [0x62], body [0x63]]), .bootButton .tap, .bootButton .tap,
    .bootButton .tap, .powerKey false, .powerKey true, .redraw]

/-- It is confirmed, and new presets come in while it is sent. -/
def committed : List Event :=
  confirming ++ [.powerKey true, .postPresets [1] (some [body [0x64]]), .finish]

theorem sent_confirmed_committed :
    (∀ x ∈ (committed.foldl (State.step Inbox.assignHex) (powerOn {})).sent,
      x.Confirmed Inbox.assignHex) ∧
    (committed.foldl (State.step Inbox.assignHex) (powerOn {})).sent.length = 1 :=
  ⟨sent_confirmed (Reach.init.run (by decide +kernel)), by decide +kernel⟩

/-- New presets come in before it is confirmed. -/
def replaced : List Event :=
  confirming ++ [.postPresets [1] (some [body [0x62], body [0x64]]), .powerKey true, .finish]

/-- What is sent then is not what the page showed. -/
theorem replaced_not_confirmed : ¬ ∀ r s,
    Reach (State.step Inbox.assignHex) (fun _ _ => True) (powerOn r) s →
      ∀ x ∈ s.sent, x.Confirmed Inbox.assignHex := by
  intro h
  have hr : Reach (State.step Inbox.assignHex) (fun _ _ => True) (powerOn {})
      (replaced.foldl (State.step Inbox.assignHex) (powerOn {})) :=
    Reach.init.run (allowed_of_forall fun _ _ => trivial)
  have hsent : ∀ x ∈ (replaced.foldl (State.step Inbox.assignHex) (powerOn {})).sent,
      ∃ y ∈ x.commit.shown, x.message.content = y.2.content := by
    intro x hx
    obtain ⟨-, a, p, hshown, hm⟩ := h _ _ hr x hx
    exact ⟨_, hshown, congrArg Message.content hm⟩
  exact absurd hsent (by decide +kernel)

end URSupreme.ConfirmPage
