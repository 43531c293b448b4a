import URSupreme.Clock.Manager
import URSupreme.Lib.Bytes
import URSupreme.Lib.Clock
import URSupreme.Lib.Run

/-!
# The identity code

The code of `Web/WebUI.h` that a press of the button generates: the operator reads it off the device
and types it into the browser as a proof of presence. It is good for one operation in the next 60
seconds, until it is dismissed or replaced; its expiry is a value of `millis()`.

Beside the code the codes that were generated are numbered, and the numbers of those that authorised
an operation are kept.
-/

namespace URSupreme.IdentityCode
open Lib
open Clock (elapsed)

def IDENTITY_CODE_TTL_MS : Nat := 60 * 1000

/-- `IdentityCode`. -/
structure Code where
  hex6 : Bytes := []
  expiresMs : Nat := 0
  consumed : Bool := false

/-- A digit of `toHex`. -/
def hexDigit (n : Nat) : UInt8 := UInt8.ofNat (if n < 10 then 0x30 + n else 0x61 + (n - 10))

/-- `Bytes::toHex`. -/
def toHex (bytes : Bytes) : Bytes :=
  bytes.flatMap fun b => [hexDigit (b.toNat / 16), hexDigit (b.toNat % 16)]

/-- The random bytes of a code. -/
abbrev Random := { b : Bytes // b.length = 16 }

/-- The code of random bytes. -/
def Random.hex6 (r : Random) : Bytes := (toHex r.1).take 6

/-- `on_button_request_identity_code`. -/
def Code.request (r : Random) (millis : Nat) : Code where
  hex6 := r.hex6
  expiresMs := (millis + IDENTITY_CODE_TTL_MS) % 2 ^ 32
  consumed := false

/-- `dismiss_identity_code`. -/
def Code.dismiss (c : Code) : Code := { c with hex6 := [], consumed := false }

/-- `identity_code_for_display`. -/
def Code.forDisplay (c : Code) (millis : Nat) : Bytes :=
  if c.hex6 = [] ∨ c.consumed = true then []
  else if millis > c.expiresMs then []
  else c.hex6

/-- `identity_code_remaining_ms`. -/
def Code.remainingMs (c : Code) (millis : Nat) : Nat :=
  if c.hex6 = [] ∨ c.consumed = true then 0
  else if millis > c.expiresMs then 0
  else c.expiresMs - millis

/-- The differences of the bytes of a proof and a code, gathered in one byte. -/
def diff (proof hex6 : Bytes) : UInt8 := (List.zipWith (· ^^^ ·) proof hex6).foldl (· ||| ·) 0

/-- `consume_identity_code`. -/
def Code.consume (c : Code) (proof : Bytes) (millis : Nat) : Code × Bool :=
  if proof = [] ∨ c.hex6 = [] ∨ c.consumed = true then (c, false)
  else if millis > c.expiresMs then (c, false)
  else if proof.length ≠ c.hex6.length then (c, false)
  else if diff proof c.hex6 ≠ 0 then (c, false)
  else ({ c with consumed := true }, true)

def NO_CODE : String := "No identity code is pending on this device. Press the device's BOOT button: long-press (~1s), release, then short-press within 2s. Read the 6 hex chars from the OLED or serial console."

def CODE_USED : String := "The pending identity code was already used. Press the BOOT button again to generate a fresh one."

def CODE_EXPIRED : String := "The identity code expired (60s lifetime). Press the BOOT button again to generate a fresh one."

def CODE_REQUIRED : String := "Identity code is required for this operation. Type the 6 hex chars currently displayed on the device."

def WRONG_LENGTH : String := "Identity code is the wrong length. It should be 6 hex characters."

def NO_MATCH : String := "Identity code didn't match. Check you've read it from the correct device's OLED."

/-- `explain_identity_code_failure`; `none` is success. -/
def Code.explain (c : Code) (proof : Bytes) (now : Nat) : Code × Option String :=
  if c.hex6 = [] then (c, some NO_CODE)
  else if c.consumed = true then (c, some CODE_USED)
  else if now > c.expiresMs then (c, some CODE_EXPIRED)
  else if proof = [] then (c, some CODE_REQUIRED)
  else if proof.length ≠ c.hex6.length then (c, some WRONG_LENGTH)
  else if diff proof c.hex6 ≠ 0 then (c, some NO_MATCH)
  else ({ c with consumed := true }, none)

/-- The sweep of the code in `loop`. -/
def Code.sweep (c : Code) (now : Nat) : Code :=
  if c.expiresMs ≠ 0 ∧ now > c.expiresMs then {} else c

/-- A code that was generated, with its number and its time. -/
structure Issue where
  serial : Nat
  code : Bytes
  time : Nat

/-- The device: its code, the real time, the code generated last and whether it was dismissed, and
the numbers of the codes that authorised an operation. -/
structure Device where
  code : Code := {}
  lastSweep : Nat := 0
  now : Nat := 0
  issued : Nat := 0
  newest : Option Issue := none
  dismissed : Bool := false
  grants : List Nat := []

/-- `millis()`. -/
def Device.millis (s : Device) : Nat := reading (2 ^ 32) s.now

inductive Event where
  | wait (ms : Nat)
  | press (r : Random)
  | dismiss
  | consume (proof : Bytes)
  | explain (proof : Bytes)
  | loop (acquired : Bool)

/-- The proof that an event checks. -/
def Event.proof : Event → Option Bytes
  | .consume proof | .explain proof => some proof
  | _ => none

/-- A check of a proof, with the code after it; the code generated last is the one it is about. -/
def Device.check (s : Device) (code : Code) (accepted : Bool) : Device :=
  { s with
    code, grants := if accepted then (s.newest.map (·.serial)).toList ++ s.grants else s.grants }

def Device.step (s : Device) : Event → Device
  | .wait ms => { s with now := s.now + ms }
  | .press r =>
    { s with
      code := .request r s.millis
      issued := s.issued + 1
      newest := some { serial := s.issued, code := r.hex6, time := s.now }
      dismissed := false }
  | .dismiss => { s with code := s.code.dismiss, dismissed := true }
  | .consume proof => s.check (s.code.consume proof s.millis).1 (s.code.consume proof s.millis).2
  | .explain proof =>
    s.check (s.code.explain proof s.millis).1 (s.code.explain proof s.millis).2.isNone
  | .loop acquired =>
    if elapsed s.millis s.lastSweep > 60000 then
      { s with lastSweep := s.millis, code := if acquired then s.code.sweep s.millis else s.code }
    else s

/-- The event authorises an operation. -/
def Device.accepts (s : Device) : Event → Bool
  | .consume proof => (s.code.consume proof s.millis).2
  | .explain proof => (s.code.explain proof s.millis).2.isNone
  | _ => false

/-- The event sweeps. -/
def Device.Sweeps (s : Device) (e : Event) : Prop :=
  e = .loop true ∧ elapsed s.millis s.lastSweep > 60000

/-- The code that is good: the one generated last, neither dismissed nor used. -/
def Device.pending (s : Device) : Option Issue :=
  if s.dismissed then none else s.newest.filter fun c => c.serial ∉ s.grants

/-- The 60 seconds of a code are not over. -/
def Device.InTime (s : Device) (c : Issue) : Prop := s.now ≤ c.time + IDENTITY_CODE_TTL_MS

/-- What an event keeps: a proof is accepted exactly when it is the code that is good, within its 60
seconds, and no code authorises two operations. -/
structure Keeps (s : Device) (e : Event) : Prop where
  accepts : ∀ proof ∈ e.proof,
    (s.accepts e = true ↔ ∃ c ∈ s.pending, s.InTime c ∧ proof = c.code)
  once : (s.step e).grants.Nodup

/-- The condition. While the 60 seconds of a good code run, a check of it and a sweep find that
`millis()` does not start over before they end; a check after them finds that it reads more than at
their end, or that the code was swept. -/
structure Sound (s : Device) (e : Event) : Prop where
  young : ∀ c ∈ s.pending, s.InTime c → e.proof = some c.code ∨ s.Sweeps e →
    wraps (2 ^ 32) s.now (c.time + IDENTITY_CODE_TTL_MS) = 0
  old : ∀ c ∈ s.pending, ¬ s.InTime c → e.proof = some c.code →
    reading (2 ^ 32) (c.time + IDENTITY_CODE_TTL_MS) < s.millis ∨ s.code.hex6 = []

section
variable {s : Device} {e : Event} {c : Code} {i : Issue} {proof hex6 : Bytes} {n t u : Nat}

/-- The bytes differ nowhere only when they are the same. -/
lemma diff_eq_zero (hl : proof.length = hex6.length) : diff proof hex6 = 0 ↔ proof = hex6 := by
  have hor : ∀ (l : Bytes) (a : UInt8), l.foldl (· ||| ·) a = 0 ↔ a = 0 ∧ ∀ b ∈ l, b = 0 := by
    intro l
    induction l with
    | nil => simp
    | cons b l ih =>
      intro a
      rw [List.foldl_cons, ih, UInt8.or_eq_zero_iff]
      simp [and_assoc]
  unfold diff
  rw [hor]
  induction proof generalizing hex6 with
  | nil =>
    obtain rfl := List.length_eq_zero_iff.mp hl.symm
    simp
  | cons a proof ih =>
    cases hex6 with
    | nil => cases hl
    | cons b hex6 =>
      have ih := (ih (Nat.succ.inj hl)).trans Iff.rfl
      rw [eq_self, true_and] at ih
      rw [List.zipWith_cons_cons, List.forall_mem_cons, UInt8.xor_eq_zero_iff, eq_self, true_and,
        ih, List.cons.injEq]

/-- When a proof is right for a code. -/
def Code.Fits (c : Code) (proof : Bytes) (n : Nat) : Prop :=
  proof = c.hex6 ∧ c.hex6 ≠ [] ∧ c.consumed = false ∧ n ≤ c.expiresMs

variable (c proof n) in
/-- A check that accepts a proof uses the code up, and any other leaves it as it is. -/
lemma consume_spec :
    (c.Fits proof n ∧ c.consume proof n = ({ c with consumed := true }, true)) ∨
      (¬ c.Fits proof n ∧ c.consume proof n = (c, false)) := by
  unfold Code.consume Code.Fits
  split
  next h =>
    refine .inr ⟨fun ⟨hp, hc, hu, _⟩ => ?_, rfl⟩
    rcases h with h | h | h
    · exact hc (hp.symm.trans h)
    · exact hc h
    · exact Bool.false_ne_true (hu.symm.trans h)
  next h =>
    obtain ⟨-, h⟩ := not_or.mp h
    obtain ⟨hc, hu⟩ := not_or.mp h
    split
    next hn => exact .inr ⟨fun hf => absurd hf.2.2.2 (not_le.mpr hn), rfl⟩
    next hn =>
      split
      next hl => exact .inr ⟨fun hf => hl (congrArg List.length hf.1), rfl⟩
      next hl =>
        have hd := diff_eq_zero (not_not.mp hl)
        split
        next hne => exact .inr ⟨fun hf => hne (hd.mpr hf.1), rfl⟩
        next he =>
          exact .inl ⟨⟨hd.mp (not_not.mp he), hc, Bool.not_eq_true _ ▸ hu, not_lt.mp hn⟩, rfl⟩

variable (c proof n) in
/-- The check that explains itself accepts the same proofs. -/
lemma explain_spec :
    (c.Fits proof n ∧ c.explain proof n = ({ c with consumed := true }, none)) ∨
      (¬ c.Fits proof n ∧ ∃ why, c.explain proof n = (c, some why)) := by
  unfold Code.explain Code.Fits
  split
  next h => exact .inr ⟨fun hf => hf.2.1 h, _, rfl⟩
  next hc =>
    split
    next h => exact .inr ⟨fun hf => Bool.false_ne_true (hf.2.2.1.symm.trans h), _, rfl⟩
    next hu =>
      split
      next hn => exact .inr ⟨fun hf => absurd hf.2.2.2 (not_le.mpr hn), _, rfl⟩
      next hn =>
        split
        next h => exact .inr ⟨fun hf => hc (hf.1.symm.trans h), _, rfl⟩
        next =>
          split
          next hl => exact .inr ⟨fun hf => hl (congrArg List.length hf.1), _, rfl⟩
          next hl =>
            have hd := diff_eq_zero (not_not.mp hl)
            split
            next hne => exact .inr ⟨fun hf => hne (hd.mpr hf.1), _, rfl⟩
            next he =>
              exact .inl ⟨⟨hd.mp (not_not.mp he), hc, Bool.not_eq_true _ ▸ hu, not_lt.mp hn⟩, rfl⟩

/-- The display shows a code only while it is accepted. -/
lemma fits_forDisplay (h : c.forDisplay n ≠ []) : c.Fits (c.forDisplay n) n := by
  unfold Code.forDisplay at h ⊢
  split at h
  next => exact absurd rfl h
  next hc =>
    split at h
    next => exact absurd rfl h
    next hn =>
      obtain ⟨hc', hu⟩ := not_or.mp hc
      rw [if_neg hc, if_neg hn]
      exact ⟨rfl, hc', Bool.not_eq_true _ ▸ hu, not_lt.mp hn⟩

/-- A check of a proof. -/
lemma step_of_proof (h : e.proof = some proof) :
    (s.code.Fits proof s.millis ∧ s.accepts e = true ∧
      s.step e = s.check { s.code with consumed := true } true) ∨
    (¬ s.code.Fits proof s.millis ∧ s.accepts e = false ∧ s.step e = s) := by
  cases e with
  | consume p =>
    obtain rfl := Option.some.inj h
    unfold Device.accepts Device.step
    dsimp only
    obtain ⟨hf, he⟩ | ⟨hf, he⟩ := consume_spec s.code p s.millis
    · rw [he]
      exact .inl ⟨hf, rfl, rfl⟩
    · rw [he]
      exact .inr ⟨hf, rfl, rfl⟩
  | explain p =>
    obtain rfl := Option.some.inj h
    unfold Device.accepts Device.step
    dsimp only
    obtain ⟨hf, he⟩ | ⟨hf, why, he⟩ := explain_spec s.code p s.millis
    · rw [he]
      exact .inl ⟨hf, rfl, rfl⟩
    · rw [he]
      exact .inr ⟨hf, rfl, rfl⟩
  | wait ms => cases h
  | press r => cases h
  | dismiss => cases h
  | loop acquired => cases h

/-- What the device has of a good code: its expiry, or nothing once it was swept. -/
def Device.Has (s : Device) (c : Issue) : Prop :=
  (s.code.hex6 = c.code ∧
      s.code.expiresMs = reading (2 ^ 32) (c.time + IDENTITY_CODE_TTL_MS)) ∨
    (s.code.hex6 = [] ∧ ¬ s.InTime c)

/-- How the device comes from what was generated. -/
structure Holds (s : Device) : Prop where
  newest : ∀ c ∈ s.newest, c.serial < s.issued
  serials : ∀ g ∈ s.grants, g < s.issued
  nodup : s.grants.Nodup
  pending : ∀ c ∈ s.pending,
    c.time ≤ s.now ∧ c.code ≠ [] ∧ s.code.consumed = false ∧ s.Has c
  idle : s.pending = none → s.code.hex6 = [] ∨ s.code.consumed = true

lemma holds_init : Holds {} := ⟨nofun, nofun, List.nodup_nil, nofun, fun _ => .inl rfl⟩

lemma hex6_ne_nil {r : Random} : r.hex6 ≠ [] := by
  obtain ⟨b, hb⟩ := r
  cases b with
  | nil => cases hb
  | cons b bs =>
    intro h
    have := congrArg List.length h
    unfold Random.hex6 toHex at this
    rw [List.flatMap_cons, List.length_take, List.length_append] at this
    have h2 : [hexDigit (b.toNat / 16), hexDigit (b.toNat % 16)].length = 2 := rfl
    rw [h2, List.length_nil] at this
    omega

lemma reading_le (h : t ≤ u) (hw : wraps (2 ^ 32) t u = 0) :
    reading (2 ^ 32) t ≤ reading (2 ^ 32) u := by
  have := reading_add_wraps (n := 2 ^ 32) h
  rw [hw] at this
  omega

/-- When a proof is right, in a state that holds. -/
lemma Holds.fits_iff (h : Holds s) (ho : Sound s e) (hp : e.proof = some proof) :
    s.code.Fits proof s.millis ↔ ∃ c ∈ s.pending, s.InTime c ∧ proof = c.code := by
  constructor
  · rintro ⟨rfl, hne, hu, hn⟩
    cases hc : s.pending with
    | none =>
      rcases h.idle hc with hx | hx
      · exact absurd hx hne
      · exact absurd (hu.symm.trans hx) Bool.false_ne_true
    | some c =>
      obtain ⟨-, -, -, hhas⟩ := h.pending c hc
      obtain ⟨hx, hexp⟩ | ⟨hx, -⟩ := hhas
      · refine ⟨c, rfl, by_contra fun hlate => ?_, hx⟩
        rw [hx] at hp
        rcases ho.old c hc hlate hp with hlt | hnil
        · exact absurd (hexp ▸ hn) (not_le.mpr hlt)
        · exact hne hnil
      · exact absurd hx hne
  · rintro ⟨c, hc, hin, rfl⟩
    obtain ⟨-, hne, hu, hhas⟩ := h.pending c hc
    obtain ⟨hx, hexp⟩ | ⟨-, hlate⟩ := hhas
    · refine ⟨hx.symm, hx ▸ hne, hu, ?_⟩
      rw [hexp]
      exact reading_le hin (ho.young c hc hin (.inl hp))
    · exact absurd hin hlate

lemma pending_some :
    s.pending = some i ↔ s.dismissed = false ∧ s.newest = some i ∧ i.serial ∉ s.grants := by
  unfold Device.pending
  cases hd : s.dismissed with
  | true => exact ⟨nofun, fun h => absurd h.1 (Bool.false_ne_true ∘ Eq.symm)⟩
  | false =>
    rw [if_neg Bool.false_ne_true, Option.filter_eq_some_iff, decide_eq_true_eq, eq_self, true_and]

/-- A good code is used up. -/
lemma Holds.grant (h : Holds s) (hc : s.pending = some i) :
    Holds (s.check { s.code with consumed := true } true) := by
  obtain ⟨-, hn, hi⟩ := pending_some.mp hc
  have hgrants : (s.check { s.code with consumed := true } true).grants = i.serial :: s.grants := by
    unfold Device.check
    rw [hn]
    rfl
  have hnone : (s.check { s.code with consumed := true } true).pending = none := by
    cases hp : (s.check { s.code with consumed := true } true).pending with
    | none => rfl
    | some j =>
      obtain ⟨-, hj, hnot⟩ := pending_some.mp hp
      obtain rfl := Option.some.inj (hn.symm.trans hj)
      rw [hgrants] at hnot
      exact absurd List.mem_cons_self hnot
  refine ⟨h.newest, ?_, ?_, ?_, fun _ => .inr rfl⟩
  · rw [hgrants]
    exact List.forall_mem_cons.mpr ⟨h.newest i hn, h.serials⟩
  · rw [hgrants]
    exact List.nodup_cons.mpr ⟨hi, h.nodup⟩
  · rw [hnone]
    nofun

/-- A sweep clears a good code only after its 60 seconds. -/
lemma Holds.sweep (h : Holds s) (ho : Sound s e) (hs : s.Sweeps e) :
    Holds { s with lastSweep := s.millis, code := s.code.sweep s.millis } := by
  unfold Code.sweep
  split
  next hexpired =>
    refine ⟨h.newest, h.serials, h.nodup, fun c hc => ?_, fun _ => .inl rfl⟩
    have hc : s.pending = some c := hc
    obtain ⟨hle, hne, -, hhas⟩ := h.pending c hc
    refine ⟨hle, hne, rfl, .inr ⟨rfl, fun hin => ?_⟩⟩
    have hin : s.InTime c := hin
    obtain ⟨-, hexp⟩ | ⟨-, hlate⟩ := hhas
    · have := reading_le hin (ho.young c hc hin (.inr hs))
      exact absurd hexpired.2 (not_lt.mpr (hexp ▸ this))
    · exact hlate hin
  next => exact ⟨h.newest, h.serials, h.nodup, h.pending, h.idle⟩

lemma Holds.step (h : Holds s) (ho : Sound s e) : Holds (s.step e) := by
  have hcheck : ∀ proof, e.proof = some proof → Holds (s.step e) := by
    intro proof hp
    obtain ⟨hf, -, he⟩ | ⟨-, -, he⟩ := step_of_proof (s := s) hp
    · obtain ⟨c, hc, -⟩ := (h.fits_iff ho hp).mp hf
      rw [he]
      exact h.grant hc
    · rw [he]
      exact h
  cases e with
  | wait ms =>
    refine ⟨h.newest, h.serials, h.nodup, fun c hc => ?_, h.idle⟩
    obtain ⟨hle, hne, hu, hhas⟩ := h.pending c hc
    refine ⟨hle.trans (Nat.le_add_right _ _), hne, hu, hhas.imp_right fun ⟨hx, hlate⟩ => ⟨hx, ?_⟩⟩
    exact fun hin => hlate ((Nat.le_add_right _ _).trans hin)
  | press r =>
    have hnew : (s.step (.press r)).pending =
        some { serial := s.issued, code := r.hex6, time := s.now } :=
      pending_some.mpr ⟨rfl, rfl, fun hg => absurd (h.serials _ hg) (lt_irrefl _)⟩
    refine ⟨fun c hc => ?_, fun g hg => (h.serials g hg).trans (Nat.lt_succ_self _), h.nodup,
      fun c hc => ?_, fun hn => ?_⟩
    · obtain rfl := Option.some.inj hc
      exact Nat.lt_succ_self _
    · obtain rfl := Option.some.inj (hnew.symm.trans hc)
      refine ⟨le_rfl, hex6_ne_nil, rfl, .inl ⟨rfl, ?_⟩⟩
      exact Nat.mod_add_mod _ _ _
    · rw [hnew] at hn
      cases hn
  | dismiss =>
    refine ⟨h.newest, h.serials, h.nodup, fun c hc => ?_, fun _ => .inl rfl⟩
    cases (pending_some.mp hc).1
  | consume proof => exact hcheck proof rfl
  | explain proof => exact hcheck proof rfl
  | loop acquired =>
    unfold Device.step
    dsimp only
    split
    next hdue =>
      cases acquired with
      | true => exact h.sweep ho ⟨rfl, hdue⟩
      | false => exact ⟨h.newest, h.serials, h.nodup, h.pending, h.idle⟩
    next => exact h

lemma Holds.keeps (h : Holds s) (ho : Sound s e) : Keeps s e := by
  refine ⟨fun proof hp => ?_, (h.step ho).nodup⟩
  rw [← h.fits_iff ho hp]
  obtain ⟨hf, ha, -⟩ | ⟨hf, ha, -⟩ := step_of_proof (s := s) hp
  · exact iff_of_true ha hf
  · exact iff_of_false (fun h => Bool.false_ne_true (ha.symm.trans h)) hf

end

/-- In a run whose events are sound, a code authorises one operation, within its 60 seconds and
until it is dismissed or replaced, and the right code is accepted in that time. -/
theorem admits_of_sound {events : List Event} (h : Allowed Device.step Sound {} events) :
    Allowed Device.step Keeps {} events :=
  h.imp (fun hs ho => hs.step ho) (fun hs ho => hs.keeps ho) holds_init

/-- Sixteen zero bytes. -/
def zeros : Random := ⟨List.replicate 16 0, rfl⟩

/-- A code that is used half a minute after the start, and tried again. -/
def used : List Event := [.press zeros, .wait 30000, .explain zeros.hex6, .consume zeros.hex6]

theorem admits_of_sound_used : Allowed Device.step Keeps {} used ∧
    (used.foldl Device.step {}).grants = [0] := by
  refine ⟨admits_of_sound ⟨?_, ?_, ?_, ?_, trivial⟩, by decide⟩
  · exact ⟨nofun, nofun⟩
  · exact ⟨fun _ _ _ h => h.elim nofun fun h => (nomatch h.1), fun _ _ _ h => nomatch h⟩
  · refine ⟨fun c hc _ _ => ?_, fun c hc hn _ => ?_⟩
    · obtain rfl := Option.some.inj hc
      decide
    · obtain rfl := Option.some.inj hc
      exact absurd (show (30000 : Nat) ≤ 0 + 60 * 1000 by decide) hn
  · exact ⟨nofun, nofun⟩

/-- A code that is generated half a minute before `millis()` starts over is refused at once. -/
theorem not_keeps_wrap : ¬ ∀ events : List Event, Allowed Device.step Keeps {} events := by
  intro h
  obtain ⟨-, -, hk, -⟩ := h [.wait (2 ^ 32 - 30000), .press zeros, .explain zeros.hex6]
  have ha := (hk.accepts zeros.hex6 rfl).mpr ⟨_, rfl, show 2 ^ 32 - 30000 ≤ _ by decide, rfl⟩
  exact absurd ha (by decide)

end URSupreme.IdentityCode
