import Mathlib
import URSupreme.Lib.Bytes
import URSupreme.Lib.Run
import URSupreme.Lib.Slots

/-!
# Login tokens

`Web/AuthTokens.h`: `load`, `save`, `issue`, `validate`, `revoke` and `sweep_expired`. Ages are read
off `millis()`, which starts over every 2 ^ 32 ms and at every boot, while the numbers in the file
stay.

Beside the store `total` is the time that the device was powered on, over all boots, and `used`
keeps for each token that was issued, and neither revoked nor evicted, when it was last used.
-/

namespace URSupreme.AuthTokens
open Lib

def TOKEN_HEX_LEN : Nat := 32
def DEFAULT_TTL_MS : Nat := 30 * 24 * 60 * 60 * 1000
def MAX_TOKENS : Nat := 256
def IDENTITY_ID_MAX : Nat := 64

structure Token where
  hex : Bytes
  identityId : Bytes
  createdMs : Nat
  lastSeenMs : Nat
  deriving DecidableEq, Repr

/-- The token is inactive for more than 30 days at this value of `millis()`. -/
def Token.Expired (t : Token) (now : Nat) : Prop :=
  (now + 2 ^ 32 - t.lastSeenMs) % 2 ^ 32 > DEFAULT_TTL_MS ∧ now > t.lastSeenMs

instance {t : Token} {now : Nat} : Decidable (t.Expired now) := inferInstanceAs (Decidable (_ ∧ _))

/-- What `load` takes of the file; `readInt` is the number that `obj[key] | 0` gives for one that
was written. -/
def load (readInt : Nat → Nat) (file : List Token) : List Token :=
  (file.map fun t =>
    { t with createdMs := readInt t.createdMs, lastSeenMs := readInt t.lastSeenMs }).filter fun t =>
      t.hex.length = TOKEN_HEX_LEN ∧ t.identityId ≠ []

/-- The loop of `issue` over the tokens after the first one, for the one to evict. -/
def oldest (t : Token) : List Token → Token
  | [] => t
  | u :: l => oldest (if u.lastSeenMs < t.lastSeenMs then u else t) l

/-- `store.erase(oldest)`. -/
def evictOldest : List Token → List Token
  | [] => []
  | t :: l => (t :: l).erase (oldest t l)

/-- The tokens are evicted while there are too many, at most so many times. -/
def evict : Nat → List Token → List Token
  | 0, l => l
  | n + 1, l => if MAX_TOKENS ≤ l.length then evict n (evictOldest l) else l

/-- The random bytes of a token, in hex. -/
structure Hex where
  bytes : Bytes
  size : bytes.length = TOKEN_HEX_LEN

/-- The store and its file, the milliseconds since the boot, and what the firmware does not know. -/
structure Store where
  tokens : List Token := []
  file : List Token := []
  now : Nat := 0
  total : Nat := 0
  used : Bytes → Option Nat := fun _ => none

/-- `millis()`. -/
def Store.millis (s : Store) : Nat := s.now % 2 ^ 32

/-- `save`, after a change of the tokens. -/
def Store.save (s : Store) (tokens : List Token) : Store := { s with tokens, file := tokens }

/-- The token that `issue` makes. -/
def Store.newToken (s : Store) (identityId : Bytes) (hex : Hex) : Token where
  hex := hex.bytes
  identityId := identityId.take IDENTITY_ID_MAX
  createdMs := s.millis
  lastSeenMs := s.millis

/-- `issue`, with the random bytes. -/
def Store.issue (s : Store) (identityId : Bytes) (hex : Hex) : Store :=
  if identityId = [] then s
  else s.save (evict s.tokens.length s.tokens ++ [s.newToken identityId hex])

/-- `revoke`. -/
def Store.revoke (s : Store) (hex : Bytes) : Store :=
  if (s.tokens.find? (·.hex = hex)).isSome then s.save (s.tokens.eraseP (·.hex = hex)) else s

/-- `validate`, with the identity. -/
def Store.validate (s : Store) (hex : Bytes) : Store × Bytes :=
  if hex.length ≠ TOKEN_HEX_LEN then (s, [])
  else
    match s.tokens.find? (·.hex = hex) with
    | none => (s, [])
    | some t =>
      if t.Expired s.millis then (s.revoke t.hex, [])
      else
        let see := fun t : Token => { t with lastSeenMs := s.millis }
        ({ s with tokens := modifyFirst (·.hex = hex) see s.tokens }, t.identityId)

/-- `sweep_expired`. -/
def Store.sweepExpired (s : Store) : Store :=
  let tokens := s.tokens.filter fun t => ¬ t.Expired s.millis
  if tokens.length < s.tokens.length then s.save tokens else s

inductive Event where
  | wait (ms : Nat)
  | issue (identityId : Bytes) (hex : Hex)
  | validate (hex : Bytes)
  | revoke (hex : Bytes)
  | sweepExpired
  | reboot

def Store.step (readInt : Nat → Nat) (s : Store) : Event → Store
  | .wait ms => { s with now := s.now + ms, total := s.total + ms }
  | .issue identityId hex =>
    let s' := s.issue identityId hex
    if identityId = [] then s'
    else
      -- a token that is gone was evicted
      let kept := fun h => if h ∈ s'.tokens.map (·.hex) then s.used h else none
      { s' with used := Function.update kept hex.bytes (some s.total) }
  | .validate hex =>
    let (s', identityId) := s.validate hex
    if identityId = [] then s'
    else { s' with used := Function.update s.used hex (some s.total) }
  | .revoke hex => { s.revoke hex with used := Function.update s.used hex none }
  | .sweepExpired => s.sweepExpired
  | .reboot => { s with tokens := load readInt s.file, now := 0 }

/-- When the token was last used. -/
def Store.lastUse (s : Store) (t : Token) : Nat := (s.used t.hex).getD 0

/-- What an event keeps. -/
structure Keeps (readInt : Nat → Nat) (s : Store) (event : Event) : Prop where
  /-- A token that is accepted was issued, neither revoked nor evicted, and is not too old. -/
  accepted : ∀ hex, event = .validate hex → (s.validate hex).2 ≠ [] →
    ∃ u, s.used hex = some u ∧ s.total ≤ u + DEFAULT_TTL_MS
  /-- A token that is evicted is the one whose last use is the oldest. -/
  evicted : ∀ identityId hex, event = .issue identityId hex → ∀ t ∈ s.tokens,
    t.hex ∉ (s.step readInt event).tokens.map (·.hex) → ∀ u ∈ s.tokens, s.lastUse t ≤ s.lastUse u

/-- The condition: a token that is validated is not too old, or its number says so; and where the
store is full the first of the tokens with the least number is the one that was used first. -/
def Sound (s : Store) : Event → Prop
  | .validate hex => hex.length = TOKEN_HEX_LEN → ∀ t ∈ s.tokens, t.hex = hex →
    s.total ≤ s.lastUse t + DEFAULT_TTL_MS ∨ t.Expired s.millis
  | .issue identityId _ => identityId ≠ [] → MAX_TOKENS ≤ s.tokens.length →
    ∀ t l, s.tokens = t :: l → ∀ u ∈ s.tokens, s.lastUse (oldest t l) ≤ s.lastUse u
  | _ => True

/-- A new token is none of those that there are. -/
def Fresh (s : Store) : Event → Prop
  | .issue _ hex => hex.bytes ∉ s.tokens.map (·.hex)
  | _ => True

section
variable {readInt : Nat → Nat} {s : Store} {event : Event} {t u : Token} {l tokens : List Token}
  {hex identityId : Bytes} {used used' : Bytes → Option Nat} {ks ks' : List (Bytes × Bytes)}
  {n : Nat}

lemma oldest_mem : oldest t l ∈ t :: l := by
  induction l generalizing t with
  | nil => exact List.mem_cons_self
  | cons u l ih =>
    rw [oldest]
    split
    next => exact List.mem_cons_of_mem t ih
    next =>
      rcases List.mem_cons.mp (ih (t := t)) with h | h
      · rw [h]
        exact List.mem_cons_self
      · exact List.mem_cons_of_mem t (List.mem_cons_of_mem u h)

lemma evictOldest_sublist : (evictOldest l).Sublist l := by
  cases l with
  | nil => exact .slnil
  | cons t l => exact List.erase_sublist

lemma evict_sublist : (evict n l).Sublist l := by
  induction n generalizing l with
  | zero => exact .refl l
  | succ n ih =>
    unfold evict
    split
    next => exact ih.trans evictOldest_sublist
    next => exact .refl l

/-- At most one token is evicted. -/
lemma evict_eq (h : l.length ≤ MAX_TOKENS) :
    evict l.length l = if l.length = MAX_TOKENS then evictOldest l else l := by
  cases l with
  | nil => rfl
  | cons t l =>
    have hlen : (evictOldest (t :: l)).length = l.length := by
      rw [evictOldest, List.length_erase_of_mem oldest_mem]
      rfl
    rw [List.length_cons] at h ⊢
    unfold evict
    rw [List.length_cons]
    split
    next hfull =>
      rw [if_pos (le_antisymm h hfull)]
      cases hl : l.length with
      | zero =>
        rw [hl] at hfull
        exact absurd hfull (by decide)
      | succ n =>
        unfold evict
        rw [hlen, hl, if_neg (by omega)]
    next hroom => rw [if_neg fun he => hroom he.ge]

lemma length_evict (h : l.length ≤ MAX_TOKENS) : (evict l.length l).length < MAX_TOKENS := by
  rw [evict_eq h]
  split
  next hfull =>
    cases l with
    | nil => exact absurd hfull (by decide)
    | cons t l =>
      rw [evictOldest, List.length_erase_of_mem oldest_mem, hfull]
      decide
  next hroom => exact lt_of_le_of_ne h hroom

/-- The parts of a token that stay as they are. -/
def Token.key (t : Token) : Bytes × Bytes := (t.hex, t.identityId)

lemma map_key_fst : (l.map (·.key)).map (·.1) = l.map (·.hex) := by
  rw [List.map_map]
  rfl

/-- The keys of the tokens that are there. -/
structure Keys (used : Bytes → Option Nat) (ks : List (Bytes × Bytes)) : Prop where
  size : ks.length ≤ MAX_TOKENS
  proper : ∀ k ∈ ks, k.1.length = TOKEN_HEX_LEN ∧ k.2 ≠ []
  nodup : (ks.map (·.1)).Nodup
  live : ∀ k ∈ ks, (used k.1).isSome = true

lemma Keys.sublist (h : Keys used ks) (hs : ks'.Sublist ks) : Keys used ks' :=
  ⟨hs.length_le.trans h.size, fun k hk => h.proper k (hs.subset hk), h.nodup.sublist (hs.map _),
    fun k hk => h.live k (hs.subset hk)⟩

lemma Keys.change (h : Keys used ks) (hu : ∀ k ∈ ks, (used' k.1).isSome = true) : Keys used' ks :=
  ⟨h.size, h.proper, h.nodup, hu⟩

/-- A new token, after which there is a last use for each. -/
lemma Keys.snoc {hex : Hex} (h : Keys used ks) (hroom : ks.length < MAX_TOKENS)
    (hnew : hex.bytes ∉ ks.map (·.1)) (hid : identityId ≠ [])
    (hu : ∀ k ∈ ks ++ [(hex.bytes, identityId)], (used' k.1).isSome = true) :
    Keys used' (ks ++ [(hex.bytes, identityId)]) := by
  refine ⟨?_, fun k hk => ?_, ?_, hu⟩
  · rw [List.length_append, List.length_singleton]
    exact hroom
  · rcases List.mem_append.mp hk with hk | hk
    · exact h.proper k hk
    · obtain rfl := List.mem_singleton.mp hk
      exact ⟨hex.size, hid⟩
  · rw [List.map_append, List.map_singleton, List.nodup_append]
    refine ⟨h.nodup, List.nodup_singleton _, fun a ha b hb => ?_⟩
    obtain rfl : b = hex.bytes := List.mem_singleton.mp hb
    exact fun he => hnew (he ▸ ha)

/-- What holds in every state. -/
structure Inv (s : Store) : Prop where
  keys : Keys s.used (s.tokens.map (·.key))
  file : s.file.map (·.key) = s.tokens.map (·.key)

lemma Inv.mem (h : Inv s) (ht : t ∈ s.tokens) :
    t.hex.length = TOKEN_HEX_LEN ∧ t.identityId ≠ [] ∧ (s.used t.hex).isSome = true := by
  have hk : t.key ∈ s.tokens.map (·.key) := List.mem_map_of_mem ht
  exact ⟨(h.keys.proper _ hk).1, (h.keys.proper _ hk).2, h.keys.live _ hk⟩

lemma Inv.nodup (h : Inv s) : (s.tokens.map (·.hex)).Nodup := map_key_fst ▸ h.keys.nodup

/-- The token of a hex string is the one that is found. -/
lemma Inv.find (h : Inv s) (ht : t ∈ s.tokens) : s.tokens.find? (·.hex = t.hex) = some t :=
  find_key h.nodup ht

lemma Inv.save (h : Inv s) (hs : tokens.Sublist s.tokens) : Inv (s.save tokens) :=
  ⟨h.keys.sublist (hs.map _), rfl⟩

lemma Inv.revoke (h : Inv s) : Inv (s.revoke hex) := by
  unfold Store.revoke
  split
  next => exact h.save (List.eraseP_sublist)
  next => exact h

/-- A token that was revoked is gone. -/
lemma Inv.not_mem_revoke (h : Inv s) : hex ∉ (s.revoke hex).tokens.map (·.hex) := by
  unfold Store.revoke
  cases hf : s.tokens.find? (·.hex = hex) with
  | none =>
    rw [if_neg (by decide)]
    intro hm
    obtain ⟨t, ht, rfl⟩ := List.mem_map.mp hm
    exact List.find?_eq_none.mp hf t ht (decide_eq_true rfl)
  | some t =>
    rw [if_pos Option.isSome_some]
    have hp := List.find?_some hf
    obtain ⟨u, l1, l2, -, hu, he, herase⟩ := List.exists_of_eraseP (p := (·.hex = hex))
      (List.mem_of_find?_eq_some hf) hp
    have hnodup := h.nodup
    rw [he, List.map_append, List.map_cons, List.nodup_middle, List.nodup_cons,
      ← List.map_append] at hnodup
    show hex ∉ (s.tokens.eraseP _).map (·.hex)
    rw [herase, ← of_decide_eq_true hu]
    exact hnodup.1

/-- A reboot keeps the tokens, whatever becomes of the numbers. -/
lemma load_keys (h : Keys used (l.map (·.key))) :
    (load readInt l).map (·.key) = l.map (·.key) := by
  unfold load
  rw [List.filter_eq_self.mpr, List.map_map]
  · rfl
  · intro t ht
    obtain ⟨u, hu, rfl⟩ := List.mem_map.mp ht
    exact decide_eq_true (h.proper u.key (List.mem_map_of_mem hu))

/-- The keys are not changed by the numbers. -/
lemma map_key_modifyFirst {p : Token → Bool} :
    (modifyFirst p (fun t => { t with lastSeenMs := n }) l).map (·.key) = l.map (·.key) := by
  induction l with
  | nil => rfl
  | cons t l ih =>
    unfold modifyFirst
    split
    next => rfl
    next => rw [List.map_cons, List.map_cons, ih]

/-- The tokens after an issue, and which of them are then known to be used. -/
lemma step_issue {hex : Hex} (hid : identityId ≠ []) :
    let tokens := evict s.tokens.length s.tokens ++ [s.newToken identityId hex]
    s.step readInt (.issue identityId hex) =
      { s.save tokens with
        used := Function.update (fun h => if h ∈ tokens.map (·.hex) then s.used h else none)
          hex.bytes (some s.total) } := by
  unfold Store.step Store.issue
  dsimp only
  rw [if_neg hid, if_neg hid]
  rfl

/-- The tokens after an issue have been used. -/
lemma Inv.issue {hex : Hex} (h : Inv s) (hfresh : hex.bytes ∉ s.tokens.map (·.hex))
    (hid : identityId ≠ []) : Inv (s.step readInt (.issue identityId hex)) := by
  have hsize : s.tokens.length ≤ MAX_TOKENS := (List.length_map (·.key)).ge.trans h.keys.size
  have hsub : (evict s.tokens.length s.tokens).Sublist s.tokens := evict_sublist
  have hkeys := h.keys.sublist (hsub.map (·.key))
  have hroom := length_evict hsize
  rw [step_issue hid]
  generalize evict s.tokens.length s.tokens = kept at hsub hkeys hroom
  have hnew : hex.bytes ∉ kept.map (·.hex) := fun hm => hfresh ((hsub.map _).subset hm)
  refine ⟨?_, rfl⟩
  have htokens : (kept ++ [s.newToken identityId hex]).map (·.key) =
      kept.map (·.key) ++ [(hex.bytes, identityId.take IDENTITY_ID_MAX)] := List.map_append
  unfold Store.save
  dsimp only
  rw [htokens]
  refine hkeys.snoc ?_ (map_key_fst ▸ hnew) ?_ fun k hk => ?_
  · rw [List.length_map]
    exact hroom
  · exact fun hn => hid ((List.take_eq_nil_iff.mp hn).resolve_left (by decide))
  · rcases eq_or_ne k.1 hex.bytes with he | hne
    · rw [he, Function.update_self]
      rfl
    · have hold : k ∈ kept.map (·.key) := (List.mem_append.mp hk).resolve_right fun hk =>
        hne (congrArg Prod.fst (List.mem_singleton.mp hk))
      have hthere : k.1 ∈ (kept ++ [s.newToken identityId hex]).map (·.hex) := by
        rw [List.map_append]
        exact List.mem_append_left _ (map_key_fst ▸ List.mem_map_of_mem hold)
      rw [Function.update_of_ne hne, if_pos hthere]
      exact hkeys.live k hold

lemma Inv.step (h : Inv s) (hfresh : Fresh s event) : Inv (s.step readInt event) := by
  cases event with
  | wait ms => exact ⟨h.keys, h.file⟩
  | issue identityId hex =>
    rcases eq_or_ne identityId [] with rfl | hid
    · exact h
    · exact h.issue hfresh hid
  | validate hex =>
    unfold Store.step Store.validate
    dsimp only
    split
    next => exact h
    next hlen =>
      cases hf : s.tokens.find? (·.hex = hex) with
      | none => exact h
      | some t =>
        dsimp only
        split
        next => exact h.revoke
        next =>
          have hkeys : ∀ {used'}, (∀ k ∈ s.tokens.map (·.key), (used' k.1).isSome = true) →
              Inv { s with
                tokens := modifyFirst (·.hex = hex) (fun t => { t with lastSeenMs := s.millis })
                  s.tokens
                used := used' } := by
            intro used' hu
            refine ⟨?_, h.file.trans map_key_modifyFirst.symm⟩
            show Keys used' ((modifyFirst _ _ s.tokens).map (·.key))
            rw [map_key_modifyFirst]
            exact h.keys.change hu
          split
          next => exact hkeys h.keys.live
          next =>
            refine hkeys fun k hk => ?_
            rcases eq_or_ne k.1 hex with he | hne
            · rw [he, Function.update_self]
              rfl
            · rw [Function.update_of_ne hne]
              exact h.keys.live k hk
  | revoke hex =>
    have hr : Inv (s.revoke hex) := h.revoke
    have hused : (s.revoke hex).used = s.used := by
      unfold Store.revoke
      split <;> rfl
    refine ⟨hr.keys.change fun k hk => ?_, hr.file⟩
    have hne : k.1 ≠ hex := by
      rintro rfl
      exact h.not_mem_revoke (map_key_fst ▸ List.mem_map_of_mem hk)
    show (Function.update s.used hex none k.1).isSome = true
    rw [Function.update_of_ne hne, ← hused]
    exact hr.keys.live k hk
  | sweepExpired =>
    unfold Store.step Store.sweepExpired
    dsimp only
    split
    next => exact h.save List.filter_sublist
    next => exact h
  | reboot =>
    have hfile : Keys s.used (s.file.map (·.key)) := h.file ▸ h.keys
    refine ⟨?_, ?_⟩
    · show Keys s.used ((load readInt s.file).map (·.key))
      rw [load_keys hfile]
      exact hfile
    · exact (load_keys hfile).symm

/-- When a token is accepted. -/
lemma Inv.accepted_iff (h : Inv s) : (s.validate hex).2 ≠ [] ↔
    hex.length = TOKEN_HEX_LEN ∧ ∃ t ∈ s.tokens, t.hex = hex ∧ ¬ t.Expired s.millis := by
  unfold Store.validate
  split
  next hlen => exact ⟨fun hn => absurd rfl hn, fun hx => absurd hx.1 hlen⟩
  next hlen =>
    rw [not_not] at hlen
    cases hf : s.tokens.find? (·.hex = hex) with
    | none =>
      refine ⟨fun hn => absurd rfl hn, fun ⟨_, t, ht, hhex, _⟩ => ?_⟩
      exact absurd (decide_eq_true hhex) (List.find?_eq_none.mp hf t ht)
    | some t =>
      have ht := List.mem_of_find?_eq_some hf
      have hhex := List.find?_some hf
      have hhex : t.hex = hex := of_decide_eq_true hhex
      dsimp only
      split
      next hx =>
        refine ⟨fun hn => absurd rfl hn, fun ⟨_, u, hu, huhex, hux⟩ => ?_⟩
        have hfu := h.find hu
        rw [huhex, hf] at hfu
        obtain rfl := Option.some.inj hfu
        exact absurd hx hux
      next hx => exact ⟨fun _ => ⟨hlen, t, ht, hhex, hx⟩, fun _ => (h.mem ht).2.1⟩

/-- A token that is erased from tokens that are all different. -/
lemma hex_mem_erase (h : (l.map (·.hex)).Nodup) (ht : t ∈ l) :
    t.hex ∈ (l.erase u).map (·.hex) ↔ t ≠ u := by
  constructor
  · rintro hm rfl
    obtain ⟨v, hv, he⟩ := List.mem_map.mp hm
    obtain rfl : v = t := List.inj_on_of_nodup_map h (List.mem_of_mem_erase hv) ht he
    exact h.of_map.not_mem_erase hv
  · exact fun hne => List.mem_map_of_mem ((List.mem_erase_of_ne hne).mpr ht)

/-- The tokens that an issue evicts. -/
lemma Inv.gone_iff {hex : Hex} (h : Inv s) (hfresh : hex.bytes ∉ s.tokens.map (·.hex))
    (ht : t ∈ s.tokens) :
    t.hex ∉ (s.step readInt (.issue identityId hex)).tokens.map (·.hex) ↔
      identityId ≠ [] ∧ MAX_TOKENS ≤ s.tokens.length ∧
        ∃ u l, s.tokens = u :: l ∧ t = oldest u l := by
  have hthere : t.hex ∈ s.tokens.map (·.hex) := List.mem_map_of_mem ht
  have hsize : s.tokens.length ≤ MAX_TOKENS := (List.length_map (·.key)).ge.trans h.keys.size
  rcases eq_or_ne identityId [] with rfl | hid
  · exact ⟨fun hn => absurd hthere hn, fun hx => absurd rfl hx.1⟩
  · have hne : t.hex ≠ hex.bytes := fun he => hfresh (he ▸ hthere)
    have hmem : t.hex ∈ (s.step readInt (.issue identityId hex)).tokens.map (·.hex) ↔
        t.hex ∈ (evict s.tokens.length s.tokens).map (·.hex) := by
      rw [step_issue hid]
      unfold Store.save
      dsimp only
      rw [List.map_append, List.map_singleton, List.mem_append, List.mem_singleton]
      exact or_iff_left hne
    rw [hmem, evict_eq hsize]
    split
    next hfull =>
      cases htokens : s.tokens with
      | nil =>
        rw [htokens] at hfull
        exact absurd hfull (by decide)
      | cons u l =>
        have hnodup := h.nodup
        rw [htokens] at hnodup ht hfull
        rw [evictOldest, hex_mem_erase hnodup ht, not_not]
        refine ⟨fun he => ⟨hid, hfull.ge, u, l, rfl, he⟩, fun ⟨_, _, v, l', he, hv⟩ => ?_⟩
        obtain ⟨rfl, rfl⟩ := List.cons.inj he
        exact hv
    next hroom =>
      exact ⟨fun hn => absurd hthere hn, fun hx => absurd (le_antisymm hsize hx.2.1) hroom⟩

/-- One event. -/
lemma keeps_iff (h : Inv s) (hfresh : Fresh s event) : Keeps readInt s event ↔ Sound s event := by
  cases event with
  | wait ms => exact ⟨fun _ => trivial, fun _ => ⟨nofun, nofun⟩⟩
  | revoke hex => exact ⟨fun _ => trivial, fun _ => ⟨nofun, nofun⟩⟩
  | sweepExpired => exact ⟨fun _ => trivial, fun _ => ⟨nofun, nofun⟩⟩
  | reboot => exact ⟨fun _ => trivial, fun _ => ⟨nofun, nofun⟩⟩
  | validate hex =>
    constructor
    · intro hk hlen t ht hhex
      rw [or_iff_not_imp_right]
      intro hx
      obtain ⟨u, hu, hle⟩ := hk.accepted hex rfl (h.accepted_iff.mpr ⟨hlen, t, ht, hhex, hx⟩)
      rw [Store.lastUse, hhex, hu]
      exact hle
    · intro hs
      refine ⟨fun hex' he hacc => ?_, nofun⟩
      obtain rfl := Event.validate.inj he
      obtain ⟨hlen, t, ht, hhex, hx⟩ := h.accepted_iff.mp hacc
      obtain ⟨u, hu⟩ := Option.isSome_iff_exists.mp (h.mem ht).2.2
      have hle := (hs hlen t ht hhex).resolve_right hx
      rw [Store.lastUse, hu] at hle
      exact ⟨u, hhex ▸ hu, hle⟩
  | issue identityId hex =>
    constructor
    · intro hk hid hfull t l he u hu
      have ho : oldest t l ∈ s.tokens := he ▸ oldest_mem
      exact hk.evicted identityId hex rfl _ ho
        ((h.gone_iff hfresh ho).mpr ⟨hid, hfull, t, l, he, rfl⟩) u hu
    · intro hs
      refine ⟨nofun, fun identityId' hex' he t ht hgone u hu => ?_⟩
      obtain ⟨hid, hfull, v, l, hl, rfl⟩ := (h.gone_iff hfresh ht).mp hgone
      exact hs hid hfull v l hl u hu

/-- A token of one byte, over and over. -/
def sampleHex (b : UInt8) : Hex := { bytes := List.replicate 32 b, size := List.length_replicate }

/-- A token is used the next day. -/
def nextDay : List Event :=
  [.issue [7] (sampleHex 1), .wait 86400000, .validate (sampleHex 1).bytes]

/-- A token that is issued after 40 days is not used for 31 days after a reboot. -/
def oldToken : List Event :=
  [.wait 3456000000, .issue [7] (sampleHex 1), .reboot, .wait 2678400000,
    .validate (sampleHex 1).bytes]

end

end URSupreme.AuthTokens
