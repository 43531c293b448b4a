import URSupreme.Common.MsgPack
import URSupreme.Lib.Latest
import URSupreme.Lib.Run
import URSupreme.Lib.Slots

/-!
# The announce log

The two rings of `LXMF/AnnounceLog.h` and `received_announce`, which fills them. A repeated announce
changes its record where it stands and a new destination pushes out the first record, so the ring
keeps the destinations that came first last, not those that announced last.

Beside the rings `heard` keeps the announces that each handler took, with their times.
-/

namespace URSupreme.AnnounceLog
open Lib MsgPack

def CAPACITY : Nat := 32

structure AnnounceRecord where
  receivedMs : Nat
  destination : Bytes
  displayName : Bytes
  aspect : String
  deriving DecidableEq, Repr

/-- An announce as `received_announce` gets it: `own` answers `announce_log_is_own_identity`, `hash`
is `hash_from_name_and_identity` of the announced identity, `now` the value of `millis()`. -/
structure Announce where
  destination : Bytes
  hash : String → Bytes := fun _ => []
  appData : Bytes := []
  own : Bool := false
  now : Nat

/-- The display name of an announce. -/
def announcedName (appData : Bytes) : Except Fault Bytes := do
  if appData.length ≥ 1 then
    let t ← byteAt appData 0
    if t &&& 0xF0 = 0x90 then
      let (name, _) ← readBinOrStr appData 1
      .ok name
    else .ok []
  else .ok []

/-- The aspect, where it is a well-known one. -/
def Announce.aspect (a : Announce) : String :=
  (["lxmf.delivery", "lxmf.propagation", "nomadnetwork.node"].find?
    (a.hash · = a.destination)).getD ""

/-- The record of a new destination. -/
def Announce.record (a : Announce) : AnnounceRecord where
  receivedMs := a.now % 2 ^ 32
  destination := a.destination
  displayName := (announcedName a.appData).toOption.getD []
  aspect := a.aspect

/-- The record of a destination that announces again. -/
def AnnounceRecord.update (r new : AnnounceRecord) : AnnounceRecord :=
  { r with
    receivedMs := new.receivedMs
    displayName := if new.displayName = [] then r.displayName else new.displayName
    aspect := if new.aspect = "" then r.aspect else new.aspect }

/-- `received_announce` on the ring of its handler. -/
def receivedAnnounce (ring : List AnnounceRecord) (a : Announce) : List AnnounceRecord :=
  if a.own then ring
  else if (ring.find? (·.destination = a.destination)).isSome then
    modifyFirst (·.destination = a.destination) (·.update a.record) ring
  else recent CAPACITY (ring ++ [a.record])

/-- The rings of the handlers, `announces` that of the one that is for `lxmf.delivery` only. -/
structure Log where
  ring : Bool → List AnnounceRecord := fun _ => []
  heard : Bool → List (Bytes × Nat) := fun _ => []

def Log.announces (s : Log) : List AnnounceRecord := s.ring true

def Log.paths (s : Log) : List AnnounceRecord := s.ring false

/-- An announce for the handler with this value of `_lxmf_only`. -/
def Log.step (s : Log) (e : Bool × Announce) : Log where
  ring := Function.update s.ring e.1 (receivedAnnounce (s.ring e.1) e.2)
  heard := if e.2.own then s.heard
    else Function.update s.heard e.1 (s.heard e.1 ++ [(e.2.destination, e.2.now % 2 ^ 32)])

/-- Destination and time. -/
def AnnounceRecord.entry (r : AnnounceRecord) : Bytes × Nat := (r.destination, r.receivedMs)

/-- The ring holds the destinations that announced last, with the times of their last announces. -/
structure Recent (ring : List AnnounceRecord) (heard : List (Bytes × Nat)) : Prop where
  size : ring.length ≤ CAPACITY
  distinct : (ring.map (·.destination)).Nodup
  perm : (ring.map (·.entry)).Perm (recent CAPACITY (latest heard))

/-- A new destination that comes to a full ring finds in front the record whose last announce is the
oldest of all. -/
def Evicts (s : Log) (e : Bool × Announce) : Prop :=
  e.2.own = false → (s.ring e.1).length = CAPACITY →
    e.2.destination ∉ (s.ring e.1).map (·.destination) →
    ((s.ring e.1).map (·.entry)).head? = (recent CAPACITY (latest (s.heard e.1))).head?

variable {ring l1 l2 : List AnnounceRecord} {heard : List (Bytes × Nat)} {a : Announce}
  {r : AnnounceRecord}

lemma map_entry_fst : (ring.map (·.entry)).map (·.1) = ring.map (·.destination) := by
  rw [List.map_map]
  rfl

/-- The latest announces are in the ring: the rest follows. -/
lemma recent_of_perm (h : (ring.map (·.entry)).Perm (recent CAPACITY (latest heard))) :
    Recent ring heard := by
  refine ⟨?_, ?_, h⟩
  · have hlen := h.length_eq
    rw [List.length_map, length_recent] at hlen
    rw [hlen]
    exact Nat.min_le_left _ _
  · have hd : Distinct (recent CAPACITY (latest heard)) :=
      distinct_latest.sublist ((List.drop_sublist _ _).map _)
    rw [← map_entry_fst]
    exact (h.map fun x : Bytes × Nat => x.1).nodup_iff.mpr hd

/-- A repeated announce. -/
lemma Recent.update (h : Recent ring heard)
    (hf : ring.find? (·.destination = a.destination) = some r) :
    Recent (modifyFirst (·.destination = a.destination) (·.update a.record) ring)
    (heard ++ [(a.destination, a.now % 2 ^ 32)]) := by
  obtain ⟨hr, l1, l2, e, hm⟩ := modifyFirst_of_find hf
  have hdest : r.destination = a.destination := of_decide_eq_true hr
  have hmem : a.destination ∈ (recent CAPACITY (latest heard)).map (·.1) := by
    refine (h.perm.map fun x : Bytes × Nat => x.1).mem_iff.mp ?_
    rw [map_entry_fst, e, ← hdest]
    exact List.mem_map_of_mem (mem_split.mpr (.inl rfl))
  have hdist : Distinct (l1.map (·.entry) ++ r.entry :: l2.map (·.entry)) := by
    rw [← List.map_cons, ← List.map_append, ← e]
    unfold Distinct
    rw [map_entry_fst]
    exact h.distinct
  refine recent_of_perm ?_
  rw [latest_snoc, recent_touch_of_mem distinct_latest hmem, hm]
  refine List.Perm.trans ?_ (touch_perm h.perm)
  have hfilter : (ring.map (·.entry)).filter (·.1 ≠ a.destination) =
      l1.map (·.entry) ++ l2.map (·.entry) := by
    rw [e, List.map_append, List.map_cons, ← hdest]
    exact hdist.filter
  rw [touch, hfilter, List.map_append, List.map_cons]
  have hentry : (r.update a.record).entry = (a.destination, a.now % 2 ^ 32) := by
    rw [← hdest]
    rfl
  rw [hentry]
  exact List.perm_middle.trans (List.perm_append_singleton _ _).symm

/-- A new destination. -/
lemma recent_push_iff (h : Recent ring heard) (hn : a.destination ∉ ring.map (·.destination)) :
    Recent (recent CAPACITY (ring ++ [a.record])) (heard ++ [(a.destination, a.now % 2 ^ 32)]) ↔
      (ring.length = CAPACITY →
        (ring.map (·.entry)).head? = (recent CAPACITY (latest heard)).head?) := by
  have hn' : a.destination ∉ (recent CAPACITY (latest heard)).map (·.1) := by
    rw [← (h.perm.map fun x : Bytes × Nat => x.1).mem_iff, map_entry_fst]
    exact hn
  have hlen := h.perm.length_eq
  rw [List.length_map, length_recent] at hlen
  have hentry : a.record.entry = (a.destination, a.now % 2 ^ 32) := rfl
  rcases Nat.lt_or_ge ring.length CAPACITY with hlt | hge
  · have hroom : (latest heard).length < CAPACITY := by omega
    rw [recent_of_le hroom.le] at hn'
    refine ⟨fun _ he => absurd he hlt.ne, fun _ => recent_of_perm ?_⟩
    rw [latest_snoc, touch_of_not_mem hn', recent_of_le, recent_of_le, List.map_append,
      List.map_singleton, hentry]
    · exact (recent_of_le hroom.le ▸ h.perm).append_right _
    · rw [List.length_append, List.length_singleton]
      exact hroom
    · rw [List.length_append, List.length_singleton]
      exact hlt
  · have hfull : ring.length = CAPACITY := le_antisymm h.size hge
    have hall : CAPACITY ≤ (latest heard).length := by omega
    have hlatest : recent CAPACITY (latest (heard ++ [(a.destination, a.now % 2 ^ 32)])) =
        (recent CAPACITY (latest heard)).tail ++ [(a.destination, a.now % 2 ^ 32)] := by
      rw [latest_snoc]
      exact recent_touch_of_not_mem (by decide) hall hn'
    cases hring : ring with
    | nil =>
      rw [hring] at hfull
      cases hfull
    | cons r0 rest =>
      rw [hring] at hfull
      have hpush : recent CAPACITY (r0 :: rest ++ [a.record]) = rest ++ [a.record] := by
        show recent CAPACITY ([r0] ++ (rest ++ [a.record])) = _
        refine recent_append_of_length ?_
        rw [List.length_append, List.length_singleton]
        exact hfull
      have hperm := h.perm
      rw [hring, List.map_cons] at hperm
      cases hrec : recent CAPACITY (latest heard) with
      | nil =>
        rw [hrec] at hperm
        exact absurd hperm.length_eq (by simp)
      | cons y t =>
        rw [hrec] at hperm hlatest
        rw [hpush, List.map_cons, List.head?_cons, List.head?_cons]
        have hafter : (rest ++ [a.record]).map (·.entry) =
            rest.map (·.entry) ++ [(a.destination, a.now % 2 ^ 32)] := by
          rw [List.map_append, List.map_singleton, hentry]
        constructor
        · intro hrecent _
          have hp := hrecent.perm
          rw [hlatest, hafter, List.tail_cons] at hp
          have hrest := (List.perm_append_right_iff _).mp hp
          have hone : [r0.entry].Perm [y] :=
            (List.perm_append_right_iff t).mp (((hrest.cons r0.entry).symm.trans hperm))
          exact congrArg some (List.singleton_perm_singleton.mp hone)
        · intro he
          obtain he := Option.some.inj (he hfull)
          refine recent_of_perm ?_
          rw [hlatest, hafter, List.tail_cons]
          rw [he] at hperm
          exact hperm.cons_inv.append_right _

/-- The ring of a handler after an announce. -/
lemma recent_step_iff {s : Log} {e : Bool × Announce} (h : ∀ b, Recent (s.ring b) (s.heard b)) :
    (∀ b, Recent ((s.step e).ring b) ((s.step e).heard b)) ↔ Evicts s e := by
  obtain ⟨k, a⟩ := e
  cases ho : a.own with
  | true =>
    have hs : s.step (k, a) = s := by
      unfold Log.step receivedAnnounce
      rw [if_pos ho, if_pos ho, Function.update_eq_self]
    rw [hs]
    exact ⟨fun _ hf => absurd (ho.symm.trans hf) (by decide), fun _ => h⟩
  | false =>
    have hown : ¬ a.own = true := by rw [ho]; exact Bool.false_ne_true
    -- the ring of the other handler stays as it is
    have hhandler : (∀ b, Recent ((s.step (k, a)).ring b) ((s.step (k, a)).heard b)) ↔
        Recent (receivedAnnounce (s.ring k) a)
          (s.heard k ++ [(a.destination, a.now % 2 ^ 32)]) := by
      unfold Log.step
      rw [if_neg hown]
      refine ⟨fun hall => ?_, fun hk b => ?_⟩
      · have hk := hall k
        dsimp only at hk
        rwa [Function.update_self, Function.update_self] at hk
      · dsimp only
        rcases eq_or_ne b k with rfl | hb
        · rwa [Function.update_self, Function.update_self]
        · rw [Function.update_of_ne hb, Function.update_of_ne hb]
          exact h b
    rw [hhandler, receivedAnnounce, if_neg hown]
    cases hf : (s.ring k).find? (·.destination = a.destination) with
    | some r =>
      rw [if_pos Option.isSome_some]
      refine ⟨fun _ _ _ hn => absurd ?_ hn, fun _ => (h k).update hf⟩
      have hd := List.find?_some hf
      rw [← of_decide_eq_true hd]
      exact List.mem_map_of_mem (List.mem_of_find?_eq_some hf)
    | none =>
      have hn : a.destination ∉ (s.ring k).map (·.destination) := by
        rintro hm
        obtain ⟨r, hr, hd⟩ := List.mem_map.mp hm
        exact List.find?_eq_none.mp hf r hr (decide_eq_true hd)
      rw [if_neg (by decide), recent_push_iff (h k) hn]
      exact ⟨fun hp _ hl _ => hp hl, fun hp hl => hp ho hl hn⟩

/-- **The rings hold the destinations that announced last**, after every announce of a run, exactly
when each new destination that comes to a full ring finds the oldest announce in front. -/
theorem recent_iff (es : List (Bool × Announce)) :
    (∀ k b, Recent (((es.take k).foldl Log.step {}).ring b)
    (((es.take k).foldl Log.step {}).heard b)) ↔ Allowed Log.step Evicts {} es := by
  have hnil : ∀ b, Recent (({} : Log).ring b) (({} : Log).heard b) := fun b =>
    ⟨Nat.zero_le _, List.nodup_nil, .nil⟩
  exact allowed_iff (P := fun s : Log => ∀ b, Recent (s.ring b) (s.heard b))
    (I := fun s : Log => ∀ b, Recent (s.ring b) (s.heard b)) id
    (fun h hok => (recent_step_iff h).mpr hok)
    (fun h hbad hs => hbad ((recent_step_iff h).mp hs)) hnil

/-- Destinations 0 to 31 announce, then 0 again, then a new one: 0 announced last of the 32 and is
the one that goes. -/
def crowd : List (Bool × Announce) :=
  ((List.range 32).map UInt8.ofNat ++ [0, 32]).map fun d => (true, { destination := [d], now := 0 })

theorem not_recent_crowd :
    ¬ ∀ es : List (Bool × Announce),
      (∀ k b, Recent (((es.take k).foldl Log.step {}).ring b)
      (((es.take k).foldl Log.step {}).heard b)) := by
  intro h
  have hperm := ((h crowd 34 true).perm.map fun x => x.1).mem_iff (a := ([0] : Bytes))
  exact absurd hperm (by decide +kernel)

end URSupreme.AnnounceLog
