import URSupreme.LXMF.Gateway
import URSupreme.Lib.Recent
import URSupreme.Lib.Records
import URSupreme.Lib.Run

/-!
# Ratchets over announces and reboots

`save`, `load` and `at_newest_first` of `LXMF/RatchetStore.h` with `rotate_outbound_ratchet` and
`inbound_ratchet_privkey` of `LXMF/LXMFGateway.h`. The file is written after each rotation, the key
is handed out whatever became of the write, and a reboot rebuilds the ring from the file.

Beside the ring and the file of an identity, `handed` keeps the public keys that were handed out and
`stored` the entries that its file holds as a whole.
-/

namespace URSupreme.Ratchets
open Lib Gateway

def RATCHET_BYTES : Nat := 32

/-- `"RATC"`, `FILE_VERSION` and the count. -/
def header (count : Nat) : Bytes := [0x52, 0x41, 0x54, 0x43, 1, UInt8.ofNat count]

def entryBytes (e : RatchetEntry) : Bytes := leBytes 8 e.createdMs ++ e.privkey ++ e.pubkey

def readEntry (data : Bytes) : RatchetEntry where
  createdMs := le (window data 0 8)
  privkey := window data 8 RATCHET_BYTES
  pubkey := window data (8 + RATCHET_BYTES) RATCHET_BYTES

/-- The bytes that `save` writes, unless a key has the wrong size. -/
def save (entries : List RatchetEntry) : Option Bytes :=
  let entries := entries.take 255
  if ∃ e ∈ entries, e.privkey.length ≠ RATCHET_BYTES ∨ e.pubkey.length ≠ RATCHET_BYTES then none
  else some (header entries.length ++ entries.flatMap entryBytes)

/-- `load`: the entries, and its result. -/
def load : Option Bytes → List RatchetEntry × Bool
  | some (b0 :: b1 :: b2 :: b3 :: version :: count :: data) =>
    if [b0, b1, b2, b3] ≠ [0x52, 0x41, 0x54, 0x43] then ([], false)
    else if version ≠ 1 then ([], false)
    else readRecords (8 + RATCHET_BYTES * 2) readEntry count.toNat data
  | _ => ([], false)

/-- `at_newest_first`. -/
def atNewestFirst (entries : List RatchetEntry) (index : Nat) : Option RatchetEntry :=
  if index ≥ entries.length then none else entries[entries.length - 1 - index]?

/-- What becomes of a file that is written: it stays as it is, or it holds the first `k` bytes. -/
inductive Write where
  | fails
  | cut (k : Nat)
  deriving DecidableEq, Repr

def Write.file (old : Option Bytes) (data : Bytes) : Write → Option Bytes
  | .fails => old
  | .cut k => some (data.take k)

/-- The entries that the file then holds as a whole. -/
def Write.stored (old entries : List RatchetEntry) : Write → List RatchetEntry
  | .fails => old
  | .cut k => entries.take ((k - 6) / (8 + RATCHET_BYTES * 2))

/-- X25519. -/
structure Platform where
  publicKey : Bytes → Bytes
  length_publicKey : ∀ privkey, (publicKey privkey).length = RATCHET_BYTES

/-- A private key. -/
structure Key where
  bytes : Bytes
  size : bytes.length = RATCHET_BYTES

/-- An identity in the storage. -/
structure Account where
  address : Bytes
  hash : Bytes
  active : Bool
  deriving DecidableEq, Repr

structure Identity where
  account : Account
  ratchets : List RatchetEntry := []
  file : Option Bytes := none
  stored : List RatchetEntry := []
  handed : List Bytes := []

/-- The part of `rotate_outbound_ratchet` on the identity that was found. -/
def Identity.rotate (P : Platform) (key : Key) (now : Nat) (write : Write) (a : Identity) :
    Identity :=
  let e : RatchetEntry :=
    { createdMs := now % 2 ^ 32, privkey := key.bytes, pubkey := P.publicKey key.bytes }
  let ratchets := RatchetStore.rotate a.ratchets e
  { a with
    ratchets
    file := match save ratchets with
      | none => a.file
      | some data => write.file a.file data
    stored := write.stored a.stored ratchets
    handed := a.handed ++ [e.pubkey] }

/-- The identity after a reboot. -/
def Identity.reboot (a : Identity) : Identity :=
  { a with ratchets := if a.account.active then (load a.file).1 else [] }

/-- `identities_storage()`. Identities that are active have different hashes: their directories are
named by them. -/
structure Storage where
  identities : List Identity
  distinct : (((identities.map (·.account)).filter (·.active)).map (·.hash)).Nodup

inductive Event where
  | announce (destHash : Bytes) (key : Key) (now : Nat) (write : Write)
  | decrypt (identityHash : Bytes)
  | reboot

/-- `rotate_outbound_ratchet`. -/
def Storage.rotateOutboundRatchet (P : Platform) (s : Storage) (destHash : Bytes) (key : Key)
    (now : Nat) (write : Write) : Storage where
  identities := modifyFirst (fun a => a.account.active ∧ a.account.address = destHash)
    (Identity.rotate P key now write) s.identities
  distinct := by
    rw [map_modifyFirst (f := Identity.rotate P key now write) fun _ => rfl]
    exact s.distinct

/-- `inbound_ratchet_privkey`. -/
def Storage.inboundRatchetPrivkey (s : Storage) (identityHash : Bytes) (index : Nat) :
    Option Bytes := do
  let a ← s.identities.find? fun a => a.account.active ∧ a.account.hash = identityHash
  let e ← atNewestFirst a.ratchets index
  if e.privkey.length = RATCHET_BYTES then some e.privkey else none

def Storage.step (P : Platform) (s : Storage) : Event → Storage
  | .announce destHash key now write => s.rotateOutboundRatchet P destHash key now write
  | .decrypt _ => s
  | .reboot =>
    { identities := s.identities.map Identity.reboot
      distinct := by
        rw [List.map_map]
        exact s.distinct }

/-- The keys that are tried for an active identity are those of the last 16 public keys that were
handed out for it, newest first. -/
def Openable (P : Platform) (s : Storage) : Prop :=
  ∀ a ∈ s.identities, a.account.active = true → ∀ i,
    (s.inboundRatchetPrivkey a.account.hash i).map P.publicKey =
      (recent LXMF_RATCHET_RING_MAX a.handed).reverse[i]?

/-- A reboot finds in the file of each active identity the public keys of its ring. -/
def Written (s : Storage) : Event → Prop
  | .reboot => ∀ a ∈ s.identities, a.account.active = true →
    a.stored.map (·.pubkey) = a.ratchets.map (·.pubkey)
  | _ => True

section
variable {P : Platform} {s : Storage} {a : Identity} {e : RatchetEntry}
  {entries : List RatchetEntry} {l : List Identity} {event : Event}

/-- An entry as `rotate` makes it. -/
structure Proper (P : Platform) (e : RatchetEntry) : Prop where
  privkey : e.privkey.length = RATCHET_BYTES
  pubkey : e.pubkey = P.publicKey e.privkey
  created : e.createdMs < 256 ^ 8

lemma Proper.length_pubkey (h : Proper P e) : e.pubkey.length = RATCHET_BYTES := by
  rw [h.pubkey, P.length_publicKey]

lemma Proper.length_entryBytes (h : Proper P e) :
    (entryBytes e).length = 8 + RATCHET_BYTES * 2 := by
  rw [entryBytes, List.length_append, List.length_append, length_leBytes, h.privkey,
    h.length_pubkey]
  rfl

/-- An entry reads back as it was written. -/
lemma Proper.readEntry (h : Proper P e) (rest : Bytes) : readEntry (entryBytes e ++ rest) = e := by
  have hat : At (entryBytes e ++ rest) 0 (entryBytes e) := at_append_right at_self
  obtain ⟨hboth, hpub⟩ := at_append.mp hat
  obtain ⟨hcreated, hpriv⟩ := at_append.mp hboth
  have h1 := hcreated.window_eq
  have h2 := hpriv.window_eq
  have h3 := hpub.window_eq
  rw [length_leBytes] at h1
  rw [length_leBytes, h.privkey] at h2
  rw [List.length_append, length_leBytes, h.privkey, h.length_pubkey, Nat.zero_add] at h3
  unfold Ratchets.readEntry
  rw [h1, h2, h3, le_leBytes h.created]

/-- What `save` writes of a ring. -/
lemma save_eq (h : ∀ e ∈ entries, Proper P e) (hl : entries.length ≤ LXMF_RATCHET_RING_MAX) :
    save entries = some (header entries.length ++ entries.flatMap entryBytes) := by
  have hall : entries.take 255 = entries := List.take_of_length_le (hl.trans (by decide))
  unfold save
  rw [hall]
  refine if_neg ?_
  rintro ⟨e, he, hsize | hsize⟩
  · exact hsize (h e he).privkey
  · exact hsize (h e he).length_pubkey

/-- Of a file that was cut `load` gets the entries that are there as a whole. -/
lemma load_take (h : ∀ e ∈ entries, Proper P e) (hl : entries.length ≤ LXMF_RATCHET_RING_MAX)
    (k : Nat) :
    (load (some ((header entries.length ++ entries.flatMap entryBytes).take k))).1 =
      entries.take ((k - 6) / (8 + RATCHET_BYTES * 2)) := by
  match k with
  | 0 | 1 | 2 | 3 | 4 | 5 => rfl
  | k + 6 =>
    have hcount : (UInt8.ofNat entries.length).toNat = entries.length := by
      rw [UInt8.toNat_ofNat']
      exact Nat.mod_eq_of_lt (lt_of_le_of_lt hl (by decide))
    have hread := readRecords_take (k := k) (w := 8 + RATCHET_BYTES * 2) (by decide)
      (fun e he => (h e he).length_entryBytes) (fun e he => (h e he).readEntry)
    rw [Nat.add_sub_cancel, ← hread]
    show (readRecords _ _ (UInt8.ofNat entries.length).toNat _).1 = _
    rw [hcount]
    rfl

lemma atNewestFirst_eq (i : Nat) : atNewestFirst entries i = entries.reverse[i]? := by
  unfold atNewestFirst
  split
  next h => exact (List.getElem?_eq_none (by rwa [List.length_reverse])).symm
  next h => exact (List.getElem?_reverse (not_le.mp h)).symm

/-- An active identity is found by its hash. -/
lemma find_hash (h : (((l.map (·.account)).filter (·.active)).map (·.hash)).Nodup) (ha : a ∈ l)
    (hactive : a.account.active = true) :
    l.find? (fun b => b.account.active ∧ b.account.hash = a.account.hash) = some a := by
  induction l with
  | nil => exact absurd ha List.not_mem_nil
  | cons b l ih =>
    rw [List.map_cons] at h
    rcases List.mem_cons.mp ha with rfl | ha
    · exact List.find?_cons_of_pos (decide_eq_true ⟨hactive, rfl⟩)
    · cases hb : b.account.active with
      | false =>
        rw [List.filter_cons_of_neg (by rw [hb]; exact Bool.false_ne_true)] at h
        rw [List.find?_cons_of_neg (by simp [hb])]
        exact ih h ha
      | true =>
        rw [List.filter_cons_of_pos hb, List.map_cons, List.nodup_cons] at h
        have hne : b.account.hash ≠ a.account.hash := fun he => h.1 (he ▸
          List.mem_map_of_mem (List.mem_filter.mpr ⟨List.mem_map_of_mem ha, hactive⟩))
        rw [List.find?_cons_of_neg (by simp [hne])]
        exact ih h.2 ha

/-- What an identity keeps over a run: its ring is short, its entries are proper, and its file holds
the ones that `stored` says. -/
structure Kept (P : Platform) (a : Identity) : Prop where
  size : a.ratchets.length ≤ LXMF_RATCHET_RING_MAX
  ratchets : ∀ e ∈ a.ratchets, Proper P e
  stored : ∀ e ∈ a.stored, Proper P e
  short : a.stored.length ≤ LXMF_RATCHET_RING_MAX
  file : (load a.file).1 = a.stored

/-- The keys that are tried. -/
lemma inbound_eq (ha : a ∈ s.identities) (hactive : a.account.active = true) (hk : Kept P a)
    (i : Nat) :
    (s.inboundRatchetPrivkey a.account.hash i).map P.publicKey =
      (a.ratchets.map (·.pubkey)).reverse[i]? := by
  have hfind := find_hash s.distinct ha hactive
  unfold Storage.inboundRatchetPrivkey
  rw [hfind, Option.bind_eq_bind, Option.bind_some, atNewestFirst_eq, ← List.map_reverse,
    List.getElem?_map]
  cases he : a.ratchets.reverse[i]? with
  | none => rfl
  | some e =>
    have hproper := hk.ratchets e (List.mem_reverse.mp (List.mem_of_getElem? he))
    rw [Option.bind_eq_bind, Option.bind_some, if_pos hproper.privkey, Option.map_some,
      Option.map_some, hproper.pubkey]

/-- The ring holds the keys that were handed out last. -/
def Full (a : Identity) : Prop :=
  a.ratchets.map (·.pubkey) = recent LXMF_RATCHET_RING_MAX a.handed

lemma openable_iff (h : ∀ a ∈ s.identities, Kept P a) :
    Openable P s ↔ ∀ a ∈ s.identities, a.account.active = true → Full a := by
  refine forall₃_congr fun a ha hactive => ?_
  have heq := inbound_eq ha hactive (h a ha)
  constructor
  · intro hopen
    refine List.reverse_injective (List.ext_getElem? fun i => ?_)
    rw [← heq, hopen]
  · intro hfull i
    rw [heq, hfull]

lemma Kept.rotate (h : Kept P a) (key : Key) (now : Nat) (write : Write) :
    Kept P (a.rotate P key now write) := by
  have hring : ∀ e ∈ (a.rotate P key now write).ratchets, Proper P e := by
    intro e he
    rcases List.mem_append.mp (mem_of_mem_recent he) with he | he
    · exact h.ratchets e he
    · obtain rfl := List.mem_singleton.mp he
      exact ⟨key.size, rfl, lt_trans (Nat.mod_lt _ (by decide)) (by decide)⟩
  have hsize : (a.rotate P key now write).ratchets.length ≤ LXMF_RATCHET_RING_MAX := by
    have hlen : (a.rotate P key now write).ratchets.length = _ := length_recent
    rw [hlen]
    exact Nat.min_le_left _ _
  have hsave := save_eq hring hsize
  cases write with
  | fails =>
    refine ⟨hsize, hring, h.stored, h.short, ?_⟩
    show (load (match save _ with | none => a.file | some _ => a.file)).1 = a.stored
    split <;> exact h.file
  | cut k =>
    refine ⟨hsize, hring, fun e he => hring e (List.mem_of_mem_take he), ?_, ?_⟩
    · exact (List.length_take_le' _ _).trans hsize
    · have hfile : (a.rotate P key now (.cut k)).file = some ((header
          (a.rotate P key now (.cut k)).ratchets.length ++
            (a.rotate P key now (.cut k)).ratchets.flatMap entryBytes).take k) := by
        show (match save (a.rotate P key now (.cut k)).ratchets with
          | none => a.file
          | some data => Write.file a.file data (.cut k)) = _
        rw [hsave]
        rfl
      rw [hfile, load_take hring hsize]
      rfl

lemma Kept.reboot (h : Kept P a) : Kept P a.reboot := by
  cases hactive : a.account.active with
  | true =>
    have hr : a.reboot.ratchets = a.stored := (if_pos hactive).trans h.file
    exact ⟨hr ▸ h.short, hr ▸ h.stored, h.stored, h.short, h.file⟩
  | false =>
    have hr : a.reboot.ratchets = [] := if_neg (by rw [hactive]; exact Bool.false_ne_true)
    refine ⟨hr ▸ Nat.zero_le _, ?_, h.stored, h.short, h.file⟩
    rw [hr]
    nofun

lemma Full.rotate (h : Full a) (key : Key) (now : Nat) (write : Write) :
    Full (a.rotate P key now write) := by
  show (recent LXMF_RATCHET_RING_MAX (a.ratchets ++ [_])).map (·.pubkey) =
    recent LXMF_RATCHET_RING_MAX (a.handed ++ [_])
  rw [map_recent, List.map_append, h, recent_append]
  rfl

/-- A reboot. -/
lemma full_reboot_iff (h : Kept P a) (hfull : Full a) (hactive : a.account.active = true) :
    Full a.reboot ↔ a.stored.map (·.pubkey) = a.ratchets.map (·.pubkey) := by
  have hr : a.reboot.ratchets = a.stored := (if_pos hactive).trans h.file
  unfold Full
  rw [hr, hfull]
  rfl


/-- Every identity is kept and has its keys. -/
def Inv (P : Platform) (s : Storage) : Prop :=
  ∀ a ∈ s.identities, Kept P a ∧ (a.account.active = true → Full a)

lemma Inv.openable (h : Inv P s) : Openable P s :=
  (openable_iff fun a ha => (h a ha).1).mpr fun a ha => (h a ha).2

/-- An event that `Written` allows. -/
lemma Inv.step (h : Inv P s) (hok : Written s event) : Inv P (s.step P event) := by
  cases event with
  | announce destHash key now write =>
    intro b hb
    rcases of_mem_modifyFirst hb with hb | ⟨a, ha, rfl⟩
    · exact h b hb
    · obtain ⟨hk, hf⟩ := h a ha
      exact ⟨hk.rotate key now write, fun hactive => (hf hactive).rotate key now write⟩
  | decrypt identityHash => exact h
  | reboot =>
    intro b hb
    obtain ⟨a, ha, rfl⟩ := List.mem_map.mp hb
    refine ⟨(h a ha).1.reboot, fun hactive => ?_⟩
    exact (full_reboot_iff (h a ha).1 ((h a ha).2 hactive) hactive).mpr (hok a ha hactive)

/-- An event that `Written` does not allow. -/
lemma Inv.not_openable (h : Inv P s) (hbad : ¬ Written s event) :
    ¬ Openable P (s.step P event) := by
  cases event with
  | announce destHash key now write => exact absurd trivial hbad
  | decrypt identityHash => exact absurd trivial hbad
  | reboot =>
    intro hopen
    have hkept : ∀ b ∈ (s.step P .reboot).identities, Kept P b := by
      intro b hb
      obtain ⟨a, ha, rfl⟩ := List.mem_map.mp hb
      exact (h a ha).1.reboot
    refine hbad fun a ha hactive => ?_
    have hfull := (openable_iff hkept).mp hopen a.reboot (List.mem_map_of_mem ha) hactive
    exact (full_reboot_iff (h a ha).1 ((h a ha).2 hactive) hactive).mp hfull

/-- The accounts of a storage. -/
structure Accounts where
  accounts : List Account
  distinct : ((accounts.filter (·.active)).map (·.hash)).Nodup

/-- Identities that have announced nothing yet. -/
def Accounts.start (x : Accounts) : Storage where
  identities := x.accounts.map ({ account := · })
  distinct := by
    rw [List.map_map, show (·.account) ∘ (fun a => ({ account := a } : Identity)) = id from rfl,
      List.map_id]
    exact x.distinct

/-- **The keys handed out stay openable** in a run exactly when every reboot finds them written. -/
theorem openable_run_iff (P : Platform) (x : Accounts) (events : List Event) :
    (∀ k, Openable P ((events.take k).foldl (Storage.step P) x.start)) ↔
      Allowed (Storage.step P) Written x.start events := by
  refine allowed_iff (I := Inv P) Inv.openable Inv.step Inv.not_openable ?_
  intro a ha
  obtain ⟨account, -, rfl⟩ := List.mem_map.mp ha
  exact ⟨⟨Nat.zero_le _, nofun, nofun, Nat.zero_le _, rfl⟩, fun _ => rfl⟩


/-- Keys of which the public one is the private one, cut or filled to size. -/
def samplePlatform : Platform where
  publicKey := fun privkey => (privkey ++ List.replicate RATCHET_BYTES 0).take RATCHET_BYTES
  length_publicKey := fun privkey => by
    rw [List.length_take, List.length_append, List.length_replicate]
    omega

def sampleAccounts : Accounts where
  accounts := [{ address := [1], hash := [2], active := true }]
  distinct := by decide

/-- An announce whose write fails, and a reboot. -/
def unwritten : List Event :=
  [.announce [1] { bytes := List.replicate 32 7, size := rfl } 0 .fails, .reboot]

theorem not_openable_unwritten :
    ¬ ∀ (P : Platform) (x : Accounts) (events : List Event),
      ∀ k, Openable P ((events.take k).foldl (Storage.step P) x.start) := by
  intro h
  have hfirst := h samplePlatform sampleAccounts unwritten 2 _ List.mem_cons_self rfl 0
  exact absurd hfirst (by decide)

end

end URSupreme.Ratchets
