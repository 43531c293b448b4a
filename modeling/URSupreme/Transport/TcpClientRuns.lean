import URSupreme.Transport.TcpClients

/-!
# Runs of the TCP client requests

The slots hold the clients of the first entries, in the order of the names, that describe one. A
request keeps that as long as the map in memory has no other change over the file than its own, as
long as a client that is built anew has no mode and no access code of its own, and as long as a
client does not leave or enter past the last slot.
-/

namespace URSupreme.TcpClients
open Lib

/-- The client an entry describes. -/
def clientOf (x : Bytes × Entry) : Option Client :=
  if x.2.type = .tcpClient ∧ x.1 ≠ [] ∧ x.2.host ≠ [] then
    some (applyModeIfac { name := x.1, host := x.2.host, port := UInt16.ofInt x.2.port } x.2 .full)
  else none

/-- The clients of the entries, in the order of the names. -/
def clients (entries : Entries) : List Client := items clientOf entries

/-- The live clients. -/
def live (slots : Slots) : List Client := slots.filterMap id

/-- Neither a mode nor an access code. -/
def Entry.Plain (e : Entry) : Prop := e.mode.getD .full = .full ∧ e.ifacSize = 0

/-- A client that leaves makes no room for one without a slot. -/
def Node.LeavesAlone (s : Node) (name : Bytes) : Prop :=
  hasClient name s.slots = true → (clients (load s.file)).length ≤ TCP_MAX_CLIENTS

/-- The entry can be rebuilt from its name, host and port. -/
def Node.Rebuilds (s : Node) (name : Bytes) (e : Entry) : Prop :=
  match clientOf (name, e) with
  | none => s.LeavesAlone name
  | some _ =>
    (name ∈ (clients (load s.file)).map (·.name) ∨ none ∈ s.slots) ∧
      (hasClient name s.slots = true ∨ none ∈ s.slots → e.Plain)

/-- What a save must find: a failed one leaves a file of the same clients, and one that goes through
writes `change` of the file, as far as it is about clients. -/
def Node.Saves (s : Node) (change : Entries → Entries) : Save → Prop
  | .failed left => setup (load left) = setup (load s.file)
  | .written => clients (change s.entries) = clients (change (load s.file))

/-- An add request that gets as far as the save. -/
structure Node.Accepts (s : Node) (b : AddBody) : Prop where
  name : b.name ≠ []
  host : b.host ≠ []
  port : 0 < b.port ∧ b.port ≤ 65535
  discoverable : b.discoverable = false
  free : lookup b.name s.entries = none
  slot : hasClient b.name s.slots = false ∧ none ∈ s.slots

/-- The request keeps the clients in step with the file. -/
def Node.Ok (s : Node) : Event → Prop
  | .boot read => read = true ∨ clients (load s.file) = []
  | .add auth b save => auth = true → s.Accepts b → s.Saves (insert b.name b.entry) save
  | .remove auth name save => ∀ e, auth = true → s.find name = some e →
    save = .written ∧ s.Saves (erase name) save ∧ s.LeavesAlone name
  | .patch auth name b save => ∀ e, auth = true → s.find name = some e → b.discoverable = false →
    s.Saves (insert name (b.patched e)) save ∧ (save = .written →
      if b.changes e then s.Rebuilds name (b.patched e)
      else clients (insert name (b.patched e) s.entries) = clients (load s.file))

section slots

variable {slots slots' : Slots} {name host : Bytes} {port : UInt16} {cfg : Entry} {c : Client}

lemma mem_live : c ∈ live slots ↔ some c ∈ slots := by
  simp [live]

lemma hasClient_iff : hasClient name slots = true ↔ name ∈ (live slots).map (·.name) := by
  rw [hasClient, List.any_eq_true, List.mem_map]
  constructor
  · rintro ⟨o, ho, hn⟩
    cases o with
    | none => cases hn
    | some c => exact ⟨c, mem_live.mpr ho, of_decide_eq_true hn⟩
  · rintro ⟨c, hc, hn⟩
    exact ⟨some c, mem_live.mp hc, decide_eq_true hn⟩

lemma place_some (h : place c slots = some slots') :
    (live slots').Perm (c :: live slots) ∧ slots'.length = slots.length := by
  induction slots generalizing slots' with
  | nil => cases h
  | cons o slots ih =>
    cases o with
    | none =>
      cases h
      exact ⟨.refl _, rfl⟩
    | some d =>
      obtain ⟨rest, hrest, rfl⟩ := Option.map_eq_some_iff.mp h
      obtain ⟨hp, hl⟩ := ih hrest
      exact ⟨(hp.cons d).trans (.swap c d _), congrArg Nat.succ hl⟩

lemma place_of_free (h : none ∈ slots) : ∃ slots', place c slots = some slots' := by
  induction slots with
  | nil => cases h
  | cons o slots ih =>
    cases o with
    | none => exact ⟨_, rfl⟩
    | some d =>
      obtain ⟨rest, hrest⟩ := ih ((List.mem_cons.mp h).resolve_left nofun)
      exact ⟨_, by rw [place, hrest]; rfl⟩

lemma place_of_full (h : none ∉ slots) : place c slots = none := by
  induction slots with
  | nil => rfl
  | cons o slots ih =>
    cases o with
    | none => exact absurd List.mem_cons_self h
    | some d => rw [place, ih fun hm => h (List.mem_cons_of_mem _ hm)]; rfl

/-- A client that is added, under a free name and into a free slot. -/
lemma addClient_of_free (hn : name ≠ []) (hh : host ≠ []) (hc : hasClient name slots = false)
    (hf : none ∈ slots) : ∃ slots', addClient slots name host port cfg = (slots', true) ∧
      (live slots').Perm (applyModeIfac { name, host, port } cfg .full :: live slots) ∧
      slots'.length = slots.length := by
  obtain ⟨slots', hp⟩ := place_of_free (c := applyModeIfac { name, host, port } cfg .full) hf
  refine ⟨slots', ?_, place_some hp⟩
  have hcond : ¬ (name = [] ∨ host = []) := fun h => h.elim hn hh
  rw [addClient, if_neg hcond, if_neg (Bool.eq_false_iff.mp hc), hp]

/-- Nothing is added otherwise. -/
lemma addClient_of_not (h : name = [] ∨ host = [] ∨ hasClient name slots = true ∨ none ∉ slots) :
    addClient slots name host port cfg = (slots, false) := by
  unfold addClient
  split
  next => rfl
  next hcond =>
    split
    next => rfl
    next hc =>
      have hf : none ∉ slots := by
        rcases h with h | h | h | h
        · exact absurd (.inl h) hcond
        · exact absurd (.inr h) hcond
        · exact absurd h hc
        · exact h
      rw [place_of_full hf]

lemma length_removeClient : (removeClient name slots).length = slots.length := by
  induction slots with
  | nil => rfl
  | cons o slots ih =>
    cases o with
    | none => exact congrArg Nat.succ ih
    | some c =>
      unfold removeClient
      split
      next => rfl
      next => exact congrArg Nat.succ ih

lemma removeClient_of_not (h : hasClient name slots = false) : removeClient name slots = slots := by
  induction slots with
  | nil => rfl
  | cons o slots ih =>
    rw [hasClient, List.any_cons, Bool.or_eq_false_iff] at h
    cases o with
    | none => exact congrArg (none :: ·) (ih h.2)
    | some c =>
      rw [removeClient, if_neg (of_decide_eq_false h.1), ih h.2]

/-- The client of the name leaves its slot. -/
lemma live_removeClient (hn : ((live slots).map (·.name)).Nodup) :
    live (removeClient name slots) = (live slots).filter (·.name ≠ name) := by
  induction slots with
  | nil => rfl
  | cons o slots ih =>
    cases o with
    | none => exact ih hn
    | some c =>
      obtain ⟨hc, hrest⟩ := List.nodup_cons.mp hn
      have hcons : live (some c :: slots) = c :: live slots := rfl
      unfold removeClient
      split
      next e =>
        rw [hcons, List.filter_cons_of_neg (by simpa using e)]
        have hne : ∀ d ∈ live slots, d.name ≠ name := fun d hd e' =>
          hc (List.mem_map.mpr ⟨d, hd, e'.trans e.symm⟩)
        exact (List.filter_eq_self.mpr fun d hd => decide_eq_true (hne d hd)).symm
      next e =>
        rw [hcons, List.filter_cons_of_pos (by simpa using e), ← ih hrest]
        rfl

lemma free_removeClient (h : hasClient name slots = true) : none ∈ removeClient name slots := by
  induction slots with
  | nil => cases h
  | cons o slots ih =>
    cases o with
    | none => exact List.mem_cons_self
    | some c =>
      unfold removeClient
      split
      next => exact List.mem_cons_self
      next e =>
        rw [hasClient, List.any_cons, Bool.or_eq_true] at h
        exact List.mem_cons_of_mem _ (ih (h.resolve_left fun h => e (of_decide_eq_true h)))

/-- A free slot is one that no live client is in. -/
lemma length_live_lt (h : none ∈ slots) : (live slots).length < slots.length := by
  refine (List.length_filterMap_lt_length_iff_exists).mpr ⟨none, h, rfl⟩

end slots

section boot

variable {x : Bytes × Entry} {t : Entries} {l : List Client} {c : Client} {file : File}

lemma clientOf_name (h : clientOf x = some c) : c.name = x.1 := by
  unfold clientOf at h
  split at h
  next => cases h; rfl
  next => cases h

/-- The slots with clients in the first of them. -/
def filled (l : List Client) : Slots :=
  l.map some ++ List.replicate (TCP_MAX_CLIENTS - l.length) none

lemma live_filled : live (filled l) = l := by
  rw [live, filled, List.filterMap_append, List.filterMap_map, List.filterMap_replicate_of_none rfl,
    List.append_nil]
  exact List.filterMap_some

lemma length_filled (h : l.length ≤ TCP_MAX_CLIENTS) : (filled l).length = TCP_MAX_CLIENTS := by
  rw [filled, List.length_append, List.length_map, List.length_replicate]
  omega

lemma place_filled (h : l.length < TCP_MAX_CLIENTS) :
    place c (filled l) = some (filled (l ++ [c])) := by
  have key : ∀ rest : Slots, place c (l.map some ++ none :: rest) = some
    (l.map some ++ some c :: rest) := by
    intro rest
    clear h
    induction l with
    | nil => rfl
    | cons d l ih => rw [List.map_cons, List.cons_append, place, ih]; rfl
  obtain ⟨n, hn⟩ : ∃ n, TCP_MAX_CLIENTS - l.length = n + 1 := ⟨_, (Nat.succ_pred (by omega)).symm⟩
  have hn' : TCP_MAX_CLIENTS - (l ++ [c]).length = n := by
    rw [List.length_append, List.length_singleton]
    omega
  rw [filled, filled, hn, hn', List.replicate_succ, key, List.map_append, List.append_assoc]
  rfl

/-- An entry that describes no client is passed over. -/
lemma setupEntry_none {slots : Slots} (h : clientOf x = none) : setupEntry slots x = slots := by
  unfold setupEntry
  split
  next ht =>
    have hcond : x.1 = [] ∨ x.2.host = [] := by
      by_contra hn
      rw [not_or] at hn
      rw [clientOf, if_pos ⟨ht, hn⟩] at h
      cases h
    rw [addClient_of_not (hcond.imp_right .inl)]
  next => rfl

/-- The client of an entry goes into the first free slot. -/
lemma setupEntry_some (h : clientOf x = some c) (hc : c.name ∉ l.map (·.name)) :
    setupEntry (filled l) x = if l.length < TCP_MAX_CLIENTS then filled (l ++ [c])
    else filled l := by
  have hno : hasClient x.1 (filled l) = false := by
    rw [Bool.eq_false_iff, Ne, hasClient_iff, live_filled, ← clientOf_name h]
    exact hc
  unfold clientOf at h
  split at h
  next hcond =>
    cases h
    obtain ⟨ht, hn, hh⟩ := hcond
    have hcond : ¬ (x.1 = [] ∨ x.2.host = []) := fun e => e.elim hn hh
    rw [setupEntry, if_pos ht, addClient, if_neg hcond, if_neg (Bool.eq_false_iff.mp hno)]
    by_cases hlt : l.length < TCP_MAX_CLIENTS
    · rw [place_filled hlt, if_pos hlt]
    · rw [if_neg hlt]
      have hfull : none ∉ filled l := by
        have hz : TCP_MAX_CLIENTS - l.length = 0 := Nat.sub_eq_zero_of_le (Nat.le_of_not_lt hlt)
        rw [filled, hz, List.replicate_zero, List.append_nil]
        intro hm
        obtain ⟨d, -, hd⟩ := List.mem_map.mp hm
        cases hd
      rw [place_of_full hfull]
  next => cases h

/-- The loop of `setup`, from its first turns on. -/
lemma foldl_setupEntry (hn : ((l ++ clients t).map (·.name)).Nodup)
    (hl : l.length ≤ TCP_MAX_CLIENTS) :
    t.foldl setupEntry (filled l) = filled ((l ++ clients t).take TCP_MAX_CLIENTS) := by
  induction t generalizing l with
  | nil => rw [clients, items, List.filterMap_nil, List.append_nil, List.take_of_length_le hl]; rfl
  | cons x t ih =>
    rw [List.foldl_cons]
    cases hx : clientOf x with
    | none =>
      have hcl : clients (x :: t) = clients t := List.filterMap_cons_none hx
      rw [hcl] at hn ⊢
      rw [setupEntry_none hx, ih hn hl]
    | some c =>
      have hcl : clients (x :: t) = c :: clients t := List.filterMap_cons_some hx
      rw [hcl] at hn ⊢
      have hc : c.name ∉ l.map (·.name) := fun hm => by
        rw [List.map_append, List.map_cons] at hn
        exact (List.nodup_append.mp hn).2.2 _ hm _ List.mem_cons_self rfl
      rw [setupEntry_some hx hc]
      split
      next hlt =>
        have happ : l ++ c :: clients t = (l ++ [c]) ++ clients t := by
          rw [List.append_assoc]
          rfl
        rw [happ] at hn ⊢
        exact ih hn (by rw [List.length_append]; exact hlt)
      next hlt =>
        have hn' : ((l ++ clients t).map (·.name)).Nodup := by
          refine hn.sublist (List.Sublist.map _ ?_)
          exact List.Sublist.append_left (List.sublist_cons_self c _) l
        have htake : ∀ r : List Client, (l ++ r).take TCP_MAX_CLIENTS = l := fun r => by
          rw [List.take_append_of_le_length (by omega), List.take_of_length_le hl]
        rw [ih hn' hl, htake, htake]

/-- `setup` gives the slots to the first clients of the entries. -/
lemma setup_eq (h : Sorted t) : setup t = filled ((clients t).take TCP_MAX_CLIENTS) :=
  foldl_setupEntry (l := []) (items_nodup clientOf_name h) (Nat.zero_le _)

lemma sorted_load : Sorted (load file) := by
  let f := fun x : Bytes × Member => (x.1, x.2.toEntry)
  have h : Sorted (file.foldl (fun acc x => Lib.insert (f x).1 (f x).2 acc) ([] : Entries)) :=
    .foldl .nil
  exact h

end boot

section saved

variable {e : Entry} {name : Bytes} {t : Entries}

lemma typeFromStr_typeToStr (k : Kind) : typeFromStr (typeToStr k) = k := by
  cases k <;> decide

lemma modeFromStr_modeToStr (m : Mode) : modeFromStr (modeToStr m) = some m := by
  cases m <;> decide

lemma ofInt_tdiv (n : UInt16) : UInt16.ofInt (((n.toNat * 8 : Nat) : Int).tdiv 8) = n := by
  have h : ((n.toNat * 8 : Nat) : Int).tdiv 8 = n.toNat := by
    rw [Int.tdiv_eq_ediv_of_nonneg (Int.natCast_nonneg _)]
    omega
  have hlt := n.toNat_lt
  rw [h, UInt16.ofInt, Int.emod_eq_of_lt (Int.natCast_nonneg _) (by exact_mod_cast hlt),
    Int.toNat_natCast, UInt16.ofNat_toNat]

/-- What a save writes of an entry describes the same client. -/
lemma clientOf_saved : clientOf (name, e.toMember.toEntry) = clientOf (name, e) := by
  have ht : e.toMember.toEntry.type = e.type := typeFromStr_typeToStr e.type
  have hm : e.toMember.toEntry.mode = e.mode := by
    show modeFromStr ((e.mode.map modeToStr).getD "") = e.mode
    cases e.mode with
    | none => decide
    | some m => exact modeFromStr_modeToStr m
  have hi : ∀ c : Client, applyModeIfac c e.toMember.toEntry .full = applyModeIfac c e .full := by
    intro c
    unfold applyModeIfac
    rw [hm]
    by_cases hs : e.ifacSize > 0
    · have hsize : e.toMember.toEntry.ifacSize = e.ifacSize := by
        show UInt16.ofInt (Int.tdiv
          ((if e.ifacSize > 0 then some ((e.ifacSize.toNat * 8 : Nat) : Int)
          else none).getD 0) 8) = e.ifacSize
        rw [if_pos hs]
        exact ofInt_tdiv e.ifacSize
      have hname : e.toMember.toEntry.ifacNetname = e.ifacNetname := by
        show (if e.ifacSize > 0 then some e.ifacNetname else none).getD [] = e.ifacNetname
        rw [if_pos hs]
        rfl
      have hkey : e.toMember.toEntry.ifacNetkey = e.ifacNetkey := by
        show (if e.ifacSize > 0 then some e.ifacNetkey else none).getD [] = e.ifacNetkey
        rw [if_pos hs]
        rfl
      rw [hsize, hname, hkey]
    · have hsize : ¬ e.toMember.toEntry.ifacSize > 0 := by
        show ¬ UInt16.ofInt (Int.tdiv
          ((if e.ifacSize > 0 then some ((e.ifacSize.toNat * 8 : Nat) : Int)
          else none).getD 0) 8) > 0
        rw [if_neg hs]
        decide
      rw [if_neg hs, if_neg hsize]
  unfold clientOf
  rw [ht]
  by_cases h : e.type = .tcpClient
  · have hh : e.toMember.toEntry.host = e.host := by
      show (if e.type = .tcpClient then some e.host else none).getD [] = e.host
      rw [if_pos h]
      rfl
    have hp : e.toMember.toEntry.port = e.port := by
      show (if e.type = .tcpClient ∨ e.type = .udp then some e.port else none).getD 0 = e.port
      rw [if_pos (.inl h)]
      rfl
    rw [hh, hp, hi]
  · rw [if_neg fun hc => h hc.1, if_neg fun hc => h hc.1]

/-- A map that is saved and loaded describes the same clients. -/
lemma clients_saved (h : Sorted t) :
    clients (load (t.map fun x => (x.1, x.2.toMember))) = clients t := by
  have hload : load (t.map fun x => (x.1, x.2.toMember)) =
      t.map fun x => (x.1, x.2.toMember.toEntry) := by
    have hs : Sorted ([] ++ t.map fun x => (x.1, x.2.toMember.toEntry)) := List.pairwise_map.mpr h
    have hf := foldl_insert hs
    rw [List.foldl_map] at hf
    rw [load, List.foldl_map]
    exact hf
  rw [hload, clients, items, List.filterMap_map]
  refine List.filterMap_congr fun x _ => ?_
  exact clientOf_saved

end saved

section steps

variable {s : Node} {name : Bytes} {e : Entry} {b : PatchBody} {save : Save} {file left : File}
variable {slots slots' : Slots} {c : Client} {entries : Entries}

/-- What a state between two requests stands for. -/
structure Inv (s : Node) : Prop where
  length : s.slots.length = TCP_MAX_CLIENTS
  names : ((live s.slots).map (·.name)).Nodup
  fills : Fills TCP_MAX_CLIENTS (clients (load s.file)) (live s.slots)
  sorted : Sorted s.entries
  reported : ∀ x ∈ s.saves, x.1 = false → 500 ≤ x.2

lemma Inv.matches (h : Inv s) : Matches s where
  live c := by
    rw [← mem_live, h.fills c, setup_eq sorted_load, ← mem_live, live_filled]
  reported := h.reported

/-- Live clients in another order. -/
lemma Fills.perm {all held held' : List Client} {n : Nat} (h : Fills n all held)
    (hp : held'.Perm held) : Fills n all held' := fun c => hp.mem_iff.trans (h c)

/-- Files of the same clients. -/
lemma fills_of_setup (h : Fills TCP_MAX_CLIENTS (clients (load file)) (live slots))
    (hs : setup (load left) = setup (load file)) :
    Fills TCP_MAX_CLIENTS (clients (load left)) (live slots) := fun c => by
  have e := congrArg live hs
  rw [setup_eq sorted_load, setup_eq sorted_load, live_filled, live_filled] at e
  rw [h c, e]

lemma clients_nodup (h : Sorted entries) : ((clients entries).map (·.name)).Nodup :=
  items_nodup clientOf_name h

/-- A free slot is one that no entry needs. -/
lemma Inv.room (h : Inv s) (hf : none ∈ s.slots) :
    (clients (load s.file)).length < TCP_MAX_CLIENTS := by
  have hl : (live s.slots).length < TCP_MAX_CLIENTS := h.length ▸ length_live_lt hf
  exact h.fills.room (clients_nodup sorted_load) h.names hl

lemma Inv.start : Inv (started file) := by
  have hs := setup_eq (@sorted_load file)
  have hslots : (started file).slots = filled ((clients (load file)).take TCP_MAX_CLIENTS) := hs
  refine ⟨?_, ?_, ?_, sorted_load, nofun⟩
  · rw [hslots]
    exact length_filled (List.length_take_le _ _)
  · rw [hslots, live_filled]
    exact (clients_nodup sorted_load).sublist ((List.take_sublist _ _).map _)
  · rw [hslots, live_filled]
    exact fun c => Iff.rfl

lemma names_cons (hl : ((live slots).map (·.name)).Nodup) (hc : hasClient c.name slots = false)
    (hp : (live slots').Perm (c :: live slots)) : ((live slots').map (·.name)).Nodup := by
  rw [(hp.map _).nodup_iff, List.map_cons, List.nodup_cons]
  exact ⟨fun hm => Bool.eq_false_iff.mp hc (hasClient_iff.mpr hm), hl⟩

lemma hasClient_removeClient (hl : ((live slots).map (·.name)).Nodup) :
    hasClient name (removeClient name slots) = false := by
  rw [Bool.eq_false_iff, Ne, hasClient_iff, live_removeClient hl]
  intro hm
  obtain ⟨d, hd, e⟩ := List.mem_map.mp hm
  exact of_decide_eq_true (List.mem_filter.mp hd).2 e

lemma names_removeClient (hl : ((live slots).map (·.name)).Nodup) :
    ((live (removeClient name slots)).map (·.name)).Nodup := by
  rw [live_removeClient hl]
  exact hl.sublist (List.filter_sublist.map _)

/-- Without a mode and an access code the interface is built from the name, the host and the
port. -/
lemma applyModeIfac_plain {iface : Client} (h : e.Plain) :
    applyModeIfac iface {} .full = applyModeIfac iface e .full := by
  obtain ⟨hm, hs⟩ := h
  have hno : ¬ e.ifacSize > 0 := by
    rw [hs]
    decide
  unfold applyModeIfac
  rw [hm, if_neg hno, if_neg (by decide)]
  rfl

/-- The live interface follows its entry. -/
lemma Inv.rebuilt (h : Inv s) (ht : e.type = .tcpClient) (hr : s.Rebuilds name e) :
    (rebuild s.slots name e).length = TCP_MAX_CLIENTS ∧
      ((live (rebuild s.slots name e)).map (·.name)).Nodup ∧
      Fills TCP_MAX_CLIENTS (clients (insert name e (load s.file)))
      (live (rebuild s.slots name e)) := by
  have hlen : (removeClient name s.slots).length = TCP_MAX_CLIENTS :=
    length_removeClient.trans h.length
  unfold Node.Rebuilds at hr
  cases hc : clientOf (name, e) with
  | none =>
    rw [hc] at hr
    have hcond : name = [] ∨ e.host = [] := by
      by_contra hn
      rw [not_or] at hn
      rw [clientOf, if_pos ⟨ht, hn⟩] at hc
      cases hc
    have he : rebuild s.slots name e = removeClient name s.slots := by
      unfold rebuild
      rw [addClient_of_not (hcond.imp_right .inl)]
    rw [he]
    refine ⟨hlen, names_removeClient h.names, ?_⟩
    rw [live_removeClient h.names, clients, items_insert_none clientOf_name hc]
    exact h.fills.filter fun hm => hr (hasClient_iff.mpr hm)
  | some c =>
    rw [hc] at hr
    obtain ⟨hin, hplain⟩ := hr
    have hname : c.name = name := clientOf_name hc
    obtain ⟨hn, hh, hval⟩ : name ≠ [] ∧ e.host ≠ [] ∧
        applyModeIfac { name, host := e.host, port := UInt16.ofInt e.port } e .full = c := by
      unfold clientOf at hc
      split at hc
      next hcond => exact ⟨hcond.2.1, hcond.2.2, Option.some.inj hc⟩
      next => cases hc
    have hadd : ∀ {slots : Slots}, hasClient name slots = false → none ∈ slots → e.Plain →
        ∃ slots', addClient slots name e.host (UInt16.ofInt e.port) = (slots', true) ∧
          (live slots').Perm (c :: live slots) ∧ slots'.length = slots.length := by
      intro slots hno hf hp
      obtain ⟨slots', ha, hperm, hl⟩ := @addClient_of_free _ _ _
        (UInt16.ofInt e.port) {} hn hh hno hf
      rw [applyModeIfac_plain hp, hval] at hperm
      exact ⟨slots', ha, hperm, hl⟩
    cases hheld : hasClient name s.slots with
    | true =>
      -- the client leaves its slot and gets it back
      have hno : hasClient name (removeClient name s.slots) = false :=
        hasClient_removeClient h.names
      obtain ⟨slots', ha, hperm, hl⟩ := hadd hno (free_removeClient hheld) (hplain (.inl hheld))
      have he : rebuild s.slots name e = slots' := congrArg Prod.fst ha
      have hmem := hasClient_iff.mp hheld
      have hold : name ∈ (clients (load s.file)).map (·.name) := by
        obtain ⟨d, hd, e'⟩ := List.mem_map.mp hmem
        exact List.mem_map.mpr ⟨d, List.mem_of_mem_take ((h.fills d).mp hd), e'⟩
      rw [he]
      refine ⟨hl.trans hlen, names_cons (names_removeClient h.names) (hname.symm ▸ hno) hperm, ?_⟩
      rw [clients, items_insert_old clientOf_name sorted_load hc hold]
      rw [live_removeClient h.names] at hperm
      exact Fills.perm (h.fills.replace hname hmem) hperm
    | false =>
      have hmem : name ∉ (live s.slots).map (·.name) := fun hm =>
        Bool.eq_false_iff.mp hheld (hasClient_iff.mpr hm)
      by_cases hold : name ∈ (clients (load s.file)).map (·.name)
      · -- an entry behind the last slot: there is no slot for its client
        have hfull : none ∉ s.slots := fun hf => by
          have hroom := h.room hf
          obtain ⟨d, hd, e'⟩ := List.mem_map.mp hold
          refine hmem (List.mem_map.mpr ⟨d, (h.fills d).mpr ?_, e'⟩)
          rwa [List.take_of_length_le hroom.le]
        have he : rebuild s.slots name e = s.slots := by
          unfold rebuild
          rw [removeClient_of_not hheld, addClient_of_not (.inr (.inr (.inr hfull)))]
        rw [he, clients, items_insert_old clientOf_name sorted_load hc hold]
        exact ⟨h.length, h.names, h.fills.replace_behind hmem⟩
      · -- the entry had no client before
        have hfree := hin.resolve_left hold
        obtain ⟨slots', ha, hperm, hl⟩ := hadd hheld hfree (hplain (.inr hfree))
        have he : rebuild s.slots name e = slots' := by
          unfold rebuild
          rw [removeClient_of_not hheld, ha]
        rw [he]
        refine ⟨hl.trans h.length, names_cons h.names (hname.symm ▸ hheld) hperm, ?_⟩
        exact Fills.perm (h.fills.push (h.room hfree)
          (items_insert_new clientOf_name hc hold)) hperm

/-- A request that saved is answered. -/
lemma Inv.answer {saved : Bool} {r : Reply} (h : Inv s) (hr : saved = false → 500 ≤ r.status) :
    Inv (s.answer saved r).1 where
  length := h.length
  names := h.names
  fills := h.fills
  sorted := h.sorted
  reported x hx hno := by
    rcases List.mem_append.mp hx with hx | hx
    · exact h.reported x hx hno
    · obtain rfl := List.mem_singleton.mp hx
      exact hr hno

/-- The map changes, and its save fails. -/
lemma Inv.unsaved (h : Inv s) (hs : Sorted entries) (hl : setup (load left) = setup (load s.file)) :
    Inv { s with entries, file := left } :=
  ⟨h.length, h.names, fills_of_setup h.fills hl, hs, h.reported⟩

/-- The map changes and is saved, and the slots follow. -/
lemma Inv.saved (h : Inv s) (hs : Sorted entries) (hl : slots.length = TCP_MAX_CLIENTS)
    (hn : ((live slots).map (·.name)).Nodup)
    (hf : Fills TCP_MAX_CLIENTS (clients entries) (live slots)) :
    Inv { s with entries, slots, file := entries.map fun x => (x.1, x.2.toMember) } := by
  refine ⟨hl, hn, ?_, hs, h.reported⟩
  rw [clients_saved hs]
  exact hf

lemma Inv.change (h : Inv s) (ht : e.type = .tcpClient)
    (hs : s.Saves (insert name (b.patched e)) save)
    (hw : save = .written → if b.changes e then s.Rebuilds name (b.patched e)
      else clients (insert name (b.patched e) s.entries) = clients (load s.file)) :
    Inv (s.change name e b save).1 := by
  cases save with
  | failed left =>
    exact (h.unsaved h.sorted.insert hs).answer fun _ => le_rfl
  | written =>
    have hs : clients (insert name (b.patched e) s.entries) =
        clients (insert name (b.patched e) (load s.file)) := hs
    refine Inv.answer ?_ nofun
    have hw := hw rfl
    cases hch : b.changes e with
    | false =>
      rw [hch, if_neg Bool.false_ne_true] at hw
      rw [if_neg Bool.false_ne_true]
      exact h.saved h.sorted.insert h.length h.names (hw ▸ h.fills)
    | true =>
      rw [hch, if_pos rfl] at hw
      rw [if_pos rfl]
      obtain ⟨hl, hn, hf⟩ := h.rebuilt (e := b.patched e) ht hw
      exact h.saved h.sorted.insert hl hn (hs ▸ hf)

lemma find_type (h : s.find name = some e) : e.type = .tcpClient :=
  of_decide_eq_true (Option.filter_eq_some_iff.mp h).2

lemma Inv.patch {auth : Bool} (h : Inv s) (hok : s.Ok (.patch auth name b save)) :
    Inv (s.patch auth name b save).1 := by
  unfold Node.patch
  split
  next => exact h
  next hauth =>
    split
    next => exact h
    next e hfind =>
      split
      next => exact h
      next hd =>
        obtain ⟨hs, hw⟩ := hok e (Bool.not_eq_false _ ▸ hauth) hfind (Bool.not_eq_true _ ▸ hd)
        exact h.change (find_type hfind) hs hw

lemma Inv.delete {auth : Bool} (h : Inv s) (hok : s.Ok (.remove auth name save)) :
    Inv (s.delete auth name save).1 := by
  unfold Node.delete
  split
  next => exact h
  next hauth =>
    split
    next => exact h
    next e hfind =>
      obtain ⟨rfl, hs, hleaves⟩ := hok e (Bool.not_eq_false _ ▸ hauth) hfind
      have hs : clients (erase name s.entries) = clients (erase name (load s.file)) := hs
      refine Inv.answer ?_ nofun
      refine h.saved h.sorted.erase (length_removeClient.trans h.length)
        (names_removeClient h.names) ?_
      rw [hs, live_removeClient h.names, clients, items_erase clientOf_name]
      exact h.fills.filter fun hm => hleaves (hasClient_iff.mpr hm)

lemma Inv.create {b : AddBody} (h : Inv s)
    (hok : s.Accepts b → s.Saves (insert b.name b.entry) save) (hn : b.name ≠ []) (hh : b.host ≠ [])
    (hp : 0 < b.port ∧ b.port ≤ 65535) (hd : b.discoverable = false)
    (hfree : lookup b.name s.entries = none) : Inv (s.create b save).1 := by
  by_cases hslot : hasClient b.name s.slots = false ∧ none ∈ s.slots
  · obtain ⟨slots', ha, hperm, hl⟩ := @addClient_of_free _ _ _
      (UInt16.ofInt b.port) {} hn hh hslot.1 hslot.2
    have hs := hok ⟨hn, hh, hp, hd, hfree, hslot⟩
    have hnames := names_cons h.names hslot.1 hperm
    have hc : clientOf (b.name, b.entry) =
        some (applyModeIfac { name := b.name, host := b.host, port := UInt16.ofInt b.port }
        {} .full) := by
      rw [clientOf, if_pos ⟨rfl, hn, hh⟩]
      rfl
    unfold Node.create
    rw [ha]
    cases save with
    | failed left =>
      -- the new client leaves the slots again
      refine Inv.answer ?_ fun _ => le_rfl
      have hlive : (live (removeClient b.name slots')).Perm (live s.slots) := by
        rw [live_removeClient hnames]
        refine (hperm.filter _).trans ?_
        rw [List.filter_cons_of_neg (by simp [applyModeIfac])]
        have hne : ∀ d ∈ live s.slots, d.name ≠ b.name := fun d hd e' =>
          Bool.eq_false_iff.mp hslot.1 (hasClient_iff.mpr (List.mem_map.mpr ⟨d, hd, e'⟩))
        rw [List.filter_eq_self.mpr fun d hd => decide_eq_true (hne d hd)]
      exact ⟨length_removeClient.trans (hl.trans h.length), names_removeClient hnames,
        Fills.perm (fills_of_setup h.fills hs) hlive, h.sorted.insert, h.reported⟩
    | written =>
      have hs : clients (insert b.name b.entry s.entries) =
          clients (insert b.name b.entry (load s.file)) := hs
      refine Inv.answer ?_ nofun
      have hroom := h.room hslot.2
      have hnew : b.name ∉ (clients (load s.file)).map (·.name) := fun hm => by
        obtain ⟨d, hd, e'⟩ := List.mem_map.mp hm
        refine Bool.eq_false_iff.mp hslot.1 (hasClient_iff.mpr (List.mem_map.mpr ⟨d, ?_, e'⟩))
        rw [h.fills d, List.take_of_length_le hroom.le]
        exact hd
      refine h.saved h.sorted.insert (hl.trans h.length) hnames ?_
      rw [hs]
      exact Fills.perm (h.fills.push hroom (items_insert_new clientOf_name hc hnew)) hperm
  · have ha : addClient s.slots b.name b.host (UInt16.ofInt b.port) = (s.slots, false) := by
      refine addClient_of_not (.inr (.inr ?_))
      cases hheld : hasClient b.name s.slots with
      | true => exact .inl rfl
      | false => exact .inr fun hf => hslot ⟨hheld, hf⟩
    unfold Node.create
    rw [ha]
    exact h

lemma Inv.add {auth : Bool} {b : AddBody} (h : Inv s) (hok : s.Ok (.add auth b save)) :
    Inv (s.add auth b save).1 := by
  unfold Node.add
  split
  next => exact h
  next hauth =>
    split
    next => exact h
    next hargs =>
      split
      next => exact h
      next hd =>
        split
        next => exact h
        next hfree =>
          simp only [not_or, not_le, gt_iff_lt, not_lt] at hargs
          obtain ⟨hn, hh, h0, h1⟩ := hargs
          exact h.create (hok (Bool.not_eq_false _ ▸ hauth)) hn hh ⟨h0, h1⟩
            (Bool.not_eq_true _ ▸ hd) (Option.not_isSome_iff_eq_none.mp hfree)

lemma Inv.boot {read : Bool} (h : Inv s) (hok : s.Ok (.boot read)) : Inv (s.boot read) := by
  have hsorted : Sorted (if read then load s.file else []) := by
    cases read with
    | true => exact sorted_load
    | false => exact .nil
  have hclients : clients (if read then load s.file else []) = clients (load s.file) := by
    cases read with
    | true => rfl
    | false => exact (hok.resolve_left Bool.false_ne_true).symm
  have hslots : (s.boot read).slots = filled ((clients (load s.file)).take TCP_MAX_CLIENTS) := by
    rw [← hclients]
    exact setup_eq hsorted
  refine ⟨?_, ?_, ?_, hsorted, h.reported⟩
  · rw [hslots]
    exact length_filled (List.length_take_le _ _)
  · rw [hslots, live_filled]
    exact (clients_nodup sorted_load).sublist ((List.take_sublist _ _).map _)
  · rw [hslots, live_filled]
    exact fun c => Iff.rfl

lemma Inv.step {ev : Event} (h : Inv s) (hok : s.Ok ev) : Inv (s.step ev) := by
  cases ev with
  | boot read => exact h.boot hok
  | add auth b save => exact h.add hok
  | remove auth name save => exact h.delete hok
  | patch auth name b save => exact h.patch hok

/-- **In a run of requests that keep the clients in step with the file** the live clients are those
that `setup` would build, after every request. -/
theorem matches_of_ok (h : Reach Node.step Node.Ok (started file) s) : Matches s :=
  (h.invariant Inv.start fun hok h => h.step hok).matches

/-- A client is added, and gets another host. -/
def edits : List Event :=
  [.add true { name := [98], host := [104], port := 4242 } .written,
    .patch true [98] { host := some [105] } .written]

theorem matches_of_ok_edits :
    Matches (edits.foldl Node.step (started [])) ∧
      (edits.foldl Node.step (started [])).slots =
        [some { name := [98], host := [105], port := 4242 }, none, none, none] := by
  refine ⟨matches_of_ok (Reach.init.run ⟨?_, ?_, trivial⟩), by decide⟩
  · intro _ _
    show clients _ = clients _
    decide
  · intro e _ he _
    have hfind : ((started []).step
      (.add true { name := [98], host := [104], port := 4242 } .written)).find [98] = some
      { type := .tcpClient, host := [104], port := 4242 } := by decide
    obtain rfl := Option.some.inj (hfind.symm.trans he)
    refine ⟨?_, fun _ => ?_⟩
    · show clients _ = clients _
      decide
    · exact ⟨.inl (by decide), fun _ => ⟨by decide, by decide⟩⟩

/-- The file of a client with an access code. -/
def privateFile : File :=
  [([98], { type := some "tcp_client", host := some [104], port := some 4242,
            ifacNetname := some [110], ifacNetkey := some [107], ifacSize := some 128 })]

/-- Another host, and the client runs without its access code. -/
theorem not_matches_private :
    ¬ Matches ((started privateFile).step (.patch true [98] { host := some [105] } .written)) := by
  intro h
  have hlive : (some { name := [98], host := [105], port := 4242 } : Option Client) ∈
      ((started privateFile).step (.patch true [98] { host := some [105] } .written)).slots :=
      by decide
  exact absurd ((h.live _).mp hlive) (by decide)

end steps

end URSupreme.TcpClients
