import URSupreme.LXMF.Delivery

/-!
# Record hashes

A pending send names its record by a hash: that of its packet, or of its first link. Status changes
go to every record of the owner's outbox with that hash. `Keyed R` says that those records and the
send are related by `R`; every step keeps it as long as the records that already have the hash of a
reused link are related to the new send.
-/

namespace URSupreme.Outbound
open Lib LXMF Relation

variable {C : Crypto} {lost : Prop} {s s' : Pending} {link recordHash destHash wire key : Bytes}
  {k now : Nat} {ps ps' : PendingLinkSend} {op : PendingOppSend} {env : SendEnv} {tag : Tag}
  {R : Tag → Tag → Prop}

/-- The hash of a record and the send that it is for. -/
def OutboxRecord.names (r : OutboxRecord) : Bytes × Tag := (r.packetHash, r.tag)

/-- The records that a hash names are for sends related by `R`. -/
structure Keyed (R : Tag → Tag → Prop) (s : Pending) : Prop where
  nonempty : [] ∉ s.issued
  records : ∀ k, ∀ r ∈ (s.slot k).outbox, r.packetHash = [] ∨ r.packetHash ∈ s.issued
  identity : ∀ k, ∀ r ∈ (s.slot k).outbox, r.tag.identity = (s.slot k).id
  links : ∀ x ∈ s.links, x.2.recordHash ∈ s.issued
  opps : ∀ x ∈ s.opps, x.2.recordHash ∈ s.issued
  cache : ∀ c ∈ s.directLinks, c.2 ∈ s.issued
  inj : ∀ c ∈ s.directLinks, ∀ c' ∈ s.directLinks, c.2 = c'.2 → c.1 = c'.1
  /-- A send whose first link is cached is still on it. -/
  cached : ∀ c ∈ s.directLinks, ∀ x ∈ s.links, x.2.recordHash = c.2 →
    x.1 = c.2 ∧ x.2.destHash = c.1
  oppCached : ∀ c ∈ s.directLinks, ∀ x ∈ s.opps, x.2.recordHash ≠ c.2
  linkRecords : ∀ x ∈ s.links, ∀ r ∈ (s.slot x.2.owner).outbox,
    r.packetHash = x.2.recordHash → R r.tag x.2.tag
  oppRecords : ∀ x ∈ s.opps, ∀ r ∈ (s.slot x.2.owner).outbox,
    r.packetHash = x.2.recordHash → R r.tag x.2.tag
  applied : ∀ p ∈ s.applied, R p.record p.send

/-- The outboxes hold the same hashes for the same sends, and what is pending was pending. -/
structure Traced (s s' : Pending) : Prop where
  id : ∀ k, (s'.slot k).id = (s.slot k).id
  outbox : ∀ k, (s'.slot k).outbox.map OutboxRecord.names = (s.slot k).outbox.map OutboxRecord.names
  issued : s.issued ⊆ s'.issued
  links : ∀ x ∈ s'.links, ∃ y ∈ s.links, x.2.recordHash = y.2.recordHash ∧
    x.2.owner = y.2.owner ∧ x.2.tag = y.2.tag
  opps : ∀ x ∈ s'.opps, ∃ y ∈ s.opps, OppKept y.2 x.2

/-- The members that `Traced` is about are the same. -/
lemma Traced.same (hs : s'.slot = s.slot) (hi : s.issued ⊆ s'.issued)
    (hl : ∀ x ∈ s'.links, ∃ y ∈ s.links, x.2.recordHash = y.2.recordHash ∧
      x.2.owner = y.2.owner ∧ x.2.tag = y.2.tag)
    (ho : ∀ x ∈ s'.opps, ∃ y ∈ s.opps, OppKept y.2 x.2) : Traced s s' :=
  ⟨fun k => by rw [hs], fun k => by rw [hs], hi, hl, ho⟩

lemma Traced.refl (s : Pending) : Traced s s :=
  .same rfl (List.Subset.refl _) (fun x hx => ⟨x, hx, rfl, rfl, rfl⟩)
    fun x hx => ⟨x, hx, .refl _⟩

lemma Traced.trans {s'' : Pending} (h : Traced s s') (h' : Traced s' s'') : Traced s s'' where
  id k := (h'.id k).trans (h.id k)
  outbox k := (h'.outbox k).trans (h.outbox k)
  issued := List.Subset.trans h.issued h'.issued
  links x hx := by
    obtain ⟨y, hy, e1, e2, e3⟩ := h'.links x hx
    obtain ⟨z, hz, e1', e2', e3'⟩ := h.links y hy
    exact ⟨z, hz, e1.trans e1', e2.trans e2', e3.trans e3'⟩
  opps x hx := by
    obtain ⟨y, hy, e⟩ := h'.opps x hx
    obtain ⟨z, hz, e'⟩ := h.opps y hy
    exact ⟨z, hz, e.recordHash.trans e'.recordHash, e.owner.trans e'.owner, e.tag.trans e'.tag⟩

/-- A status change leaves the hashes. -/
lemma Traced.notify {st : OutboxStatus} : Traced s (s.notify k recordHash st tag) := by
  unfold Pending.notify
  dsimp only
  split
  next =>
    refine ⟨fun j => ?_, fun j => ?_, List.Subset.refl _, (Traced.refl s).links,
      (Traced.refl s).opps⟩
    · by_cases hj : j = k
      · subst hj
        dsimp only
        rw [Function.update_self]
      · dsimp only
        rw [Function.update_of_ne hj]
    · by_cases hj : j = k
      · subst hj
        dsimp only
        rw [Function.update_self, List.map_map]
        refine List.map_congr_left fun r _ => ?_
        rw [Function.comp_apply]
        split <;> rfl
      · dsimp only
        rw [Function.update_of_ne hj]
  next => exact .refl s

lemma Kept.traced (hk : Kept lost ps ps') : ps'.recordHash = ps.recordHash ∧
    ps'.owner = ps.owner ∧ ps'.tag = ps.tag :=
  ⟨hk.recordHash, hk.owner, hk.tag⟩

/-- A change leaves the hashes. -/
lemma Traced.change (hc : Change lost s s') : Traced s s' := by
  have hr := Traced.refl s
  cases hc with
  | progress hl =>
    refine .same rfl hr.issued (fun x hx => ?_) hr.opps
    obtain ⟨y, hy, -, hk⟩ := hl x hx
    exact ⟨y, hy, hk.traced⟩
  | status | oppStatus => exact .notify
  | transmit => exact .same rfl hr.issued hr.links hr.opps
  | @drop x hx =>
    have hl : ∀ y ∈ erase x.1 s.links, y ∈ s.links := fun y hy => (mem_erase.mp hy).1
    unfold Pending.releaseWireFile
    split
    next => exact .same rfl hr.issued (fun y hy => hr.links y (hl y hy)) hr.opps
    next => exact .same rfl hr.issued (fun y hy => hr.links y (hl y hy)) hr.opps
  | move hx _ _ hk =>
    refine .same rfl (List.subset_append_left _ _) (fun y hy => ?_) hr.opps
    rcases mem_insert.mp hy with rfl | ⟨hy, -⟩
    · exact ⟨_, hx, hk.traced⟩
    · exact hr.links y (mem_erase.mp hy).1
  | uncache => exact .same rfl hr.issued hr.links hr.opps
  | oppProgress hl => exact .same rfl hr.issued hr.links hl

lemma Traced.changes (hc : Changes lost s s') : Traced s s' := by
  induction hc with
  | refl => exact .refl s
  | tail _ hc ih => exact ih.trans (.change hc)

/-- A record of the outbox after is one before, for its hash and send. -/
lemma Traced.mem (h : Traced s s') {r : OutboxRecord} (hr : r ∈ (s'.slot k).outbox) :
    ∃ r' ∈ (s.slot k).outbox, r.packetHash = r'.packetHash ∧ r.tag = r'.tag := by
  have hm : r.names ∈ (s'.slot k).outbox.map OutboxRecord.names := List.mem_map_of_mem hr
  rw [h.outbox] at hm
  obtain ⟨r', hr', e⟩ := List.mem_map.mp hm
  obtain ⟨e1, e2⟩ := Prod.mk.inj e
  exact ⟨r', hr', e1.symm, e2.symm⟩

/-- What is traced stays keyed, if the cache and the applied changes do. -/
lemma Keyed.traced (h : Keyed R s) (ht : Traced s s') (hne : [] ∉ s'.issued)
    (hcache : ∀ c ∈ s'.directLinks, c.2 ∈ s'.issued)
    (hinj : ∀ c ∈ s'.directLinks, ∀ c' ∈ s'.directLinks, c.2 = c'.2 → c.1 = c'.1)
    (hcached : ∀ c ∈ s'.directLinks, ∀ x ∈ s'.links, x.2.recordHash = c.2 →
      x.1 = c.2 ∧ x.2.destHash = c.1)
    (hopp : ∀ c ∈ s'.directLinks, ∀ x ∈ s'.opps, x.2.recordHash ≠ c.2)
    (happ : ∀ p ∈ s'.applied, R p.record p.send) : Keyed R s' where
  nonempty := hne
  records k r hr := by
    obtain ⟨r', hr', e, -⟩ := ht.mem hr
    rw [e]
    exact (h.records k r' hr').imp_right fun hm => ht.issued hm
  identity k r hr := by
    obtain ⟨r', hr', -, e⟩ := ht.mem hr
    rw [e, ht.id]
    exact h.identity k r' hr'
  links x hx := by
    obtain ⟨y, hy, e, -⟩ := ht.links x hx
    exact e ▸ ht.issued (h.links y hy)
  opps x hx := by
    obtain ⟨y, hy, e⟩ := ht.opps x hx
    exact e.recordHash ▸ ht.issued (h.opps y hy)
  cache := hcache
  inj := hinj
  cached := hcached
  oppCached := hopp
  linkRecords x hx r hr e := by
    obtain ⟨y, hy, e1, e2, e3⟩ := ht.links x hx
    obtain ⟨r', hr', e4, e5⟩ := ht.mem hr
    rw [e5, e3]
    exact h.linkRecords y hy r' (e2 ▸ hr') (e4 ▸ e.trans e1)
  oppRecords x hx r hr e := by
    obtain ⟨y, hy, hk⟩ := ht.opps x hx
    obtain ⟨r', hr', e4, e5⟩ := ht.mem hr
    rw [e5, hk.tag]
    exact h.oppRecords y hy r' (hk.owner ▸ hr') (e4 ▸ e.trans hk.recordHash)
  applied := happ

/-- A status is raised for a send whose records are related to it. -/
lemma Keyed.notify {st : OutboxStatus} (h : Keyed R s)
    (hr : ∀ r ∈ (s.slot k).outbox, r.packetHash = recordHash → R r.tag tag) :
    Keyed R (s.notify k recordHash st tag) := by
  refine h.traced .notify ?_ ?_ ?_ ?_ ?_ ?_
  all_goals unfold Pending.notify; dsimp only; split
  next => exact h.nonempty
  next => exact h.nonempty
  next => exact h.cache
  next => exact h.cache
  next => exact h.inj
  next => exact h.inj
  next => exact h.cached
  next => exact h.cached
  next => exact h.oppCached
  next => exact h.oppCached
  next =>
    intro p hp
    rcases List.mem_append.mp hp with hp | hp
    · exact h.applied p hp
    · obtain ⟨r, hm, rfl⟩ := List.mem_map.mp hp
      obtain ⟨hm, e⟩ := List.mem_filter.mp hm
      exact hr r hm (of_decide_eq_true e)
  next => exact h.applied

/-- A change of a delivery. -/
lemma Keyed.change (h : Keyed R s) (hc : Change lost s s') : Keyed R s' := by
  have ht := Traced.change hc
  cases hc with
  | progress hl =>
    refine h.traced ht h.nonempty h.cache h.inj (fun c hc x hx e => ?_) h.oppCached h.applied
    obtain ⟨y, hy, e1, hk⟩ := hl x hx
    rw [← e1, hk.destHash]
    exact h.cached c hc y hy (hk.recordHash ▸ e)
  | status st hx => exact h.notify (h.linkRecords _ hx)
  | oppStatus st hx => exact h.notify (h.oppRecords _ hx)
  | transmit => exact h.traced ht h.nonempty h.cache h.inj h.cached h.oppCached h.applied
  | @drop x hx =>
    have hcached : ∀ c ∈ s.directLinks, ∀ y ∈ erase x.1 s.links, y.2.recordHash = c.2 →
        y.1 = c.2 ∧ y.2.destHash = c.1 := fun c hc y hy => h.cached c hc y (mem_erase.mp hy).1
    revert ht
    unfold Pending.releaseWireFile
    split
    next => exact fun ht => h.traced ht h.nonempty h.cache h.inj hcached h.oppCached h.applied
    next => exact fun ht => h.traced ht h.nonempty h.cache h.inj hcached h.oppCached h.applied
  | @move x ps link hx hlink hne hk =>
    -- the new link is nobody's record hash, and the old one is no longer cached for the peer
    have hnew : ∀ {b}, b ∈ s.issued → b ≠ link := fun hb => ne_of_mem_of_not_mem hb hlink
    refine h.traced ht (fun hm => ?_) (fun c hc => ?_) (fun c hc c' hc' e => ?_)
      (fun c hc y hy e => ?_) (fun c hc y hy e => ?_) h.applied
    · rcases List.mem_append.mp hm with hm | hm
      · exact h.nonempty hm
      · exact hne (List.mem_singleton.mp hm).symm
    · rcases mem_insert.mp hc with rfl | ⟨hc, -⟩
      · exact List.mem_append_right _ (List.mem_singleton.mpr rfl)
      · exact List.mem_append_left _ (h.cache c hc)
    · rcases mem_insert.mp hc with rfl | ⟨hc, -⟩
      · rcases mem_insert.mp hc' with rfl | ⟨hc', -⟩
        · rfl
        · exact absurd e.symm (hnew (h.cache c' hc'))
      · rcases mem_insert.mp hc' with rfl | ⟨hc', -⟩
        · exact absurd e (hnew (h.cache c hc))
        · exact h.inj c hc c' hc' e
    · rcases mem_insert.mp hc with rfl | ⟨hc, hd⟩
      · obtain ⟨z, hz, e1, -⟩ := ht.links y hy
        exact absurd (e1.symm.trans e) (hnew (h.links z hz))
      · rcases mem_insert.mp hy with rfl | ⟨hy, -⟩
        · exact absurd ((h.cached c hc x hx (hk.recordHash ▸ e)).2.symm.trans hk.destHash.symm) hd
        · exact h.cached c hc y (mem_erase.mp hy).1 e
    · rcases mem_insert.mp hc with rfl | ⟨hc, -⟩
      · exact hnew (h.opps y hy) e
      · exact h.oppCached c hc y hy e
  | uncache hc =>
    exact h.traced ht h.nonempty (fun c hm => h.cache c (hc hm))
      (fun c hm c' hm' => h.inj c (hc hm) c' (hc hm')) (fun c hm => h.cached c (hc hm))
      (fun c hm => h.oppCached c (hc hm)) h.applied
  | oppProgress hl =>
    refine h.traced ht h.nonempty h.cache h.inj h.cached (fun c hc x hx e => ?_) h.applied
    obtain ⟨y, hy, hk⟩ := hl x hx
    exact h.oppCached c hc y hy (hk.recordHash ▸ e)

lemma Keyed.changes (h : Keyed R s) (hc : Changes lost s s') : Keyed R s' := by
  induction hc with
  | refl => exact h
  | tail _ hc ih => exact ih.change hc

/-- Whatever pends under a hash is one send. -/
structure Solely (packetHash : Bytes) (tag : Tag) (s : Pending) : Prop where
  links : ∀ x ∈ s.links, x.2.recordHash = packetHash → x.2.tag = tag
  opps : ∀ x ∈ s.opps, x.2.recordHash = packetHash → x.2.tag = tag

lemma Solely.traced {packetHash : Bytes} (h : Solely packetHash tag s) (ht : Traced s s') :
    Solely packetHash tag s' where
  links x hx e := by
    obtain ⟨y, hy, e1, -, e2⟩ := ht.links x hx
    exact e2.trans (h.links y hy (e1 ▸ e))
  opps x hx e := by
    obtain ⟨y, hy, hk⟩ := ht.opps x hx
    exact hk.tag.trans (h.opps y hy (hk.recordHash ▸ e))

/-- A new hash. -/
lemma Keyed.issue {hash : Bytes} (h : Keyed R s) (hne : hash ≠ []) :
    Keyed R { s with issued := s.issued ++ [hash] } where
  nonempty hm := by
    rcases List.mem_append.mp hm with hm | hm
    · exact h.nonempty hm
    · exact hne (List.mem_singleton.mp hm).symm
  records k r hr := (h.records k r hr).imp_right (List.mem_append_left _)
  identity := h.identity
  links x hx := List.mem_append_left _ (h.links x hx)
  opps x hx := List.mem_append_left _ (h.opps x hx)
  cache c hc := List.mem_append_left _ (h.cache c hc)
  inj := h.inj
  cached := h.cached
  oppCached := h.oppCached
  linkRecords := h.linkRecords
  oppRecords := h.oppRecords
  applied := h.applied

/-- A hash that was not issued names no record. -/
lemma Keyed.unnamed {hash : Bytes} (h : Keyed R s) (hn : hash ∉ s.issued) (hne : hash ≠ []) :
    ∀ k, ∀ r ∈ (s.slot k).outbox, r.packetHash ≠ hash := by
  intro k r hr e
  rcases h.records k r hr with e' | hm
  · exact hne (e.symm.trans e')
  · exact hn (e ▸ hm)

/-- A hash that was not issued names no pending send. -/
lemma Keyed.solely {hash : Bytes} (h : Keyed R s) (hn : hash ∉ s.issued) : Solely hash tag s :=
  ⟨fun x hx e => absurd (e ▸ h.links x hx) hn, fun x hx e => absurd (e ▸ h.opps x hx) hn⟩

/-- The OPPORTUNISTIC half of `send_prepared`. -/
lemma Keyed.sendOpportunistic (h : Keyed R s) (k : Nat) (destHash wire : Bytes) (tag : Tag)
    (hn : env.packetHash ∉ s.issued)
    (hne : env.packetHash ≠ []) :
    let r := sendOpportunistic k destHash wire env tag s
    r.1.slot = s.slot ∧ r.2.1 = env.packetHash ∧ r.2.1 ∈ r.1.issued ∧ Keyed R r.1 ∧
      Solely r.2.1 tag r.1 := by
  unfold Outbound.sendOpportunistic
  have hm : env.packetHash ∈ s.issued ++ [env.packetHash] :=
    List.mem_append_right _ (List.mem_singleton.mpr rfl)
  have h1 := h.issue hne
  have hs : Solely env.packetHash tag s := h.solely hn
  dsimp only
  split
  next =>
    refine ⟨rfl, rfl, hm, { h1 with opps := ?_, oppCached := ?_, oppRecords := ?_ },
      ⟨hs.links, fun x hx e => ?_⟩⟩
    · intro x hx
      rcases mem_insert.mp hx with rfl | ⟨hx, -⟩
      · exact hm
      · exact h1.opps x hx
    · intro c hc x hx
      rcases mem_insert.mp hx with rfl | ⟨hx, -⟩
      · exact fun e => ne_of_mem_of_not_mem (h.cache c hc) hn e.symm
      · exact h.oppCached c hc x hx
    · intro x hx r hr e
      rcases mem_insert.mp hx with rfl | ⟨hx, -⟩
      · exact absurd e (h.unnamed hn hne _ r hr)
      · exact h.oppRecords x hx r hr e
    · rcases mem_insert.mp hx with rfl | ⟨hx, -⟩
      · rfl
      · exact hs.opps x hx e
  next => exact ⟨rfl, rfl, hm, h1, hs.links, hs.opps⟩

/-- A send reuses a cached link that carries nothing, or opens a new one. -/
lemma chooseLink_cases (destHash : Bytes) (env : SendEnv) (s : Pending) :
    (∃ link, chooseLink destHash env s = (link, true, s) ∧ (destHash, link) ∈ s.directLinks ∧
      ∀ x ∈ s.links, x.1 ≠ link) ∨
    ∃ d ⊆ s.directLinks, chooseLink destHash env s = (env.newLink, false, { s with
      issued := s.issued ++ [env.newLink], directLinks := insert destHash env.newLink d }) := by
  unfold chooseLink
  dsimp only
  split
  next => exact .inr ⟨_, List.Subset.refl _, rfl⟩
  next link hlink =>
    split
    next hidle =>
      refine .inl ⟨link, rfl, mem_of_lookup hlink, ?_⟩
      rintro ⟨key, ps⟩ hx rfl
      exact not_mem_of_lookup hidle.2 hx
    next =>
      split
      next => exact .inr ⟨_, fun _ hx => (mem_erase.mp hx).1, rfl⟩
      next => exact .inr ⟨_, List.Subset.refl _, rfl⟩

/-- A new link in the cache. -/
lemma Keyed.cacheLink {hash : Bytes} {d : List (Bytes × Bytes)} (h : Keyed R s)
    (hn : hash ∉ s.issued) (hne : hash ≠ []) (hd : d ⊆ s.directLinks) :
    Keyed R { s with
      issued := s.issued ++ [hash], directLinks := insert destHash hash d } := by
  have hnew : ∀ {b}, b ∈ s.issued → b ≠ hash := fun hb => ne_of_mem_of_not_mem hb hn
  have hm : hash ∈ s.issued ++ [hash] := List.mem_append_right _ (List.mem_singleton.mpr rfl)
  refine { h.issue hne with cache := ?_, inj := ?_, cached := ?_, oppCached := ?_ }
  · intro c hc
    rcases mem_insert.mp hc with rfl | ⟨hc, -⟩
    · exact hm
    · exact List.mem_append_left _ (h.cache c (hd hc))
  · intro c hc c' hc' e
    rcases mem_insert.mp hc with rfl | ⟨hc, -⟩
    · rcases mem_insert.mp hc' with rfl | ⟨hc', -⟩
      · rfl
      · exact absurd e.symm (hnew (h.cache c' (hd hc')))
    · rcases mem_insert.mp hc' with rfl | ⟨hc', -⟩
      · exact absurd e (hnew (h.cache c (hd hc)))
      · exact h.inj c (hd hc) c' (hd hc') e
  · intro c hc x hx e
    rcases mem_insert.mp hc with rfl | ⟨hc, -⟩
    · exact absurd e (hnew (h.links x hx))
    · exact h.cached c (hd hc) x hx e
  · intro c hc x hx e
    rcases mem_insert.mp hc with rfl | ⟨hc, -⟩
    · exact hnew (h.opps x hx) e
    · exact h.oppCached c (hd hc) x hx e

/-- The entry of a DIRECT send is named by its link and belongs to the send. -/
lemma directEntry_spec (k : Nat) (destHash wire : Bytes) (contentSize : Nat) (env : SendEnv)
    (tag : Tag) (link : Bytes) (s : Pending) : ∃ ps files,
    directEntry k destHash wire contentSize env tag link s = (ps, { s with files }) ∧
      ps.recordHash = link ∧ ps.destHash = destHash ∧ ps.owner = k ∧ ps.tag = tag := by
  unfold Outbound.directEntry Pending.spillWireToDisk
  dsimp only
  split
  next =>
    cases env.spill with
    | written => exact ⟨_, _, rfl, rfl, rfl, rfl, rfl⟩
    | notOpened => exact ⟨_, s.files, rfl, rfl, rfl, rfl, rfl⟩
    | short => exact ⟨_, _, rfl, rfl, rfl, rfl, rfl⟩
  next => exact ⟨_, s.files, rfl, rfl, rfl, rfl, rfl⟩

/-- A new entry that is cached for nobody but its peer. -/
lemma Keyed.put (h : Keyed R s) (hm : ps.recordHash ∈ s.issued)
    (hc : ∀ c ∈ s.directLinks, ps.recordHash = c.2 → ps.destHash = c.1)
    (hr : ∀ r ∈ (s.slot ps.owner).outbox, r.packetHash = ps.recordHash → R r.tag ps.tag) :
    Keyed R (s.putLink ps.recordHash ps) := by
  refine { h with links := ?_, cached := ?_, linkRecords := ?_ }
  · intro x hx
    rcases mem_insert.mp hx with rfl | ⟨hx, -⟩
    · exact hm
    · exact h.links x hx
  · intro c hcm x hx e
    rcases mem_insert.mp hx with rfl | ⟨hx, -⟩
    · exact ⟨e, hc c hcm e⟩
    · exact h.cached c hcm x hx e
  · intro x hx r hr' e
    rcases mem_insert.mp hx with rfl | ⟨hx, -⟩
    · exact hr r hr' e
    · exact h.linkRecords x hx r hr' e

/-- An entry under a hash that was nobody's. -/
lemma Solely.put (h : Solely link tag s) (hp : ps.tag = tag) :
    Solely link tag (s.putLink key ps) where
  links x hx e := by
    rcases mem_insert.mp hx with rfl | ⟨hx, -⟩
    · exact hp
    · exact h.links x hx e
  opps := h.opps

/-- The DIRECT half of `send_prepared`: the entry is put, and a reused link is dispatched. -/
lemma Keyed.sendDirect (h : Keyed R s) (k : Nat) (destHash wire : Bytes) (contentSize : Nat)
    (env : SendEnv) (tag : Tag) (hn : env.newLink ∉ s.issued)
    (hne : env.newLink ≠ [])
    (hr : (chooseLink destHash env s).2.1 = true → ∀ r ∈ (s.slot k).outbox,
      r.packetHash = (chooseLink destHash env s).1 → R r.tag tag) :
    let r := sendDirect k destHash wire contentSize env tag s
    r.2.1 = (chooseLink destHash env s).1 ∧
      ((chooseLink destHash env s).2.1 = false → r.2.1 = env.newLink) ∧
      ∃ s1, s1.slot = s.slot ∧ r.2.1 ∈ s1.issued ∧ Keyed R s1 ∧ Solely r.2.1 tag s1 ∧
        Changes True s1 r.1 := by
  unfold Outbound.sendDirect
  rcases chooseLink_cases destHash env s with ⟨link, e, hl, hidle⟩ | ⟨d, hd, e⟩
  · obtain ⟨ps, files, e', e1, e2, e3, e4⟩ := directEntry_spec k destHash wire contentSize
      env tag link s
    rw [e] at hr ⊢
    dsimp only at hr ⊢
    rw [e']
    subst e1 e2 e3 e4
    have h1 : Keyed R { s with files } := { h with }
    have hs : Solely ps.recordHash ps.tag { s with files } := by
      refine ⟨fun x hx e => absurd (h.cached _ hl x hx e).1 (hidle x hx), fun x hx e => ?_⟩
      exact absurd e (h.oppCached _ hl x hx)
    refine ⟨rfl, nofun, Pending.putLink ps.recordHash ps { s with files }, rfl, h.cache _ hl,
      h1.put (h.cache _ hl) ?_ (hr rfl), hs.put rfl, .linkEstablished fun _ => trivial⟩
    exact fun c hc e => h.inj _ hl c hc e
  · let s1 : Pending := { s with
      issued := s.issued ++ [env.newLink], directLinks := insert destHash env.newLink d }
    obtain ⟨ps, files, e', e1, e2, e3, e4⟩ := directEntry_spec k destHash wire contentSize
      env tag env.newLink s1
    rw [e]
    dsimp only
    rw [e']
    subst e2 e3 e4
    have h0 : Keyed R s1 := h.cacheLink hn hne hd
    have h1 : Keyed R { s1 with files } := { h0 with }
    have hm : env.newLink ∈ s1.issued := List.mem_append_right _ (List.mem_singleton.mpr rfl)
    have hs : Solely ps.recordHash ps.tag { s1 with files } := by
      rw [e1]
      exact ⟨(h.solely hn).links, (h.solely hn).opps⟩
    rw [← e1] at hm hn hne ⊢
    refine ⟨rfl, fun _ => rfl, Pending.putLink ps.recordHash ps { s1 with files }, rfl, hm,
      h1.put hm (fun c hc e => ?_) ?_, hs.put rfl, .refl⟩
    · rcases mem_insert.mp hc with rfl | ⟨hc, -⟩
      · rfl
      · exact absurd (e ▸ h.cache c (hd hc)) hn
    · exact fun r hr' e => absurd e (h.unnamed hn hne _ r hr')

/-- The link that a DIRECT send reuses. -/
def reusedLink (destHash : Bytes) (pm : PreparedMessage) (stamp : Bytes) (env : SendEnv)
    (s : Pending) : Option Bytes :=
  match payloadWire pm.payload stamp with
  | .error _ => none
  | .ok payload =>
    if payload.length - 16 ≤ LXMF_OPPORTUNISTIC_MAX then none
    else if (chooseLink destHash env s).2.1 then some (chooseLink destHash env s).1 else none

/-- `send_prepared` returns a new hash or that of the link it reuses. -/
lemma Keyed.sendPrepared {pm : PreparedMessage} {stamp packetHash : Bytes} {status : OutboxStatus}
    (h : Keyed R s) (hl : env.newLink ∉ s.issued ∧ env.newLink ≠ [])
    (hp : env.packetHash ∉ s.issued ∧ env.packetHash ≠ [])
    (hr : ∀ link ∈ reusedLink destHash pm stamp env s, ∀ r ∈ (s.slot k).outbox,
      r.packetHash = link → R r.tag ⟨(s.slot k).id, s.sends⟩)
    (hs : sendPrepared C k destHash pm stamp env s = .ok (s', packetHash, status)) :
    (packetHash ∉ s.issued ∧ packetHash ≠ [] ∨
      packetHash ∈ reusedLink destHash pm stamp env s) ∧
    ∃ s1, s1.slot = s.slot ∧ packetHash ∈ s1.issued ∧ Keyed R s1 ∧
      Solely packetHash ⟨(s.slot k).id, s.sends⟩ s1 ∧ Changes True s1 s' := by
  obtain ⟨wire, contentSize, hpack, e⟩ := sendPrepared_ok hs
  obtain ⟨-, payload, hpay, rfl⟩ := packWire_ok hpack
  have h1 : Keyed R { s with sends := s.sends + 1 } := { h with }
  unfold reusedLink at hr ⊢
  rw [hpay] at hr ⊢
  dsimp only at e hr ⊢
  split at e
  next =>
    obtain ⟨e1, e2, e3, e4, e5⟩ :=
      h1.sendOpportunistic k destHash wire ⟨(s.slot k).id, s.sends⟩ hp.1 hp.2
    rw [← e] at e1 e2 e3 e4 e5
    obtain rfl : packetHash = env.packetHash := e2
    exact ⟨.inl hp, s', e1, e3, e4, e5, .refl⟩
  next hlen =>
    rw [if_neg hlen] at hr ⊢
    have hc := chooseLink_sends destHash env s (s.sends + 1)
    obtain ⟨e1, e2, s1, e3, e4, e5, e6, e7⟩ :=
      h1.sendDirect k destHash wire (payload.length - 16) env
      ⟨(s.slot k).id, s.sends⟩ hl.1 hl.2 fun hreuse r hr' er => by
        rw [hc.2] at hreuse
        rw [hc.1] at er
        rw [if_pos hreuse] at hr
        exact hr _ rfl r hr' er
    rw [← e] at e1 e2 e4 e6 e7
    refine ⟨?_, s1, e3, e4, e5, e6, e7⟩
    cases hreuse : (chooseLink destHash env s).2.1 with
    | false =>
      obtain rfl : packetHash = env.newLink := e2 (hc.2.trans hreuse)
      exact .inl hl
    | true => exact .inr (congrArg some (hc.1.symm.trans e1.symm))

/-- A slot whose records are old ones, or name what their send alone pends under. -/
lemma Keyed.putSlot {a : Slot} (hrefl : ∀ t, R t t) (h : Keyed R s)
    (hid : ∀ r ∈ a.outbox, r.tag.identity = a.id)
    (ha : ∀ r ∈ a.outbox, (∃ r' ∈ (s.slot k).outbox, r'.names = r.names) ∨
      (r.packetHash = [] ∨ r.packetHash ∈ s.issued) ∧ Solely r.packetHash r.tag s) :
    Keyed R { s with slot := Function.update s.slot k a } := by
  refine { h with records := ?_, identity := ?_, linkRecords := ?_, oppRecords := ?_ }
  · intro j r hr
    by_cases hj : j = k
    · subst hj
      dsimp only at hr
      rw [Function.update_self] at hr
      rcases ha r hr with ⟨r', hr', e⟩ | ⟨hm, -⟩
      · exact (Prod.mk.inj e).1 ▸ h.records j r' hr'
      · exact hm
    · dsimp only at hr
      rw [Function.update_of_ne hj] at hr
      exact h.records j r hr
  · intro j r hr
    by_cases hj : j = k
    · subst hj
      dsimp only at hr ⊢
      rw [Function.update_self] at hr ⊢
      exact hid r hr
    · dsimp only at hr ⊢
      rw [Function.update_of_ne hj] at hr ⊢
      exact h.identity j r hr
  · intro x hx r hr e
    by_cases hj : x.2.owner = k
    · dsimp only at hr
      rw [hj, Function.update_self] at hr
      rcases ha r hr with ⟨r', hr', e'⟩ | ⟨-, hs⟩
      · obtain ⟨e1, e2⟩ := Prod.mk.inj e'
        exact e2 ▸ h.linkRecords x hx r' (hj ▸ hr') (e1.trans e)
      · exact hs.links x hx e.symm ▸ hrefl _
    · dsimp only at hr
      rw [Function.update_of_ne hj] at hr
      exact h.linkRecords x hx r hr e
  · intro x hx r hr e
    by_cases hj : x.2.owner = k
    · dsimp only at hr
      rw [hj, Function.update_self] at hr
      rcases ha r hr with ⟨r', hr', e'⟩ | ⟨-, hs⟩
      · obtain ⟨e1, e2⟩ := Prod.mk.inj e'
        exact e2 ▸ h.oppRecords x hx r' (hj ▸ hr') (e1.trans e)
      · exact hs.opps x hx e.symm ▸ hrefl _
    · dsimp only at hr
      rw [Function.update_of_ne hj] at hr
      exact h.oppRecords x hx r hr e

lemma Slot.store_id {a : Slot} {packetHash : Bytes} {status : OutboxStatus} {store : Store} :
    (a.store packetHash status tag store).id = a.id := by
  cases store with
  | append =>
    unfold Slot.store
    dsimp only
    split <;> rfl
  | mutate => rfl
  | machinery => rfl

/-- The records of a send: the old ones, and the new one. -/
lemma Slot.mem_store {a : Slot} {packetHash : Bytes} {status : OutboxStatus} {store : Store}
    {r : OutboxRecord} (h : r ∈ (a.store packetHash status tag store).outbox) :
    r ∈ a.outbox ∨ r.packetHash = packetHash ∧ r.tag = tag := by
  cases store with
  | append useSeq written =>
    unfold Slot.store at h
    dsimp only at h
    split at h
    next =>
      dsimp only at h
      rcases List.mem_append.mp (List.mem_of_mem_drop h) with h | h
      · exact .inl h
      · obtain rfl := List.mem_singleton.mp h
        exact .inr ⟨rfl, rfl⟩
    next => exact .inl h
  | mutate seq =>
    rcases of_mem_modifyFirst h with h | ⟨r', -, rfl⟩
    · exact .inl h
    · exact .inr ⟨rfl, rfl⟩
  | machinery => exact .inl h

/-- The record of a send is stored. -/
lemma Keyed.store {packetHash : Bytes} {status : OutboxStatus} {store : Store}
    (hrefl : ∀ t, R t t) (h : Keyed R s) (hid : tag.identity = (s.slot k).id)
    (hm : packetHash = [] ∨ packetHash ∈ s.issued) (hs : Solely packetHash tag s) :
    Keyed R { s with
      slot := Function.update s.slot k ((s.slot k).store packetHash status tag store) } := by
  refine h.putSlot hrefl (fun r hr => ?_) fun r hr => ?_
  · rw [Slot.store_id]
    rcases Slot.mem_store hr with hr | ⟨-, e⟩
    · exact h.identity k r hr
    · exact e ▸ hid
  · rcases Slot.mem_store hr with hr | ⟨e1, e2⟩
    · exact .inl ⟨r, hr, rfl⟩
    · rw [e1, e2]
      exact .inr ⟨hm, hs⟩

/-- The records that have the hash of the link that a send reuses are related to the send. -/
def Event.Related (R : Tag → Tag → Prop) (s : Pending) : Event → Prop
  | .send id destHash pm stamp _ env => ∀ k ∈ s.byId id,
    ∀ link ∈ reusedLink destHash pm stamp env s, ∀ r ∈ (s.slot k).outbox,
      r.packetHash = link → R r.tag ⟨(s.slot k).id, s.sends⟩
  | _ => True

/-- Any step. -/
lemma Keyed.step {e : Event} (hrefl : ∀ t, R t t) (h : Keyed R s) (hf : e.Fresh s)
    (hr : e.Related R s) : Keyed R (s.step C e) := by
  cases e with
  | send id destHash pm stamp store env =>
    dsimp only [Pending.step]
    unfold send
    split
    next => exact h
    next k hk =>
      split
      next => exact h
      next s' packetHash status hsent =>
        obtain ⟨-, s1, e1, hm, h1, hs, hc⟩ :=
          h.sendPrepared ⟨hf.1, hf.2.1⟩ hf.2.2 (hr k hk) hsent
        have ht := Traced.changes hc
        refine (h1.changes hc).store hrefl ?_ (.inr (ht.issued hm)) (hs.traced ht)
        rw [ht.id, e1]
  | stampRecord id seq =>
    dsimp only [Pending.step, stampRecord]
    split
    next => exact h
    next k hk =>
      have h1 : Keyed R { s with sends := s.sends + 1 } := { h with }
      cases seq with
      | none => exact h1.store hrefl rfl (.inl rfl) (h1.solely h1.nonempty)
      | some seq =>
        have hm : ∀ r ∈ modifyFirst (·.seq = seq) (fun r => { r with status := .failed })
            (s.slot k).outbox, ∃ r' ∈ (s.slot k).outbox, r'.names = r.names := fun r hr => by
          rcases of_mem_modifyFirst hr with hr | ⟨r', hr', rfl⟩
          · exact ⟨r, hr, rfl⟩
          · exact ⟨r', hr', rfl⟩
        refine h1.putSlot hrefl (fun r hr => ?_) fun r hr => .inl (hm r hr)
        obtain ⟨r', hr', e⟩ := hm r hr
        exact (Prod.mk.inj e).2 ▸ h.identity k r' hr'
  | prune k keep =>
    exact h.putSlot hrefl (fun r hr => h.identity k r (List.mem_filter.mp hr).1)
      fun r hr => .inl ⟨r, (List.mem_filter.mp hr).1, rfl⟩
  | activate => exact h.putSlot hrefl nofun nofun
  | delete => exact h.putSlot hrefl nofun nofun
  | established | closed | concluded | retry | sweep | clean | opportunistic | manualRetry
  | announced => exact h.changes (Changes.delivery trivial hf)

lemma keyed_init : Keyed R {} where
  nonempty := nofun
  records := nofun
  identity := nofun
  links := nofun
  opps := nofun
  cache := nofun
  inj := nofun
  cached := nofun
  oppCached := nofun
  linkRecords := nofun
  oppRecords := nofun
  applied := nofun

end URSupreme.Outbound
