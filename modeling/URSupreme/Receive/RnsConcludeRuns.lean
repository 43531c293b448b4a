import URSupreme.Receive.RnsConclude

/-!
# What is read back at a conclusion

Until a resource is read back, each part that was handed over for it stands in its file or is still
under way: with the loop, in the queue, or with the worker. A conclusion leaves the queue behind all
parts of its resource, so none is under way any more. The counter of bytes in flight is the size of
the copies that are counted.
-/

namespace URSupreme.RnsConclude
open Lib

variable {ι : Type} [DecidableEq ι] {B : Buffers ι} {s : Receiver ι} {r r' : ι}
  {part part' : Extent} {path : Path} {out file : Bytes}

/-- The part that `part_write_hook` is with. -/
def Hook.holding : Hook ι → Option (ι × Extent)
  | .idle => none
  | .copied r part | .counted r part | .inline r part => some (r, part)

/-- The parts of a resource. -/
def Receiver.partsOf (s : Receiver ι) (r : ι) : List Extent :=
  (s.accepted.filter fun x => x.1 = r).map (·.2)

/-- The part is not written yet. -/
def Receiver.Pending (s : Receiver ι) (r : ι) (part : Extent) : Prop :=
  s.hook.holding = some (r, part) ∨ (∃ path, .writePart r path part ∈ s.queue) ∨
    ∃ path, s.worker = .writing r path part

/-- The one conclusion of a resource stands behind its parts. -/
def Behind (a b : Job ι) : Prop :=
  ∀ r, a = .conclude r → b ≠ .conclude r ∧ ∀ path part, b ≠ .writePart r path part

/-- What was read back. -/
def Receiver.done (s : Receiver ι) : List ι := s.results.map (·.1)

variable (B) in
structure Inv (s : Receiver ι) : Prop where
  jobs : ∀ r path part, .writePart r path part ∈ s.queue → path = B.path r ∧ (r, part) ∈ s.accepted
  concl : ∀ r, .conclude r ∈ s.queue → r ∈ s.concluded ∧ r ∉ s.done
  order : s.queue.Pairwise Behind
  hook : ∀ r part, s.hook.holding = some (r, part) → (r, part) ∈ s.accepted ∧ r ∉ s.concluded
  writing : ∀ r path part, s.worker = .writing r path part → path = B.path r ∧
  (r, part) ∈ s.accepted
  reading : ∀ r out, s.worker = .reading r out → r ∈ s.concluded ∧ s.cur = none ∧ r ∉ s.done ∧
    (.conclude r ∉ s.queue ∧ ∀ path part, .writePart r path part ∉ s.queue) ∧
      out = (((s.files (B.path r)).getD []).take (B.totalSize r)).take out.length
  cur : ∀ path, s.cur = some path → ∃ file, s.files path = some file
  sized : ∀ r part, (r, part) ∈ s.accepted → part.off + part.data.length ≤ B.totalSize r
  agree : ∀ r part part', (r, part) ∈ s.accepted → (r, part') ∈ s.accepted → Agree part part'
  only : ∀ r file, s.files (B.path r) = some file → HoldsOnly file (s.partsOf r)
  kept : ∀ r part, (r, part) ∈ s.accepted → r ∈ s.done ∨ s.Pending r part ∨
    ∃ file, s.files (B.path r) = some file ∧ Holds file part
  results : ∀ r out, (r, out) ∈ s.results → r ∈ s.concluded ∧
    (∀ part, (r, part) ∈ s.accepted → Holds out part) ∧ HoldsOnly out (s.partsOf r)

lemma mem_partsOf : part ∈ s.partsOf r ↔ (r, part) ∈ s.accepted := by
  unfold Receiver.partsOf
  constructor
  · intro h
    obtain ⟨⟨r', p⟩, hx, rfl⟩ := List.mem_map.mp h
    obtain ⟨hx, hr⟩ := List.mem_filter.mp hx
    rw [← of_decide_eq_true hr]
    exact hx
  · intro h
    exact List.mem_map.mpr ⟨(r, part), List.mem_filter.mpr ⟨h, decide_eq_true rfl⟩, rfl⟩

lemma Inv.init : Inv B {} := by
  refine ⟨nofun, nofun, .nil, nofun, nofun, nofun, nofun, nofun, nofun, nofun, nofun, nofun⟩

/-- A part is handed over. -/
lemma Inv.partWriteHook {alloc : Bool} (h : Inv B s)
    (hok : Proper B s (.partWriteHook r part alloc)) : Inv B (s.partWriteHook r part alloc) := by
  obtain ⟨hr, hsize, hagree⟩ := hok
  unfold Receiver.partWriteHook
  split
  next hidle =>
    have hmem : ∀ {r' part'}, (r', part') ∈ s.accepted → (r', part') ∈ s.accepted ++ [(r, part)] :=
      List.mem_append_left _
    have hcases : ∀ {r' part'}, (r', part') ∈ s.accepted ++ [(r, part)] →
        (r', part') ∈ s.accepted ∨ r' = r ∧ part' = part := fun hx => by
      rcases List.mem_append.mp hx with hx | hx
      · exact .inl hx
      · cases List.mem_singleton.mp hx
        exact .inr ⟨rfl, rfl⟩
    dsimp only
    generalize hh : (if (s.inflightBytes + part.data.length) % 2 ^ 32 ≤ INFLIGHT_CAP ∧
      Receiver.malloc alloc part.data.length = true then Hook.copied r part
      else Hook.inline r part) = hook
    have hpart : hook.holding = some (r, part) := by
      rw [← hh]
      split
      next => rfl
      next => rfl
    have honly : ∀ r' file, HoldsOnly file (s.partsOf r') → HoldsOnly file
        (Receiver.partsOf { s with accepted := s.accepted ++ [(r, part)], hook } r') :=
        fun r' file ho =>
      ho.mono fun e he => mem_partsOf.mpr (hmem (mem_partsOf.mp he))
    refine { jobs := fun r' path part' hj => ?_, concl := h.concl, order := h.order
             hook := fun r' part' hp => ?_, writing := fun r' path part' hw => ?_,
               reading := h.reading
             cur := h.cur, sized := fun r' part' hx => ?_, agree := fun r' p p' hx hx' => ?_
             only := fun r' file hf => honly r' file (h.only r' file hf),
               kept := fun r' part' hx => ?_
             results := fun r' out hres => ?_ }
    · obtain ⟨h1, h2⟩ := h.jobs r' path part' hj
      exact ⟨h1, hmem h2⟩
    · cases hpart.symm.trans hp
      exact ⟨List.mem_append_right _ List.mem_cons_self, hr⟩
    · obtain ⟨h1, h2⟩ := h.writing r' path part' hw
      exact ⟨h1, hmem h2⟩
    · rcases hcases hx with hx | ⟨rfl, rfl⟩
      · exact h.sized r' part' hx
      · exact hsize
    · rcases hcases hx with hold | ⟨rfl, rfl⟩
      · rcases hcases hx' with hx' | ⟨rfl, rfl⟩
        · exact h.agree r' p p' hold hx'
        · exact hagree (r', p) hold rfl
      · rcases hcases hx' with hx' | ⟨-, rfl⟩
        · exact (hagree (r', p') hx' rfl).symm
        · exact agree_refl
    · rcases hcases hx with hx | ⟨rfl, rfl⟩
      · rcases h.kept r' part' hx with hk | (hk | hk) | hk
        · exact .inl hk
        · rw [hidle] at hk
          cases hk
        · exact .inr (.inl (.inr hk))
        · exact .inr (.inr hk)
      · exact .inr (.inl (.inl hpart))
    · obtain ⟨h1, h2, h3⟩ := h.results r' out hres
      refine ⟨h1, fun part' hx => ?_, honly r' out h3⟩
      rcases hcases hx with hx | ⟨rfl, -⟩
      · exact h2 part' hx
      · exact absurd h1 hr
  next => exact h

/-- The loop goes on with its part. -/
lemma Inv.hooked {inflightBytes : Nat} {hook : Hook ι} (h : Inv B s)
    (hp : hook.holding = s.hook.holding) : Inv B { s with inflightBytes, hook } :=
  { jobs := h.jobs, concl := h.concl, order := h.order,
    hook := fun r part he => h.hook r part (hp ▸ he)
    writing := h.writing, reading := h.reading, cur := h.cur, sized := h.sized, agree := h.agree
    only := h.only, results := h.results
    kept := fun r part hx => (h.kept r part hx).imp_right fun hk =>
      hk.imp_left fun hk => hk.imp_left fun hk => hp.trans hk }

lemma Inv.count (h : Inv B s) : Inv B s.count := by
  unfold Receiver.count
  split
  next r part hh => exact h.hooked (by rw [hh]; rfl)
  next => exact h

omit [DecidableEq ι] in
lemma take_path : (B.path r).take (PATH_LEN - 1) = B.path r :=
  List.take_of_length_le (Nat.le_sub_one_of_lt (B.fits r))

lemma Inv.enqueue (h : Inv B s) : Inv B (s.enqueue B) := by
  unfold Receiver.enqueue
  split
  next r part hh =>
    obtain ⟨hacc, hno⟩ := h.hook r part (by rw [hh]; rfl)
    split
    next =>
      rw [take_path]
      refine { jobs := fun r' path part' hj => ?_, concl := fun r' hc => ?_, order := ?_
               hook := fun _ _ hp => absurd hp (by nofun), writing := h.writing,
                 reading := fun r' out hr => ?_, cur := h.cur, sized := h.sized
               agree := h.agree, only := h.only, kept := fun r' part' hx => ?_,
                 results := h.results }
      · rcases List.mem_append.mp hj with hj | hj
        · exact h.jobs r' path part' hj
        · cases List.mem_singleton.mp hj
          exact ⟨rfl, hacc⟩
      · rcases List.mem_append.mp hc with hc | hc
        · exact h.concl r' hc
        · cases List.mem_singleton.mp hc
      · refine List.pairwise_append.mpr ⟨h.order, List.pairwise_singleton _ _, fun a ha b hb => ?_⟩
        rintro r' rfl
        rw [List.mem_singleton.mp hb]
        refine ⟨nofun, ?_⟩
        rintro path part' ⟨⟩
        exact hno (h.concl _ ha).1
      · obtain ⟨h1, h2, h3, ⟨h4, h5⟩, h6⟩ := h.reading r' out hr
        refine ⟨h1, h2, h3, ⟨fun hj => ?_, fun path part' hj => ?_⟩, h6⟩
        · rcases List.mem_append.mp hj with hj | hj
          · exact h4 hj
          · cases List.mem_singleton.mp hj
        · rcases List.mem_append.mp hj with hj | hj
          · exact h5 path part' hj
          · cases List.mem_singleton.mp hj
            exact hno h1
      · rcases h.kept r' part' hx with hk | (hk | ⟨path, hk⟩ | hk) | hk
        · exact .inl hk
        · rw [hh] at hk
          cases hk
          exact .inr (.inl (.inr (.inl ⟨_, List.mem_append_right _ List.mem_cons_self⟩)))
        · exact .inr (.inl (.inr (.inl ⟨path, List.mem_append_left _ hk⟩)))
        · exact .inr (.inl (.inr (.inr hk)))
        · exact .inr (.inr hk)
    next => exact h.hooked (by rw [hh]; rfl)
  next => exact h

/-- A part of a resource that is not read at the moment is written. -/
lemma Inv.writeFile (h : Inv B s) (hacc : (r, part) ∈ s.accepted)
    (hr : ∀ out, s.worker ≠ .reading r out) : Inv B (s.writeFile (B.path r) part) ∧
      ∃ file, (s.writeFile (B.path r) part).files (B.path r) = some file ∧ Holds file part := by
  have hself : (s.writeFile (B.path r) part).files (B.path r) =
      some (writeAt ((s.files (B.path r)).getD []) part) := Function.update_self ..
  have hother : ∀ p, p ≠ B.path r → (s.writeFile (B.path r) part).files p = s.files p := fun p hp =>
    Function.update_of_ne hp _ _
  have hfile : ∀ r', r' ≠ r → (s.writeFile (B.path r) part).files (B.path r') = s.files
    (B.path r') :=
    fun r' hne => hother _ fun he => hne (B.inj r' r he)
  refine ⟨{ jobs := h.jobs, concl := h.concl, order := h.order, hook := h.hook, writing := h.writing
            reading := fun r' out hw => ?_, cur := fun p hp => ?_, sized := h.sized,
              agree := h.agree
            only := fun r' file hf => ?_, kept := fun r' part' hx => ?_, results := h.results },
    _, hself, holds_writeAt⟩
  · have hne : r' ≠ r := fun he => hr out (he ▸ hw)
    rw [hfile r' hne]
    exact h.reading r' out hw
  · by_cases hpath : p = B.path r
    · rw [hpath]
      exact ⟨_, hself⟩
    · rw [hother p hpath]
      exact h.cur p hp
  · by_cases hne : r' = r
    · subst hne
      rw [hself] at hf
      obtain rfl := Option.some.inj hf
      have hold : HoldsOnly ((s.files (B.path r')).getD []) (s.partsOf r') := by
        cases hf' : s.files (B.path r') with
        | none => exact holdsOnly_nil
        | some f => exact h.only r' f hf'
      exact hold.writeAt (mem_partsOf.mpr hacc)
    · rw [hfile r' hne] at hf
      exact h.only r' file hf
  · rcases h.kept r' part' hx with hk | hk | ⟨f, hf, hk⟩
    · exact .inl hk
    · exact .inr (.inl hk)
    · refine .inr (.inr ?_)
      by_cases hne : r' = r
      · subst hne
        refine ⟨_, hself, ?_⟩
        rw [hf]
        exact hk.writeAt (h.agree r' part' part hx hacc)
      · rw [hfile r' hne]
        exact ⟨f, hf, hk⟩

lemma Inv.inlineWrite (h : Inv B s) : Inv B (s.inlineWrite B) := by
  unfold Receiver.inlineWrite
  split
  next r part hh =>
    obtain ⟨hacc, hno⟩ := h.hook r part (by rw [hh]; rfl)
    obtain ⟨h', hheld⟩ := h.writeFile hacc fun out hw => hno (h.reading r out hw).1
    refine { jobs := h'.jobs, concl := h'.concl, order := h'.order
             hook := fun _ _ hp => absurd hp (by nofun), writing := h'.writing,
               reading := h'.reading, cur := h'.cur, sized := h'.sized, agree := h'.agree,
               only := h'.only
             kept := fun r' part' hx => ?_, results := h'.results }
    rcases h'.kept r' part' hx with hk | (hk | hk) | hk
    · exact .inl hk
    · have hk : s.hook.holding = some (r', part') := hk
      rw [hh] at hk
      cases hk
      exact .inr (.inr hheld)
    · exact .inr (.inl (.inr hk))
    · exact .inr (.inr hk)
  next => exact h

lemma Inv.deferrer {alloc : Bool} (h : Inv B s) (hr : r ∉ s.concluded) :
    Inv B (s.deferrer r alloc) := by
  unfold Receiver.deferrer
  split
  next hidle =>
    have hc : Inv B { s with concluded := s.concluded ++ [r] } :=
      { jobs := h.jobs, concl := fun r' hc => (h.concl r' hc).imp_left (List.mem_append_left _),
        order := h.order
        hook := fun r' part' hp => by
          have hp : s.hook.holding = some (r', part') := hp
          rw [hidle] at hp
          cases hp
        writing := h.writing
        reading := fun r' out hw => (h.reading r' out hw).imp_left (List.mem_append_left _)
        cur := h.cur, sized := h.sized, agree := h.agree, only := h.only, kept := h.kept
        results := fun r' out hx => (h.results r' out hx).imp_left (List.mem_append_left _) }
    have hnew : r ∉ s.done := fun hm => by
      obtain ⟨⟨r', out⟩, hres, rfl⟩ := List.mem_map.mp hm
      exact hr (h.results r' out hres).1
    split
    next => exact hc
    next =>
      split
      next =>
        refine { jobs := fun r' path part' hj => ?_, concl := fun r' hm => ?_, order := ?_,
                 hook := hc.hook
                 writing := hc.writing, reading := fun r' out hw => ?_, cur := hc.cur,
                   sized := hc.sized
                 agree := hc.agree, only := hc.only, kept := fun r' part' hx => ?_,
                   results := hc.results }
        · rcases List.mem_append.mp hj with hj | hj
          · exact h.jobs r' path part' hj
          · cases List.mem_singleton.mp hj
        · rcases List.mem_append.mp hm with hm | hm
          · exact hc.concl r' hm
          · cases List.mem_singleton.mp hm
            exact ⟨List.mem_append_right _ List.mem_cons_self, hnew⟩
        · refine List.pairwise_append.mpr
            ⟨h.order, List.pairwise_singleton _ _, fun a ha b hb => ?_⟩
          rintro r' rfl
          rw [List.mem_singleton.mp hb]
          refine ⟨?_, nofun⟩
          rintro ⟨⟩
          exact hr (h.concl _ ha).1
        · obtain ⟨h1, h2, h3, ⟨h4, h5⟩, h6⟩ := hc.reading r' out hw
          refine ⟨h1, h2, h3, ⟨fun hj => ?_, fun path part' hj => ?_⟩, h6⟩
          · rcases List.mem_append.mp hj with hj | hj
            · exact h4 hj
            · cases List.mem_singleton.mp hj
              exact hr (h.reading _ out hw).1
          · rcases List.mem_append.mp hj with hj | hj
            · exact h5 path part' hj
            · cases List.mem_singleton.mp hj
        · rcases h.kept r' part' hx with hk | (hk | ⟨path, hk⟩ | hk) | hk
          · exact .inl hk
          · exact .inr (.inl (.inl hk))
          · exact .inr (.inl (.inr (.inl ⟨path, List.mem_append_left _ hk⟩)))
          · exact .inr (.inl (.inr (.inr hk)))
          · exact .inr (.inr hk)
      next => exact h
  next => exact h

lemma Inv.take (h : Inv B s) : Inv B s.take := by
  unfold Receiver.take
  split
  next r path part queue hw hq =>
    have hmem : ∀ {a}, a ∈ queue → a ∈ s.queue := fun ha => hq ▸ List.mem_cons_of_mem _ ha
    have horder := h.order
    rw [hq] at horder
    refine { jobs := fun r' path' part' hj => h.jobs r' path' part' (hmem hj)
             concl := fun r' hc => h.concl r' (hmem hc), order := (List.pairwise_cons.mp horder).2
             hook := h.hook, writing := fun r' path' part' hw' => ?_, reading := nofun, cur := h.cur
             sized := h.sized, agree := h.agree, only := h.only, kept := fun r' part' hx => ?_
             results := h.results }
    · cases hw'
      exact h.jobs r path part (hq ▸ List.mem_cons_self)
    · rcases h.kept r' part' hx with hk | (hk | ⟨path', hk⟩ | ⟨path', hk⟩) | hk
      · exact .inl hk
      · exact .inr (.inl (.inl hk))
      · rw [hq] at hk
        rcases List.mem_cons.mp hk with hk | hk
        · cases hk
          exact .inr (.inl (.inr (.inr ⟨path, rfl⟩)))
        · exact .inr (.inl (.inr (.inl ⟨path', hk⟩)))
      · rw [hw] at hk
        cases hk
      · exact .inr (.inr hk)
  next r queue hw hq =>
    have hmem : ∀ {a}, a ∈ queue → a ∈ s.queue := fun ha => hq ▸ List.mem_cons_of_mem _ ha
    have horder := h.order
    rw [hq] at horder
    obtain ⟨hhead, htail⟩ := List.pairwise_cons.mp horder
    refine { jobs := fun r' path' part' hj => h.jobs r' path' part' (hmem hj)
             concl := fun r' hc => h.concl r' (hmem hc), order := htail, hook := h.hook,
               writing := nofun
             reading := fun r' out hr => ?_, cur := nofun, sized := h.sized, agree := h.agree
             only := h.only, kept := fun r' part' hx => ?_, results := h.results }
    · cases hr
      obtain ⟨h1, h2⟩ := h.concl r (hq ▸ List.mem_cons_self)
      exact ⟨h1, rfl, h2, ⟨fun hj => (hhead _ hj r rfl).1 rfl, fun path part hj =>
        (hhead _ hj r rfl).2 path part rfl⟩, List.take_zero.symm⟩
    · rcases h.kept r' part' hx with hk | (hk | ⟨path', hk⟩ | ⟨path', hk⟩) | hk
      · exact .inl hk
      · exact .inr (.inl (.inl hk))
      · rw [hq] at hk
        rcases List.mem_cons.mp hk with hk | hk
        · cases hk
        · exact .inr (.inl (.inr (.inl ⟨path', hk⟩)))
      · rw [hw] at hk
        cases hk
      · exact .inr (.inr hk)
  next => exact h

lemma Inv.doWrite (h : Inv B s) : Inv B s.doWrite := by
  unfold Receiver.doWrite
  split
  next r path part hw =>
    obtain ⟨rfl, hacc⟩ := h.writing r path part hw
    obtain ⟨h', hheld⟩ := h.writeFile hacc fun out hr => by
      rw [hw] at hr
      cases hr
    -- the file of the worker is open, or is opened
    have hwrite : Inv B { s.writeFile (B.path r) part with
      worker := .freeing part, cur := some (B.path r) } := by
      refine { jobs := h'.jobs, concl := h'.concl, order := h'.order, hook := h'.hook,
               writing := nofun
               reading := nofun, cur := fun p hp => ?_, sized := h'.sized, agree := h'.agree
               only := h'.only, kept := fun r' part' hx => ?_, results := h'.results }
      · obtain rfl := Option.some.inj hp
        exact hheld.imp fun _ => And.left
      · rcases h'.kept r' part' hx with hk | (hk | hk | ⟨path, hk⟩) | hk
        · exact .inl hk
        · exact .inr (.inl (.inl hk))
        · exact .inr (.inl (.inr (.inl hk)))
        · have hk : s.worker = .writing r' path part' := hk
          rw [hw] at hk
          cases hk
          exact .inr (.inr hheld)
        · exact .inr (.inr hk)
    dsimp only
    split
    next hcur =>
      obtain ⟨file, hf⟩ := h.cur _ hcur
      rw [hf]
      have he : { s.writeFile (B.path r) part with
            worker := .freeing part, cur := some (B.path r) } =
          Receiver.writeFile (B.path r) part { s with worker := .freeing part } := by
        unfold Receiver.writeFile
        rw [hcur]
      exact he ▸ hwrite
    next => exact hwrite
  next => exact h

/-- The worker is done with the write of a part. -/
lemma Inv.freed (h : Inv B s) (hw : s.worker = .freeing part) (inflightBytes : Nat) :
    Inv B { s with inflightBytes, worker := .idle } := by
  refine { jobs := h.jobs, concl := h.concl, order := h.order, hook := h.hook, writing := nofun
           reading := nofun, cur := h.cur, sized := h.sized, agree := h.agree, only := h.only
           kept := fun r part' hx => ?_, results := h.results }
  rcases h.kept r part' hx with hk | (hk | hk | ⟨path, hk⟩) | hk
  · exact .inl hk
  · exact .inr (.inl (.inl hk))
  · exact .inr (.inl (.inr (.inl hk)))
  · rw [hw] at hk
    cases hk
  · exact .inr (.inr hk)

lemma Inv.free (h : Inv B s) : Inv B s.free := by
  unfold Receiver.free
  split
  next part hw => exact h.freed hw _
  next => exact h

/-- The parts of a resource that is read back are all in its file. -/
lemma Inv.written (h : Inv B s) (hw : s.worker = .reading r out) (hacc : (r, part) ∈ s.accepted) :
    ∃ file, s.files (B.path r) = some file ∧ Holds file part := by
  obtain ⟨hc, -, hr, ⟨-, hq⟩, -⟩ := h.reading r out hw
  rcases h.kept r part hacc with hk | (hk | ⟨path, hk⟩ | ⟨path, hk⟩) | hk
  · exact absurd hk hr
  · exact absurd hc (h.hook r part hk).2
  · exact absurd hk (hq path part)
  · rw [hw] at hk
    cases hk
  · exact hk

lemma Inv.read {n : Nat} (h : Inv B s) : Inv B (s.read B n) := by
  unfold Receiver.read
  split
  next r out hw =>
    obtain ⟨h1, h2, h3, ⟨h4, h5⟩, h6⟩ := h.reading r out hw
    dsimp only
    generalize hf : ((s.files (B.path r)).getD []).take (B.totalSize r) = file at h6
    split
    next hrest =>
      -- all of the file has been read
      have hout : out = file := by
        rw [h6, List.take_of_length_le (List.drop_eq_nil_iff.mp hrest)]
      let files' := Function.update s.files (B.path r) none
      have hself : files' (B.path r) = none := Function.update_self ..
      have hfile : ∀ r', r' ≠ r → files' (B.path r') = s.files (B.path r') := fun r' hne =>
        Function.update_of_ne (fun he => hne (B.inj r' r he)) _ _
      have hdone : (s.results ++ [(r, out)]).map (·.1) = s.done ++ [r] := List.map_append
      refine { jobs := h.jobs, concl := fun r' hc => ⟨(h.concl r' hc).1, fun hm => ?_⟩,
               order := h.order
               hook := h.hook, writing := nofun, reading := nofun, cur := fun path hp => ?_
               sized := h.sized, agree := h.agree, only := fun r' f hf' => ?_
               kept := fun r' part hx => ?_, results := fun r' out' hres => ?_ }
      · have hm : r' ∈ (s.results ++ [(r, out)]).map (·.1) := hm
        rw [hdone] at hm
        rcases List.mem_append.mp hm with hm | hm
        · exact (h.concl r' hc).2 hm
        · exact h4 (List.mem_singleton.mp hm ▸ hc)
      · rw [h2] at hp
        cases hp
      · have hf' : files' (B.path r') = some f := hf'
        by_cases hne : r' = r
        · rw [hne, hself] at hf'
          cases hf'
        · rw [hfile r' hne] at hf'
          exact h.only r' f hf'
      · change r' ∈ (s.results ++ [(r, out)]).map (·.1) ∨ _ ∨ ∃ f, files' (B.path r') = some f ∧ _
        rw [hdone]
        by_cases hne : r' = r
        · exact .inl (List.mem_append_right _ (hne ▸ List.mem_cons_self))
        · rcases h.kept r' part hx with hk | hk | hk
          · exact .inl (List.mem_append_left _ hk)
          · refine .inr (.inl ?_)
            rcases hk with hk | hk | ⟨path, hk⟩
            · exact .inl hk
            · exact .inr (.inl hk)
            · rw [hw] at hk
              cases hk
          · refine .inr (.inr ?_)
            rw [hfile r' hne]
            exact hk
      · rcases List.mem_append.mp hres with hres | hres
        · exact h.results r' out' hres
        · cases List.mem_singleton.mp hres
          refine ⟨h1, fun part hx => ?_, ?_⟩
          · obtain ⟨f, hs, hheld⟩ := h.written hw hx
            rw [hs] at hf
            rw [hout, ← hf]
            exact hheld.take (h.sized r part hx)
          · rw [hout, ← hf]
            refine HoldsOnly.take ?_
            cases hs : s.files (B.path r) with
            | none => exact holdsOnly_nil
            | some f => exact h.only r f hs
    next =>
      generalize max 1 (min n READ_CHUNK) = k
      refine { jobs := h.jobs, concl := h.concl, order := h.order, hook := h.hook, writing := nofun
               reading := fun r' out' hr => ?_, cur := h.cur, sized := h.sized, agree := h.agree
               only := h.only, kept := fun r' part hx => ?_, results := h.results }
      · cases hr
        refine ⟨h1, h2, h3, ⟨h4, h5⟩, ?_⟩
        dsimp only
        rw [hf]
        have hpre : out ++ (file.drop out.length).take k <+: file := by
          conv_rhs => rw [← List.take_append_drop out.length file, ← h6]
          exact (List.prefix_append_right_inj _).mpr (List.take_prefix _ _)
        exact List.prefix_iff_eq_take.mp hpre
      · rcases h.kept r' part hx with hk | (hk | hk | ⟨path, hk⟩) | hk
        · exact .inl hk
        · exact .inr (.inl (.inl hk))
        · exact .inr (.inl (.inr (.inl hk)))
        · rw [hw] at hk
          cases hk
        · exact .inr (.inr hk)
  next => exact h

lemma Inv.step {e : Event ι} (hok : Proper B s e) (h : Inv B s) : Inv B (s.step B e) := by
  cases e with
  | partWriteHook => exact h.partWriteHook hok
  | count => exact h.count
  | enqueue => exact h.enqueue
  | inlineWrite => exact h.inlineWrite
  | deferrer => exact h.deferrer hok
  | take => exact h.take
  | doWrite => exact h.doWrite
  | free => exact h.free
  | read => exact h.read

/-! ### The bytes in flight -/

/-- The copy that the loop has counted and not sent yet. -/
def Hook.copies : Hook ι → List Extent
  | .counted _ part => [part]
  | _ => []

def Job.copies : Job ι → List Extent
  | .writePart _ _ part => [part]
  | .conclude _ => []

/-- The copy that the worker has not freed yet. -/
def Worker.copies : Worker ι → List Extent
  | .writing _ _ part | .freeing part => [part]
  | _ => []

/-- The copies that were made for the queue and counted. -/
def Receiver.copies (s : Receiver ι) : List Extent :=
  s.hook.copies ++ s.queue.flatMap Job.copies ++ s.worker.copies

def size (es : List Extent) : Nat := (es.map (·.data.length)).sum

structure Accounted (s : Receiver ι) : Prop where
  bytes : s.inflightBytes = size s.copies
  limit : s.inflightBytes ≤ INFLIGHT_CAP
  copied : ∀ r part, s.hook = .copied r part → s.inflightBytes + part.data.length ≤ INFLIGHT_CAP

omit [DecidableEq ι] in
@[simp]
lemma size_copies : size s.copies =
    size s.hook.copies + size (s.queue.flatMap Job.copies) + size s.worker.copies := by
  unfold size Receiver.copies
  rw [List.map_append, List.map_append, List.sum_append, List.sum_append]

@[simp]
lemma size_one : size [part] = part.data.length := List.sum_singleton

lemma size_append {es es' : List Extent} : size (es ++ es') = size es + size es' := by
  unfold size
  rw [List.map_append, List.sum_append]

variable {s' : Receiver ι}

omit [DecidableEq ι] in
/-- A step that leaves the copies. -/
lemma Accounted.keep (h : Accounted s) (hb : s'.inflightBytes = s.inflightBytes)
    (hs : size s'.copies = size s.copies)
    (hc : ∀ r part, s'.hook = .copied r part → s.hook = .copied r part) : Accounted s' := by
  refine ⟨?_, ?_, fun r part hh => ?_⟩
  · rw [hb, hs]
    exact h.bytes
  · rw [hb]
    exact h.limit
  · rw [hb]
    exact h.copied r part (hc r part hh)

omit [DecidableEq ι] in
lemma Accounted.partWriteHook {alloc : Bool} (h : Accounted s) :
    Accounted (s.partWriteHook r part alloc) := by
  have hcap : INFLIGHT_CAP < 2 ^ 20 := by decide
  have hram : EXTERNAL_RAM < 2 ^ 26 := by decide
  have hl := h.limit
  unfold Receiver.partWriteHook
  split
  next hidle =>
    have hs : ∀ hook : Hook ι, hook.copies = [] → size
        (Receiver.copies { s with accepted := s.accepted ++ [(r, part)], hook }) = size s.copies :=
      fun hook hh => by rw [size_copies, size_copies, hh, hidle]; rfl
    dsimp only
    split
    next hok =>
      have hlen : part.data.length ≤ EXTERNAL_RAM := by
        have halloc := hok.2
        unfold Receiver.malloc at halloc
        exact of_decide_eq_true (Bool.and_eq_true_iff.mp halloc).2
      have hle := hok.1
      rw [Nat.mod_eq_of_lt (by omega)] at hle
      refine ⟨h.bytes.trans (hs (.copied r part) rfl).symm, hl, ?_⟩
      rintro r' part' ⟨⟩
      exact hle
    next => exact h.keep rfl (hs (.inline r part) rfl) nofun
  next => exact h

omit [DecidableEq ι] in
lemma Accounted.count (h : Accounted s) : Accounted s.count := by
  have hcap : INFLIGHT_CAP < 2 ^ 20 := by decide
  unfold Receiver.count
  split
  next r part hh =>
    have hle := h.copied r part hh
    have hb := h.bytes
    rw [size_copies, hh] at hb
    have hmod : (s.inflightBytes + part.data.length) % 2 ^ 32 = s.inflightBytes +
      part.data.length :=
      Nat.mod_eq_of_lt (by omega)
    rw [hmod]
    refine ⟨?_, hle, nofun⟩
    rw [size_copies, hb]
    simp only [Hook.copies, size_one]
    simp only [size, List.map_nil, List.sum_nil]
    omega
  next => exact h

omit [DecidableEq ι] in
lemma Accounted.enqueue (h : Accounted s) : Accounted (s.enqueue B) := by
  have hcap : INFLIGHT_CAP < 2 ^ 20 := by decide
  have hl := h.limit
  have hb := h.bytes
  unfold Receiver.enqueue
  split
  next r part hh =>
    rw [size_copies, hh] at hb
    have hhook : size (Hook.copies (.counted r part)) = part.data.length := size_one
    split
    next =>
      refine ⟨?_, hl, fun r part h => by cases h⟩
      rw [size_copies, hb, hhook]
      dsimp only
      rw [List.flatMap_append, size_append, List.flatMap_singleton]
      simp only [Hook.copies, Job.copies, size_one]
      simp only [size, List.map_nil, List.sum_nil]
      omega
    next =>
      have hmod : (s.inflightBytes + 2 ^ 32 - part.data.length) % 2 ^ 32 =
          s.inflightBytes - part.data.length := by omega
      rw [hmod]
      refine ⟨?_, (Nat.sub_le _ _).trans hl, fun r part h => by cases h⟩
      rw [size_copies, hb, hhook]
      simp only [Hook.copies]
      simp only [size, List.map_nil, List.sum_nil]
      omega
  next => exact h

omit [DecidableEq ι] in
lemma Accounted.inlineWrite (h : Accounted s) : Accounted (s.inlineWrite B) := by
  unfold Receiver.inlineWrite
  split
  next r part hh =>
    refine h.keep rfl ?_ nofun
    rw [size_copies, size_copies, hh]
    rfl
  next => exact h

omit [DecidableEq ι] in
lemma Accounted.deferrer {alloc : Bool} (h : Accounted s) : Accounted (s.deferrer r alloc) := by
  unfold Receiver.deferrer
  split
  next =>
    split
    next => exact h.keep rfl rfl fun _ _ => id
    next =>
      split
      next =>
        refine h.keep rfl ?_ fun _ _ => id
        rw [size_copies, size_copies]
        dsimp only
        rw [List.flatMap_append, size_append]
        rfl
      next => exact h
  next => exact h

omit [DecidableEq ι] in
lemma Accounted.take (h : Accounted s) : Accounted s.take := by
  unfold Receiver.take
  split
  next r path part queue hw hq =>
    refine h.keep rfl ?_ fun _ _ => id
    rw [size_copies, size_copies, hq, hw, List.flatMap_cons, size_append]
    simp only [Job.copies, Worker.copies, size_one]
    simp only [size, List.map_nil, List.sum_nil]
    omega
  next r queue hw hq =>
    refine h.keep rfl ?_ fun _ _ => id
    rw [size_copies, size_copies, hq, hw, List.flatMap_cons, size_append]
    simp only [Job.copies, Worker.copies]
    simp only [size, List.map_nil, List.sum_nil]
    omega
  next => exact h

omit [DecidableEq ι] in
lemma Accounted.doWrite (h : Accounted s) : Accounted s.doWrite := by
  unfold Receiver.doWrite
  split
  next r path part hw =>
    have hs : ∀ files cur, size (Receiver.copies { s with files, cur, worker := .freeing part }) =
        size s.copies := fun files cur => by
      rw [size_copies, size_copies, hw]
      rfl
    dsimp only
    split
    next =>
      split
      next => exact h.keep rfl (hs _ _) fun _ _ => id
      next => exact h.keep rfl (hs _ _) fun _ _ => id
    next => exact h.keep rfl (hs _ _) fun _ _ => id
  next => exact h

omit [DecidableEq ι] in
lemma Accounted.free (h : Accounted s) : Accounted s.free := by
  have hcap : INFLIGHT_CAP < 2 ^ 20 := by decide
  have hl := h.limit
  have hb := h.bytes
  unfold Receiver.free
  split
  next part hw =>
    rw [size_copies, hw] at hb
    have hworker : size (Worker.copies (ι := ι) (.freeing part)) = part.data.length := size_one
    have hmod : (s.inflightBytes + 2 ^ 32 - part.data.length) % 2 ^ 32 =
        s.inflightBytes - part.data.length := by omega
    rw [hmod]
    refine ⟨?_, (Nat.sub_le _ _).trans hl, fun r part' hh => ?_⟩
    · rw [size_copies, hb, hworker]
      simp only [Worker.copies]
      simp only [size, List.map_nil, List.sum_nil]
      omega
    · exact (Nat.add_le_add_right (Nat.sub_le _ _) _).trans (h.copied r part' hh)
  next => exact h

omit [DecidableEq ι] in
lemma Accounted.read {n : Nat} (h : Accounted s) : Accounted (s.read B n) := by
  unfold Receiver.read
  split
  next r out hw =>
    have hs : ∀ files results, size (Receiver.copies { s with files, results, worker := .idle }) =
        size s.copies := fun files results => by
      rw [size_copies, size_copies, hw]
      rfl
    dsimp only
    split
    next => exact h.keep rfl (hs _ _) fun _ _ => id
    next =>
      refine h.keep rfl ?_ fun _ _ => id
      rw [size_copies, size_copies, hw]
      rfl
  next => exact h

omit [DecidableEq ι] in
lemma Accounted.step {e : Event ι} (h : Accounted s) : Accounted (s.step B e) := by
  cases e with
  | partWriteHook => exact h.partWriteHook
  | count => exact h.count
  | enqueue => exact h.enqueue
  | inlineWrite => exact h.inlineWrite
  | deferrer => exact h.deferrer
  | take => exact h.take
  | doWrite => exact h.doWrite
  | free => exact h.free
  | read => exact h.read

instance : ∀ e, Decidable (Proper B s e)
  | .partWriteHook r part _ => inferInstanceAs (Decidable (r ∉ s.concluded ∧
      part.off + part.data.length ≤ B.totalSize r ∧ ∀ x ∈ s.accepted, x.1 = r → Agree x.2 part))
  | .deferrer r _ => inferInstanceAs (Decidable (r ∉ s.concluded))
  | .count | .enqueue | .inlineWrite | .take | .doWrite | .free | .read _ => .isTrue trivial

/-- Two resources. -/
def pair : Buffers Bool :=
  { path := fun r => if r then [0x61] else [0x62], totalSize := fun _ => 2, inj := by decide
    fits := by decide }

end URSupreme.RnsConclude
