import URSupreme.Lib.Slots

/-!
# Orders that wait and are settled

Orders are accepted under a key. Each waits in a queue until one outcome is logged about its key; an
order that is accepted under the key of a waiting one takes its place. The queue's entries and the
outcomes have types of their own, and a `Desk` tells how to read them.
-/

namespace Lib

variable {κ μ ε ο ν : Type} [DecidableEq κ]

/-- How entries and outcomes are read: an entry has a key and a content, which is what the order
comes to; an outcome can be about a key and tell of a content. -/
structure Desk (κ μ ε ο ν : Type) where
  key : ε → κ
  content : ε → ν
  comesTo : μ → ν
  about : ο → Option κ
  Tells : ο → κ → ν → Prop

/-- The last order accepted under a key. -/
def newest (k : κ) (acc : List (κ × μ)) : Option μ :=
  acc.foldl (fun r a => if a.1 = k then some a.2 else r) none

lemma newest_append {k : κ} {a : κ × μ} {acc : List (κ × μ)} :
    newest k (acc ++ [a]) = if a.1 = k then some a.2 else newest k acc := by
  rw [newest, List.foldl_append]
  rfl

lemma mem_of_newest {k : κ} {m : μ} {acc : List (κ × μ)} (h : newest k acc = some m) :
    (k, m) ∈ acc := by
  induction acc using List.reverseRecOn with
  | nil => cases h
  | append_singleton acc a ih =>
    rw [newest_append] at h
    split at h
    next e =>
      cases h
      exact List.mem_append_right _ (List.mem_singleton.mpr (by rw [← e]))
    next => exact List.mem_append_left _ (ih h)

/-- A key that was never accepted under has no order. -/
lemma newest_of_fresh {k : κ} {acc : List (κ × μ)} (h : ∀ a ∈ acc, a.1 ≠ k) :
    newest k acc = none := by
  cases hn : newest k acc with
  | none => rfl
  | some m => exact absurd rfl (h _ (mem_of_newest hn))

/-- Orders under other keys do not count. -/
lemma newest_filter {k : κ} {acc : List (κ × μ)} :
    newest k (acc.filter (·.1 = k)) = newest k acc := by
  induction acc using List.reverseRecOn with
  | nil => rfl
  | append_singleton acc a ih =>
    rw [List.filter_append, newest_append, ← ih]
    by_cases ha : a.1 = k
    · rw [List.filter_cons_of_pos (by simpa using ha), if_pos ha, List.filter_nil, newest_append,
        if_pos ha]
    · rw [List.filter_cons_of_neg (by simpa using ha), if_neg ha, List.filter_nil, List.append_nil]

variable (D : Desk κ μ ε ο ν)

/-- Every accepted order waits as it was given last, or has its one outcome. -/
structure Booked (acc : List (κ × μ)) (queue : List ε) (log : List ο) : Prop where
  keys : (queue.map D.key).Nodup
  waiting : ∀ e ∈ queue, (∃ m, newest (D.key e) acc = some m ∧ D.content e = D.comesTo m) ∧
    ∀ o ∈ log, D.about o ≠ some (D.key e)
  settled : ∀ a ∈ acc, (∃ e ∈ queue, D.key e = a.1) ∨
    ∃ m, newest a.1 acc = some m ∧
      ∃ o, log.filter (D.about · = some a.1) = [o] ∧ D.Tells o a.1 (D.comesTo m)

variable {D} {acc : List (κ × μ)} {queue l1 l2 : List ε} {log : List ο} {e e' : ε} {o : ο} {m : μ}
  {k : κ}

lemma Booked.nil : Booked D [] [] [] := ⟨List.nodup_nil, nofun, nofun⟩

/-- A waiting entry has an accepted order. -/
lemma Booked.key_mem (h : Booked D acc queue log) (he : e ∈ queue) : ∃ m, (D.key e, m) ∈ acc := by
  obtain ⟨⟨m, hm, -⟩, -⟩ := h.waiting e he
  exact ⟨m, mem_of_newest hm⟩

/-- An order under a new key. -/
lemma Booked.accept (h : Booked D acc queue log) (hk : ∀ a ∈ acc, a.1 ≠ D.key e)
    (hl : ∀ o ∈ log, D.about o ≠ some (D.key e)) (hc : D.content e = D.comesTo m) :
    Booked D (acc ++ [(D.key e, m)]) (queue ++ [e]) log := by
  have hq : ∀ x ∈ queue, D.key x ≠ D.key e := fun x hx => by
    obtain ⟨m', hm'⟩ := h.key_mem hx
    exact hk _ hm'
  have hn : ∀ {k}, k ≠ D.key e → newest k (acc ++ [(D.key e, m)]) = newest k acc := fun hne => by
    rw [newest_append]
    exact if_neg (Ne.symm hne)
  refine ⟨?_, fun x hx => ?_, fun a ha => ?_⟩
  · rw [List.map_append, List.map_singleton]
    refine List.nodup_append.mpr ⟨h.keys, List.nodup_singleton _, fun a ha b hb => ?_⟩
    obtain ⟨x, hx, rfl⟩ := List.mem_map.mp ha
    obtain rfl := List.mem_singleton.mp hb
    exact hq x hx
  · rcases List.mem_append.mp hx with hx | hx
    · rw [hn (hq x hx)]
      exact h.waiting x hx
    · obtain rfl := List.mem_singleton.mp hx
      exact ⟨⟨m, by rw [newest_append]; exact if_pos rfl, hc⟩, hl⟩
  · rcases List.mem_append.mp ha with ha | ha
    · rw [hn (hk a ha)]
      exact (h.settled a ha).imp_left fun ⟨x, hx, hxa⟩ => ⟨x, List.mem_append_left _ hx, hxa⟩
    · obtain rfl := List.mem_singleton.mp ha
      exact .inl ⟨e, List.mem_append_right _ (List.mem_singleton.mpr rfl), rfl⟩

/-- The other entries have other keys. -/
lemma Booked.others_ne (h : Booked D acc (l1 ++ e :: l2) log) :
    ∀ x ∈ l1 ++ l2, D.key x ≠ D.key e := by
  have h1 := h.keys
  rw [List.map_append, List.map_cons, List.nodup_middle, ← List.map_append] at h1
  exact fun x hx hxe => (List.nodup_cons.mp h1).1 (hxe ▸ List.mem_map_of_mem hx)

/-- An order that takes the place of a waiting one. -/
lemma Booked.replace (h : Booked D acc (l1 ++ e :: l2) log) (hk : D.key e' = D.key e)
    (hc : D.content e' = D.comesTo m) :
    Booked D (acc ++ [(D.key e, m)]) (l1 ++ e' :: l2) log := by
  have hkeys : (l1 ++ e' :: l2).map D.key = (l1 ++ e :: l2).map D.key := by
    rw [List.map_append, List.map_append, List.map_cons, List.map_cons, hk]
  have hnd := h.others_ne
  refine ⟨by rw [hkeys]; exact h.keys, fun x hx => ?_, fun a ha => ?_⟩
  · rw [newest_append]
    rcases mem_split.mp hx with rfl | hx
    · rw [hk, if_pos rfl]
      exact ⟨⟨m, rfl, hc⟩, (h.waiting e (mem_split.mpr (.inl rfl))).2⟩
    · rw [if_neg (Ne.symm (hnd x hx))]
      exact h.waiting x (mem_split.mpr (.inr hx))
  · by_cases hae : a.1 = D.key e
    · exact .inl ⟨e', mem_split.mpr (.inl rfl), hk.trans hae.symm⟩
    · rw [newest_append, if_neg (Ne.symm hae)]
      have ha : a ∈ acc := by
        rcases List.mem_append.mp ha with ha | ha
        · exact ha
        · exact absurd (congrArg Prod.fst (List.mem_singleton.mp ha)) hae
      refine (h.settled a ha).imp_left fun ⟨x, hx, hxa⟩ => ?_
      rcases mem_split.mp hx with rfl | hx
      · exact absurd hxa.symm hae
      · exact ⟨x, mem_split.mpr (.inr hx), hxa⟩

/-- An entry that is changed in other parts. -/
lemma Booked.keep (h : Booked D acc (l1 ++ e :: l2) log) (hk : D.key e' = D.key e)
    (hc : D.content e' = D.content e) : Booked D acc (l1 ++ e' :: l2) log := by
  have hkeys : (l1 ++ e' :: l2).map D.key = (l1 ++ e :: l2).map D.key := by
    rw [List.map_append, List.map_append, List.map_cons, List.map_cons, hk]
  refine ⟨by rw [hkeys]; exact h.keys, fun x hx => ?_, fun a ha => ?_⟩
  · rcases mem_split.mp hx with rfl | hx
    · rw [hk, hc]
      exact h.waiting e (mem_split.mpr (.inl rfl))
    · exact h.waiting x (mem_split.mpr (.inr hx))
  · refine (h.settled a ha).imp_left fun ⟨x, hx, hxa⟩ => ?_
    rcases mem_split.mp hx with rfl | hx
    · exact ⟨e', mem_split.mpr (.inl rfl), hk.trans hxa⟩
    · exact ⟨x, mem_split.mpr (.inr hx), hxa⟩

/-- All entries are changed in other parts. -/
lemma Booked.map {f : ε → ε} (h : Booked D acc queue log) (hk : ∀ e, D.key (f e) = D.key e)
    (hc : ∀ e, D.content (f e) = D.content e) : Booked D acc (queue.map f) log := by
  refine ⟨?_, fun x hx => ?_, fun a ha => ?_⟩
  · rw [List.map_map, show D.key ∘ f = D.key from funext hk]
    exact h.keys
  · obtain ⟨y, hy, rfl⟩ := List.mem_map.mp hx
    rw [hk, hc]
    exact h.waiting y hy
  · exact (h.settled a ha).imp_left fun ⟨x, hx, hxa⟩ =>
      ⟨f x, List.mem_map_of_mem hx, (hk x).trans hxa⟩

/-- An outcome that is about no accepted key. -/
lemma Booked.note (h : Booked D acc queue log) (ho : ∀ a ∈ acc, D.about o ≠ some a.1) :
    Booked D acc queue (log ++ [o]) := by
  refine ⟨h.keys, fun x hx => ⟨(h.waiting x hx).1, fun o' ho' => ?_⟩, fun a ha => ?_⟩
  · rcases List.mem_append.mp ho' with ho' | ho'
    · exact (h.waiting x hx).2 o' ho'
    · obtain ⟨m, hm⟩ := h.key_mem hx
      obtain rfl := List.mem_singleton.mp ho'
      exact ho _ hm
  · rw [List.filter_append, List.filter_cons_of_neg (by simpa using ho a ha), List.filter_nil,
      List.append_nil]
    exact h.settled a ha

/-- The outcome of a waiting entry. -/
lemma Booked.settle (h : Booked D acc (l1 ++ e :: l2) log) (ho : D.about o = some (D.key e))
    (ht : D.Tells o (D.key e) (D.content e)) : Booked D acc (l1 ++ l2) (log ++ [o]) := by
  have hnd := h.others_ne
  have h1 := h.keys
  rw [List.map_append, List.map_cons, List.nodup_middle, ← List.map_append] at h1
  refine ⟨(List.nodup_cons.mp h1).2, fun x hx => ?_, fun a ha => ?_⟩
  · obtain ⟨hm, hl⟩ := h.waiting x (mem_split.mpr (.inr hx))
    refine ⟨hm, fun o' ho' => ?_⟩
    rcases List.mem_append.mp ho' with ho' | ho'
    · exact hl o' ho'
    · obtain rfl := List.mem_singleton.mp ho'
      rw [ho]
      exact fun hxe => hnd x hx (Option.some.inj hxe).symm
  · by_cases hae : a.1 = D.key e
    · obtain ⟨⟨m, hm, hc⟩, hl⟩ := h.waiting e (mem_split.mpr (.inl rfl))
      rw [hae]
      refine .inr ⟨m, hm, o, ?_, hc ▸ ht⟩
      have hnil : log.filter (D.about · = some (D.key e)) = [] :=
        List.filter_eq_nil_iff.mpr fun x hx => by simpa using hl x hx
      rw [List.filter_append, hnil, List.nil_append, List.filter_singleton]
      simp [ho]
    · rw [List.filter_append, List.filter_singleton]
      have hne : ¬ D.about o = some a.1 := by
        rw [ho]
        exact fun he => hae (Option.some.inj he).symm
      rw [decide_eq_false hne]
      refine (h.settled a ha).imp (fun ⟨x, hx, hxa⟩ => ?_) fun ⟨m, hm, o', ho', ht'⟩ => ?_
      · rcases mem_split.mp hx with rfl | hx
        · exact absurd hxa.symm hae
        · exact ⟨x, hx, hxa⟩
      · exact ⟨m, hm, o', by rw [ho']; rfl, ht'⟩

/-- What has become of an accepted order. -/
lemma Booked.fate (h : Booked D acc queue log) {a : κ × μ} (ha : a ∈ acc) :
    ∃ m, newest a.1 acc = some m ∧
      ((∃ e, queue.filter (D.key · = a.1) = [e] ∧ D.content e = D.comesTo m ∧
          log.filter (D.about · = some a.1) = []) ∨
        (queue.filter (D.key · = a.1) = [] ∧
          ∃ o, log.filter (D.about · = some a.1) = [o] ∧ D.Tells o a.1 (D.comesTo m))) := by
  by_cases hq : ∃ e ∈ queue, D.key e = a.1
  · obtain ⟨e, he, hea⟩ := hq
    obtain ⟨⟨m, hm, hc⟩, hl⟩ := h.waiting e he
    rw [hea] at hm hl
    refine ⟨m, hm, .inl ⟨e, ?_, hc, List.filter_eq_nil_iff.mpr fun o ho => by simpa using hl o ho⟩⟩
    obtain ⟨l1, l2, rfl⟩ := List.append_of_mem he
    have hne := h.others_ne
    have hnil : ∀ l : List ε, (∀ x ∈ l, x ∈ l1 ++ l2) → l.filter (D.key · = a.1) = [] := fun l hl =>
      List.filter_eq_nil_iff.mpr fun x hx => by
        rw [← hea]
        simpa using hne x (hl x hx)
    rw [List.filter_append, List.filter_cons_of_pos (by simpa using hea),
      hnil l1 fun x hx => List.mem_append_left _ hx, hnil l2 fun x hx => List.mem_append_right _ hx]
    rfl
  · obtain hw | ⟨m, hm, hs⟩ := h.settled a ha
    · exact absurd hw hq
    · refine ⟨m, hm, .inr ⟨List.filter_eq_nil_iff.mpr fun x hx => ?_, hs⟩⟩
      simpa using fun hxa => hq ⟨x, hx, hxa⟩

end Lib
