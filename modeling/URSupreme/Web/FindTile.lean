import Mathlib.Tactic
import URSupreme.Web.Directory

/-!
# Finding a tile in a directory

`findTile` of the map reader in `spa/protomaps-leaflet.js`: a binary search for the last entry whose
tile id is not above the one that is looked up, which is a leaf pointer or covers it with its run.
-/

namespace URSupreme.MapExtract
open Lib

/-- The loop of `findTile` between `t` and `hi`, where `hi` is `n + 1`; what it finds, or the last
`n + 1`. -/
def findLoop (dir : List EntryV3) (tileId : UInt64) : Nat → Nat → Nat → EntryV3 ⊕ Nat
  | 0, _, hi => .inr hi
  | fuel + 1, t, hi =>
    if t < hi then
      let r := (hi - 1 + t) / 2
      match dir[r]? with
      | none => .inr hi
      | some e =>
        if e.tileId < tileId then findLoop dir tileId fuel (r + 1) hi
        else if tileId < e.tileId then findLoop dir tileId fuel t r
        else .inl e
    else .inr hi

/-- `findTile`. -/
def findTile (dir : List EntryV3) (tileId : UInt64) : Option EntryV3 :=
  match findLoop dir tileId (dir.length + 1) 0 dir.length with
  | .inl e => some e
  | .inr 0 => none
  | .inr (n + 1) =>
    match dir[n]? with
    | none => none
    | some e =>
      if e.runLength = 0 ∨ tileId.toNat < e.tileId.toNat + e.runLength.toNat then some e else none

/-- The last entry whose tile id is not above `id`. -/
def lastLe (id : UInt64) (dir : List EntryV3) : Option EntryV3 :=
  (dir.filter (·.tileId ≤ id)).getLast?

/-- The entry is a leaf pointer, or its run covers the tile. -/
def Covers (id : UInt64) (e : EntryV3) : Prop :=
  e.runLength = 0 ∨ id.toNat < e.tileId.toNat + e.runLength.toNat

instance instDecidableCoversTile (id : UInt64) (e : EntryV3) : Decidable (Covers id e) :=
  inferInstanceAs (Decidable (_ ∨ _))

variable {dir : List EntryV3} {id : UInt64} {n t hi fuel : Nat}

/-- The tile ids grow. -/
def Increasing (dir : List EntryV3) : Prop := dir.Pairwise (·.tileId < ·.tileId)

lemma Increasing.lt {i j : Nat} (h : Increasing dir) (hij : i < j) (hj : j < dir.length) :
    dir[i].tileId < dir[j].tileId :=
  List.pairwise_iff_getElem.mp h i j (by omega) hj hij

/-- The entries up to `n` are those whose tile id is not above `id`. -/
lemma lastLe_of_split (hlow : ∀ i (hi : i < dir.length), i < n → dir[i].tileId ≤ id)
    (hhigh : ∀ i (hi : i < dir.length), n ≤ i → id < dir[i].tileId) (hn : n ≤ dir.length) :
    lastLe id dir = if n = 0 then none else dir[n - 1]? := by
  have htake : dir.filter (·.tileId ≤ id) = dir.take n := by
    conv_lhs => rw [← List.take_append_drop n dir, List.filter_append]
    rw [List.filter_eq_self.mpr, List.filter_eq_nil_iff.mpr, List.append_nil]
    · intro e he
      obtain ⟨i, hi, rfl⟩ := List.mem_iff_getElem.mp he
      rw [List.length_drop] at hi
      rw [List.getElem_drop, decide_eq_true_eq, UInt64.not_le]
      exact hhigh _ (by omega) (by omega)
    · intro e he
      obtain ⟨i, hi, rfl⟩ := List.mem_iff_getElem.mp he
      rw [List.length_take] at hi
      rw [List.getElem_take, decide_eq_true_eq]
      exact hlow _ (by omega) (by omega)
  rw [lastLe, htake, List.getLast?_eq_getElem?, List.length_take_of_le hn]
  split
  next h => rw [h, List.take_zero]; rfl
  next h => exact List.getElem?_take_of_lt (by omega)

/-- What the loop ends with: the entry itself, or the number of entries with a smaller tile id. -/
lemma findLoop_spec (hs : Increasing dir) (hf : hi - t < fuel) (ht : t ≤ hi) (hh : hi ≤ dir.length)
    (hlow : ∀ i (h : i < dir.length), i < t → dir[i].tileId < id)
    (hhigh : ∀ i (h : i < dir.length), hi ≤ i → id < dir[i].tileId) :
    (∃ e, findLoop dir id fuel t hi = .inl e ∧ lastLe id dir = some e ∧ e.tileId = id) ∨
      ∃ n, findLoop dir id fuel t hi = .inr n ∧ n ≤ dir.length ∧
        lastLe id dir = if n = 0 then none else dir[n - 1]? := by
  induction fuel generalizing t hi with
  | zero => omega
  | succ fuel ih =>
    unfold findLoop
    split
    next hlt =>
      have hr : (hi - 1 + t) / 2 < dir.length := by omega
      dsimp only
      rw [List.getElem?_eq_getElem hr]
      dsimp only
      split
      next hless =>
        refine ih (by omega) (by omega) hh (fun i h hit => ?_) hhigh
        rcases Nat.lt_or_ge i ((hi - 1 + t) / 2) with hir | hir
        · exact UInt64.lt_trans (hs.lt hir hr) hless
        · obtain rfl : i = (hi - 1 + t) / 2 := by omega
          exact hless
      next hless =>
        split
        next hgreater =>
          refine ih (by omega) (by omega) (by omega) hlow fun i h hit => ?_
          rcases Nat.eq_or_lt_of_le hit with rfl | hir
          · exact hgreater
          · exact UInt64.lt_trans hgreater (hs.lt hir h)
        next hgreater =>
          have he : dir[(hi - 1 + t) / 2].tileId = id :=
            UInt64.le_antisymm (UInt64.not_lt.mp hgreater) (UInt64.not_lt.mp hless)
          refine .inl ⟨_, rfl, ?_, he⟩
          rw [lastLe_of_split (n := (hi - 1 + t) / 2 + 1) (fun i h hit => ?_) (fun i h hit => ?_)
            hr,
            if_neg (Nat.succ_ne_zero _), Nat.add_sub_cancel, List.getElem?_eq_getElem hr]
          · rcases Nat.lt_or_ge i ((hi - 1 + t) / 2) with hir | hir
            · exact UInt64.le_of_lt (he ▸ hs.lt hir hr)
            · obtain rfl : i = (hi - 1 + t) / 2 := by omega
              exact UInt64.le_of_eq he
          · rw [← he]
            exact hs.lt hit h
    next hge =>
      obtain rfl : t = hi := by omega
      exact .inr ⟨t, rfl, hh, lastLe_of_split
        (fun i h hit => UInt64.le_of_lt (hlow i h hit)) hhigh hh⟩

/-- `findTile` gives the last entry whose tile id is not above the one looked up, if it covers
it. -/
lemma findTile_eq (hs : Increasing dir) :
    findTile dir id = (lastLe id dir).filter fun e => decide (Covers id e) := by
  unfold findTile
  rcases findLoop_spec (t := 0) hs (Nat.lt_succ_self _) (Nat.zero_le _) le_rfl
    (fun i _ hit => absurd hit (Nat.not_lt_zero i))
    (fun i h hit => absurd h (Nat.not_lt.mpr hit)) with
    ⟨e, h1, h2, he⟩ | ⟨n, h1, hn, h2⟩
  · have hc : Covers id e := by
      rcases Nat.eq_zero_or_pos e.runLength.toNat with h0 | hpos
      · exact .inl (UInt32.toNat_inj.mp h0)
      · have hlt : id.toNat < id.toNat + e.runLength.toNat := Nat.lt_add_of_pos_right hpos
        exact .inr (he.symm ▸ hlt)
    rw [Nat.sub_zero] at h1
    rw [h1, h2, Option.filter_some, if_pos (decide_eq_true hc)]
  · rw [Nat.sub_zero] at h1
    rw [h1, h2]
    cases n with
    | zero => rfl
    | succ n =>
      rw [if_neg (Nat.succ_ne_zero n), Nat.add_sub_cancel]
      dsimp only
      rw [List.getElem?_eq_getElem hn, Option.filter_some]
      simp only [decide_eq_true_eq]
      rfl

end URSupreme.MapExtract
