import URSupreme.Lib.Recent

/-!
# The latest entry of each key

A history of entries, each with a key and a value: `latest` keeps one entry for each key, the last
one, in the order in which these entries came. An entry that comes moves its key to the end.
-/

namespace Lib

variable {κ β : Type} [DecidableEq κ] {x : κ × β} {l l' h : List (κ × β)} {n : Nat}

/-- The entry of a key moves to the end. -/
def touch (x : κ × β) (l : List (κ × β)) : List (κ × β) := l.filter (·.1 ≠ x.1) ++ [x]

/-- The last entry of each key, the last that came at the end. -/
def latest (h : List (κ × β)) : List (κ × β) := h.foldl (fun l x => touch x l) []

lemma latest_snoc : latest (h ++ [x]) = touch x (latest h) := by
  rw [latest, List.foldl_append, List.foldl_cons, List.foldl_nil, latest]

/-- No key comes twice. -/
def Distinct (l : List (κ × β)) : Prop := (l.map (·.1)).Nodup

lemma Distinct.touch (h : Distinct l) : Distinct (touch x l) := by
  unfold Distinct Lib.touch
  rw [List.map_append, List.nodup_append]
  refine ⟨h.sublist (List.filter_sublist.map _), List.nodup_singleton _, ?_⟩
  intro a ha b hb
  obtain ⟨y, hy, rfl⟩ := List.mem_map.mp ha
  obtain rfl := List.mem_singleton.mp hb
  exact of_decide_eq_true (List.mem_filter.mp hy).2

lemma distinct_latest : Distinct (latest h) := by
  induction h using List.reverseRecOn with
  | nil => exact List.nodup_nil
  | append_singleton h x ih =>
    rw [latest_snoc]
    exact ih.touch

/-- The entry of a key that comes once is taken out. -/
lemma Distinct.filter {l1 l2 : List (κ × β)} {y : κ × β} (h : Distinct (l1 ++ y :: l2)) :
    (l1 ++ y :: l2).filter (·.1 ≠ y.1) = l1 ++ l2 := by
  unfold Distinct at h
  rw [List.map_append, List.map_cons, List.nodup_middle, List.nodup_cons, ← List.map_append] at h
  have hkeep : ∀ z ∈ l1 ++ l2, decide (z.1 ≠ y.1) = true := fun z hz =>
    decide_eq_true fun e => h.1 (e ▸ List.mem_map_of_mem hz)
  rw [List.filter_append, List.filter_cons_of_neg (by simp), ← List.filter_append,
    List.filter_eq_self.mpr hkeep]

/-- An entry whose key does not come. -/
lemma touch_of_not_mem (h : x.1 ∉ l.map (·.1)) : touch x l = l ++ [x] := by
  have hkeep : ∀ z ∈ l, decide (z.1 ≠ x.1) = true := fun z hz =>
    decide_eq_true fun e => h (e ▸ List.mem_map_of_mem hz)
  rw [touch, List.filter_eq_self.mpr hkeep]

lemma touch_perm (h : l.Perm l') : (touch x l).Perm (touch x l') := (h.filter _).append_right _

/-- The last `n` of a list that ends in `n` entries. -/
lemma recent_append_of_length {α : Type} {a b : List α} (h : b.length = n) :
    recent n (a ++ b) = b := by
  rw [recent, List.length_append, h, Nat.add_sub_cancel]
  exact List.drop_left

/-- An entry whose key is among the last `n` moves among these. -/
lemma recent_touch_of_mem (hd : Distinct l) (hx : x.1 ∈ (recent n l).map (·.1)) :
    recent n (touch x l) = touch x (recent n l) := by
  obtain ⟨y, hy, hkey⟩ := List.mem_map.mp hx
  obtain ⟨l1, l2, e⟩ := List.append_of_mem hy
  have hsplit := take_append_recent (n := n) (l := l)
  generalize ho : l.take (l.length - n) = old at hsplit
  have hdr : Distinct (recent n l) := hd.sublist ((List.drop_sublist _ _).map _)
  have htouch : touch x (recent n l) = l1 ++ l2 ++ [x] := by
    rw [touch, ← hkey, e, Distinct.filter (e ▸ hdr)]
  have htouch' : touch x l = old ++ (l1 ++ l2 ++ [x]) := by
    rw [← hsplit, e, ← List.append_assoc] at hd
    rw [touch, ← hkey, ← hsplit, e, ← List.append_assoc, Distinct.filter hd, List.append_assoc,
      List.append_assoc, List.append_assoc]
  have hlen : (l1 ++ l2 ++ [x]).length = (recent n l).length := by
    rw [e]
    simp only [List.length_append, List.length_cons, List.length_nil]
    omega
  rw [htouch, htouch']
  rcases Nat.le_total n l.length with hn | hn
  · rw [length_recent, Nat.min_eq_left hn] at hlen
    exact recent_append_of_length hlen
  · rw [Nat.sub_eq_zero_of_le hn, List.take_zero] at ho
    rw [← ho, List.nil_append]
    refine recent_of_le ?_
    rw [hlen, length_recent]
    exact Nat.min_le_left _ _

/-- A new key pushes out the oldest of the last `n`. -/
lemma recent_touch_of_not_mem (hn : 0 < n) (hl : n ≤ l.length) (hx : x.1 ∉ (recent n l).map (·.1)) :
    recent n (touch x l) = (recent n l).tail ++ [x] := by
  have hlen : (recent n l).length = n := by rw [length_recent, Nat.min_eq_left hl]
  have hsplit := take_append_recent (n := n) (l := l)
  have htouch : touch x l = (l.take (l.length - n)).filter (·.1 ≠ x.1) ++ (recent n l ++ [x]) := by
    rw [← touch_of_not_mem hx, touch, touch, ← List.append_assoc, ← List.filter_append, hsplit]
  cases hr : recent n l with
  | nil =>
    rw [hr] at hlen
    exact absurd hlen hn.ne
  | cons b t =>
    rw [htouch, hr, List.cons_append, List.append_cons]
    refine recent_append_of_length ?_
    rw [hr] at hlen
    rw [List.length_append, List.length_singleton]
    exact hlen

end Lib
