import Mathlib.Data.Int.Range
import Mathlib.Data.List.Destutter
import Mathlib.Data.Rat.Floor
import URSupreme.Lib.Except
import URSupreme.Lib.Polygon
import URSupreme.Web.TileId

/-!
# The wanted tiles

The relevance of `task_fn` in `Web/MapExtract.h`: the tiles of each zoom that the clip polygon
covers, looked for along the middle of each row, or those of the bounding box. A coordinate is the
fraction of the world, from its western and its northern border, that `lon_to_xf` and `lat_to_yf`
multiply with the number of tiles. It is an exact rational.

The last tile of a row is bounded by the number of tiles of the greatest zoom, at every zoom. And
what lies between the middles of two rows is not seen.
-/

namespace URSupreme.Scanline
open Lib Lib.Polygon

def MAX_REGION_TILES : ℕ := 100000

/-- `lon_to_xf`. -/
def lonToXf (lon : ℚ) (z : ℕ) : ℚ := lon * 2 ^ z

/-- `lat_to_yf`. -/
def latToYf (lat : ℚ) (z : ℕ) : ℚ := lat * 2 ^ z

/-- `lon_to_x`. -/
def lonToX (lon : ℚ) (z : ℕ) : ℤ := min (max ⌊lon * 2 ^ z⌋ 0) (2 ^ z - 1)

/-- `lat_to_y`. -/
def latToY (lat : ℚ) (z : ℕ) : ℤ := min (max ⌊lat * 2 ^ z⌋ 0) (2 ^ z - 1)

/-- A vertex in the tiles of a zoom. -/
def project (z : ℕ) (v : ℚ × ℚ) : ℚ × ℚ := (lonToXf v.1 z, latToYf v.2 z)

/-- A row: its middle is crossed at `xs`, which are sorted and taken in pairs. -/
def rowTiles (axisMax : ℤ) (ps : List (ℚ × ℚ)) (y : ℤ) : List (ℤ × ℤ) :=
  let xs := (crossings ((y : ℚ) + 1 / 2) ps).insertionSort (· ≤ ·)
  (pairs xs).flatMap fun k =>
    let xL := max ⌊k.1⌋ 0
    let xR := min ⌊k.2⌋ (axisMax - 1)
    (Int.range xL (xR + 1)).map fun x => (x, y)

/-- The tiles of a polygon, row by row. -/
def scanlineFill (axisMax : ℤ) (ps : List (ℚ × ℚ)) : List (ℤ × ℤ) :=
  let ymin := ps.foldl (fun m p => if p.2 < m then p.2 else m) (10 ^ 18)
  let ymax := ps.foldl (fun m p => if m < p.2 then p.2 else m) (-10 ^ 18)
  let y0 := max ⌊ymin⌋ 0
  let y1 := min ⌊ymax⌋ (axisMax - 1)
  (Int.range y0 (y1 + 1)).flatMap (rowTiles axisMax ps)

/-- What a job asks for. -/
structure Area where
  poly : List (ℚ × ℚ)
  w : ℚ
  n : ℚ
  e : ℚ
  s : ℚ

/-- The sides of the bounding box in tiles: `x0`, `x1`, `y0` and `y1`. -/
def Area.bounds (a : Area) (z : ℕ) : (ℤ × ℤ) × (ℤ × ℤ) :=
  let x0 := lonToX a.w z
  let x1 := lonToX a.e z
  let y0 := latToY a.n z
  let y1 := latToY a.s z
  (if x1 < x0 then (x1, x0) else (x0, x1), if y1 < y0 then (y1, y0) else (y0, y1))

/-- The tiles of the bounding box. -/
def Area.bboxTiles (a : Area) (z : ℕ) : List (ℤ × ℤ) :=
  let ((x0, x1), (y0, y1)) := a.bounds z
  (Int.range x0 (x1 + 1)).flatMap fun x => (Int.range y0 (y1 + 1)).map fun y => (x, y)

/-- The id of a tile. -/
def tileId (z : ℕ) (t : ℤ × ℤ) : UInt64 :=
  MapExtract.zxyToId z (UInt32.ofInt t.1) (UInt32.ofInt t.2)

/-- A tile of the polygon: it is counted, and its id is kept. -/
def push (z : ℕ) (s : ℕ × List UInt64) (t : ℤ × ℤ) : Except String (ℕ × List UInt64) :=
  if MAX_REGION_TILES < s.1 + 1 then .error "area too large; lower the zoom"
  else .ok (s.1 + 1, s.2 ++ [tileId z t])

/-- A zoom. -/
def Area.collect (a : Area) (maxz : ℕ) (s : ℕ × List UInt64) (z : ℕ) :
    Except String (ℕ × List UInt64) :=
  if 3 ≤ a.poly.length then
    (scanlineFill (2 ^ maxz) (a.poly.map (project z))).foldlM (push z) s
  else
    let ((x0, x1), (y0, y1)) := a.bounds z
    let count := s.1 + ((x1 - x0 + 1) * (y1 - y0 + 1)).toNat
    if MAX_REGION_TILES < count then .error "area too large; lower the zoom"
    else .ok (count, s.2 ++ (a.bboxTiles z).map (tileId z))

/-- The wanted ids. -/
def Area.relevance (a : Area) (maxz : ℕ) : Except String (List UInt64) := do
  let (_, rel) ← (List.range (maxz + 1)).foldlM (a.collect maxz) (0, [])
  let rel := (rel.insertionSort (· ≤ ·)).destutter (· ≠ ·)
  if rel = [] then .error "no tiles in this area" else .ok rel

/-! ### What the relevance comes to -/

section relevance

variable {a : Area} {maxz z : ℕ} {s : ℕ × List UInt64} {ts : List (ℤ × ℤ)}

/-- The tiles that a zoom takes. -/
def Area.tilesAt (a : Area) (maxz z : ℕ) : List (ℤ × ℤ) :=
  if 3 ≤ a.poly.length then scanlineFill (2 ^ maxz) (a.poly.map (project z)) else a.bboxTiles z

/-- The ids of all zooms, in the order in which they are kept. -/
def Area.ids (a : Area) (maxz : ℕ) (zs : List ℕ) : List UInt64 :=
  zs.flatMap fun z => (a.tilesAt maxz z).map (tileId z)

lemma foldlM_push (hs : s.1 ≤ MAX_REGION_TILES) : ts.foldlM (push z) s =
    if MAX_REGION_TILES < s.1 + ts.length then .error "area too large; lower the zoom"
    else .ok (s.1 + ts.length, s.2 ++ ts.map (tileId z)) := by
  induction ts generalizing s with
  | nil => simp [pure, Except.pure, not_lt.mpr hs]
  | cons t ts ih =>
    rw [List.foldlM_cons, push]
    split
    next hlt =>
      rw [if_pos (by rw [List.length_cons]; omega)]
      rfl
    next hle =>
      rw [ok_bind, ih (not_lt.mp hle), List.length_cons, List.map_cons, List.append_assoc,
        Nat.add_right_comm]
      rfl

/-- The box counts its tiles before it takes them. -/
lemma length_bboxTiles : (a.bboxTiles z).length =
    (((a.bounds z).1.2 - (a.bounds z).1.1 + 1) *
    ((a.bounds z).2.2 - (a.bounds z).2.1 + 1)).toNat := by
  have hle : ∀ u v : ℤ, (if v < u then (v, u) else (u, v)).1 ≤
    (if v < u then (v, u) else (u, v)).2 := by
    intro u v
    split
    next h => exact h.le
    next h => exact not_lt.mp h
  have hx : (a.bounds z).1.1 ≤ (a.bounds z).1.2 := hle _ _
  have hy : (a.bounds z).2.1 ≤ (a.bounds z).2.2 := hle _ _
  have hrange : ∀ u v : ℤ, (Int.range u v).length = (v - u).toNat := fun u v => by
    rw [Int.range, List.length_map, List.length_range]
  unfold Area.bboxTiles
  generalize a.bounds z = q at hx hy ⊢
  obtain ⟨⟨x0, x1⟩, y0, y1⟩ := q
  dsimp only at hx hy ⊢
  rw [Int.toNat_mul (by omega) (by omega)]
  simp only [List.length_flatMap, List.length_map, hrange, List.map_const', List.sum_replicate,
    smul_eq_mul]
  congr 2
  · omega
  · omega

/-- A zoom is taken if its tiles do not make too many. -/
lemma collect_eq (hs : s.1 ≤ MAX_REGION_TILES) : a.collect maxz s z =
    if MAX_REGION_TILES < s.1 + (a.tilesAt maxz z).length then
      .error "area too large; lower the zoom"
    else .ok (s.1 + (a.tilesAt maxz z).length, s.2 ++ (a.tilesAt maxz z).map (tileId z)) := by
  unfold Area.collect Area.tilesAt
  split
  next => exact foldlM_push hs
  next => rw [length_bboxTiles]

lemma foldlM_collect {zs : List ℕ} (hs : s.1 ≤ MAX_REGION_TILES) :
    zs.foldlM (a.collect maxz) s =
      if MAX_REGION_TILES < s.1 + (a.ids maxz zs).length then
        .error "area too large; lower the zoom"
      else .ok (s.1 + (a.ids maxz zs).length, s.2 ++ a.ids maxz zs) := by
  induction zs generalizing s with
  | nil => simp [Area.ids, pure, Except.pure, not_lt.mpr hs]
  | cons z zs ih =>
    have hids : a.ids maxz (z :: zs) = (a.tilesAt maxz z).map (tileId z) ++ a.ids maxz zs := rfl
    rw [List.foldlM_cons, collect_eq hs, hids, List.length_append, List.length_map]
    split
    next hlt =>
      rw [if_pos (by omega)]
      rfl
    next hle =>
      rw [ok_bind, ih (not_lt.mp hle), List.append_assoc, Nat.add_assoc]

/-- The ids are taken if there are any and not too many. -/
theorem relevance_eq : a.relevance maxz =
    let ids := a.ids maxz (List.range (maxz + 1))
    if MAX_REGION_TILES < ids.length then .error "area too large; lower the zoom"
    else if (ids.insertionSort (· ≤ ·)).destutter (· ≠ ·) = [] then .error "no tiles in this area"
    else .ok ((ids.insertionSort (· ≤ ·)).destutter (· ≠ ·)) := by
  unfold Area.relevance
  rw [foldlM_collect (Nat.zero_le _), Nat.zero_add, List.nil_append]
  dsimp only
  split
  next => rfl
  next => rfl

/-- The wanted ids are sorted, and they are those of the tiles that the zooms take. -/
theorem mem_relevance {rel : List UInt64} (h : a.relevance maxz = .ok rel) :
    rel.Pairwise (· < ·) ∧
      ∀ id, id ∈ rel ↔ ∃ z ≤ maxz, ∃ t ∈ a.tilesAt maxz z, tileId z t = id := by
  rw [relevance_eq] at h
  dsimp only at h
  split at h
  next => cases h
  next =>
    split at h
    next => cases h
    next =>
      obtain rfl := Except.ok.inj h
      have hsorted := List.pairwise_insertionSort (· ≤ ·) (a.ids maxz (List.range (maxz + 1)))
      rw [hsorted.destutter_eq_dedup]
      constructor
      · have hnodup := List.nodup_dedup
          ((a.ids maxz (List.range (maxz + 1))).insertionSort (· ≤ ·))
        have hle := hsorted.sublist (List.dedup_sublist _)
        exact (hle.and hnodup).imp fun h => UInt64.lt_of_le_of_ne h.1 h.2
      · intro id
        rw [List.mem_dedup, List.mem_insertionSort, Area.ids]
        simp only [List.mem_flatMap, List.mem_range, Nat.lt_succ_iff, List.mem_map]

end relevance

/-! ### What a fill covers -/

variable {ps : List (ℚ × ℚ)} {axisMax y : ℤ} {z maxz : ℕ}

/-- The polygon lies in the tiles of the zoom. -/
def Within (z : ℕ) (ps : List (ℚ × ℚ)) : Prop :=
  ∀ v ∈ ps, (0 ≤ v.1 ∧ v.1 ≤ 2 ^ z) ∧ 0 ≤ v.2 ∧ v.2 ≤ 2 ^ z

lemma crossings_within {u q : ℚ} (h : Within z ps) (hu : u ∈ crossings q ps) :
    0 ≤ u ∧ u ≤ 2 ^ z := by
  have hc : Convex ℚ (Set.Icc (0 : ℚ) (2 ^ z) ×ˢ (Set.univ : Set ℚ)) :=
    (convex_Icc 0 (2 ^ z)).prod convex_univ
  have hmem : ∀ v ∈ ps, v ∈ Set.Icc (0 : ℚ) (2 ^ z) ×ˢ (Set.univ : Set ℚ) :=
    fun v hv => ⟨(h v hv).1, trivial⟩
  exact (crossings_mem hc hmem hu).1

/-- The first and the last row are not behind any vertex and not before any. -/
lemma foldl_min_le {a : ℚ} :
    ps.foldl (fun m p => if p.2 < m then p.2 else m) a ≤ a ∧
      ∀ v ∈ ps, ps.foldl (fun m p => if p.2 < m then p.2 else m) a ≤ v.2 := by
  induction ps generalizing a with
  | nil => exact ⟨le_rfl, fun v hv => absurd hv List.not_mem_nil⟩
  | cons p ps ih =>
    obtain ⟨h1, h2⟩ := @ih (if p.2 < a then p.2 else a)
    have hstep : (if p.2 < a then p.2 else a) = min p.2 a := by
      rw [min_def_lt]
    rw [hstep] at h1 h2
    rw [List.foldl_cons, hstep]
    refine ⟨h1.trans (min_le_right _ _), ?_⟩
    rw [List.forall_mem_cons]
    exact ⟨h1.trans (min_le_left _ _), h2⟩

lemma le_foldl_max {a : ℚ} :
    a ≤ ps.foldl (fun m p => if m < p.2 then p.2 else m) a ∧
      ∀ v ∈ ps, v.2 ≤ ps.foldl (fun m p => if m < p.2 then p.2 else m) a := by
  induction ps generalizing a with
  | nil => exact ⟨le_rfl, fun v hv => absurd hv List.not_mem_nil⟩
  | cons p ps ih =>
    obtain ⟨h1, h2⟩ := @ih (if a < p.2 then p.2 else a)
    have hstep : (if a < p.2 then p.2 else a) = max a p.2 := by
      rw [max_def_lt]
    rw [hstep] at h1 h2
    rw [List.foldl_cons, hstep]
    refine ⟨(le_max_left _ _).trans h1, ?_⟩
    rw [List.forall_mem_cons]
    exact ⟨(le_max_right _ _).trans h1, h2⟩

/-- The tiles of a row are those with a covered point on its middle. -/
lemma mem_rowTiles (h : Within z ps) {t : ℤ × ℤ} :
    t ∈ rowTiles axisMax ps y ↔ t.2 = y ∧ t.1 ≤ axisMax - 1 ∧
      ∃ u : ℚ, (t.1 ≤ u ∧ u < t.1 + 1) ∧ Covers ps (y + 1 / 2) u := by
  have hfloor : ∀ k ∈ pairs ((crossings ((y : ℚ) + 1 / 2) ps).insertionSort (· ≤ ·)),
      max ⌊k.1⌋ 0 = ⌊k.1⌋ := by
    intro k hk
    have hm := (List.mem_insertionSort _).mp (mem_of_mem_pairs hk).1
    exact max_eq_left (Int.floor_nonneg.mpr (crossings_within h hm).1)
  rw [← exists_cell_iff, rowTiles]
  simp only [List.mem_flatMap, List.mem_map, Int.mem_range_iff]
  constructor
  · rintro ⟨k, hk, x, ⟨h1, h2⟩, rfl⟩
    rw [hfloor k hk] at h1
    obtain ⟨h2, h3⟩ := le_min_iff.mp (Int.lt_add_one_iff.mp h2)
    exact ⟨rfl, h3, k, hk, h1, h2⟩
  · rintro ⟨rfl, h3, k, hk, h1, h2⟩
    refine ⟨k, hk, t.1, ⟨?_, Int.lt_add_one_iff.mpr (le_min h2 h3)⟩, rfl⟩
    rwa [hfloor k hk]

/-- A row whose middle is crossed is one of the rows. -/
lemma row_of_crossing (h : Within z ps) {u : ℚ} (hu : u ∈ crossings ((y : ℚ) + 1 / 2) ps) :
    0 ≤ y ∧ y < 2 ^ z ∧
    ⌊ps.foldl (fun m p => if p.2 < m then p.2 else m) (10 ^ 18)⌋ ≤ y ∧
    y ≤ ⌊ps.foldl (fun m p => if m < p.2 then p.2 else m) (-10 ^ 18)⌋ := by
  obtain ⟨⟨v, hv, hvy⟩, w, hw, hyw⟩ := exists_sides hu
  have hy : ⌊(y : ℚ) + 1 / 2⌋ = y := Int.floor_eq_iff.mpr ⟨by linarith, by linarith⟩
  refine ⟨?_, ?_, ?_, ?_⟩
  · rw [← hy]
    exact Int.floor_nonneg.mpr ((h v hv).2.1.trans hvy)
  · have hlt : (y : ℚ) < 2 ^ z := by linarith [(h w hw).2.2]
    exact_mod_cast hlt
  · calc _ ≤ ⌊(y : ℚ) + 1 / 2⌋ := Int.floor_mono ((foldl_min_le.2 v hv).trans hvy)
      _ = y := hy
  · calc y = ⌊(y : ℚ) + 1 / 2⌋ := hy.symm
      _ ≤ _ := Int.floor_mono (hyw.le.trans (le_foldl_max.2 w hw))

/-- A tile is selected when the middle of its row is covered somewhere in it. -/
theorem mem_scanlineFill (h : Within z ps) (hz : z ≤ maxz) {t : ℤ × ℤ} :
    t ∈ scanlineFill (2 ^ maxz) ps ↔ t.1 ≤ 2 ^ maxz - 1 ∧
      ∃ u : ℚ, (t.1 ≤ u ∧ u < t.1 + 1) ∧ Covers ps (t.2 + 1 / 2) u := by
  simp only [scanlineFill, List.mem_flatMap, mem_rowTiles h]
  constructor
  · rintro ⟨y, -, rfl, hx, hu⟩
    exact ⟨hx, hu⟩
  · rintro ⟨hx, u, hu, hc⟩
    obtain ⟨⟨v, hv, -⟩, -⟩ := hc.exists_crossings
    obtain ⟨h0, h1, hmin, hmax⟩ := row_of_crossing h hv
    have hpow : (2 : ℤ) ^ z ≤ 2 ^ maxz := pow_le_pow_right₀ (by norm_num) hz
    refine ⟨t.2, Int.mem_range_iff.mpr ⟨max_le hmin h0, ?_⟩, rfl, hx, u, hu, hc⟩
    exact Int.lt_add_one_iff.mpr (le_min hmax (by omega))

/-! ### The tiles that belong to a polygon -/

/-- A clip polygon, by the fractions of the world at which its vertices are. -/
structure Clip where
  vertices : List (ℚ × ℚ)
  three : 3 ≤ vertices.length
  world : ∀ v ∈ vertices, (0 ≤ v.1 ∧ v.1 ≤ 1) ∧ 0 ≤ v.2 ∧ v.2 ≤ 1

/-- The vertices in the tiles of a zoom. -/
def Clip.tiles (c : Clip) (z : ℕ) : List (ℚ × ℚ) := c.vertices.map (project z)

/-- The tiles that the scanline fill selects at a zoom. -/
def Clip.fill (c : Clip) (maxz z : ℕ) : List (ℤ × ℤ) := scanlineFill (2 ^ maxz) (c.tiles z)

/-- The tile is one of the zoom. -/
def InZoom (z : ℕ) (t : ℤ × ℤ) : Prop := (0 ≤ t.1 ∧ t.1 < 2 ^ z) ∧ 0 ≤ t.2 ∧ t.2 < 2 ^ z

/-- The point lies in the tile. -/
def Contains (t : ℤ × ℤ) (p : ℚ × ℚ) : Prop :=
  (t.1 ≤ p.1 ∧ p.1 < t.1 + 1) ∧ t.2 ≤ p.2 ∧ p.2 < t.2 + 1

/-- An edge leads across the middle of the row at `u`. -/
def Clip.Crosses (c : Clip) (z : ℕ) (y : ℤ) (u : ℚ) : Prop :=
  ∃ e ∈ edges (c.tiles z), Straddles ((y : ℚ) + 1 / 2) e ∧ (u, (y : ℚ) + 1 / 2) ∈ segment ℚ e.1 e.2

/-- The job for the bounding box of a rectangle. -/
def boxArea (b : Box ℚ) : Area :=
  { poly := [], w := b.left, n := b.top, e := b.right, s := b.bottom }

/-- The tiles of a zoom are selected rightly. -/
structure Clip.Right (c : Clip) (maxz z : ℕ) : Prop where
  /-- Those that are selected exist. -/
  exist : ∀ t ∈ c.fill maxz z, InZoom z t
  /-- Those with a point inside are selected. -/
  complete : ∀ t p, Interior (c.tiles z) p → Contains t p → t ∈ c.fill maxz z
  /-- Those that are selected touch the polygon. -/
  touch : ∀ t ∈ c.fill maxz z, ∃ p, Contains t p ∧
    (OnBoundary (c.tiles z) p ∨ Interior (c.tiles z) p)
  /-- A rectangle selects what its bounding box does. -/
  box : ∀ b : Box ℚ, Outlines b c.vertices →
    ∀ t, t ∈ c.fill maxz z ↔ t ∈ (boxArea b).bboxTiles z
  /-- Some are selected. -/
  some : c.fill maxz z ≠ []

/-- The condition: no edge crosses the middle of a row on the eastern border of the world, except at
the greatest zoom; a tile with a point inside is covered somewhere on the middle of its row; the
northern side of a rectangle is not behind the middle of its row, and its southern one behind it;
and the middle of some row is crossed in front of the eastern border. -/
structure Clip.Sampled (c : Clip) (maxz z : ℕ) : Prop where
  border : z = maxz ∨ ∀ y, ¬ c.Crosses z y (2 ^ z)
  middle : ∀ t p, Interior (c.tiles z) p → Contains t p →
    ∃ u : ℚ, (t.1 ≤ u ∧ u < t.1 + 1) ∧ Covers (c.tiles z) (t.2 + 1 / 2) u
  sides : ∀ b : Box ℚ, Outlines b c.vertices →
    Int.fract (latToYf b.top z) ≤ 1 / 2 ∧ (b.bottom = 1 ∨ 1 / 2 < Int.fract (latToYf b.bottom z))
  crossed : ∃ y u, c.Crosses z y u ∧ u < 2 ^ z

variable {c : Clip} {b : Box ℚ} {t : ℤ × ℤ}

lemma two_pow_pos : (0 : ℚ) < 2 ^ z := by positivity

lemma Clip.within : Within z (c.tiles z) := by
  intro v hv
  obtain ⟨w, hw, rfl⟩ := List.mem_map.mp hv
  obtain ⟨⟨h0, h1⟩, h2, h3⟩ := c.world w hw
  have hz : (0 : ℚ) < 2 ^ z := two_pow_pos
  exact ⟨⟨mul_nonneg h0 hz.le, mul_le_of_le_one_left hz.le h1⟩, mul_nonneg h2 hz.le,
    mul_le_of_le_one_left hz.le h3⟩

lemma Clip.mem_fill (hz : z ≤ maxz) : t ∈ c.fill maxz z ↔ t.1 ≤ 2 ^ maxz - 1 ∧
    ∃ u : ℚ, (t.1 ≤ u ∧ u < t.1 + 1) ∧ Covers (c.tiles z) (t.2 + 1 / 2) u :=
  mem_scanlineFill c.within hz

lemma two_pow_le (hz : z ≤ maxz) : (2 : ℤ) ^ z ≤ 2 ^ maxz := pow_le_pow_right₀ (by norm_num) hz

/-- What lies on the eastern border of the world is covered by a crossing there. -/
lemma Clip.border_of_covers {u q : ℚ} (h : Covers (c.tiles z) q u) (hu : 2 ^ z ≤ u) :
    u = 2 ^ z ∧ (2 ^ z : ℚ) ∈ crossings q (c.tiles z) := by
  obtain ⟨-, x, hx, hle⟩ := h.exists_crossings
  have hmax := (crossings_within c.within hx).2
  have hxe : x = 2 ^ z := le_antisymm hmax (hu.trans hle)
  exact ⟨le_antisymm (hle.trans hmax) hu, hxe ▸ hx⟩

/-- Only the tiles behind the eastern border do not exist. -/
theorem Clip.exist_iff (hz : z ≤ maxz) : (∀ t ∈ c.fill maxz z, InZoom z t) ↔
    z = maxz ∨ ∀ y, ¬ c.Crosses z y (2 ^ z) := by
  constructor
  · intro h
    rw [or_iff_not_imp_left]
    intro hne y hy
    have hlt : (2 : ℤ) ^ z < 2 ^ maxz :=
      pow_lt_pow_right₀ (by norm_num) (lt_of_le_of_ne hz hne)
    have hm : ((2 : ℤ) ^ z, y) ∈ c.fill maxz z := by
      rw [mem_fill hz]
      refine ⟨Int.le_sub_one_of_lt hlt, 2 ^ z, ⟨?_, ?_⟩, .inl (mem_crossings.mpr hy)⟩
      · push_cast
        exact le_rfl
      · push_cast
        exact lt_add_one _
    exact (h _ hm).1.2.false
  · intro h t ht
    obtain ⟨hx, u, ⟨h1, h2⟩, hc⟩ := (mem_fill hz).mp ht
    obtain ⟨⟨v, hv, hle⟩, -⟩ := hc.exists_crossings
    obtain ⟨hy0, hy1, -, -⟩ := row_of_crossing c.within hv
    refine ⟨⟨?_, ?_⟩, hy0, hy1⟩
    · have hpos : (-1 : ℚ) < t.1 := by linarith [(crossings_within c.within hv).1]
      have hpos : (-1 : ℤ) < t.1 := by exact_mod_cast hpos
      omega
    · cases h with
      | inl he =>
        subst he
        exact Int.lt_of_le_sub_one hx
      | inr h =>
        by_contra hge
        have hge : (2 : ℚ) ^ z ≤ t.1 := by exact_mod_cast not_lt.mp hge
        exact h _ (mem_crossings.mp (border_of_covers hc (hge.trans h1)).2)

/-- A tile with a point inside is selected when the middle of its row is covered in it. -/
theorem Clip.complete_iff (hz : z ≤ maxz) :
    (∀ t p, Interior (c.tiles z) p → Contains t p → t ∈ c.fill maxz z) ↔
      ∀ t p, Interior (c.tiles z) p → Contains t p →
        ∃ u : ℚ, (t.1 ≤ u ∧ u < t.1 + 1) ∧ Covers (c.tiles z) (t.2 + 1 / 2) u := by
  constructor
  · intro h t p hp ht
    exact ((mem_fill hz).mp (h t p hp ht)).2
  · intro h t p hp ht
    refine (mem_fill hz).mpr ⟨?_, h t p hp ht⟩
    obtain ⟨x, hx, hlt⟩ := hp.exists_lt
    have hlt : (t.1 : ℚ) < 2 ^ z :=
      (ht.1.1.trans_lt hlt).trans_le (crossings_within c.within hx).2
    have hlt : t.1 < 2 ^ z := by exact_mod_cast hlt
    exact Int.le_sub_one_of_lt (hlt.trans_le (two_pow_le hz))

/-- What is selected touches the polygon, on the middle of its row. -/
theorem Clip.touches (hz : z ≤ maxz) (ht : t ∈ c.fill maxz z) :
    ∃ p, Contains t p ∧ (OnBoundary (c.tiles z) p ∨ Interior (c.tiles z) p) := by
  obtain ⟨-, u, hu, hc⟩ := (mem_fill hz).mp ht
  exact ⟨(u, t.2 + 1 / 2), ⟨hu, by simp, by simp; norm_num⟩, hc.touches⟩

/-- Some tile is selected when the middle of some row is crossed. -/
theorem Clip.some_iff (hz : z ≤ maxz)
    (hb : z = maxz ∨ ∀ y, ¬ c.Crosses z y (2 ^ z)) :
    c.fill maxz z ≠ [] ↔ ∃ y u, c.Crosses z y u ∧ u < 2 ^ z := by
  constructor
  · intro h
    obtain ⟨t, ht⟩ := List.exists_mem_of_ne_nil _ h
    have hin := (exist_iff hz).mpr hb t ht
    obtain ⟨-, u, ⟨h1, h2⟩, hc⟩ := (mem_fill hz).mp ht
    obtain ⟨⟨v, hv, hle⟩, -⟩ := hc.exists_crossings
    refine ⟨t.2, v, mem_crossings.mp hv, hle.trans_lt (h2.trans_le ?_)⟩
    exact_mod_cast hin.1.2
  · rintro ⟨y, u, hu, hlt⟩
    have hm : (⌊u⌋, y) ∈ c.fill maxz z := by
      refine (mem_fill hz).mpr ⟨?_, u, ⟨Int.floor_le u, Int.lt_floor_add_one u⟩,
        .inl (mem_crossings.mpr hu)⟩
      have hfloor : ⌊u⌋ < 2 ^ z := Int.floor_lt.mpr (by exact_mod_cast hlt)
      exact Int.le_sub_one_of_lt (hfloor.trans_le (two_pow_le hz))
    exact List.ne_nil_of_mem hm

/-! ### Rectangles -/

/-- The rows with their middle between two lines are those that the lines reach. -/
lemma rows_iff {n s : ℚ} {m : ℤ} (h : n < s) (hs : s ≤ m) :
    (∀ y : ℤ, (n ≤ y + 1 / 2 ∧ y + 1 / 2 < s) ↔ ⌊n⌋ ≤ y ∧ y ≤ ⌊s⌋ ∧ y ≤ m - 1) ↔
      Int.fract n ≤ 1 / 2 ∧ (s = m ∨ 1 / 2 < Int.fract s) := by
  have hn := Int.floor_add_fract n
  have hsf := Int.floor_add_fract s
  have hle : ⌊n⌋ ≤ ⌊s⌋ := Int.floor_mono h.le
  constructor
  · intro hrow
    have hfirst : ⌊n⌋ < m := Int.floor_lt.mpr (h.trans_le hs)
    have hmid := ((hrow ⌊n⌋).mpr ⟨le_rfl, hle, Int.le_sub_one_of_lt hfirst⟩).1
    refine ⟨by linarith, ?_⟩
    rw [or_iff_not_imp_left]
    intro hne
    have hlast : ⌊s⌋ < m := Int.floor_lt.mpr (lt_of_le_of_ne hs hne)
    have hmid := ((hrow ⌊s⌋).mpr ⟨hle, le_rfl, Int.le_sub_one_of_lt hlast⟩).2
    linarith
  · rintro ⟨hfn, hfs⟩ y
    have hy : ⌊(y : ℚ) + 1 / 2⌋ = y := Int.floor_eq_iff.mpr ⟨by linarith, by linarith⟩
    constructor
    · rintro ⟨h1, h2⟩
      have hlt : (y : ℚ) < m := by linarith
      refine ⟨hy ▸ Int.floor_mono h1, hy ▸ Int.floor_mono h2.le, Int.le_sub_one_of_lt ?_⟩
      exact_mod_cast hlt
    · rintro ⟨h1, h2, h3⟩
      have h1 : (⌊n⌋ : ℚ) ≤ y := by exact_mod_cast h1
      have h2 : (y : ℚ) ≤ ⌊s⌋ := by exact_mod_cast h2
      have h3 : (y : ℚ) ≤ m - 1 := by exact_mod_cast h3
      refine ⟨by linarith, ?_⟩
      cases hfs with
      | inl he => linarith
      | inr hlt => linarith

/-- The sides of a rectangle in the world. -/
lemma Clip.box_world (hb : Outlines b c.vertices) :
    (0 ≤ b.left ∧ b.right ≤ 1) ∧ 0 ≤ b.top ∧ b.bottom ≤ 1 := by
  have h1 := c.world _ (hb.corners_mem (b.left, b.top) (by simp [Box.corners]))
  have h2 := c.world _ (hb.corners_mem (b.right, b.bottom) (by simp [Box.corners]))
  exact ⟨⟨h1.1.1, h2.1.2⟩, h1.2.1, h2.2.2⟩

/-- The tiles of a rectangle. -/
lemma Clip.mem_fill_box (hz : z ≤ maxz) (hb : Outlines b c.vertices) :
    t ∈ c.fill maxz z ↔ t.1 ≤ 2 ^ maxz - 1 ∧
      (⌊lonToXf b.left z⌋ ≤ t.1 ∧ t.1 ≤ ⌊lonToXf b.right z⌋) ∧
      latToYf b.top z ≤ t.2 + 1 / 2 ∧ t.2 + 1 / 2 < latToYf b.bottom z := by
  have hout : Outlines (b.scale two_pow_pos) (c.tiles z) := hb.scale two_pow_pos
  rw [mem_fill hz]
  refine and_congr_right fun _ => ?_
  have hlon : lonToXf b.left z ≤ lonToXf b.right z :=
    (mul_lt_mul_of_pos_right b.left_lt two_pow_pos).le
  rw [← exists_between_iff hlon]
  constructor
  · rintro ⟨u, hu, hc⟩
    obtain ⟨hy, hx⟩ := hout.covers_iff.mp hc
    exact ⟨⟨u, hu, hx⟩, hy⟩
  · rintro ⟨⟨u, hu, hx⟩, hy⟩
    exact ⟨u, hu, hout.covers_iff.mpr ⟨hy, hx⟩⟩

/-- The bounding box of a rectangle in the world. -/
lemma mem_bboxTiles (h0 : 0 ≤ b.left ∧ b.right ≤ 1) (h1 : 0 ≤ b.top ∧ b.bottom ≤ 1) :
    t ∈ (boxArea b).bboxTiles z ↔
      (⌊lonToXf b.left z⌋ ≤ t.1 ∧ t.1 ≤ ⌊lonToXf b.right z⌋ ∧ t.1 ≤ 2 ^ z - 1) ∧
      ⌊latToYf b.top z⌋ ≤ t.2 ∧ t.2 ≤ ⌊latToYf b.bottom z⌋ ∧ t.2 ≤ 2 ^ z - 1 := by
  -- one axis: the near side is in the world, and the far one is cut off at its border
  have axis : ∀ {u v : ℚ}, 0 ≤ u → u < v → v ≤ 1 →
      min (max ⌊u * 2 ^ z⌋ 0) (2 ^ z - 1) = ⌊u * 2 ^ z⌋ ∧
      min (max ⌊v * 2 ^ z⌋ 0) (2 ^ z - 1) = min ⌊v * 2 ^ z⌋ (2 ^ z - 1) ∧
      ¬ min ⌊v * 2 ^ z⌋ (2 ^ z - 1) < ⌊u * 2 ^ z⌋ := by
    intro u v hu huv hv
    have hz : (0 : ℚ) < 2 ^ z := two_pow_pos
    have hlt : u * 2 ^ z < v * 2 ^ z := mul_lt_mul_of_pos_right huv hz
    have hnear : ⌊u * 2 ^ z⌋ < 2 ^ z := by
      refine Int.floor_lt.mpr (hlt.trans_le ?_)
      push_cast
      exact mul_le_of_le_one_left hz.le hv
    have hle := Int.floor_mono hlt.le
    have hu0 : 0 ≤ ⌊u * 2 ^ z⌋ := Int.floor_nonneg.mpr (mul_nonneg hu hz.le)
    omega
  obtain ⟨hx0, hx1, hx⟩ := axis h0.1 b.left_lt h0.2
  obtain ⟨hy0, hy1, hy⟩ := axis h1.1 b.top_lt h1.2
  simp only [Area.bboxTiles, Area.bounds, boxArea, lonToX, latToY, hx0, hx1, hy0, hy1, if_neg hx,
    if_neg hy, List.mem_flatMap, List.mem_map, Int.mem_range_iff, Int.lt_add_one_iff, le_min_iff,
    lonToXf, latToYf]
  constructor
  · rintro ⟨x, hx, y, hy, rfl⟩
    exact ⟨hx, hy⟩
  · rintro ⟨hx, hy⟩
    exact ⟨t.1, hx, t.2, hy, rfl⟩

/-- A rectangle selects what its bounding box does when the middles of its outer rows lie in it. -/
theorem Clip.box_iff (hz : z ≤ maxz)
    (hborder : z = maxz ∨ ∀ y, ¬ c.Crosses z y (2 ^ z))
    (hb : Outlines b c.vertices) :
    (∀ t, t ∈ c.fill maxz z ↔ t ∈ (boxArea b).bboxTiles z) ↔
      Int.fract (latToYf b.top z) ≤ 1 / 2 ∧
        (b.bottom = 1 ∨ 1 / 2 < Int.fract (latToYf b.bottom z)) := by
  obtain ⟨h0, h1⟩ := box_world hb
  have hz0 : (0 : ℚ) < 2 ^ z := two_pow_pos
  have hlat : latToYf b.top z < latToYf b.bottom z := mul_lt_mul_of_pos_right b.top_lt hz0
  have hbot : latToYf b.bottom z ≤ ((2 ^ z : ℤ) : ℚ) := by
    push_cast
    exact mul_le_of_le_one_left hz0.le h1.2
  have hone : b.bottom = 1 ↔ latToYf b.bottom z = ((2 ^ z : ℤ) : ℚ) := by
    push_cast
    exact (mul_eq_right₀ hz0.ne').symm
  rw [hone, ← rows_iff hlat hbot]
  constructor
  · -- along the western side
    intro h y
    have hlon : ⌊lonToXf b.left z⌋ ≤ ⌊lonToXf b.right z⌋ :=
      Int.floor_mono (mul_lt_mul_of_pos_right b.left_lt hz0).le
    have hlt : ⌊lonToXf b.left z⌋ < 2 ^ z := by
      refine Int.floor_lt.mpr ((mul_lt_mul_of_pos_right b.left_lt hz0).trans_le ?_)
      push_cast
      exact mul_le_of_le_one_left hz0.le h0.2
    have hle := Int.le_sub_one_of_lt hlt
    have hmax := two_pow_le hz
    have hrow := h (⌊lonToXf b.left z⌋, y)
    rw [mem_fill_box hz hb, mem_bboxTiles h0 h1] at hrow
    constructor
    · intro hy
      exact (hrow.mp ⟨hle.trans (Int.sub_le_sub_right hmax 1), ⟨le_rfl, hlon⟩, hy⟩).2
    · intro hy
      exact (hrow.mpr ⟨⟨le_rfl, hlon, hle⟩, hy⟩).2.2
  · intro h t
    have hexist := (exist_iff hz).mpr hborder t
    have hmax := two_pow_le hz
    rw [mem_bboxTiles h0 h1, ← h t.2]
    constructor
    · intro ht
      have hlt := (hexist ht).1.2
      obtain ⟨-, hx, hy⟩ := (mem_fill_box hz hb).mp ht
      exact ⟨⟨hx.1, hx.2, Int.le_sub_one_of_lt hlt⟩, hy⟩
    · rintro ⟨hx, hy⟩
      exact (mem_fill_box hz hb).mpr ⟨by omega, ⟨hx.1, hx.2.1⟩, hy⟩

/-! ### When the tiles are selected rightly -/

/-- **The tiles of a polygon.** At every zoom the scanline fill selects the tiles that exist, all
those with a point inside, none that does not touch the polygon, those of the bounding box for a
rectangle, and some, exactly when the condition holds. -/
theorem right_iff (c : Clip) (hz : z ≤ maxz) : c.Right maxz z ↔ c.Sampled maxz z := by
  constructor
  · intro h
    have hborder := (Clip.exist_iff hz).mp h.exist
    exact {
      border := hborder
      middle := (Clip.complete_iff hz).mp h.complete
      sides := fun b hb => (Clip.box_iff hz hborder hb).mp (h.box b hb)
      crossed := (Clip.some_iff hz hborder).mp h.some }
  · intro h
    exact {
      exist := (Clip.exist_iff hz).mpr h.border
      complete := (Clip.complete_iff hz).mpr h.middle
      touch := fun t ht => Clip.touches hz ht
      box := fun b hb => (Clip.box_iff hz h.border hb).mpr (h.sides b hb)
      some := (Clip.some_iff hz h.border).mpr h.crossed }

/-- The whole world. -/
def globe : Box ℚ where
  left := 0
  top := 0
  right := 1
  bottom := 1
  left_lt := one_pos
  top_lt := one_pos

def globeClip : Clip where
  vertices := globe.corners
  three := by simp [Box.corners]
  world := by simp [globe, Box.corners]

/-- What the whole world covers in the tiles of a zoom. -/
lemma globe_covers {u q : ℚ} :
    Covers (globeClip.tiles z) q u ↔ (0 ≤ q ∧ q < 2 ^ z) ∧ 0 ≤ u ∧ u ≤ 2 ^ z := by
  have hout : Outlines (globe.scale (two_pow_pos (z := z))) (globeClip.tiles z) :=
    Outlines.corners.scale two_pow_pos
  rw [hout.covers_iff]
  simp [Box.scale, globe]

/-- At the only zoom of a map without others the world is its one tile. -/
theorem right_iff_globe : globeClip.Right 0 0 := by
  refine (right_iff globeClip le_rfl).mpr ⟨.inl rfl, ?_, ?_, ?_⟩
  · intro t p hp ht
    -- the only tile
    obtain ⟨⟨hy0, hy1⟩, hx0, -⟩ := globe_covers.mp hp.covers
    obtain ⟨x, hx, hlt⟩ := hp.exists_lt
    have hx1 := hlt.trans_le (crossings_within globeClip.within hx).2
    rw [pow_zero] at hy1 hx1
    have h1 : t.1 = 0 := by
      have h1 : ⌊p.1⌋ = t.1 := Int.floor_eq_iff.mpr ht.1
      exact h1.symm.trans (Int.floor_eq_zero_iff.mpr ⟨hx0, hx1⟩)
    have h2 : t.2 = 0 := by
      have h2 : ⌊p.2⌋ = t.2 := Int.floor_eq_iff.mpr ht.2
      exact h2.symm.trans (Int.floor_eq_zero_iff.mpr ⟨hy0, hy1⟩)
    refine ⟨0, by simp [h1], globe_covers.mpr ?_⟩
    rw [h2]
    norm_num
  · intro b hb
    have h1 := hb.corners_mem (b.left, b.top) (by simp [Box.corners])
    have h2 := hb.corners_mem (b.right, b.bottom) (by simp [Box.corners])
    simp only [globeClip, globe, Box.corners, List.mem_cons, Prod.mk.injEq, List.not_mem_nil,
      or_false] at h1 h2
    have hy := b.top_lt
    have htop : b.top = 0 := by
      rcases h1 with h | h | h | h <;> rcases h2 with h' | h' | h' | h' <;> linarith
    have hbot : b.bottom = 1 := by
      rcases h2 with h' | h' | h' | h' <;> linarith
    refine ⟨?_, .inl hbot⟩
    rw [htop, latToYf, zero_mul, Int.fract_zero]
    norm_num
  · obtain ⟨⟨x, hx, hle⟩, -⟩ := Covers.exists_crossings
      (globe_covers.mpr ⟨⟨by norm_num, by norm_num⟩, le_rfl, by norm_num⟩ :
        Covers (globeClip.tiles 0) (((0 : ℤ) : ℚ) + 1 / 2) 0)
    exact ⟨0, x, mem_crossings.mp hx, hle.trans_lt (by norm_num)⟩

/-- As soon as there is another zoom, a second tile is selected beside it. -/
theorem globe_not_right : Simple globeClip.vertices ∧ ¬ globeClip.Right 1 0 := by
  refine ⟨Box.simple, fun h => ?_⟩
  have hm : ((1 : ℤ), (0 : ℤ)) ∈ globeClip.fill 1 0 := by
    refine (Clip.mem_fill (Nat.zero_le 1)).mpr ⟨by norm_num, 1, by norm_num, ?_⟩
    exact globe_covers.mpr (by norm_num)
  exact absurd (h.exist _ hm).1.2 (by norm_num)

end URSupreme.Scanline
