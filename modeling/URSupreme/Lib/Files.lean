import URSupreme.Lib.Extents

/-!
# Files and descriptors

Files by path, and descriptors that stand at a position of a file: what is written goes to the
position and moves it on. A file that is not there is empty. Descriptors are numbered, and a number
is not used again.
-/

namespace Lib

/-- What the files hold, and where the descriptors stand. -/
structure Files (π δ : Type) where
  content : π → Bytes := fun _ => []
  pos : δ → Option (π × Nat) := fun _ => none

variable {π δ : Type} [DecidableEq π] [DecidableEq δ] {c : Files π δ} {p p' : π} {d d' : δ}
  {back n : Nat} {bytes : Bytes}

/-- `open` of a file that is emptied. -/
def Files.create (d : δ) (p : π) (c : Files π δ) : Files π δ where
  content := Function.update c.content p []
  pos := Function.update c.pos d (some (p, 0))

/-- `open` of a file as it is, and `lseek` to so many bytes before its end. -/
def Files.openBack (d : δ) (p : π) (back : Nat) (c : Files π δ) : Files π δ :=
  { c with pos := Function.update c.pos d (some (p, (c.content p).length - back)) }

/-- `write`. -/
def Files.write (d : δ) (bytes : Bytes) (c : Files π δ) : Files π δ :=
  match c.pos d with
  | none => c
  | some (p, n) =>
    { content := Function.update c.content p (writeAt (c.content p) ⟨n, bytes⟩)
      pos := Function.update c.pos d (some (p, n + bytes.length)) }

variable (bytes) in
/-- A write goes to the file of the descriptor. -/
lemma Files.write_at (h : c.pos d = some (p, n)) :
    (c.write d bytes).content p = writeAt (c.content p) ⟨n, bytes⟩ ∧
      (c.write d bytes).pos d = some (p, n + bytes.length) ∧
      (∀ p' ≠ p, (c.write d bytes).content p' = c.content p') ∧
      ∀ d' ≠ d, (c.write d bytes).pos d' = c.pos d' := by
  unfold Files.write
  rw [h]
  dsimp only
  refine ⟨Function.update_self .., Function.update_self .., fun p' hp => ?_, fun d' hd => ?_⟩
  · exact Function.update_of_ne hp _ _
  · exact Function.update_of_ne hd _ _

/-- A write leaves every descriptor at its file. -/
lemma Files.pos_write (h : c.pos d' = some (p, n)) : ∃ n',
    (c.write d bytes).pos d' = some (p, n') := by
  cases hd : c.pos d with
  | none =>
    refine ⟨n, ?_⟩
    unfold Files.write
    rw [hd]
    exact h
  | some x =>
    obtain ⟨p', m⟩ := x
    obtain ⟨-, hself, -, hother⟩ := Files.write_at bytes hd
    by_cases he : d' = d
    · subst he
      obtain ⟨rfl, rfl⟩ := Prod.mk.inj (Option.some.inj (hd.symm.trans h))
      exact ⟨_, hself⟩
    · exact ⟨n, (hother d' he).trans h⟩

/-- A write where the one before it ended. -/
lemma writeAt_append {f a b : Bytes} {o : Nat} :
    writeAt (writeAt f ⟨o, a⟩) ⟨o + a.length, b⟩ = writeAt f ⟨o, a ++ b⟩ := by
  by_cases hb : b = []
  · rw [hb, List.append_nil]
    exact if_pos rfl
  by_cases ha : a = []
  · rw [ha, List.nil_append, List.length_nil, Nat.add_zero]
    congr 1
  have hab : a ++ b ≠ [] := fun h => ha (List.append_eq_nil_iff.mp h).1
  refine List.ext_getElem? fun i => ?_
  rw [getElem?_writeAt hb, getElem?_writeAt ha, getElem?_writeAt hab]
  dsimp only [Extent.at]
  rw [List.length_append]
  rcases Nat.lt_or_ge i o with h1 | h1
  · rw [if_pos (by omega), if_pos h1, if_pos h1]
    rfl
  rcases Nat.lt_or_ge i (o + a.length) with h2 | h2
  · have ha : a[i - o]? = some a[i - o] := List.getElem?_eq_getElem (by omega)
    rw [if_pos h2, if_neg (by omega), if_pos h2, if_pos h1, if_neg (by omega), if_pos (by omega),
      if_pos h1, List.getElem?_append_left (by omega), ha]
    rfl
  rcases Nat.lt_or_ge i (o + a.length + b.length) with h3 | h3
  · rw [if_neg (by omega), if_pos h3, if_pos h2, if_neg (by omega), if_pos (by omega), if_pos h1,
      List.getElem?_append_right (by omega), Nat.sub_add_eq]
  · rw [if_neg (by omega), if_neg (by omega), if_neg (by omega), if_neg (by omega),
      if_neg (by omega), if_neg (by omega)]

/-- A write over the end of a file. -/
lemma writeAt_end {f a b : Bytes} (h : a.length ≤ b.length) :
    writeAt (f ++ a) ⟨(f ++ a).length - a.length, b⟩ = f ++ b := by
  unfold writeAt
  split
  next hb =>
    have hb : b = [] := hb
    rw [hb, List.length_nil] at h
    rw [hb, List.eq_nil_of_length_eq_zero (Nat.le_zero.mp h)]
  next =>
    have hlen : (f ++ a).length - a.length = f.length := by
      rw [List.length_append, Nat.add_sub_cancel]
    dsimp only
    rw [hlen, List.take_left, List.length_append, Nat.sub_eq_zero_of_le (Nat.le_add_right _ _),
      List.replicate_zero, List.append_nil, List.drop_eq_nil_of_le, List.append_nil]
    rw [List.length_append]
    omega

/-- A write into an empty file. -/
lemma writeAt_nil {b : Bytes} : writeAt [] ⟨0, b⟩ = b := by
  have h := @writeAt_end [] [] b (Nat.zero_le _)
  exact h

end Lib
