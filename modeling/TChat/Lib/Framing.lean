import Mathlib
/-!
# Frames and chunks

A stream of frames arrives cut into chunks.  A reader that handles at most one
frame per chunk keeps up with the stream exactly when no chunk completes two
frames.  Only the sizes of the frames and the lengths of the chunks matter.
-/

namespace TChat.Lib

/-- How many of the frames of these sizes lie within the first `n` bytes. -/
def framesWithin : List Nat → Nat → Nat
  | [], _ => 0
  | size :: rest, n => if size ≤ n then framesWithin rest (n - size) + 1 else 0

/-- After the first `start` bytes, no chunk completes more than one frame. -/
def OnePerChunk (sizes : List Nat) : Nat → List Nat → Prop
  | _, [] => True
  | start, length :: rest =>
      framesWithin sizes (start + length) ≤ framesWithin sizes start + 1 ∧
        OnePerChunk sizes (start + length) rest

structure Progress where
  received : Nat
  handled : Nat
  deriving DecidableEq, Repr

/-- A chunk arrives: the next frame is handled if it is complete. -/
def Progress.receive (sizes : List Nat) (progress : Progress) (length : Nat) : Progress where
  received := progress.received + length
  handled :=
    if progress.handled < framesWithin sizes (progress.received + length) then
      progress.handled + 1
    else progress.handled

def progressAfter (sizes lengths : List Nat) : Progress :=
  lengths.foldl (Progress.receive sizes) ⟨0, 0⟩

variable {sizes done pending lengths before : List Nat} {n start length : Nat}

instance decidableOnePerChunk : (start : Nat) → (lengths : List Nat) →
    Decidable (OnePerChunk sizes start lengths)
  | _, [] => isTrue trivial
  | start, length :: rest =>
      have := decidableOnePerChunk (start + length) rest
      inferInstanceAs (Decidable (_ ∧ _))

/-! ## Counting complete frames -/

theorem framesWithin_le_length (sizes : List Nat) (n : Nat) :
    framesWithin sizes n ≤ sizes.length := by
  induction sizes generalizing n with
  | nil => simp [framesWithin]
  | cons size rest ih =>
      have hrest := ih (n - size)
      rw [framesWithin, List.length_cons]
      split_ifs <;> omega

theorem framesWithin_mono (sizes : List Nat) : Monotone (framesWithin sizes) := by
  induction sizes with
  | nil => exact fun _ _ _ => le_rfl
  | cons size rest ih =>
      intro m n hmn
      have hrest : framesWithin rest (m - size) ≤ framesWithin rest (n - size) :=
        ih (Nat.sub_le_sub_right hmn size)
      simp only [framesWithin]
      split_ifs <;> omega

theorem framesWithin_append (done pending : List Nat) (n : Nat) :
    framesWithin (done ++ pending) (done.sum + n) = done.length + framesWithin pending n := by
  induction done with
  | nil => simp
  | cons size rest ih =>
      have hcomplete : size ≤ size + rest.sum + n := by omega
      have hleft : size + rest.sum + n - size = rest.sum + n := by omega
      rw [List.cons_append, framesWithin, List.sum_cons, if_pos hcomplete, hleft, ih,
        List.length_cons]
      omega

theorem framesWithin_eq_min (first others : List Nat) (n : Nat) :
    framesWithin first n = min first.length (framesWithin (first ++ others) n) := by
  induction first generalizing n with
  | nil => simp [framesWithin]
  | cons size rest ih =>
      rw [List.cons_append, framesWithin, framesWithin, List.length_cons, ih (n - size)]
      split_ifs <;> omega

theorem framesWithin_pos_iff :
    0 < framesWithin sizes n ↔ ∃ size rest, sizes = size :: rest ∧ size ≤ n := by
  cases sizes with
  | nil => simp [framesWithin]
  | cons size rest =>
      rw [framesWithin]
      split_ifs with h <;> simp [h]

theorem framesWithin_first {size : Nat} (hpos : ∀ other ∈ sizes, 0 < other) (h : n ≤ size) :
    framesWithin (size :: sizes) n ≤ 1 := by
  rw [framesWithin]
  split_ifs with hle
  · have hnone : ¬0 < framesWithin sizes (n - size) := by
      rw [framesWithin_pos_iff]
      rintro ⟨other, rest, rfl, hother⟩
      have := hpos other List.mem_cons_self
      omega
    omega
  · omega

/-! ## Keeping up -/

theorem onePerChunk_append {after : List Nat} :
    OnePerChunk sizes start (before ++ after) ↔
      OnePerChunk sizes start before ∧ OnePerChunk sizes (start + before.sum) after := by
  induction before generalizing start with
  | nil => simp [OnePerChunk]
  | cons length rest ih =>
      simp only [List.cons_append, OnePerChunk, ih, and_assoc, List.sum_cons, Nat.add_assoc]

theorem progressAfter_concat :
    progressAfter sizes (lengths ++ [length]) =
      (progressAfter sizes lengths).receive sizes length := by
  rw [progressAfter, List.foldl_append, List.foldl_cons, List.foldl_nil, ← progressAfter]

theorem received_progressAfter (sizes lengths : List Nat) :
    (progressAfter sizes lengths).received = lengths.sum := by
  induction lengths using List.reverseRecOn with
  | nil => rfl
  | append_singleton lengths length ih =>
      rw [progressAfter_concat, Progress.receive, ih, List.sum_append, List.sum_singleton]

/-- One chunk: a reader that had caught up has caught up again if and only if the
chunk completes no more than one frame. -/
theorem receive_handled {progress : Progress}
    (h : progress.handled = framesWithin sizes progress.received) :
    (progress.receive sizes length).handled =
        framesWithin sizes (progress.received + length) ↔
      framesWithin sizes (progress.received + length) ≤
        framesWithin sizes progress.received + 1 := by
  have hmono : framesWithin sizes progress.received ≤
      framesWithin sizes (progress.received + length) :=
    framesWithin_mono sizes (Nat.le_add_right _ _)
  simp only [Progress.receive, h]
  split_ifs <;> omega

theorem handled_of_onePerChunk (hpos : ∀ size ∈ sizes, 0 < size)
    (h : OnePerChunk sizes 0 lengths) :
    (progressAfter sizes lengths).handled = framesWithin sizes lengths.sum := by
  induction lengths using List.reverseRecOn with
  | nil =>
      have hnone : ¬0 < framesWithin sizes 0 := by
        rw [framesWithin_pos_iff]
        rintro ⟨size, rest, rfl, hzero⟩
        have := hpos size List.mem_cons_self
        omega
      exact (Nat.eq_zero_of_not_pos hnone).symm
  | append_singleton lengths length ih =>
      obtain ⟨hbefore, hlast, _⟩ := onePerChunk_append.mp h
      have hcaught := ih hbefore
      rw [← received_progressAfter sizes] at hcaught
      rw [Nat.zero_add, ← received_progressAfter sizes] at hlast
      rw [progressAfter_concat, (receive_handled hcaught).mpr hlast, received_progressAfter,
        List.sum_append, List.sum_singleton]

/-- The reader has caught up after every chunk if and only if no chunk completes two
frames. -/
theorem onePerChunk_concat (hpos : ∀ size ∈ sizes, 0 < size) :
    OnePerChunk sizes 0 (lengths ++ [length]) ↔
      OnePerChunk sizes 0 lengths ∧
        (progressAfter sizes (lengths ++ [length])).handled =
          framesWithin sizes (lengths.sum + length) := by
  rw [onePerChunk_append]
  refine and_congr_right fun hbefore => ?_
  have hcaught := handled_of_onePerChunk hpos hbefore
  rw [← received_progressAfter sizes] at hcaught
  rw [progressAfter_concat, ← received_progressAfter sizes, receive_handled hcaught]
  simp only [OnePerChunk, received_progressAfter, Nat.zero_add, and_true]

/-! ## Ways to cut a stream -/

theorem onePerChunk_of_single (h : sizes.length ≤ 1) (start : Nat) (lengths : List Nat) :
    OnePerChunk sizes start lengths := by
  induction lengths generalizing start with
  | nil => trivial
  | cons length rest ih =>
      have hall := framesWithin_le_length sizes (start + length)
      exact ⟨by omega, ih _⟩

theorem OnePerChunk.first {others : List Nat}
    (h : OnePerChunk (sizes ++ others) start lengths) : OnePerChunk sizes start lengths := by
  induction lengths generalizing start with
  | nil => trivial
  | cons length rest ih =>
      refine ⟨?_, ih h.2⟩
      have hall := h.1
      rw [framesWithin_eq_min sizes others, framesWithin_eq_min sizes others]
      omega

theorem onePerChunk_shift (done pending : List Nat) (start : Nat) (lengths : List Nat) :
    OnePerChunk (done ++ pending) (done.sum + start) lengths ↔
      OnePerChunk pending start lengths := by
  induction lengths generalizing start with
  | nil => rfl
  | cons length rest ih =>
      simp only [OnePerChunk, Nat.add_assoc, framesWithin_append, ih]
      exact and_congr_left' (by omega)

theorem onePerChunk_within {size : Nat} (hpos : ∀ other ∈ sizes, 0 < other)
    (h : start + lengths.sum ≤ size) : OnePerChunk (size :: sizes) start lengths := by
  induction lengths generalizing start with
  | nil => trivial
  | cons length rest ih =>
      rw [List.sum_cons] at h
      have hfirst : framesWithin (size :: sizes) (start + length) ≤ 1 :=
        framesWithin_first hpos (by omega)
      exact ⟨by omega, ih (by omega)⟩

theorem onePerChunk_framewise (cuts : List (List Nat)) (hpos : ∀ cut ∈ cuts, 0 < cut.sum) :
    OnePerChunk (cuts.map List.sum) 0 cuts.flatten := by
  induction cuts with
  | nil => trivial
  | cons cut rest ih =>
      have hrest : ∀ other ∈ rest.map List.sum, 0 < other := by
        simpa using fun other hother => hpos other (List.mem_cons_of_mem _ hother)
      rw [List.map_cons, List.flatten_cons, onePerChunk_append]
      refine ⟨onePerChunk_within hrest (by omega), ?_⟩
      have hshift := onePerChunk_shift [cut.sum] (rest.map List.sum) 0 rest.flatten
      rw [List.sum_singleton, List.singleton_append, Nat.add_zero] at hshift
      rw [Nat.zero_add, hshift]
      exact ih fun other hother => hpos other (List.mem_cons_of_mem _ hother)

end TChat.Lib
