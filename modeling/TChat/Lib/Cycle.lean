import Mathlib
/-!
# Lists read round and round

The endless sequence that a list gives when reading starts again behind its last entry.
-/

namespace TChat.Lib

section

variable {α : Type*} {xs : List α} {z : α} {n : ℕ}

/-- The entry number `n` when `xs` is read round and round. -/
def cycleAt (xs : List α) (hne : xs ≠ []) (n : ℕ) : α :=
  xs.get ⟨n % xs.length, Nat.mod_lt n (List.length_pos_iff.mpr hne)⟩

theorem cycleAt_of_lt (hne : xs ≠ []) (hn : n < xs.length) : cycleAt xs hne n = xs[n] := by
  simp only [cycleAt, List.get_eq_getElem, Nat.mod_eq_of_lt hn]

theorem cycleAt_mem (hne : xs ≠ []) : cycleAt xs hne n ∈ xs := List.get_mem ..

theorem concat_ne_nil (xs : List α) (z : α) : xs ++ [z] ≠ [] := by simp

theorem cycleAt_concat_of_lt (hn : n < xs.length) :
    cycleAt (xs ++ [z]) (concat_ne_nil xs z) n = xs[n] := by
  rw [cycleAt_of_lt _ (by rw [List.length_append]; omega), List.getElem_append_left hn]

/-! ## Repeated lists -/

theorem getElem?_flatten_replicate {k : ℕ} (hn : n < k * xs.length) :
    (List.replicate k xs).flatten[n]? = xs[n % xs.length]? := by
  induction k generalizing n with
  | zero => omega
  | succ k ih =>
      rw [List.replicate_succ, List.flatten_cons]
      by_cases hfirst : n < xs.length
      · rw [List.getElem?_append_left hfirst, Nat.mod_eq_of_lt hfirst]
      · rw [Nat.succ_mul] at hn
        rw [List.getElem?_append_right (by omega), ih (by omega),
          ← Nat.mod_eq_sub_mod (by omega)]

/-- Reading a list round and round does not tell it from its repetitions. -/
theorem cycleAt_flatten_replicate {k : ℕ} (hne : xs ≠ [])
    (hne' : (List.replicate k xs).flatten ≠ []) :
    cycleAt (List.replicate k xs).flatten hne' n = cycleAt xs hne n := by
  have hlength : (List.replicate k xs).flatten.length = k * xs.length := by simp
  have hpos := List.length_pos_iff.mpr hne'
  have hlt : n % (List.replicate k xs).flatten.length < k * xs.length := by
    rw [hlength] at hpos ⊢
    exact Nat.mod_lt n hpos
  apply Option.some_inj.mp
  simp only [cycleAt, List.get_eq_getElem, ← List.getElem?_eq_getElem]
  rw [getElem?_flatten_replicate hlt, hlength, Nat.mod_mod_of_dvd _ (Nat.dvd_mul_left _ _)]

end

end TChat.Lib
