import Mathlib
/-!
# Feistel networks

A block is two halves.  A round mixes a function of the left half into the right one and
swaps the two, so the same rounds in the opposite order undo it whatever the functions are.
-/

namespace TChat.Lib

section

variable {α : Type*} (mix : α → α → α)

def feistelRound (f : α → α) (block : α × α) : α × α :=
  (mix block.2 (f block.1), block.1)

def feistel (fs : List (α → α)) (block : α × α) : α × α :=
  fs.foldl (fun block f => feistelRound mix f block) block

variable {mix}

@[simp] theorem feistel_nil (block : α × α) : feistel mix [] block = block := rfl

theorem feistel_cons (f : α → α) (fs : List (α → α)) (block : α × α) :
    feistel mix (f :: fs) block = feistel mix fs (feistelRound mix f block) := rfl

theorem feistel_concat (f : α → α) (fs : List (α → α)) (block : α × α) :
    feistel mix (fs ++ [f]) block = feistelRound mix f (feistel mix fs block) := by
  simp [feistel]

/-- A round with its halves swapped is its own inverse. -/
theorem feistelRound_swap (hmix : ∀ x y, mix (mix x y) y = x) (f : α → α) (block : α × α) :
    feistelRound mix f (feistelRound mix f block).swap = block.swap := by
  apply Prod.ext
  · exact hmix block.2 (f block.1)
  · rfl

/-- The rounds in the opposite order, on swapped halves, undo the network. -/
theorem feistel_reverse (hmix : ∀ x y, mix (mix x y) y = x) (fs : List (α → α))
    (block : α × α) :
    feistel mix fs.reverse (feistel mix fs block).swap = block.swap := by
  induction fs generalizing block with
  | nil => rfl
  | cons f fs ih =>
      calc feistel mix (f :: fs).reverse (feistel mix (f :: fs) block).swap
          = feistelRound mix f
              (feistel mix fs.reverse (feistel mix fs (feistelRound mix f block)).swap) := by
            rw [List.reverse_cons, feistel_concat, feistel_cons]
        _ = feistelRound mix f (feistelRound mix f block).swap := by rw [ih]
        _ = block.swap := feistelRound_swap hmix f block

end

end TChat.Lib
