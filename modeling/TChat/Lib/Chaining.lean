import Mathlib
/-!
# Chained blocks

A list of blocks, each transformed with the result for the block before it.  Where one such
transformation can be undone with the result before it, the list can.
-/

namespace TChat.Lib

section

variable {β : Type*} (round unround : β → β → β)

/-- The blocks, each transformed with the result before it and the first one with `last`. -/
def chain (last : β) : List β → List β
  | [] => []
  | block :: blocks => round last block :: chain (round last block) blocks

/-- The blocks, each transformed with the block before it and the first one with `last`. -/
def unchain (last : β) : List β → List β
  | [] => []
  | block :: blocks => unround last block :: unchain block blocks

variable {round unround} {last : β}

@[simp] theorem length_chain (blocks : List β) :
    (chain round last blocks).length = blocks.length := by
  induction blocks generalizing last with
  | nil => rfl
  | cons block blocks ih => rw [chain, List.length_cons, List.length_cons, ih]

@[simp] theorem length_unchain (blocks : List β) :
    (unchain unround last blocks).length = blocks.length := by
  induction blocks generalizing last with
  | nil => rfl
  | cons block blocks ih => rw [unchain, List.length_cons, List.length_cons, ih]

theorem chain_const (f : β → β) (blocks : List β) :
    chain (fun _ block => f block) last blocks = blocks.map f := by
  induction blocks generalizing last with
  | nil => rfl
  | cons block blocks ih => rw [chain, ih, List.map_cons]

theorem unchain_concat (blocks : List β) (block : β) :
    unchain unround last (blocks ++ [block]) =
      unchain unround last blocks ++ [unround (blocks.getLastD last) block] := by
  induction blocks generalizing last with
  | nil => rfl
  | cons first blocks ih =>
      rw [List.cons_append, unchain, ih, unchain, List.cons_append, List.getLastD_cons]

theorem unchain_chain (hundo : ∀ last block, unround last (round last block) = block)
    (blocks : List β) : unchain unround last (chain round last blocks) = blocks := by
  induction blocks generalizing last with
  | nil => rfl
  | cons block blocks ih => rw [chain, unchain, hundo, ih]

theorem chain_unchain (hundo : ∀ last block, round last (unround last block) = block)
    (blocks : List β) : chain round last (unchain unround last blocks) = blocks := by
  induction blocks generalizing last with
  | nil => rfl
  | cons block blocks ih => rw [unchain, chain, hundo, ih]

end

end TChat.Lib
