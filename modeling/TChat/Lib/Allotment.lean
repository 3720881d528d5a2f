import Mathlib
/-!
# Handing out numbers

Keys ask for the numbers of an interval.  The first ones get them in order, one each; when all
are out, a key gets any of them.  A key keeps the number it has got, and a key that has none may
be refused.
-/

namespace TChat.Lib

/-- The numbers that the keys have, and the one that is next. -/
structure Allotment (κ : Type) where
  given : κ → Option ℤ
  next : ℤ

namespace Allotment

variable {κ : Type} [DecidableEq κ] {low high n m : ℤ} {k k' : κ} {answer : Option ℤ}
  {a a' : Allotment κ} {history before after : List (κ × Option ℤ)}

def start (low : ℤ) : Allotment κ := ⟨fun _ => none, low⟩

inductive Step (low high : ℤ) (a : Allotment κ) (k : κ) : Option ℤ → Allotment κ → Prop
  | known {n : ℤ} : a.given k = some n → Step low high a k (some n) a
  | refused : a.given k = none → Step low high a k none a
  | fresh :
      a.given k = none → a.next ≤ high →
      Step low high a k (some a.next) ⟨Function.update a.given k (some a.next), a.next + 1⟩
  | shared {n : ℤ} :
      a.given k = none → high < a.next → low ≤ n → n ≤ high →
      Step low high a k (some n) ⟨Function.update a.given k (some n), a.next⟩

inductive Requests (low high : ℤ) : List (κ × Option ℤ) → Allotment κ → Prop
  | start : Requests low high [] (start low)
  | next {history : List (κ × Option ℤ)} {a a' : Allotment κ} {k : κ} {answer : Option ℤ} :
      Requests low high history a → Step low high a k answer a' →
      Requests low high (history ++ [(k, answer)]) a'

/-- The numbers given are of the interval, all the numbers up to the next one are given, and two
keys have the same one only if there is no next one. -/
structure Fair (low high : ℤ) (a : Allotment κ) : Prop where
  low_le_next : low ≤ a.next
  inInterval : ∀ {k n}, a.given k = some n → low ≤ n ∧ n ≤ high ∧ n < a.next
  given : ∀ {n}, low ≤ n → n < a.next → ∃ k, a.given k = some n
  distinct : ∀ {k k' n}, a.given k = some n → a.given k' = some n → k = k' ∨ high < a.next

/-! ## One request -/

theorem given_of_step (h : Step low high a k answer a') : a'.given k = answer := by
  cases h with
  | known hgiven => exact hgiven
  | refused hgiven => exact hgiven
  | fresh hgiven hnext => exact Function.update_self _ _ _
  | shared hgiven hnext hlow hhigh => exact Function.update_self _ _ _

theorem given_of_step_of_ne (h : Step low high a k answer a') (hk : k' ≠ k) :
    a'.given k' = a.given k' := by
  cases h with
  | known hgiven => rfl
  | refused hgiven => rfl
  | fresh hgiven hnext => exact Function.update_of_ne hk _ _
  | shared hgiven hnext hlow hhigh => exact Function.update_of_ne hk _ _

theorem answer_of_given (h : Step low high a k answer a') (hgiven : a.given k = some n) :
    answer = some n := by
  cases h with
  | known hknown => rw [← hknown, hgiven]
  | refused hnone => rw [hgiven] at hnone; cases hnone
  | fresh hnone hnext => rw [hgiven] at hnone; cases hnone
  | shared hnone hnext hlow hhigh => rw [hgiven] at hnone; cases hnone

theorem given_step (h : Step low high a k answer a') (hgiven : a.given k' = some n) :
    a'.given k' = some n := by
  by_cases hk : k' = k
  · subst hk
    rw [given_of_step h, answer_of_given h hgiven]
  · rw [given_of_step_of_ne h hk, hgiven]

omit [DecidableEq κ] in
theorem fair_start : Fair low high (start low : Allotment κ) where
  low_le_next := le_refl _
  inInterval h := nomatch h
  given hlow hnext := absurd hlow (not_le.mpr hnext)
  distinct h := nomatch h

theorem Fair.fresh (hfair : Fair low high a) (hgiven : a.given k = none) (hnext : a.next ≤ high) :
    Fair low high ⟨Function.update a.given k (some a.next), a.next + 1⟩ := by
  have hstep : Step low high a k _ _ := .fresh hgiven hnext
  have hasked := given_of_step hstep
  have hother {k' : κ} (hk : k' ≠ k) := given_of_step_of_ne hstep hk
  -- the new number is above all the others
  have hnew {k' : κ} {n : ℤ} (hk : k' ≠ k)
      (h : Function.update a.given k (some a.next) k' = some n) : n < a.next :=
    (hfair.inInterval ((hother hk).symm.trans h)).2.2
  constructor
  · exact hfair.low_le_next.trans (Int.le_of_lt (Int.lt_succ _))
  · intro k' n h
    by_cases hk : k' = k
    · subst hk
      obtain rfl := Option.some.inj (hasked.symm.trans h)
      exact ⟨hfair.low_le_next, hnext, Int.lt_succ _⟩
    · obtain ⟨hlow, hhigh, hn⟩ := hfair.inInterval ((hother hk).symm.trans h)
      exact ⟨hlow, hhigh, hn.trans (Int.lt_succ _)⟩
  · intro n hlow hn
    rcases (Int.lt_add_one_iff.mp hn).lt_or_eq with hn | rfl
    · obtain ⟨k', hk'⟩ := hfair.given hlow hn
      exact ⟨k', given_step hstep hk'⟩
    · exact ⟨k, hasked⟩
  · intro k₁ k₂ n h₁ h₂
    by_cases hk₁ : k₁ = k <;> by_cases hk₂ : k₂ = k
    · exact Or.inl (hk₁.trans hk₂.symm)
    · subst hk₁
      obtain rfl := Option.some.inj (hasked.symm.trans h₁)
      exact absurd (hnew hk₂ h₂) (lt_irrefl _)
    · subst hk₂
      obtain rfl := Option.some.inj (hasked.symm.trans h₂)
      exact absurd (hnew hk₁ h₁) (lt_irrefl _)
    · apply (hfair.distinct ((hother hk₁).symm.trans h₁) ((hother hk₂).symm.trans h₂)).imp_right
      intro hover
      exact hover.trans (Int.lt_succ _)

theorem Fair.shared (hfair : Fair low high a) (hgiven : a.given k = none) (hnext : high < a.next)
    (hlow : low ≤ n) (hhigh : n ≤ high) :
    Fair low high ⟨Function.update a.given k (some n), a.next⟩ := by
  have hstep : Step low high a k _ _ := .shared hgiven hnext hlow hhigh
  constructor
  · exact hfair.low_le_next
  · intro k' m h
    by_cases hk : k' = k
    · subst hk
      obtain rfl := Option.some.inj ((given_of_step hstep).symm.trans h)
      exact ⟨hlow, hhigh, Int.lt_of_le_of_lt hhigh hnext⟩
    · exact hfair.inInterval ((given_of_step_of_ne hstep hk).symm.trans h)
  · intro m hm hlt
    obtain ⟨k', hk'⟩ := hfair.given hm hlt
    exact ⟨k', given_step hstep hk'⟩
  · intro k₁ k₂ m h₁ h₂
    exact Or.inr hnext

theorem Fair.step (hfair : Fair low high a) (h : Step low high a k answer a') :
    Fair low high a' := by
  cases h with
  | known hgiven => exact hfair
  | refused hgiven => exact hfair
  | fresh hgiven hnext => exact hfair.fresh hgiven hnext
  | shared hgiven hnext hlow hhigh => exact hfair.shared hgiven hnext hlow hhigh

/-! ## All requests -/

theorem Requests.fair (h : Requests low high history a) : Fair low high a := by
  induction h with
  | start => exact fair_start
  | next _ hstep ih => exact ih.step hstep

theorem Requests.given_iff (h : Requests low high history a) :
    a.given k = some n ↔ (k, some n) ∈ history := by
  induction h with
  | start => simp [Allotment.start]
  | @next history a a' k' answer _ hstep ih =>
      rw [List.mem_append, List.mem_singleton, Prod.mk.injEq]
      constructor
      · intro h
        by_cases hk : k = k'
        · subst hk
          exact Or.inr ⟨rfl, h.symm.trans (given_of_step hstep)⟩
        · rw [given_of_step_of_ne hstep hk] at h
          exact Or.inl (ih.mp h)
      · intro h
        rcases h with h | ⟨rfl, rfl⟩
        · exact given_step hstep (ih.mpr h)
        · exact given_of_step hstep

theorem Requests.part (h : Requests low high (before ++ after) a) :
    ∃ a', Requests low high before a' := by
  induction after using List.reverseRecOn generalizing a with
  | nil => exact ⟨a, by rwa [List.append_nil] at h⟩
  | append_singleton after last ih =>
      rw [← List.append_assoc] at h
      generalize hhistory : before ++ after ++ [last] = history at h
      cases h with
      | start => simp at hhistory
      | next hrequests hstep =>
          obtain ⟨rfl, -⟩ := List.append_inj' hhistory rfl
          exact ih hrequests

/-- A key that was given a number is answered that number ever after. -/
theorem Requests.keeps (h : Requests low high history a)
    (hhistory : history = before ++ (k, some n) :: after) (hafter : (k, answer) ∈ after) :
    answer = some n := by
  induction h generalizing after with
  | start => simp at hhistory
  | @next history a a' k' answer' hrequests hstep ih =>
      cases after using List.reverseRecOn with
      | nil => simp at hafter
      | append_singleton after last =>
          rw [← List.cons_append, ← List.append_assoc] at hhistory
          obtain ⟨rfl, hlast⟩ := List.append_inj' hhistory rfl
          obtain rfl := List.singleton_injective hlast
          rcases List.mem_append.mp hafter with hbefore | hnow
          · exact ih rfl hbefore
          · obtain ⟨rfl, rfl⟩ := Prod.mk.inj (List.mem_singleton.mp hnow)
            have hgiven : a.given k = some n :=
              hrequests.given_iff.mpr (List.mem_append_right _ List.mem_cons_self)
            exact answer_of_given hstep hgiven

theorem Requests.inInterval (h : Requests low high history a) (hn : (k, some n) ∈ history) :
    low ≤ n ∧ n ≤ high ∧ n < a.next :=
  h.fair.inInterval (h.given_iff.mpr hn)

/-- A key is given the number of another key only after all the numbers were given. -/
theorem Requests.shares (h : Requests low high (before ++ (k, some n) :: after) a)
    (hother : (k', some n) ∈ before) (hk : k' ≠ k) (hlow : low ≤ m) (hhigh : m ≤ high) :
    ∃ k, (k, some m) ∈ before := by
  have happend : before ++ (k, some n) :: after = (before ++ [(k, some n)]) ++ after := by
    rw [List.append_assoc, List.singleton_append]
  rw [happend] at h
  obtain ⟨a, hrequests⟩ := h.part
  have hfirst := hrequests.given_iff.mpr (List.mem_append_left [(k, some n)] hother)
  have hsecond : a.given k = some n :=
    hrequests.given_iff.mpr (List.mem_append_right _ List.mem_cons_self)
  have hover : high < a.next := (hrequests.fair.distinct hfirst hsecond).resolve_left hk
  obtain ⟨k'', hgiven⟩ := hrequests.fair.given hlow (Int.lt_of_le_of_lt hhigh hover)
  rcases List.mem_append.mp (hrequests.given_iff.mp hgiven) with hbefore | hnow
  · exact ⟨k'', hbefore⟩
  · obtain ⟨-, hn⟩ := Prod.mk.inj (List.mem_singleton.mp hnow)
    obtain rfl := Option.some.inj hn
    exact ⟨k', hother⟩

end Allotment

end TChat.Lib
