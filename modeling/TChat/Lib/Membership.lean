import Mathlib
/-!
# Seats and their holders

A membership service in the abstract.  Connections arrive as guests; a guest
becomes a member by taking the seat of a name, either afresh or, when the seat
is vacant, by resuming it.  Connections go, and their seats are vacated.

`Sound` is what any such service can rely on: a seat is held by a connection
that is still there and no longer a guest, and a connection holds at most one
seat.  `Represented`, that every member has a seat, needs more: it is lost as
soon as a seat is taken afresh from under a member who still holds it.
-/

namespace TChat.Lib

open Classical

inductive Stage
  | guest
  | member
  | leaving
  deriving DecidableEq

inductive Mode
  | fresh
  | resumed
  | vacant
  deriving DecidableEq

/-- The seat of a name: the key that lets it be resumed, who holds it, and since
when it has been the way it is. -/
@[ext] structure Seat (P K T : Type) where
  key : K
  holder : Option P
  mode : Mode
  since : T

/-- A membership service: connections of type `P`, names of type `N`. -/
@[ext] structure Membership (P N K T : Type) where
  stage : P → Option Stage
  seat : N → Option (Seat P K T)

inductive Move (P N K T : Type)
  | arrive (p : P)
  | take (p : P) (n : N) (key : K) (now : T)
  | resume (p : P) (n : N) (since : T)
  | sweep (gone closing : Set P) (lapsed : Set N) (now : T)

def Seat.vacate {P K T : Type} (now : T) (x : Seat P K T) : Seat P K T :=
  if x.mode = .fresh then { x with holder := none, mode := .vacant, since := now }
  else { x with holder := none }

namespace Membership

variable {P N K T : Type} {m : Membership P N K T} {move : Move P N K T}

def HeldBy (gone : Set P) (x : Seat P K T) : Prop := ∃ p ∈ gone, x.holder = some p

noncomputable def apply (m : Membership P N K T) : Move P N K T → Membership P N K T
  | .arrive p => { m with stage := Function.update m.stage p (some .guest) }
  | .take p n key now =>
      { stage := Function.update m.stage p (some .member)
        seat := Function.update m.seat n (some ⟨key, some p, .fresh, now⟩) }
  | .resume p n since =>
      { stage := Function.update m.stage p (some .member)
        seat := Function.update m.seat n ((m.seat n).map fun x =>
          ⟨x.key, some p, .resumed, since⟩) }
  | .sweep gone closing lapsed now =>
      { stage := fun p =>
          if p ∈ gone then none else if p ∈ closing then some .leaving else m.stage p
        seat := fun n =>
          if n ∈ lapsed then none
          else (m.seat n).map fun x => if HeldBy gone x then x.vacate now else x }

def Enabled (m : Membership P N K T) : Move P N K T → Prop
  | .arrive p => m.stage p = none
  | .take p _ _ _ => m.stage p = some .guest
  | .resume p n _ => m.stage p = some .guest ∧ ∃ x, m.seat n = some x ∧ x.mode = .vacant
  | .sweep _ closing lapsed _ =>
      (∀ p ∈ closing, m.stage p ≠ none) ∧ ∀ n ∈ lapsed, ∃ x, m.seat n = some x ∧ x.mode = .vacant

/-- What every service can rely on. -/
structure Sound (m : Membership P N K T) : Prop where
  present : ∀ {n x p}, m.seat n = some x → x.holder = some p →
    m.stage p = some .member ∨ m.stage p = some .leaving
  single : ∀ {n n' x x' p}, m.seat n = some x → m.seat n' = some x' →
    x.holder = some p → x'.holder = some p → n = n'
  held : ∀ {n x p}, m.seat n = some x → x.holder = some p → x.mode ≠ .vacant
  fresh : ∀ {n x}, m.seat n = some x → x.mode = .fresh → x.holder ≠ none

@[simp] theorem vacate_holder (now : T) (x : Seat P K T) : (x.vacate now).holder = none := by
  unfold Seat.vacate
  split_ifs <;> rfl

theorem vacate_mode (now : T) (x : Seat P K T) : (x.vacate now).mode ≠ .fresh := by
  unfold Seat.vacate
  split_ifs with h
  · simp
  · exact h

@[simp] theorem stage_arrive [DecidableEq P] (p q : P) :
    (m.apply (.arrive p)).stage q = if q = p then some .guest else m.stage q := by
  simp [apply, Function.update_apply]

@[simp] theorem seat_arrive (p : P) : (m.apply (.arrive p)).seat = m.seat := rfl

@[simp] theorem stage_take [DecidableEq P] (p q : P) (n : N) (key : K) (now : T) :
    (m.apply (.take p n key now)).stage q = if q = p then some .member else m.stage q := by
  simp [apply, Function.update_apply]

@[simp] theorem seat_take [DecidableEq N] (p : P) (n n' : N) (key : K) (now : T) :
    (m.apply (.take p n key now)).seat n' =
      if n' = n then some ⟨key, some p, .fresh, now⟩ else m.seat n' := by
  simp [apply, Function.update_apply]

@[simp] theorem stage_resume [DecidableEq P] (p q : P) (n : N) (since : T) :
    (m.apply (.resume p n since)).stage q = if q = p then some .member else m.stage q := by
  simp [apply, Function.update_apply]

@[simp] theorem seat_resume [DecidableEq N] (p : P) (n n' : N) (since : T) :
    (m.apply (.resume p n since)).seat n' =
      if n' = n then (m.seat n).map fun x => ⟨x.key, some p, .resumed, since⟩
      else m.seat n' := by
  simp [apply, Function.update_apply]

@[simp] theorem apply_quiet (now : T) : m.apply (.sweep ∅ ∅ ∅ now) = m := by
  ext1
  · funext p
    simp [apply]
  · funext n
    simp [apply, HeldBy]

theorem seat_sweep {gone closing : Set P} {lapsed : Set N} {now : T} {n : N}
    {x' : Seat P K T} (h : (m.apply (.sweep gone closing lapsed now)).seat n = some x') :
    n ∉ lapsed ∧ ∃ x, m.seat n = some x ∧
      (HeldBy gone x ∧ x' = x.vacate now ∨ ¬HeldBy gone x ∧ x' = x) := by
  simp only [apply] at h
  split_ifs at h with hlapsed
  rw [Option.map_eq_some_iff] at h
  obtain ⟨x, hx, rfl⟩ := h
  refine ⟨hlapsed, x, hx, ?_⟩
  by_cases hheld : HeldBy gone x
  · exact .inl ⟨hheld, if_pos hheld⟩
  · exact .inr ⟨hheld, if_neg hheld⟩

theorem sound_arrive {p : P} (h : m.Sound) (hp : m.stage p = none) :
    (m.apply (.arrive p)).Sound := by
  refine ⟨?_, h.single, h.held, h.fresh⟩
  intro n x q hx hq
  have hstage := h.present hx hq
  have hne : q ≠ p := by
    rintro rfl
    simp [hp] at hstage
  simpa [apply, hne] using hstage

theorem sound_seat {p : P} {n : N} {y : Seat P K T} (h : m.Sound)
    (hp : m.stage p = some .guest) (hholder : y.holder = some p) (hmode : y.mode ≠ .vacant) :
    Sound
      { stage := Function.update m.stage p (some .member)
        seat := Function.update m.seat n (some y) } := by
  have hfree : ∀ {n' x}, m.seat n' = some x → x.holder ≠ some p := by
    intro n' x hx hheld
    have hstage := h.present hx hheld
    simp [hp] at hstage
  constructor
  · intro n' x q hx hq
    by_cases hqp : q = p
    · simp [hqp]
    · by_cases hn : n' = n
      · subst hn
        simp only [Function.update_self, Option.some.injEq] at hx
        rw [← hx, hholder, Option.some.injEq] at hq
        exact absurd hq.symm hqp
      · simp only [Function.update_of_ne hn] at hx
        simpa [hqp] using h.present hx hq
  · intro n₁ n₂ x₁ x₂ q h₁ h₂ hq₁ hq₂
    by_cases hn₁ : n₁ = n <;> by_cases hn₂ : n₂ = n
    · rw [hn₁, hn₂]
    · subst hn₁
      simp only [Function.update_self, Option.some.injEq, Function.update_of_ne hn₂] at h₁ h₂
      rw [← h₁, hholder] at hq₁
      exact absurd (hq₂.trans hq₁.symm) (hfree h₂)
    · subst hn₂
      simp only [Function.update_self, Option.some.injEq, Function.update_of_ne hn₁] at h₁ h₂
      rw [← h₂, hholder] at hq₂
      exact absurd (hq₁.trans hq₂.symm) (hfree h₁)
    · simp only [Function.update_of_ne hn₁, Function.update_of_ne hn₂] at h₁ h₂
      exact h.single h₁ h₂ hq₁ hq₂
  · intro n' x q hx hq
    by_cases hn : n' = n
    · subst hn
      simp only [Function.update_self, Option.some.injEq] at hx
      exact hx ▸ hmode
    · simp only [Function.update_of_ne hn] at hx
      exact h.held hx hq
  · intro n' x hx hx'
    by_cases hn : n' = n
    · subst hn
      simp only [Function.update_self, Option.some.injEq] at hx
      rw [← hx, hholder]
      simp
    · simp only [Function.update_of_ne hn] at hx
      exact h.fresh hx hx'

theorem sound_sweep {gone closing : Set P} {lapsed : Set N} {now : T} (h : m.Sound) :
    (m.apply (.sweep gone closing lapsed now)).Sound := by
  have hkept : ∀ {n x' p}, (m.apply (.sweep gone closing lapsed now)).seat n = some x' →
      x'.holder = some p → m.seat n = some x' ∧ p ∉ gone := by
    intro n x' p hx' hp
    obtain ⟨_, x, hx, ⟨_, rfl⟩ | ⟨hheld, rfl⟩⟩ := seat_sweep hx'
    · simp at hp
    · exact ⟨hx, fun hgone => hheld ⟨p, hgone, hp⟩⟩
  constructor
  · intro n x' p hx' hp
    obtain ⟨hx, hgone⟩ := hkept hx' hp
    simp only [apply, hgone, if_false]
    split_ifs
    · exact .inr rfl
    · exact h.present hx hp
  · intro n₁ n₂ x₁ x₂ p h₁ h₂ hp₁ hp₂
    exact h.single (hkept h₁ hp₁).1 (hkept h₂ hp₂).1 hp₁ hp₂
  · intro n x' p hx' hp
    exact h.held (hkept hx' hp).1 hp
  · intro n x' hx' hfresh
    obtain ⟨_, x, hx, ⟨_, rfl⟩ | ⟨_, rfl⟩⟩ := seat_sweep hx'
    · exact absurd hfresh (vacate_mode now x)
    · exact h.fresh hx hfresh

/-- Every enabled move keeps a service sound. -/
theorem Sound.apply (h : m.Sound) (henabled : m.Enabled move) : (m.apply move).Sound := by
  cases move with
  | arrive p => exact sound_arrive h henabled
  | take p n key now => exact sound_seat h henabled rfl (by simp)
  | resume p n since =>
      obtain ⟨hp, x, hx, _⟩ := henabled
      simp only [Membership.apply, hx, Option.map_some]
      exact sound_seat h hp rfl (by simp)
  | sweep gone closing lapsed now => exact sound_sweep h

/-! ## Members and their seats -/

/-- Every member holds a seat. -/
def Represented (m : Membership P N K T) : Prop :=
  ∀ p, m.stage p = some .member → ∃ n x, m.seat n = some x ∧ x.holder = some p

/-- A move that takes a seat from under a member. -/
def Displaces (m : Membership P N K T) : Move P N K T → Prop
  | .take _ n _ _ => ∃ x q, m.seat n = some x ∧ x.holder = some q ∧ m.stage q = some .member
  | _ => False

theorem Represented.apply (h : m.Represented) (hsound : m.Sound)
    (henabled : m.Enabled move) (hdisplaces : ¬m.Displaces move) :
    (m.apply move).Represented := by
  intro p hp
  cases move with
  | arrive q =>
      by_cases hpq : p = q
      · simp [Membership.apply, hpq] at hp
      · simp only [Membership.apply, Function.update_of_ne hpq] at hp
        exact h p hp
  | take q n key now =>
      by_cases hpq : p = q
      · refine ⟨n, ⟨key, some q, .fresh, now⟩, ?_, congrArg some hpq.symm⟩
        simp [Membership.apply]
      · simp only [Membership.apply, Function.update_of_ne hpq] at hp
        obtain ⟨n', x, hx, hholder⟩ := h p hp
        have hn : n' ≠ n := by
          rintro rfl
          exact hdisplaces ⟨x, p, hx, hholder, hp⟩
        exact ⟨n', x, (Function.update_of_ne hn ..).trans hx, hholder⟩
  | resume q n since =>
      obtain ⟨_, y, hy, hvacant⟩ := henabled
      by_cases hpq : p = q
      · refine ⟨n, ⟨y.key, some q, .resumed, since⟩, ?_, congrArg some hpq.symm⟩
        simp [Membership.apply, hy]
      · simp only [Membership.apply, Function.update_of_ne hpq] at hp
        obtain ⟨n', x, hx, hholder⟩ := h p hp
        have hn : n' ≠ n := by
          rintro rfl
          rw [hx, Option.some.injEq] at hy
          exact hsound.held hx hholder (hy ▸ hvacant)
        exact ⟨n', x, (Function.update_of_ne hn ..).trans hx, hholder⟩
  | sweep gone closing lapsed now =>
      simp only [Membership.apply] at hp
      split_ifs at hp with hgone hclosing
      · simp at hp
      obtain ⟨n, x, hx, hholder⟩ := h p hp
      have hlapsed : n ∉ lapsed := by
        intro hn
        obtain ⟨y, hy, hvacant⟩ := henabled.2 n hn
        rw [hx, Option.some.injEq] at hy
        exact hsound.held hx hholder (hy ▸ hvacant)
      have hheld : ¬HeldBy gone x := by
        rintro ⟨q, hq, hxq⟩
        rw [hholder, Option.some.injEq] at hxq
        exact hgone (hxq ▸ hq)
      refine ⟨n, x, ?_, hholder⟩
      simp [Membership.apply, hlapsed, hx, hheld]

/-- A move that takes a seat from under a member leaves that member without one. -/
theorem not_represented_of_displaces (hsound : m.Sound) (henabled : m.Enabled move)
    (hdisplaces : m.Displaces move) : ¬(m.apply move).Represented := by
  cases move with
  | take p n key now =>
      obtain ⟨x, q, hx, hholder, hmember⟩ := hdisplaces
      have hqp : q ≠ p := by
        rintro rfl
        have hguest : m.stage q = some .guest := henabled
        simp [hguest] at hmember
      intro h
      obtain ⟨n', x', hx', hholder'⟩ := h q ((Function.update_of_ne hqp ..).trans hmember)
      by_cases hn : n' = n
      · subst hn
        simp only [apply, Function.update_self, Option.some.injEq] at hx'
        rw [← hx', Option.some.injEq] at hholder'
        exact hqp hholder'.symm
      · simp only [apply, Function.update_of_ne hn] at hx'
        exact hn (hsound.single hx' hx hholder' hholder)
  | arrive | resume | sweep => exact hdisplaces.elim

end Membership

end TChat.Lib
