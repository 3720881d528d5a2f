import TChat.Lib.Membership
/-!
# Where a seat comes from

The seat of a name is what the last one who took it has made of it: its key is the key it was
taken with, and it is vacant as long as that connection has gone and nobody has resumed the
seat.
-/

namespace TChat.Lib

/-! ## The last of its kind -/

theorem last_unique {α : Type} {property : α → Prop} {before after before' after' : List α}
    {a a' : α} (heq : before ++ a :: after = before' ++ a' :: after') (ha : property a)
    (ha' : property a') (hafter : ∀ b ∈ after, ¬property b) (hafter' : ∀ b ∈ after', ¬property b) :
    a = a' ∧ after = after' := by
  rcases List.append_eq_append_iff.mp heq with ⟨between, -, hrest⟩ | ⟨between, -, hrest⟩
  · cases between with
    | nil => simpa using hrest
    | cons b between =>
        rw [List.cons_append, List.cons.injEq] at hrest
        exact absurd ha' (hafter a' (by simp [hrest.2]))
  · cases between with
    | nil => simpa [eq_comm] using hrest
    | cons b between =>
        rw [List.cons_append, List.cons.injEq] at hrest
        exact absurd ha (hafter' a (by simp [hrest.2]))

theorem forall₂_append_cons {α β : Type} {related : α → β → Prop} {l : List α}
    {before after : List β} {b : β} (h : List.Forall₂ related l (before ++ b :: after)) :
    ∃ before' a after', l = before' ++ a :: after' ∧ related a b ∧
      List.Forall₂ related after' after := by
  induction before generalizing l with
  | nil =>
      cases h with
      | @cons a _ after' _ hab hafter => exact ⟨[], a, after', rfl, hab, hafter⟩
  | cons b' before ih =>
      cases h with
      | @cons a' _ l _ _ hrest =>
          obtain ⟨before', a, after', rfl, hab, hafter⟩ := ih hrest
          exact ⟨a' :: before', a, after', rfl, hab, hafter⟩

theorem forall₂_mem {α β : Type} {related : α → β → Prop} {l : List α} {l' : List β}
    (h : List.Forall₂ related l l') :
    (∀ a ∈ l, ∃ b ∈ l', related a b) ∧ ∀ b ∈ l', ∃ a ∈ l, related a b := by
  induction h with
  | nil => simp
  | @cons a b l l' hab _ ih =>
      constructor
      · intro a' ha'
        rcases List.mem_cons.mp ha' with rfl | hmem
        · exact ⟨b, List.mem_cons_self, hab⟩
        · obtain ⟨b', hb', hrelated⟩ := ih.1 a' hmem
          exact ⟨b', List.mem_cons_of_mem _ hb', hrelated⟩
      · intro b' hb'
        rcases List.mem_cons.mp hb' with rfl | hmem
        · exact ⟨a, List.mem_cons_self, hab⟩
        · obtain ⟨a', ha', hrelated⟩ := ih.2 b' hmem
          exact ⟨a', List.mem_cons_of_mem _ ha', hrelated⟩

/-! ## Seats -/

variable {P N K T : Type}

/-- The move takes the seat of `n` afresh. -/
def Move.Takes (move : Move P N K T) (n : N) : Prop :=
  ∃ p key now, move = .take p n key now

/-- The move resumes the seat of `n`. -/
def Move.Resumes (move : Move P N K T) (n : N) : Prop := ∃ p since, move = .resume p n since

def Move.Drops (move : Move P N K T) (p : P) : Prop :=
  ∃ gone closing lapsed now, move = .sweep gone closing lapsed now ∧ p ∈ gone

namespace Membership

variable {m : Membership P N K T} {moves later : List (Move P N K T)} {move : Move P N K T}
  {n : N} {x : Seat P K T} {p : P}

def empty : Membership P N K T := ⟨fun _ => none, fun _ => none⟩

theorem sound_empty : (empty : Membership P N K T).Sound := by
  constructor <;> simp [empty]

inductive Moves : List (Move P N K T) → Membership P N K T → Prop
  | start : Moves [] empty
  | next {moves : List (Move P N K T)} {m : Membership P N K T} {move : Move P N K T} :
      Moves moves m → m.Enabled move → Moves (moves ++ [move]) (m.apply move)

theorem Moves.sound (h : Moves moves m) : m.Sound := by
  induction h with
  | start => exact sound_empty
  | next _ henabled ih => exact ih.apply henabled

open Classical in
theorem seats_of_stage (henabled : m.Enabled move) (hguest : m.stage p = some .guest)
    (hmember : (m.apply move).stage p = some .member) :
    (∃ n key now, move = .take p n key now) ∨ ∃ n since, move = .resume p n since := by
  cases move with
  | arrive q =>
      have hq : m.stage q = none := henabled
      have hne : p ≠ q := by
        rintro rfl
        simp [hguest] at hq
      simp [apply, Function.update_of_ne hne, hguest] at hmember
  | take q n key now =>
      by_cases hpq : p = q
      · exact .inl ⟨n, key, now, by rw [hpq]⟩
      · simp [apply, Function.update_of_ne hpq, hguest] at hmember
  | resume q n since =>
      by_cases hpq : p = q
      · exact .inr ⟨n, since, by rw [hpq]⟩
      · simp [apply, Function.update_of_ne hpq, hguest] at hmember
  | sweep gone closing lapsed now =>
      simp only [apply] at hmember
      split_ifs at hmember <;> simp [hguest] at hmember

/-- What the moves `later` have made of a seat that `p` took. -/
structure Tenure (p : P) (n : N) (later : List (Move P N K T)) (x : Seat P K T) : Prop where
  untaken : ∀ move ∈ later, ¬move.Takes n
  fresh : x.mode = .fresh → x.holder = some p
  resumed : x.mode = .resumed ↔ ∃ move ∈ later, move.Resumes n
  left : x.mode = .vacant → ∃ move ∈ later, move.Drops p

theorem tenure_take (key : K) (now : T) : Tenure p n [] ⟨key, some p, .fresh, now⟩ := by
  constructor <;> simp

namespace Tenure

theorem quiet (h : Tenure p n later x) (htakes : ¬move.Takes n) (hresumes : ¬move.Resumes n) :
    Tenure p n (later ++ [move]) x := by
  constructor
  · intro move' hmove'
    rcases List.mem_append.mp hmove' with hold | hnew
    · exact h.untaken move' hold
    · rwa [List.mem_singleton.mp hnew]
  · exact h.fresh
  · rw [h.resumed]
    simp [hresumes]
  · intro hvacant
    obtain ⟨move', hmove', hdrops⟩ := h.left hvacant
    exact ⟨move', List.mem_append_left _ hmove', hdrops⟩

theorem resume (h : Tenure p n later x) (q : P) (since : T) :
    Tenure p n (later ++ [.resume q n since]) ⟨x.key, some q, .resumed, since⟩ := by
  constructor
  · intro move' hmove'
    rcases List.mem_append.mp hmove' with hold | hnew
    · exact h.untaken move' hold
    · rw [List.mem_singleton.mp hnew]
      simp [Move.Takes]
  · simp
  · simp [Move.Resumes]
  · simp

theorem vacate {gone closing : Set P} {lapsed : Set N} {now : T} (h : Tenure p n later x)
    (hheld : HeldBy gone x) :
    Tenure p n (later ++ [.sweep gone closing lapsed now]) (x.vacate now) := by
  have hquiet : Tenure p n (later ++ [.sweep gone closing lapsed now]) x :=
    h.quiet (by simp [Move.Takes]) (by simp [Move.Resumes])
  by_cases hfresh : x.mode = .fresh
  · have hvacate : x.vacate now = { x with holder := none, mode := .vacant, since := now } := by
      rw [Seat.vacate, if_pos hfresh]
    have hresumed := hquiet.resumed
    rw [hfresh] at hresumed
    rw [hvacate]
    constructor
    · exact hquiet.untaken
    · simp
    · rw [← hresumed]
      simp
    · intro _
      obtain ⟨q, hq, hholder⟩ := hheld
      rw [h.fresh hfresh, Option.some.injEq] at hholder
      exact ⟨_, List.mem_append_right _ (List.mem_singleton_self _), gone, closing, lapsed, now,
        rfl, hholder ▸ hq⟩
  · have hvacate : x.vacate now = { x with holder := none } := by
      rw [Seat.vacate, if_neg hfresh]
    rw [hvacate]
    exact ⟨hquiet.untaken, fun hmode => absurd hmode hfresh, hquiet.resumed, hquiet.left⟩

end Tenure

open Classical in
/-- Every seat there is was taken by somebody, under the key that it has, and what happened to
it since then is its tenure. -/
theorem Moves.tenure (h : Moves moves m) (hx : m.seat n = some x) :
    ∃ before p now later, moves = before ++ .take p n x.key now :: later ∧
      Tenure p n later x := by
  induction h generalizing x with
  | start => simp [empty] at hx
  | @next moves m move _ henabled ih =>
      -- the seat was there before, and the last move comes behind all that is known of it
      have hkept : ∀ {y : Seat P K T}, m.seat n = some y → x.key = y.key →
          (∀ {p later}, Tenure p n later y → Tenure p n (later ++ [move]) x) →
          ∃ before p now later, moves ++ [move] = before ++ .take p n x.key now :: later ∧
            Tenure p n later x := by
        intro y hy hkey hextend
        obtain ⟨before, p, now, later, rfl, htenure⟩ := ih hy
        refine ⟨before, p, now, later ++ [move], ?_, hextend htenure⟩
        rw [hkey, List.append_assoc, List.cons_append]
      cases move with
      | arrive q =>
          exact hkept hx rfl fun htenure =>
            htenure.quiet (by simp [Move.Takes]) (by simp [Move.Resumes])
      | take q n' key now =>
          by_cases hn : n = n'
          · subst hn
            simp only [apply, Function.update_self, Option.some.injEq] at hx
            subst hx
            exact ⟨moves, q, now, [], rfl, tenure_take key now⟩
          · simp only [apply, Function.update_of_ne hn] at hx
            exact hkept hx rfl fun htenure =>
              htenure.quiet (by simp [Move.Takes, Ne.symm hn]) (by simp [Move.Resumes])
      | resume q n' since =>
          by_cases hn : n = n'
          · subst hn
            simp only [apply, Function.update_self, Option.map_eq_some_iff] at hx
            obtain ⟨y, hy, rfl⟩ := hx
            exact hkept hy rfl fun htenure => htenure.resume q since
          · simp only [apply, Function.update_of_ne hn] at hx
            exact hkept hx rfl fun htenure =>
              htenure.quiet (by simp [Move.Takes]) (by simp [Move.Resumes, Ne.symm hn])
      | sweep gone closing lapsed now =>
          obtain ⟨-, y, hy, ⟨hheld, rfl⟩ | ⟨-, rfl⟩⟩ := seat_sweep hx
          · have hkey : (y.vacate now).key = y.key := by
              unfold Seat.vacate
              split_ifs <;> rfl
            exact hkept hy hkey fun htenure => htenure.vacate hheld
          · exact hkept hy rfl fun htenure =>
              htenure.quiet (by simp [Move.Takes]) (by simp [Move.Resumes])

end Membership

end TChat.Lib
