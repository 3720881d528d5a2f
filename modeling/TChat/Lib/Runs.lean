import Mathlib
/-!
# Runs of a deterministic machine with inputs

A machine is a function `step : ι → σ → Except ε σ`: it takes an input and a
state to the next state, or stops with a fault.  A `Run` is a finite sequence
of successful steps together with its history, the list of transitions taken.
Statements about "every reachable state" quantify over runs, and statements
about what happened before quantify over the history.
-/

namespace TChat.Lib

/-- One step of a machine: the state before, the input, the state after. -/
structure Transition (σ ι : Type) where
  pre : σ
  input : ι
  post : σ

inductive Run {σ ι ε : Type} (step : ι → σ → Except ε σ) (start : σ) :
    List (Transition σ ι) → σ → Prop
  | start : Run step start [] start
  | next {history : List (Transition σ ι)} {s s' : σ} {i : ι} :
      Run step start history s → step i s = .ok s' →
      Run step start (history ++ [⟨s, i, s'⟩]) s'

namespace Run

variable {σ ι ε : Type} {step : ι → σ → Except ε σ} {start : σ}

/-- The induction principle behind every invariant: the step may assume that
the state it starts from was reached, and a condition met by every transition
of the run. -/
theorem invariant_of (condition : Transition σ ι → Prop)
    (invariant : List (Transition σ ι) → σ → Prop)
    (hstart : invariant [] start)
    (hstep : ∀ {history s s' i}, Run step start history s →
      invariant history s → step i s = .ok s' → condition ⟨s, i, s'⟩ →
      invariant (history ++ [⟨s, i, s'⟩]) s')
    {history : List (Transition σ ι)} {s : σ} (hrun : Run step start history s)
    (hcondition : ∀ t ∈ history, condition t) : invariant history s := by
  induction hrun with
  | start => exact hstart
  | next hrun hs ih =>
      have hlast := hcondition _ (List.mem_append_right _ (List.mem_singleton_self _))
      have hbefore := ih fun t ht => hcondition t (List.mem_append_left _ ht)
      exact hstep hrun hbefore hs hlast

/-- What holds at the start and is kept by every step holds after every run. -/
theorem invariant {invariant : σ → Prop} (hstart : invariant start)
    (hstep : ∀ {s s' i}, invariant s → step i s = .ok s' → invariant s')
    {history : List (Transition σ ι)} {s : σ} (hrun : Run step start history s) :
    invariant s :=
  invariant_of (fun _ => True) (fun _ s => invariant s)
    hstart (fun _ hi hs _ => hstep hi hs) hrun (fun _ _ => trivial)

theorem transition {history : List (Transition σ ι)} {s : σ}
    (hrun : Run step start history s) {t : Transition σ ι} (ht : t ∈ history) :
    step t.input t.pre = .ok t.post ∧ ∃ before, Run step start before t.pre := by
  induction hrun with
  | start => simp at ht
  | next hrun hs ih =>
      rcases List.mem_append.mp ht with hold | hnew
      · exact ih hold
      · rw [List.mem_singleton] at hnew
        subst hnew
        exact ⟨hs, _, hrun⟩

theorem append {middle s : σ} {before after : List (Transition σ ι)}
    (hbefore : Run step start before middle) (hafter : Run step middle after s) :
    Run step start (before ++ after) s := by
  induction hafter with
  | start => simpa using hbefore
  | next _ hs ih => simpa [List.append_assoc] using ih.next hs

theorem last {history : List (Transition σ ι)} {t : Transition σ ι} {s : σ}
    (hrun : Run step start (history ++ [t]) s) :
    Run step start history t.pre ∧ step t.input t.pre = .ok t.post ∧ s = t.post := by
  generalize hwhole : history ++ [t] = whole at hrun
  cases hrun with
  | start => simp at hwhole
  | next hrun hs =>
      obtain ⟨rfl, hlast⟩ := List.append_inj' hwhole rfl
      obtain rfl := List.singleton_injective hlast
      exact ⟨hrun, hs, rfl⟩

theorem split {before after : List (Transition σ ι)} {t : Transition σ ι} {s : σ}
    (hrun : Run step start (before ++ t :: after) s) :
    Run step start before t.pre ∧ step t.input t.pre = .ok t.post ∧ Run step t.post after s := by
  induction after using List.reverseRecOn generalizing s with
  | nil =>
      obtain ⟨hbefore, hs, rfl⟩ := hrun.last
      exact ⟨hbefore, hs, .start⟩
  | append_singleton after last ih =>
      rw [← List.cons_append, ← List.append_assoc] at hrun
      obtain ⟨hinit, hs, rfl⟩ := hrun.last
      obtain ⟨hbefore, ht, hafter⟩ := ih hinit
      exact ⟨hbefore, ht, hafter.next hs⟩

/-- A machine whose steps are steps of another runs like it. -/
theorem map {σ' ι' ε' : Type} {step' : ι' → σ' → Except ε' σ'} (f : σ → σ') (g : σ → ι → ι')
    (h : ∀ {i s s'}, step i s = .ok s' → step' (g s i) (f s) = .ok (f s'))
    {history : List (Transition σ ι)} {s : σ} (hrun : Run step start history s) :
    Run step' (f start) (history.map fun t => ⟨f t.pre, g t.pre t.input, f t.post⟩) (f s) := by
  induction hrun with
  | start => exact .start
  | next _ hs ih =>
      rw [List.map_append, List.map_singleton]
      exact ih.next (h hs)

def execute (step : ι → σ → Except ε σ) :
    List ι → σ → Except ε (List (Transition σ ι) × σ)
  | [], s => .ok ([], s)
  | i :: inputs, s =>
      match step i s with
      | .error e => .error e
      | .ok s' =>
          match execute step inputs s' with
          | .error e => .error e
          | .ok (history, final) => .ok (⟨s, i, s'⟩ :: history, final)

theorem of_execute {inputs : List ι} {s final : σ} {history : List (Transition σ ι)}
    (h : execute step inputs s = .ok (history, final)) : Run step s history final := by
  induction inputs generalizing s history with
  | nil =>
      simp only [execute, Except.ok.injEq, Prod.mk.injEq] at h
      obtain ⟨rfl, rfl⟩ := h
      exact .start
  | cons i inputs ih =>
      unfold execute at h
      cases hs : step i s with
      | error e => simp [hs] at h
      | ok s' =>
          cases htail : execute step inputs s' with
          | error e => simp [hs, htail] at h
          | ok rest =>
              obtain ⟨after, last⟩ := rest
              simp only [hs, htail, Except.ok.injEq, Prod.mk.injEq] at h
              obtain ⟨rfl, rfl⟩ := h
              have hfirst : Run step s [⟨s, i, s'⟩] s' := Run.start.next hs
              exact hfirst.append (ih htail)

theorem inputs_of_execute {inputs : List ι} {s final : σ}
    {history : List (Transition σ ι)} (h : execute step inputs s = .ok (history, final)) :
    history.map (·.input) = inputs := by
  induction inputs generalizing s history with
  | nil =>
      simp only [execute, Except.ok.injEq, Prod.mk.injEq] at h
      rw [← h.1, List.map_nil]
  | cons i inputs ih =>
      unfold execute at h
      cases hs : step i s with
      | error e => simp [hs] at h
      | ok s' =>
          cases htail : execute step inputs s' with
          | error e => simp [hs, htail] at h
          | ok rest =>
              obtain ⟨after, last⟩ := rest
              simp only [hs, htail, Except.ok.injEq, Prod.mk.injEq] at h
              obtain ⟨rfl, rfl⟩ := h
              rw [List.map_cons, ih htail]

def reaches (step : ι → σ → Except ε σ) (inputs : List ι) (s : σ)
    (p : List (Transition σ ι) → σ → Bool) : Bool :=
  match execute step inputs s with
  | .ok (history, final) => p history final
  | .error _ => false

/-- A computation that ends in a state with property `p` is a run over its inputs. -/
theorem exists_of_execute_inputs (step : ι → σ → Except ε σ) (inputs : List ι) (s : σ)
    (p : List (Transition σ ι) → σ → Bool)
    (h : reaches step inputs s p = true) :
    ∃ history final, Run step s history final ∧ history.map (·.input) = inputs ∧
      p history final = true := by
  unfold reaches at h
  cases hexec : execute step inputs s with
  | error e => simp [hexec] at h
  | ok result =>
      obtain ⟨history, final⟩ := result
      rw [hexec] at h
      exact ⟨history, final, of_execute hexec, inputs_of_execute hexec, h⟩

theorem exists_of_execute (step : ι → σ → Except ε σ) (inputs : List ι) (s : σ)
    (p : List (Transition σ ι) → σ → Bool)
    (h : reaches step inputs s p = true) :
    ∃ history final, Run step s history final ∧ p history final = true := by
  obtain ⟨history, final, hrun, _, hp⟩ := exists_of_execute_inputs step inputs s p h
  exact ⟨history, final, hrun, hp⟩

end Run

end TChat.Lib
