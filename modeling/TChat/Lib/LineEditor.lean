import Mathlib
/-!
# Line editors

A function is called again and again and takes keys from a queue.  It goes on with the
line of the call before, and returns at a pause, or at an enter that finishes a line
which it does not skip.  However the pauses cut the keys into calls, the results are those
of the lines between the enters.
-/

namespace TChat.Lib

/-- What the function does at a key.  `finish` is what it makes of a finished line, `none`
if it fails. -/
structure LineEditor (κ σ ρ : Type) where
  pause : κ → Bool
  enter : κ → Bool
  edit : σ → κ → σ
  blank : σ
  skip : σ → Bool
  finish : σ → Option ρ

namespace LineEditor

variable {κ σ ρ : Type} (editor : LineEditor κ σ ρ)

/-- One call: the result, the line it leaves and the keys it has not taken. -/
def call : List κ → σ → Option (Option ρ × σ × List κ)
  | [], line => some (none, line, [])
  | key :: keys, line =>
      if editor.pause key then some (none, line, keys)
      else if editor.enter key then
        if editor.skip line then call keys editor.blank
        else (editor.finish line).map fun result => (some result, editor.blank, keys)
      else call keys (editor.edit line key)

variable {editor} {keys rest : List κ} {line line' : σ} {key : κ} {result : Option ρ}

theorem length_rest (h : editor.call keys line = some (result, line', rest)) :
    rest.length ≤ keys.length - 1 := by
  induction keys generalizing line with
  | nil =>
      simp only [call, Option.some.injEq, Prod.mk.injEq] at h
      simp [← h.2.2]
  | cons key keys ih =>
      have hshorter : keys.length - 1 ≤ (key :: keys).length - 1 := by
        rw [List.length_cons]
        omega
      unfold call at h
      split_ifs at h
      · simp only [Option.some.injEq, Prod.mk.injEq] at h
        simp [h.2.2]
      · exact (ih h).trans hshorter
      · obtain ⟨outcome, -, heq⟩ := Option.map_eq_some_iff.mp h
        simp only [Prod.mk.injEq] at heq
        simp [heq.2.2]
      · exact (ih h).trans hshorter

def calls (editor : LineEditor κ σ ρ) (keys : List κ) (line : σ) :
    Option (List (Option ρ × σ)) :=
  match keys with
  | [] => some []
  | key :: keys =>
      match h : editor.call (key :: keys) line with
      | none => none
      | some (result, line', rest) =>
          have : rest.length ≤ keys.length := length_rest h
          (editor.calls rest line').map ((result, line') :: ·)
termination_by keys.length

/-- The lines between the enters.  Pauses do not count. -/
def lines (editor : LineEditor κ σ ρ) (keys : List κ) : List σ :=
  ((keys.filter (!editor.pause ·)).splitOnP editor.enter).dropLast.map
    (·.foldl editor.edit editor.blank)

def outcome (editor : LineEditor κ σ ρ) (line : σ) : Option ρ :=
  if editor.skip line then none else editor.finish line

def Fails (editor : LineEditor κ σ ρ) (line : σ) : Prop :=
  editor.skip line = false ∧ editor.finish line = none

/-! ## One line after the other -/

/-- The lines that the keys finish after `line` has been begun. -/
def linesAfter (editor : LineEditor κ σ ρ) : List κ → σ → List σ
  | [], _ => []
  | key :: keys, line =>
      if editor.pause key then linesAfter editor keys line
      else if editor.enter key then line :: linesAfter editor keys editor.blank
      else linesAfter editor keys (editor.edit line key)

theorem linesAfter_pause (hpause : editor.pause key = true) (keys : List κ) (line : σ) :
    editor.linesAfter (key :: keys) line = editor.linesAfter keys line := by
  rw [linesAfter, if_pos hpause]

theorem linesAfter_enter (hpause : ¬editor.pause key = true) (henter : editor.enter key = true)
    (keys : List κ) (line : σ) :
    editor.linesAfter (key :: keys) line = line :: editor.linesAfter keys editor.blank := by
  rw [linesAfter, if_neg hpause, if_pos henter]

theorem linesAfter_edit (hpause : ¬editor.pause key = true) (henter : ¬editor.enter key = true)
    (keys : List κ) (line : σ) :
    editor.linesAfter (key :: keys) line = editor.linesAfter keys (editor.edit line key) := by
  rw [linesAfter, if_neg hpause, if_neg henter]

theorem linesAfter_splitOnP (keys : List κ) (line : σ) :
    ∃ piece pieces, (keys.filter (!editor.pause ·)).splitOnP editor.enter = piece :: pieces ∧
      editor.linesAfter keys line =
        (piece.foldl editor.edit line ::
          pieces.map (·.foldl editor.edit editor.blank)).dropLast := by
  induction keys generalizing line with
  | nil => exact ⟨[], [], List.splitOnP_nil, rfl⟩
  | cons key keys ih =>
      by_cases hpause : editor.pause key = true
      · obtain ⟨piece, pieces, hsplit, heq⟩ := ih line
        refine ⟨piece, pieces, ?_, ?_⟩
        · rw [List.filter_cons_of_neg (by simp [hpause]), hsplit]
        · rw [linesAfter_pause hpause, heq]
      · rw [List.filter_cons_of_pos (by simpa using hpause), List.splitOnP_cons_eq_if_modifyHead]
        by_cases henter : editor.enter key = true
        · obtain ⟨piece, pieces, hsplit, heq⟩ := ih editor.blank
          refine ⟨[], piece :: pieces, ?_, ?_⟩
          · rw [if_pos henter, hsplit]
          · rw [linesAfter_enter hpause henter, heq, List.foldl_nil, List.map_cons,
              List.dropLast_cons_cons]
        · obtain ⟨piece, pieces, hsplit, heq⟩ := ih (editor.edit line key)
          refine ⟨key :: piece, pieces, ?_, ?_⟩
          · rw [if_neg henter, hsplit, List.modifyHead_cons]
          · rw [linesAfter_edit hpause henter, heq, List.foldl_cons]

theorem linesAfter_blank (keys : List κ) :
    editor.linesAfter keys editor.blank = editor.lines keys := by
  obtain ⟨piece, pieces, hsplit, heq⟩ := @linesAfter_splitOnP _ _ _ editor keys editor.blank
  rw [heq, lines, hsplit, List.map_dropLast, List.map_cons]

/-! ## Calls -/

theorem linesAfter_of_call (h : editor.call keys line = some (result, line', rest)) :
    ∃ taken, editor.linesAfter keys line = taken ++ editor.linesAfter rest line' ∧
      (∀ l ∈ taken, ¬editor.Fails l) ∧ taken.filterMap editor.outcome = result.toList := by
  induction keys generalizing line with
  | nil =>
      simp only [call, Option.some.injEq, Prod.mk.injEq] at h
      obtain ⟨rfl, rfl, rfl⟩ := h
      exact ⟨[], by simp, by simp, rfl⟩
  | cons key keys ih =>
      unfold call at h
      split_ifs at h with hpause henter hskip
      · simp only [Option.some.injEq, Prod.mk.injEq] at h
        obtain ⟨rfl, rfl, rfl⟩ := h
        exact ⟨[], linesAfter_pause hpause _ _, by simp, rfl⟩
      · obtain ⟨taken, heq, hfine, hresults⟩ := ih h
        refine ⟨line :: taken, ?_, ?_, ?_⟩
        · rw [linesAfter_enter hpause henter, heq, List.cons_append]
        · intro l hl
          rcases List.mem_cons.mp hl with rfl | hl
          · exact fun hfails => by simp [hfails.1] at hskip
          · exact hfine l hl
        · rw [List.filterMap_cons_none (by rw [outcome, if_pos hskip]), hresults]
      · obtain ⟨made, hmade, heq⟩ := Option.map_eq_some_iff.mp h
        simp only [Prod.mk.injEq] at heq
        obtain ⟨rfl, rfl, rfl⟩ := heq
        refine ⟨[line], linesAfter_enter hpause henter _ _, ?_, ?_⟩
        · intro l hl
          rw [List.mem_singleton.mp hl]
          exact fun hfails => by simp [hfails.2] at hmade
        · have houtcome : editor.outcome line = some made := by rw [outcome, if_neg hskip, hmade]
          rw [List.filterMap_cons_some houtcome, List.filterMap_nil, Option.toList_some]
      · obtain ⟨taken, heq, hrest⟩ := ih h
        exact ⟨taken, by rw [linesAfter_edit hpause henter, heq], hrest⟩

theorem fails_of_call (h : editor.call keys line = none) :
    ∃ l ∈ editor.linesAfter keys line, editor.Fails l := by
  induction keys generalizing line with
  | nil => simp [call] at h
  | cons key keys ih =>
      unfold call at h
      split_ifs at h with hpause henter hskip
      · obtain ⟨l, hl, hfails⟩ := ih h
        rw [linesAfter_enter hpause henter]
        exact ⟨l, List.mem_cons_of_mem _ hl, hfails⟩
      · rw [linesAfter_enter hpause henter]
        have hfinish : editor.finish line = none := Option.map_eq_none_iff.mp h
        exact ⟨line, List.mem_cons_self, by simpa using hskip, hfinish⟩
      · rw [linesAfter_edit hpause henter]
        exact ih h

/-- A call fails if and only if it fails on the first line before a pause that it does not
skip. -/
theorem call_eq_none_iff : editor.call keys line = none ↔
    ∃ l, (editor.linesAfter (keys.takeWhile (!editor.pause ·)) line).find? (!editor.skip ·) =
      some l ∧ editor.finish l = none := by
  induction keys generalizing line with
  | nil => simp [call, linesAfter]
  | cons key keys ih =>
      unfold call
      by_cases hpause : editor.pause key = true
      · rw [if_pos hpause, List.takeWhile_cons_of_neg (by simp [hpause])]
        simp [linesAfter]
      · rw [if_neg hpause, List.takeWhile_cons_of_pos (by simpa using hpause)]
        by_cases henter : editor.enter key = true
        · rw [if_pos henter, linesAfter_enter hpause henter]
          by_cases hskip : editor.skip line = true
          · rw [if_pos hskip, ih, List.find?_cons_of_neg (by simp [hskip])]
          · rw [if_neg hskip, Option.map_eq_none_iff,
              List.find?_cons_of_pos (by simpa using hskip)]
            simp
        · rw [if_neg henter, linesAfter_edit hpause henter, ih]

theorem calls_spec (keys : List κ) (line : σ) :
    (editor.calls keys line = none → ∃ l ∈ editor.linesAfter keys line, editor.Fails l) ∧
      ∀ made, editor.calls keys line = some made →
        (∀ l ∈ editor.linesAfter keys line, ¬editor.Fails l) ∧
          made.filterMap (·.1) = (editor.linesAfter keys line).filterMap editor.outcome := by
  fun_induction editor.calls keys line with
  | case1 line => simp [linesAfter]
  | case2 line key keys h => simpa using fails_of_call h
  | case3 line key keys result line' rest h _ ih =>
      obtain ⟨taken, heq, hfine, hresults⟩ := linesAfter_of_call h
      rw [heq]
      constructor
      · intro hnone
        obtain ⟨l, hl, hfails⟩ := ih.1 (Option.map_eq_none_iff.mp hnone)
        exact ⟨l, List.mem_append_right _ hl, hfails⟩
      · intro made hmade
        obtain ⟨later, hlater, rfl⟩ := Option.map_eq_some_iff.mp hmade
        obtain ⟨hnone, hsame⟩ := ih.2 later hlater
        constructor
        · intro l hl
          rcases List.mem_append.mp hl with hl | hl
          · exact hfine l hl
          · exact hnone l hl
        · rw [List.filterMap_append, hresults, ← hsame]
          cases result <;> rfl

theorem calls_isSome_iff : (∃ made, editor.calls keys editor.blank = some made) ↔
    ∀ l ∈ editor.lines keys, ¬editor.Fails l := by
  rw [← linesAfter_blank]
  have hspec := @calls_spec _ _ _ editor keys editor.blank
  constructor
  · rintro ⟨made, hmade⟩
    exact (hspec.2 made hmade).1
  · intro hfine
    cases hcalls : editor.calls keys editor.blank with
    | none =>
        obtain ⟨l, hl, hfails⟩ := hspec.1 hcalls
        exact absurd hfails (hfine l hl)
    | some made => exact ⟨made, rfl⟩

/-- The results are those of the lines, however the pauses cut the keys. -/
theorem results_of_calls {made : List (Option ρ × σ)}
    (h : editor.calls keys editor.blank = some made) :
    made.filterMap (·.1) = (editor.lines keys).filterMap editor.outcome := by
  rw [← linesAfter_blank]
  exact ((calls_spec keys editor.blank).2 made h).2

/-! ## What every line satisfies -/

section

variable {invariant : σ → Prop} (hblank : invariant editor.blank)
  (hedit : ∀ line key, invariant line → invariant (editor.edit line key))

include hblank hedit

theorem invariant_of_call (hline : invariant line)
    (h : editor.call keys line = some (result, line', rest)) : invariant line' := by
  induction keys generalizing line with
  | nil =>
      simp only [call, Option.some.injEq, Prod.mk.injEq] at h
      rwa [← h.2.1]
  | cons key keys ih =>
      unfold call at h
      split_ifs at h
      · simp only [Option.some.injEq, Prod.mk.injEq] at h
        rwa [← h.2.1]
      · exact ih hblank h
      · obtain ⟨made, -, heq⟩ := Option.map_eq_some_iff.mp h
        simp only [Prod.mk.injEq] at heq
        rwa [← heq.2.1]
      · exact ih (hedit _ _ hline) h

theorem invariant_of_calls {made : List (Option ρ × σ)} (hline : invariant line)
    (h : editor.calls keys line = some made) : ∀ one ∈ made, invariant one.2 := by
  fun_induction editor.calls keys line generalizing made with
  | case1 line =>
      rw [← Option.some.inj h]
      simp
  | case2 line key keys hcall => simp at h
  | case3 line key keys result line' rest hcall _ ih =>
      obtain ⟨later, hlater, rfl⟩ := Option.map_eq_some_iff.mp h
      have hline' := invariant_of_call hblank hedit hline hcall
      intro one hone
      rcases List.mem_cons.mp hone with rfl | hone
      · exact hline'
      · exact ih hline' hlater one hone

end

end LineEditor

end TChat.Lib
