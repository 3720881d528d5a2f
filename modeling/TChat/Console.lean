import TChat.Client.Io
import TChat.Lib.LineEditor
/-!
# The console

`read_console_input` of both programs, called again and again on what `wgetch` returns.
-/

namespace TChat

open TChat.Common TChat.Lib

def words (line : Bytes) : List Bytes := (line.splitOnP Server.isSpace).filter (· ≠ [])

def isEnter (key : Int) : Bool := key = 10 ∨ key = 13 ∨ key = Server.keyEnter

/-- What a key does to the line: it takes a character back, adds one or does nothing. -/
def editLine (line : Bytes) (key : Int) : Bytes :=
  if key = Server.keyBackspace ∨ key = 127 ∨ key = 8 then line.dropLast
  else if 0 ≤ key ∧ key ≤ 255 ∧ Server.isPrint (UInt8.ofNat key.toNat) then
    if line.length < Server.maxInputLength then line ++ [UInt8.ofNat key.toNat] else line
  else line

def typedLines (keys : List Int) : List Bytes :=
  ((keys.filter (· ≠ Server.keyErr)).splitOnP isEnter).dropLast.map (·.foldl editLine [])

/-- The calls of `read_console_input` that take what `wgetch` returns never fail, keep the
input buffer short and give the results of the typed lines. -/
def ReadsConsole {ρ : Type} (editor : LineEditor Int Bytes ρ) (lineResult : Bytes → Option ρ)
    (keys : List Int) : Prop :=
  ∃ calls, editor.calls keys [] = some calls ∧
    (∀ call ∈ calls, call.2.length ≤ Server.maxInputLength) ∧
    calls.filterMap (·.1) = (typedLines keys).filterMap lineResult

/-- No line is typed that is not empty but blank. -/
def NoBlankLine (keys : List Int) : Prop :=
  ∀ line ∈ typedLines keys, line ≠ [] → ∃ byte ∈ line, Server.isSpace byte = false

namespace Server

/-- `read_console_input` of the server. -/
def lineEditor : LineEditor Int Bytes ConsoleInputResult where
  pause key := key = keyErr
  enter := isEnter
  edit := editLine
  blank := []
  skip line := line = []
  finish line := (classifyLine line).toOption

def usage (command : Bytes) : Bytes :=
  if command = literal "/quit" then literal "Usage: /quit"
  else if command = literal "/kick" then literal "Usage: /kick <username>"
  else literal "Unknown command: " ++ command

def lineResult (line : Bytes) : Option ConsoleInputResult :=
  match words line with
  | [] => none
  | command :: arguments =>
      if command.head? ≠ some 0x2F then some ⟨.message, line⟩
      else
        match arguments with
        | [] =>
            if command = literal "/quit" then some ⟨.quit, []⟩
            else some ⟨.invalidCommand, usage command⟩
        | [username] =>
            if command = literal "/kick" then some ⟨.kickClient, username⟩
            else some ⟨.invalidCommand, usage command⟩
        | _ => some ⟨.invalidCommand, usage command⟩

end Server

namespace Client

/-- `read_console_input` of the client. -/
def lineEditor : LineEditor Int Bytes ConsoleInputResult where
  pause key := key = Server.keyErr
  enter := isEnter
  edit := editLine
  blank := []
  skip line := line = []
  finish := classifyLine

def usage (command : Bytes) : Bytes :=
  if command = literal "/quit" then literal "Usage: /quit"
  else literal "Unknown command: " ++ command

def lineResult (line : Bytes) : Option ConsoleInputResult :=
  match words line with
  | [] => none
  | command :: arguments =>
      if command.head? ≠ some 0x2F then some ⟨.message, line⟩
      else if command = literal "/quit" ∧ arguments = [] then some ⟨.quit, []⟩
      else some ⟨.invalidCommand, usage command⟩

end Client

/-! ## Words -/

section

variable {line rest word : Bytes} {byte : UInt8}

theorem words_nil : words [] = [] := rfl

theorem words_space (h : Server.isSpace byte = true) (line : Bytes) :
    words (byte :: line) = words line := by
  rw [words, List.splitOnP_cons_eq_if_modifyHead, if_pos h, List.filter_cons_of_neg (by simp),
    ← words]

theorem words_dropWhile (line : Bytes) : words (line.dropWhile Server.isSpace) = words line := by
  induction line with
  | nil => rfl
  | cons byte line ih =>
      cases hspace : Server.isSpace byte with
      | true => rw [List.dropWhile_cons_of_pos hspace, ih, words_space hspace]
      | false => rw [List.dropWhile_cons_of_neg (by simp [hspace])]

theorem words_append (hword : ∀ byte ∈ word, Server.isSpace byte = false) (hne : word ≠ [])
    (hrest : ∀ byte ∈ rest.head?, Server.isSpace byte = true) :
    words (word ++ rest) = word :: words rest := by
  cases rest with
  | nil =>
      rw [List.append_nil, words, List.splitOnP_eq_singleton hword,
        List.filter_cons_of_pos (by simpa using hne), words_nil]
      rfl
  | cons byte rest =>
      have hspace : Server.isSpace byte = true := hrest byte rfl
      rw [words_space hspace, words, List.splitOnP_append_cons_of_forall_mem hword _ hspace,
        List.filter_cons_of_pos (by simpa using hne), ← words]

theorem words_of_nextWord (h : Server.nextWord line = some (word, rest)) :
    word ≠ [] ∧ words line = word :: words rest := by
  unfold Server.nextWord at h
  dsimp only at h
  split_ifs at h with htext
  simp only [Option.some.injEq, Prod.mk.injEq] at h
  obtain ⟨rfl, rfl⟩ := h
  have hhead := List.head_dropWhile_not Server.isSpace htext
  have hne : (line.dropWhile Server.isSpace).takeWhile (!Server.isSpace ·) ≠ [] := by
    rw [← List.cons_head_tail htext, List.takeWhile_cons_of_pos (by simpa using hhead)]
    exact List.cons_ne_nil _ _
  refine ⟨hne, ?_⟩
  rw [← words_append _ hne _, List.takeWhile_append_dropWhile, words_dropWhile]
  · intro byte hbyte
    simpa using List.mem_takeWhile_imp hbyte
  · intro byte hbyte
    have hend := List.head?_dropWhile_not (!Server.isSpace ·) (line.dropWhile Server.isSpace)
    rw [Option.mem_def] at hbyte
    rw [hbyte] at hend
    simpa using hend

theorem words_eq_nil_iff : words line = [] ↔ Server.nextWord line = none := by
  constructor
  · intro h
    cases hnext : Server.nextWord line with
    | none => rfl
    | some next =>
        obtain ⟨word, rest⟩ := next
        rw [(words_of_nextWord hnext).2] at h
        cases h
  · intro h
    unfold Server.nextWord at h
    dsimp only at h
    split_ifs at h with htext
    rw [← words_dropWhile, htext, words_nil]

theorem words_eq_nil_iff_blank : words line = [] ↔ ∀ byte ∈ line, Server.isSpace byte = true := by
  rw [words_eq_nil_iff, Server.nextWord, ← List.dropWhile_eq_nil_iff]
  simp

theorem nextWord_isSome_iff : (Server.nextWord line).isSome = true ↔ words line ≠ [] := by
  rw [ne_eq, words_eq_nil_iff, Option.isSome_iff_ne_none]

/-! ## A line -/

theorem Server.classifyLine_quit {input : Bytes}
    (hnext : Server.nextWord line = some (literal "/quit", input)) :
    (Server.classifyLine line).toOption = Server.lineResult line := by
  have hslash : (literal "/quit").head? = some 0x2F := rfl
  have hkick : literal "/quit" ≠ literal "/kick" := by decide
  unfold Server.classifyLine Server.lineResult
  rw [hnext, (words_of_nextWord hnext).2]
  dsimp only [Option.getD_some]
  rw [if_pos rfl, if_neg (not_not.mpr hslash)]
  cases harguments : words input with
  | nil =>
      rw [if_neg (mt nextWord_isSome_iff.mp (not_not.mpr harguments))]
      rfl
  | cons first more =>
      rw [if_pos (nextWord_isSome_iff.mpr (by simp [harguments]))]
      cases more with
      | nil => simp only [hkick, if_false, usage, if_true]; rfl
      | cons second more => simp only [usage, if_true]; rfl

theorem Server.classifyLine_kick {input : Bytes}
    (hnext : Server.nextWord line = some (literal "/kick", input)) :
    (Server.classifyLine line).toOption = Server.lineResult line := by
  have hslash : (literal "/kick").head? = some 0x2F := rfl
  have hquit : literal "/kick" ≠ literal "/quit" := by decide
  unfold Server.classifyLine Server.lineResult
  rw [hnext, (words_of_nextWord hnext).2]
  dsimp only [Option.getD_some]
  rw [if_neg hquit, if_pos rfl, if_neg (not_not.mpr hslash)]
  cases hargument : Server.nextWord input with
  | none =>
      rw [words_eq_nil_iff.mpr hargument]
      simp only [hquit, if_false, usage, if_true]
      rfl
  | some next =>
      obtain ⟨username, input⟩ := next
      obtain ⟨-, hwords⟩ := words_of_nextWord hargument
      rw [hwords]
      cases harguments : words input with
      | nil =>
          dsimp only
          rw [if_neg (mt nextWord_isSome_iff.mp (not_not.mpr harguments)), if_pos rfl]
          rfl
      | cons second more =>
          dsimp only
          rw [if_pos (nextWord_isSome_iff.mpr (by simp [harguments]))]
          simp only [usage, hquit, if_false, if_true]
          rfl

theorem Server.classifyLine_eq (line : Bytes) :
    (Server.classifyLine line).toOption = Server.lineResult line := by
  cases hnext : Server.nextWord line with
  | none =>
      unfold Server.classifyLine Server.lineResult
      rw [hnext, words_eq_nil_iff.mpr hnext]
      rfl
  | some next =>
      obtain ⟨command, input⟩ := next
      by_cases hquit : command = literal "/quit"
      · subst hquit
        exact Server.classifyLine_quit hnext
      · by_cases hkick : command = literal "/kick"
        · subst hkick
          exact Server.classifyLine_kick hnext
        · obtain ⟨hne, hwords⟩ := words_of_nextWord hnext
          unfold Server.classifyLine Server.lineResult
          rw [hnext, hwords]
          dsimp only [Option.getD_some]
          rw [if_neg hquit, if_neg hkick]
          cases command with
          | nil => exact absurd rfl hne
          | cons front command =>
              by_cases hfront : front = 0x2F
              · subst hfront
                simp only [List.head?_cons, ne_eq, not_true_eq_false, if_false, if_true, hquit,
                  hkick, usage]
                split <;> rfl
              · have hhead : (front :: command).head? ≠ some 0x2F := by simpa using hfront
                rw [if_pos hhead]
                dsimp only
                rw [if_neg hfront]
                rfl

theorem Client.classifyLine_eq (line : Bytes) :
    Client.classifyLine line = Client.lineResult line := by
  unfold Client.classifyLine Client.lineResult
  cases hnext : Server.nextWord line with
  | none =>
      rw [words_eq_nil_iff.mpr hnext]
      rfl
  | some next =>
      obtain ⟨command, input⟩ := next
      obtain ⟨hne, hwords⟩ := words_of_nextWord hnext
      rw [hwords]
      dsimp only [Option.getD_some]
      by_cases hquit : command = literal "/quit"
      · subst hquit
        have hslash : (literal "/quit").head? = some 0x2F := rfl
        rw [if_pos rfl, if_neg (not_not.mpr hslash)]
        by_cases harguments : words input = []
        · rw [if_neg (mt nextWord_isSome_iff.mp (not_not.mpr harguments)),
            if_pos ⟨rfl, harguments⟩]
        · rw [if_pos (nextWord_isSome_iff.mpr harguments), if_neg fun h => harguments h.2, usage,
            if_pos rfl]
      · rw [if_neg hquit]
        cases command with
        | nil => exact absurd rfl hne
        | cons front command =>
            by_cases hfront : front = 0x2F
            · subst hfront
              have hslash : (0x2F :: command : Bytes).head? = some 0x2F := rfl
              rw [if_neg (not_not.mpr hslash), if_neg fun h => hquit h.1, usage, if_neg hquit]
              rfl
            · have hhead : (front :: command).head? ≠ some 0x2F := by simpa using hfront
              rw [if_pos hhead]
              exact if_neg hfront

theorem Server.lineResult_eq_none_iff : Server.lineResult line = none ↔ words line = [] := by
  unfold Server.lineResult
  cases words line with
  | nil => exact iff_of_true rfl rfl
  | cons command arguments =>
      apply iff_of_false _ (List.cons_ne_nil _ _)
      dsimp only
      repeat' split
      all_goals exact Option.some_ne_none _

theorem Client.lineResult_eq_none_iff : Client.lineResult line = none ↔ words line = [] := by
  unfold Client.lineResult
  cases words line with
  | nil => exact iff_of_true rfl rfl
  | cons command arguments =>
      apply iff_of_false _ (List.cons_ne_nil _ _)
      dsimp only
      repeat' split
      all_goals exact Option.some_ne_none _

theorem length_editLine (line : Bytes) (key : Int) (h : line.length ≤ Server.maxInputLength) :
    (editLine line key).length ≤ Server.maxInputLength := by
  unfold editLine
  split_ifs
  · rw [List.length_dropLast]
    omega
  · rw [List.length_append, List.length_singleton]
    omega
  · exact h
  · exact h

end

/-! ## Calls -/

section

variable {keys : List Int} {buffer : Bytes}

theorem Server.readConsoleInput_eq (keys : List Int) (buffer : Bytes) :
    (Server.readConsoleInput keys buffer).toOption =
      (Server.lineEditor.call keys buffer).map fun (result, line, _) =>
        (result.getD ⟨.noInput, []⟩, line) := by
  induction keys generalizing buffer with
  | nil => rfl
  | cons key keys ih =>
      unfold Server.readConsoleInput LineEditor.call
      simp only [Server.lineEditor, decide_eq_true_eq, isEnter, editLine] at ih ⊢
      split_ifs with herr henter hempty
      · rfl
      · exact ih []
      · cases Server.classifyLine buffer <;> rfl
      all_goals exact ih _

theorem Client.readConsoleInput_eq (keys : List Int) (buffer : Bytes) :
    Client.readConsoleInput keys buffer =
      (Client.lineEditor.call keys buffer).map fun (result, line, _) =>
        (result.getD ⟨.noInput, []⟩, line) := by
  induction keys generalizing buffer with
  | nil => rfl
  | cons key keys ih =>
      unfold Client.readConsoleInput LineEditor.call
      simp only [Client.lineEditor, decide_eq_true_eq, isEnter, editLine] at ih ⊢
      split_ifs with herr henter hempty
      · rfl
      · exact ih []
      · cases Client.classifyLine buffer <;> rfl
      all_goals exact ih _

/-- What both consoles have in common: they skip an empty line, and fail on one without a
word. -/
theorem readsConsole_iff {ρ : Type} {editor : LineEditor Int Bytes ρ}
    {lineResult : Bytes → Option ρ} (hblank : editor.blank = []) (hedit : editor.edit = editLine)
    (hlines : editor.lines keys = typedLines keys)
    (hskip : ∀ line, editor.skip line = decide (line = []))
    (hfinish : ∀ line, editor.finish line = lineResult line)
    (hnone : ∀ line, lineResult line = none ↔ words line = []) :
    ReadsConsole editor lineResult keys ↔ NoBlankLine keys := by
  have hfails (line : Bytes) :
      ¬editor.Fails line ↔ (line ≠ [] → ∃ byte ∈ line, Server.isSpace byte = false) := by
    rw [LineEditor.Fails, hskip, hfinish, hnone, words_eq_nil_iff_blank]
    simp
  have houtcome (line : Bytes) : editor.outcome line = lineResult line := by
    rw [LineEditor.outcome, hskip, hfinish]
    by_cases hempty : line = []
    · rw [hempty, (hnone []).mpr words_nil, ite_self]
    · rw [if_neg (by simpa using hempty)]
  have hsome : (∃ calls, editor.calls keys [] = some calls) ↔ NoBlankLine keys := by
    rw [← hblank, LineEditor.calls_isSome_iff, hlines, NoBlankLine]
    exact forall₂_congr fun line _ => hfails line
  rw [← hsome]
  constructor
  · intro h
    obtain ⟨calls, hcalls, -⟩ := h
    exact ⟨calls, hcalls⟩
  · intro h
    obtain ⟨calls, hcalls⟩ := h
    rw [← hblank] at hcalls
    refine ⟨calls, by rwa [hblank] at hcalls, ?_, ?_⟩
    · have hkept (line : Bytes) (key : Int) (h : line.length ≤ Server.maxInputLength) :
          (editor.edit line key).length ≤ Server.maxInputLength := by
        rw [hedit]
        exact length_editLine line key h
      have hstart : editor.blank.length ≤ Server.maxInputLength := by
        rw [hblank]
        exact Nat.zero_le _
      exact LineEditor.invariant_of_calls hstart hkept hstart hcalls
    · rw [LineEditor.results_of_calls hcalls, hlines]
      exact List.filterMap_congr fun line _ => houtcome line

/-- Both consoles read what is typed, however it is spread over their calls, if and only if
no line is typed of which only blanks are left. -/
theorem consoles_read (keys : List Int) :
    (ReadsConsole Server.lineEditor Server.lineResult keys ↔ NoBlankLine keys) ∧
      (ReadsConsole Client.lineEditor Client.lineResult keys ↔ NoBlankLine keys) := by
  have hpauses : (fun key : Int => decide (key ≠ Server.keyErr)) =
      fun key => !decide (key = Server.keyErr) := by
    funext key
    rw [decide_not]
  constructor
  · exact readsConsole_iff rfl rfl (by rw [typedLines, hpauses]; rfl) (fun _ => rfl)
      Server.classifyLine_eq fun _ => Server.lineResult_eq_none_iff
  · exact readsConsole_iff rfl rfl (by rw [typedLines, hpauses]; rfl) (fun _ => rfl)
      Client.classifyLine_eq fun _ => Client.lineResult_eq_none_iff

/-- A blank and Enter. -/
theorem blank_line_fails :
    ¬∀ keys, ReadsConsole Server.lineEditor Server.lineResult keys ∧
      ReadsConsole Client.lineEditor Client.lineResult keys := by
  intro h
  obtain ⟨calls, hcalls, -⟩ := (h [32, 10]).1
  have hline : [32] ∈ Server.lineEditor.lines [32, 10] := by decide
  exact LineEditor.calls_isSome_iff.mp ⟨calls, hcalls⟩ _ hline ⟨rfl, rfl⟩

end

end TChat
