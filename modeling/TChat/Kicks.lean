import TChat.Console
import TChat.Server.SessionStates
/-!
# Kicking by name

A session is stored under whatever bytes the handshake packet had for a name, and the
operator names it as one word of the console.
-/

namespace TChat

open TChat.Common TChat.Lib TChat.Server

/-- The operator takes back what the line holds and types `/kick`, the name and Enter. -/
def kickKeys (s : ServerApp) (u : Bytes) : List Int :=
  List.replicate s.consoleInputBuffer.length keyBackspace ++ keysOf (literal "/kick " ++ u)

def isGraphic (byte : UInt8) : Bool := 0x21 ≤ byte ∧ byte ≤ 0x7E

section

variable {u word line buffer rest : Bytes} {keys : List Int} {byte : UInt8}

/-! ## Words of a line -/

theorem isGraphic_iff : isGraphic byte = true ↔ isPrint byte = true ∧ isSpace byte = false := by
  simp only [isGraphic, isPrint, isSpace, decide_eq_true_eq, decide_eq_false_iff_not,
    UInt8.le_iff_toNat_le, ← UInt8.toNat_inj, UInt8.toNat_ofNat]
  omega

theorem mem_splitOnP {α : Type} {p : α → Bool} {xs piece : List α} (h : piece ∈ xs.splitOnP p) :
    ∀ x ∈ piece, x ∈ xs ∧ p x = false := by
  induction xs generalizing piece with
  | nil =>
      rw [List.splitOnP_nil, List.mem_singleton] at h
      simp [h]
  | cons x xs ih =>
      rw [List.splitOnP_cons_eq_if_modifyHead] at h
      split_ifs at h with hx
      · rcases List.mem_cons.mp h with rfl | h
        · simp
        · exact fun y hy => ⟨List.mem_cons_of_mem _ (ih h y hy).1, (ih h y hy).2⟩
      · obtain ⟨first, more, hsplit⟩ := List.exists_cons_of_ne_nil (List.splitOnP_ne_nil p xs)
        rw [hsplit, List.modifyHead_cons] at h
        rw [hsplit] at ih
        rcases List.mem_cons.mp h with rfl | h
        · intro y hy
          rcases List.mem_cons.mp hy with rfl | hy
          · exact ⟨List.mem_cons_self, by simpa using hx⟩
          · have hold := ih List.mem_cons_self y hy
            exact ⟨List.mem_cons_of_mem _ hold.1, hold.2⟩
        · intro y hy
          have hold := ih (List.mem_cons_of_mem _ h) y hy
          exact ⟨List.mem_cons_of_mem _ hold.1, hold.2⟩

theorem mem_words (h : word ∈ words line) :
    word ≠ [] ∧ ∀ byte ∈ word, byte ∈ line ∧ isSpace byte = false := by
  obtain ⟨hmem, hne⟩ := List.mem_filter.mp h
  exact ⟨by simpa using hne, mem_splitOnP hmem⟩

theorem kicked_mem_words (h : Server.lineResult line = some ⟨.kickClient, u⟩) : u ∈ words line := by
  unfold Server.lineResult at h
  cases hwords : words line with
  | nil => simp [hwords] at h
  | cons command arguments =>
      rw [hwords] at h
      cases arguments with
      | nil =>
          dsimp only at h
          split_ifs at h <;> simp at h
      | cons first more =>
          cases more with
          | nil =>
              dsimp only at h
              split_ifs at h
              · simp at h
              · obtain rfl : first = u := by simpa using h
                exact List.mem_cons_of_mem _ List.mem_cons_self
              · simp at h
          | cons second more =>
              dsimp only at h
              split_ifs at h <;> simp at h

theorem words_kick (hne : u ≠ []) (hgraphic : ∀ byte ∈ u, isGraphic byte = true) :
    words (literal "/kick " ++ u) = [literal "/kick", u] := by
  have hspaces : ∀ byte ∈ u, isSpace byte = false :=
    fun byte hbyte => (isGraphic_iff.mp (hgraphic byte hbyte)).2
  calc
    words (literal "/kick " ++ u) = words (literal "/kick" ++ 0x20 :: u) := rfl
    _ = literal "/kick" :: words (0x20 :: u) :=
        words_append (by decide +kernel) (by decide) (by simp [isSpace])
    _ = literal "/kick" :: words (u ++ []) := by rw [words_space (by decide), List.append_nil]
    _ = [literal "/kick", u] := by rw [words_append hspaces hne (by simp), words_nil]

/-! ## Typing -/

theorem readConsoleInput_backspaces (keys : List Int) (buffer : Bytes) :
    readConsoleInput (List.replicate buffer.length keyBackspace ++ keys) buffer =
      readConsoleInput keys [] := by
  induction hlength : buffer.length generalizing buffer with
  | zero => rw [List.length_eq_zero_iff.mp hlength, List.replicate_zero, List.nil_append]
  | succ n ih =>
      have hkey :
          readConsoleInput (keyBackspace :: (List.replicate n keyBackspace ++ keys)) buffer =
            readConsoleInput (List.replicate n keyBackspace ++ keys) buffer.dropLast := rfl
      have hshorter : buffer.dropLast.length = n := by
        rw [List.length_dropLast, hlength, Nat.add_sub_cancel]
      rw [List.replicate_succ, List.cons_append, hkey, ih _ hshorter]

theorem readConsoleInput_key (keys : List Int) (hprint : isPrint byte = true)
    (hroom : buffer.length < maxInputLength) :
    readConsoleInput ((byte.toNat : Int) :: keys) buffer =
      readConsoleInput keys (buffer ++ [byte]) := by
  have hbounds : 0x20 ≤ byte.toNat ∧ byte.toNat ≤ 0x7E := by
    simpa [isPrint, UInt8.le_iff_toNat_le] using hprint
  have hbyte : UInt8.ofNat (byte.toNat : Int).toNat = byte := by
    rw [Int.toNat_natCast, UInt8.ofNat_toNat]
  have hprinting : (0 : Int) ≤ byte.toNat ∧ (byte.toNat : Int) ≤ 255 ∧
      isPrint (UInt8.ofNat (byte.toNat : Int).toNat) = true := by
    rw [hbyte]
    exact ⟨by omega, by omega, hprint⟩
  rw [readConsoleInput, if_neg (by unfold keyErr; omega), if_neg (by unfold keyEnter; omega),
    if_neg (by unfold keyBackspace; omega), if_pos hprinting, if_pos hroom, hbyte]

theorem readConsoleInput_printing {text : Bytes} (keys : List Int)
    (htext : ∀ byte ∈ text, isPrint byte = true)
    (hroom : buffer.length + text.length ≤ maxInputLength) :
    readConsoleInput (text.map (fun byte => (byte.toNat : Int)) ++ keys) buffer =
      readConsoleInput keys (buffer ++ text) := by
  induction text generalizing buffer with
  | nil => rw [List.map_nil, List.nil_append, List.append_nil]
  | cons byte text ih =>
      have hfirst : buffer.length < maxInputLength := by
        rw [List.length_cons] at hroom
        omega
      have hmore : (buffer ++ [byte]).length + text.length ≤ maxInputLength := by
        rw [List.length_append, List.length_singleton]
        rw [List.length_cons] at hroom
        omega
      rw [List.map_cons, List.cons_append,
        readConsoleInput_key _ (htext byte List.mem_cons_self) hfirst,
        ih (fun b hb => htext b (List.mem_cons_of_mem _ hb)) hmore, List.append_assoc,
        List.singleton_append]

theorem graphic_of_read (hbuffer : ∀ byte ∈ buffer, isPrint byte = true)
    (h : readConsoleInput keys buffer = .ok (⟨.kickClient, u⟩, rest)) :
    u ≠ [] ∧ ∀ byte ∈ u, isGraphic byte = true := by
  induction keys generalizing buffer with
  | nil => simp [readConsoleInput] at h
  | cons key keys ih =>
      unfold readConsoleInput at h
      split_ifs at h with herr henter hempty hback hprint hroom
      · simp at h
      · exact ih (by simp) h
      · have hline : Server.lineResult buffer = some ⟨.kickClient, u⟩ := by
          rw [← Server.classifyLine_eq]
          cases hclassified : classifyLine buffer with
          | error fault => simp [hclassified, Except.map] at h
          | ok result =>
              simp only [hclassified, Except.map, Except.ok.injEq, Prod.mk.injEq] at h
              rw [h.1]
              rfl
        obtain ⟨hne, hbytes⟩ := mem_words (kicked_mem_words hline)
        refine ⟨hne, fun byte hbyte => isGraphic_iff.mpr ?_⟩
        exact ⟨hbuffer byte (hbytes byte hbyte).1, (hbytes byte hbyte).2⟩
      · exact ih (fun byte hbyte => hbuffer byte (List.mem_of_mem_dropLast hbyte)) h
      · apply ih _ h
        intro byte hbyte
        rcases List.mem_append.mp hbyte with hold | hnew
        · exact hbuffer byte hold
        · rw [List.mem_singleton.mp hnew]
          exact hprint.2.2
      · exact ih hbuffer h
      · exact ih hbuffer h

theorem lineResult_kick (hne : u ≠ []) (hgraphic : ∀ byte ∈ u, isGraphic byte = true) :
    Server.lineResult (literal "/kick " ++ u) = some ⟨.kickClient, u⟩ := by
  have hslash : (literal "/kick").head? = some 0x2F := rfl
  unfold Server.lineResult
  rw [words_kick hne hgraphic]
  dsimp only
  rw [if_neg (not_not.mpr hslash), if_pos rfl]

theorem read_kickKeys (s : ServerApp) (hlength : u.length ≤ 1018) (hne : u ≠ [])
    (hgraphic : ∀ byte ∈ u, isGraphic byte = true) :
    readConsoleInput (kickKeys s u) s.consoleInputBuffer = .ok (⟨.kickClient, u⟩, []) := by
  have hprinting : ∀ byte ∈ literal "/kick " ++ u, isPrint byte = true := by
    intro byte hbyte
    rcases List.mem_append.mp hbyte with hcommand | hname
    · have hall : ∀ byte ∈ literal "/kick ", isPrint byte = true := by decide +kernel
      exact hall byte hcommand
    · exact (isGraphic_iff.mp (hgraphic byte hname)).1
  have hroom : ([] : Bytes).length + (literal "/kick " ++ u).length ≤ maxInputLength := by
    have hcommand : (literal "/kick ").length = 6 := by decide
    rw [List.length_append, hcommand, List.length_nil, maxInputLength]
    omega
  have hline : literal "/kick " ++ u ≠ [] := List.append_ne_nil_of_right_ne_nil _ hne
  have hclassified : classifyLine (literal "/kick " ++ u) = .ok ⟨.kickClient, u⟩ := by
    apply ok_of_toOption
    rw [Server.classifyLine_eq, lineResult_kick hne hgraphic]
  have henter : readConsoleInput [10] (literal "/kick " ++ u) =
      (classifyLine (literal "/kick " ++ u)).map fun result => (result, []) := by
    rw [readConsoleInput, if_neg (by decide), if_pos (by decide), if_neg hline]
  rw [kickKeys, readConsoleInput_backspaces, keysOf, readConsoleInput_printing _ hprinting hroom,
    List.nil_append, henter, hclassified]
  rfl

end

/-! ## Kicks -/

section

variable {now : Time} {history : List (Transition ServerApp Input)} {s : ServerApp} {i : Input}
  {u : Bytes} {x : ClientSession}

/-- `kick` finds every session that is stored. -/
theorem kick_of_stored (hrun : ServerRun now history s) (hx : s.sessions.find? u = some x)
    (i : Input) (buffer : Bytes) :
    ∃ s', ClientManager.kick i u ((s.beginEvent i.now).setConsoleInputBuffer buffer) =
      .ok (.kicked, s') := by
  have hwf := wellFormed_of_run hrun
  obtain hconnection | ⟨p, hconnection⟩ := Option.eq_none_or_eq_some x.connection
  · exact ⟨_, ServerApp.kick_detached hx hconnection⟩
  · obtain ⟨c, hp, -⟩ := (hwf.sessions hx).holds p hconnection
    exact ⟨_, ServerApp.kick_attached hx hconnection hp (hwf.deref_ok hp).fd_eq⟩

theorem graphic_of_kicks (hevent : i.event = .console (kickKeys s u)) (h : Kicks i s u) :
    u ≠ [] ∧ ∀ byte ∈ u, isGraphic byte = true := by
  obtain ⟨keys, buffer, s', hkeys, hread, -⟩ := h
  rw [hevent, Event.console.injEq] at hkeys
  rw [← hkeys, kickKeys, readConsoleInput_backspaces] at hread
  exact graphic_of_read (by simp) hread

/-- The operator can kick the user of a stored session, by typing the name, if and only if
the name is one word of the console. -/
theorem kicks_iff_graphic (hrun : ServerRun now history s) (hx : s.sessions.find? u = some x)
    (hlength : u.length ≤ 1018) (hevent : i.event = .console (kickKeys s u)) :
    Kicks i s u ↔ u ≠ [] ∧ ∀ byte ∈ u, isGraphic byte = true := by
  constructor
  · exact graphic_of_kicks hevent
  · intro h
    obtain ⟨s', hkick⟩ := kick_of_stored hrun hx i []
    exact ⟨_, [], s', hevent, read_kickKeys s hlength h.1 h.2, hkick⟩

def kicking (s : ServerApp) (u : Bytes) : Input :=
  { Input.sample with event := .console (kickKeys s u) }

theorem kicks_iff_graphic_ann : ∃ history s, ServerRun 0 history s ∧
    Kicks (kicking s (literal "ann")) s (literal "ann") := by
  obtain ⟨history, s, hrun, h⟩ := Run.exists_of_execute step
    [accepting 5, receiving 5 (loginPacket (literal "ann") (literal "b"))] (initialState 0)
    (fun _ s => (s.sessions.find? (literal "ann")).isSome) (by decide +kernel)
  obtain ⟨x, hx⟩ := Option.isSome_iff_exists.mp h
  exact ⟨history, s, hrun,
    (kicks_iff_graphic hrun hx (by decide) rfl).mpr ⟨by decide, by decide +kernel⟩⟩

/-- A user whose name has a blank logs in. -/
theorem blank_in_username : ¬∀ now history s u x i, ServerRun now history s →
    s.sessions.find? u = some x → u.length ≤ 1018 → i.event = .console (kickKeys s u) →
    Kicks i s u := by
  intro h
  obtain ⟨history, s, hrun, hstored⟩ := Run.exists_of_execute step
    [accepting 5, receiving 5 (loginPacket (literal "a b") (literal "b"))] (initialState 0)
    (fun _ s => (s.sessions.find? (literal "a b")).isSome) (by decide +kernel)
  obtain ⟨x, hx⟩ := Option.isSome_iff_exists.mp hstored
  have hkicks := h 0 history s _ x (kicking s (literal "a b")) hrun hx (by decide) rfl
  have hblank := (graphic_of_kicks rfl hkicks).2 0x20 (by decide)
  exact absurd hblank (by decide)

end

end TChat
