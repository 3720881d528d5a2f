import TChat.Server.Database
/-!
# Handles and statements of the database

`server/authorization.cpp` once more, with what its two functions obtain from sqlite and
give back.  `sqlite3_close` fails on a handle with a statement that is not finalized, and
leaves the handle open.
-/

namespace TChat.Server

open TChat.Common TChat.Lib

/-- What is open in the library.  Handles and statements are numbered as they are made, and
`finalized` are the calls of `sqlite3_finalize`. -/
structure Sqlite where
  nextHandle : Nat
  nextStatement : Nat
  handles : List Nat
  statements : List (Nat × Nat)
  finalized : List Nat
  deriving DecidableEq, Repr

def Sqlite.initial : Sqlite := ⟨0, 0, [], [], []⟩

/-- `SQLITE_OK`, `SQLITE_CONSTRAINT`, `SQLITE_MISUSE`, `SQLITE_ROW`, `SQLITE_DONE` and
`SQLITE_CONSTRAINT_UNIQUE`. -/
def sqliteOk : Int := 0
def sqliteConstraint : Int := 19
def sqliteMisuse : Int := 21
def sqliteRow : Int := 100
def sqliteDone : Int := 101
def sqliteConstraintUnique : Int := 2067

/-- The return codes of the calls that one of the functions makes.  A failed `sqlite3_open`
allocates a handle or not, and `columnText` is what `sqlite3_column_text` returns. -/
structure SqliteCodes where
  opening : Int
  allocates : Bool
  preparing : Int
  stepping : Int
  columnText : Option Bytes
  deriving DecidableEq, Repr

def SqliteCodes.Opens (codes : SqliteCodes) : Prop :=
  codes.opening = sqliteOk ∨ codes.allocates = true

instance (codes : SqliteCodes) : Decidable codes.Opens := inferInstanceAs (Decidable (_ ∨ _))

namespace Sqlite

def openDatabase (codes : SqliteCodes) (s : Sqlite) : Option Nat × Sqlite :=
  if codes.Opens then
    (some s.nextHandle,
      { s with nextHandle := s.nextHandle + 1, handles := s.handles ++ [s.nextHandle] })
  else (none, s)

def prepare (codes : SqliteCodes) (DB : Option Nat) (s : Sqlite) : Int × Option Nat × Sqlite :=
  match DB with
  | none => (sqliteMisuse, none, s)
  | some handle =>
      if codes.preparing = sqliteOk then
        (sqliteOk, some s.nextStatement,
          { s with
            nextStatement := s.nextStatement + 1
            statements := s.statements ++ [(s.nextStatement, handle)] })
      else (codes.preparing, none, s)

def finalize (stmt : Option Nat) (s : Sqlite) : Sqlite :=
  match stmt with
  | none => s
  | some number =>
      { s with
        statements := s.statements.filter (·.1 ≠ number)
        finalized := s.finalized ++ [number] }

def close (DB : Option Nat) (s : Sqlite) : Sqlite :=
  match DB with
  | none => s
  | some handle =>
      if ∃ statement ∈ s.statements, statement.2 = handle then s
      else { s with handles := s.handles.filter (· ≠ handle) }

def verifyClient (codes : SqliteCodes) (validatePassword : Bytes → Bytes → Bool)
    (password : Bytes) (s : Sqlite) : VerifyClientStatus × Sqlite :=
  let (DB, s) := s.openDatabase codes
  let (code, stmt, s) := s.prepare codes DB
  if code ≠ sqliteOk then (.execFailed, s)
  else if codes.stepping = sqliteRow then
    let result := (codes.columnText.map cString).getD []
    let s := s.finalize stmt
    let s := s.close DB
    (if validatePassword password result then .authorized else .notAuthorized, s)
  else (.userNotFound, s.close DB)

def registerClient (codes : SqliteCodes) (s : Sqlite) : RegisterClientStatus × Sqlite :=
  let (DB, s) := s.openDatabase codes
  if codes.opening ≠ sqliteOk then (.unableToOpenDatabase, s.close DB)
  else
    let (code, stmt, s) := s.prepare codes DB
    if code = sqliteOk then
      if codes.stepping = sqliteDone then
        let s := s.finalize stmt
        (.clientRegistered, s.close DB)
      else if codes.stepping = sqliteConstraint ∨ codes.stepping = sqliteConstraintUnique then
        let s := s.finalize stmt
        (.usernameExists, s.close DB)
      else
        let s := s.finalize stmt
        (.execFailed, s.close DB)
    else (.unknownError, s)

end Sqlite

inductive DatabaseCall
  | verifyClient (codes : SqliteCodes) (validatePassword : Bytes → Bytes → Bool)
      (password : Bytes)
  | registerClient (codes : SqliteCodes)

def databaseStep (call : DatabaseCall) (s : Sqlite) : Except Empty Sqlite :=
  match call with
  | .verifyClient codes validatePassword password =>
      .ok (s.verifyClient codes validatePassword password).2
  | .registerClient codes => .ok (s.registerClient codes).2

/-- What the call has opened is closed, and what it has prepared is finalized once. -/
structure Released (t : Transition Sqlite DatabaseCall) : Prop where
  handles : ∀ handle, t.pre.nextHandle ≤ handle → handle < t.post.nextHandle →
    handle ∉ t.post.handles
  statements : ∀ number, t.pre.nextStatement ≤ number → number < t.post.nextStatement →
    t.post.finalized.count number = 1

/-- The exits that give everything back. -/
def DatabaseCall.Clean : DatabaseCall → Prop
  | .verifyClient codes _ _ =>
      codes.Opens → codes.preparing = sqliteOk ∧ codes.stepping = sqliteRow
  | .registerClient codes => codes.opening = sqliteOk → codes.preparing = sqliteOk

instance : DecidablePred DatabaseCall.Clean
  | .verifyClient .. => inferInstanceAs (Decidable (_ → _))
  | .registerClient _ => inferInstanceAs (Decidable (_ → _))

/-! ## One call -/

structure Sqlite.Numbered (s : Sqlite) : Prop where
  handles : ∀ handle ∈ s.handles, handle < s.nextHandle
  statements : ∀ statement ∈ s.statements,
    statement.1 < s.nextStatement ∧ statement.2 < s.nextHandle
  finalized : ∀ number ∈ s.finalized, number < s.nextStatement

/-- What a call does to the library, by whether it gives everything back. -/
inductive DatabaseEffect (s s' : Sqlite) : Bool → Prop
  | unopened : s' = s → DatabaseEffect s s' true
  | opened : s' = { s with nextHandle := s.nextHandle + 1 } → DatabaseEffect s s' true
  | prepared :
      s' =
        { s with
          nextHandle := s.nextHandle + 1
          nextStatement := s.nextStatement + 1
          finalized := s.finalized ++ [s.nextStatement] } →
      DatabaseEffect s s' true
  | leaked :
      s' = { s with nextHandle := s.nextHandle + 1, handles := s.handles ++ [s.nextHandle] } →
      DatabaseEffect s s' false
  | blocked :
      s' =
        { s with
          nextHandle := s.nextHandle + 1
          nextStatement := s.nextStatement + 1
          handles := s.handles ++ [s.nextHandle]
          statements := s.statements ++ [(s.nextStatement, s.nextHandle)] } →
      DatabaseEffect s s' false

section

variable {s s' : Sqlite} {call : DatabaseCall} {codes : SqliteCodes}

namespace Sqlite

theorem filter_handles (h : s.Numbered) :
    (s.handles ++ [s.nextHandle]).filter (· ≠ s.nextHandle) = s.handles := by
  rw [List.filter_append, List.filter_eq_self.mpr, List.filter_cons_of_neg (by simp),
    List.filter_nil, List.append_nil]
  intro handle hmem
  simpa using (h.handles handle hmem).ne

theorem filter_statements (h : s.Numbered) :
    (s.statements ++ [(s.nextStatement, s.nextHandle)]).filter (·.1 ≠ s.nextStatement) =
      s.statements := by
  rw [List.filter_append, List.filter_eq_self.mpr, List.filter_cons_of_neg (by simp),
    List.filter_nil, List.append_nil]
  intro statement hmem
  simpa using (h.statements statement hmem).1.ne

theorem not_busy (h : s.Numbered) : ¬∃ statement ∈ s.statements, statement.2 = s.nextHandle := by
  rintro ⟨statement, hmem, hhandle⟩
  exact absurd hhandle (h.statements statement hmem).2.ne

theorem close_finalize (h : s.Numbered) :
    Sqlite.close (some s.nextHandle)
        (Sqlite.finalize (some s.nextStatement)
          { s with
            nextHandle := s.nextHandle + 1
            nextStatement := s.nextStatement + 1
            handles := s.handles ++ [s.nextHandle]
            statements := s.statements ++ [(s.nextStatement, s.nextHandle)] }) =
      { s with
        nextHandle := s.nextHandle + 1
        nextStatement := s.nextStatement + 1
        finalized := s.finalized ++ [s.nextStatement] } := by
  simp only [Sqlite.finalize, Sqlite.close, filter_statements h, not_busy h, filter_handles h,
    if_false]

theorem close_opened (h : s.Numbered) :
    Sqlite.close (some s.nextHandle)
        { s with nextHandle := s.nextHandle + 1, handles := s.handles ++ [s.nextHandle] } =
      { s with nextHandle := s.nextHandle + 1 } := by
  simp only [Sqlite.close, not_busy h, filter_handles h, if_false]

/-- `sqlite3_close` fails as long as the statement is there. -/
theorem close_prepared :
    Sqlite.close (some s.nextHandle)
        { s with
          nextHandle := s.nextHandle + 1
          nextStatement := s.nextStatement + 1
          handles := s.handles ++ [s.nextHandle]
          statements := s.statements ++ [(s.nextStatement, s.nextHandle)] } =
      { s with
        nextHandle := s.nextHandle + 1
        nextStatement := s.nextStatement + 1
        handles := s.handles ++ [s.nextHandle]
        statements := s.statements ++ [(s.nextStatement, s.nextHandle)] } := by
  have hbusy : ∃ statement ∈ s.statements ++ [(s.nextStatement, s.nextHandle)],
      statement.2 = s.nextHandle :=
    ⟨_, List.mem_append_right _ (List.mem_singleton_self _), rfl⟩
  simp only [Sqlite.close, hbusy, if_true]

theorem verifyClient_effect (h : s.Numbered) (codes : SqliteCodes)
    (validatePassword : Bytes → Bytes → Bool) (password : Bytes) :
    DatabaseEffect s (s.verifyClient codes validatePassword password).2
      (decide (DatabaseCall.verifyClient codes validatePassword password).Clean) := by
  by_cases hopens : codes.Opens
  · by_cases hprepares : codes.preparing = sqliteOk
    · by_cases hrow : codes.stepping = sqliteRow
      · have hclean : (DatabaseCall.verifyClient codes validatePassword password).Clean :=
          fun _ => ⟨hprepares, hrow⟩
        rw [decide_eq_true hclean]
        apply DatabaseEffect.prepared
        simp only [Sqlite.verifyClient, Sqlite.openDatabase, hopens, Sqlite.prepare, hprepares,
          hrow, if_true, ne_eq, not_true_eq_false, if_false]
        exact close_finalize h
      · have hclean : ¬(DatabaseCall.verifyClient codes validatePassword password).Clean :=
          fun hclean => hrow (hclean hopens).2
        rw [decide_eq_false hclean]
        apply DatabaseEffect.blocked
        simp only [Sqlite.verifyClient, Sqlite.openDatabase, hopens, Sqlite.prepare, hprepares,
          hrow, if_true, ne_eq, not_true_eq_false, if_false]
        exact close_prepared
    · have hclean : ¬(DatabaseCall.verifyClient codes validatePassword password).Clean :=
        fun hclean => hprepares (hclean hopens).1
      rw [decide_eq_false hclean]
      apply DatabaseEffect.leaked
      simp only [Sqlite.verifyClient, Sqlite.openDatabase, hopens, Sqlite.prepare, hprepares,
        if_true, if_false, ne_eq, not_false_eq_true]
  · have hclean : (DatabaseCall.verifyClient codes validatePassword password).Clean :=
      fun h => absurd h hopens
    rw [decide_eq_true hclean]
    have hmisuse : sqliteMisuse ≠ sqliteOk := by decide
    apply DatabaseEffect.unopened
    simp only [Sqlite.verifyClient, Sqlite.openDatabase, hopens, Sqlite.prepare, if_false, hmisuse,
      ne_eq, not_false_eq_true, if_true]

theorem registerClient_effect (h : s.Numbered) (codes : SqliteCodes) :
    DatabaseEffect s (s.registerClient codes).2
      (decide (DatabaseCall.registerClient codes).Clean) := by
  by_cases hopening : codes.opening = sqliteOk
  · have hopens : codes.Opens := Or.inl hopening
    by_cases hprepares : codes.preparing = sqliteOk
    · have hclean : (DatabaseCall.registerClient codes).Clean := fun _ => hprepares
      rw [decide_eq_true hclean]
      apply DatabaseEffect.prepared
      simp only [Sqlite.registerClient, Sqlite.openDatabase, hopens, hopening, Sqlite.prepare,
        hprepares, if_true, ne_eq, not_true_eq_false, if_false, close_finalize h]
      split_ifs <;> rfl
    · have hclean : ¬(DatabaseCall.registerClient codes).Clean :=
        fun hclean => hprepares (hclean hopening)
      rw [decide_eq_false hclean]
      apply DatabaseEffect.leaked
      simp only [Sqlite.registerClient, Sqlite.openDatabase, hopens, hopening, Sqlite.prepare,
        hprepares, if_true, ne_eq, not_true_eq_false, if_false]
  · have hclean : (DatabaseCall.registerClient codes).Clean := fun h => absurd h hopening
    rw [decide_eq_true hclean]
    by_cases hopens : codes.Opens
    · apply DatabaseEffect.opened
      simp only [Sqlite.registerClient, Sqlite.openDatabase, hopens, hopening, if_true, ne_eq,
        not_false_eq_true, close_opened h]
    · apply DatabaseEffect.unopened
      simp only [Sqlite.registerClient, Sqlite.openDatabase, hopens, hopening, if_true, if_false,
        ne_eq, not_false_eq_true, Sqlite.close]

end Sqlite

theorem effect_of_databaseStep (h : s.Numbered) (hs : databaseStep call s = .ok s') :
    DatabaseEffect s s' (decide call.Clean) := by
  cases call with
  | verifyClient codes validatePassword password =>
      rw [← Except.ok.inj hs]
      exact Sqlite.verifyClient_effect h codes validatePassword password
  | registerClient codes =>
      rw [← Except.ok.inj hs]
      exact Sqlite.registerClient_effect h codes

theorem lt_succ_of_mem {numbers : List Nat} {next : Nat} (h : ∀ number ∈ numbers, number < next) :
    ∀ number ∈ numbers ++ [next], number < next + 1 := by
  intro number hmem
  rcases List.mem_append.mp hmem with hold | hnew
  · exact Nat.lt_succ_of_lt (h number hold)
  · rw [List.mem_singleton.mp hnew]
    exact Nat.lt_succ_self _

namespace DatabaseEffect

variable {clean : Bool}

theorem numbered (heffect : DatabaseEffect s s' clean) (h : s.Numbered) : s'.Numbered := by
  cases heffect with
  | unopened heq => rwa [heq]
  | opened heq =>
      subst heq
      constructor
      · intro handle hmem
        exact Nat.lt_succ_of_lt (h.handles handle hmem)
      · intro statement hmem
        exact ⟨(h.statements statement hmem).1, Nat.lt_succ_of_lt (h.statements statement hmem).2⟩
      · exact h.finalized
  | prepared heq =>
      subst heq
      constructor
      · intro handle hmem
        exact Nat.lt_succ_of_lt (h.handles handle hmem)
      · intro statement hmem
        exact ⟨Nat.lt_succ_of_lt (h.statements statement hmem).1,
          Nat.lt_succ_of_lt (h.statements statement hmem).2⟩
      · exact lt_succ_of_mem h.finalized
  | leaked heq =>
      subst heq
      constructor
      · exact lt_succ_of_mem h.handles
      · intro statement hmem
        exact ⟨(h.statements statement hmem).1, Nat.lt_succ_of_lt (h.statements statement hmem).2⟩
      · exact h.finalized
  | blocked heq =>
      subst heq
      constructor
      · exact lt_succ_of_mem h.handles
      · intro statement hmem
        rcases List.mem_append.mp hmem with hold | hnew
        · exact ⟨Nat.lt_succ_of_lt (h.statements statement hold).1,
            Nat.lt_succ_of_lt (h.statements statement hold).2⟩
        · rw [List.mem_singleton.mp hnew]
          exact ⟨Nat.lt_succ_self _, Nat.lt_succ_self _⟩
      · intro number hmem
        exact Nat.lt_succ_of_lt (h.finalized number hmem)

theorem handles (heffect : DatabaseEffect s s' clean) :
    s'.handles = if clean then s.handles else s.handles ++ [s.nextHandle] := by
  cases heffect with
  | unopened heq => rw [heq, if_pos rfl]
  | opened heq => rw [heq, if_pos rfl]
  | prepared heq => rw [heq, if_pos rfl]
  | leaked heq => rw [heq, if_neg Bool.false_ne_true]
  | blocked heq => rw [heq, if_neg Bool.false_ne_true]

theorem released_iff (heffect : DatabaseEffect s s' clean) (h : s.Numbered) :
    Released ⟨s, call, s'⟩ ↔ clean = true := by
  have hold : ∀ handle, s.nextHandle ≤ handle → handle ∉ s.handles :=
    fun handle hle hmem => absurd (h.handles handle hmem) (Nat.not_lt.mpr hle)
  have hleft : s.nextHandle ∈ s.handles ++ [s.nextHandle] :=
    List.mem_append_right _ (List.mem_singleton_self _)
  cases heffect with
  | unopened heq =>
      subst heq
      exact iff_of_true
        ⟨fun handle hle hlt => absurd hlt (Nat.not_lt.mpr hle),
          fun number hle hlt => absurd hlt (Nat.not_lt.mpr hle)⟩ rfl
  | opened heq =>
      subst heq
      exact iff_of_true
        ⟨fun handle hle _ => hold handle hle,
          fun number hle hlt => absurd hlt (Nat.not_lt.mpr hle)⟩ rfl
  | prepared heq =>
      subst heq
      refine iff_of_true ⟨fun handle hle _ => hold handle hle, fun number hle hlt => ?_⟩ rfl
      obtain rfl : number = s.nextStatement := by
        dsimp only at hle hlt
        omega
      have hfresh : s.nextStatement ∉ s.finalized :=
        fun hmem => absurd (h.finalized _ hmem) (Nat.lt_irrefl _)
      rw [List.count_append, List.count_eq_zero_of_not_mem hfresh, List.count_singleton_self]
  | leaked heq =>
      subst heq
      exact iff_of_false
        (fun h => h.handles s.nextHandle (Nat.le_refl _) (Nat.lt_succ_self _) hleft)
        Bool.false_ne_true
  | blocked heq =>
      subst heq
      exact iff_of_false
        (fun h => h.handles s.nextHandle (Nat.le_refl _) (Nat.lt_succ_self _) hleft)
        Bool.false_ne_true

end DatabaseEffect

/-! ## The codes and the table -/

/-- The codes of `verify_client` are those of a query on the table. -/
structure SqliteCodes.Reads (codes : SqliteCodes) (calls : LibraryCalls) (users : Users)
    (username : Bytes) : Prop where
  prepares : codes.Opens ∧ codes.preparing = sqliteOk ↔ calls.prepares = true
  row : codes.stepping = sqliteRow ↔ ∃ user, selectUser calls users username = some user
  text : ∀ user, selectUser calls users username = some user →
    codes.columnText = some user.passwordHash

/-- The codes of `register_client` are those of an insertion into the table. -/
structure SqliteCodes.Writes (codes : SqliteCodes) (calls : LibraryCalls) (users : Users)
    (user : User) : Prop where
  opens : codes.opening = sqliteOk ↔ calls.opens = true
  prepares : codes.preparing = sqliteOk ↔ calls.prepares = true
  inserted : codes.stepping = sqliteDone ↔ calls.steps = true ∧ users.insert user ≠ none
  exists_already : codes.stepping = sqliteConstraint ∨ codes.stepping = sqliteConstraintUnique ↔
    calls.steps = true ∧ users.insert user = none

section

variable {calls : LibraryCalls} {users : Users} {username password : Bytes}

theorem Sqlite.prepare_ok_iff :
    ((s.openDatabase codes).2.prepare codes (s.openDatabase codes).1).1 = sqliteOk ↔
      codes.Opens ∧ codes.preparing = sqliteOk := by
  have hmisuse : sqliteMisuse ≠ sqliteOk := by decide
  unfold Sqlite.openDatabase
  split_ifs with hopens
  · unfold Sqlite.prepare
    dsimp only
    split_ifs with hprepares <;> simp [hopens, hprepares]
  · simp [Sqlite.prepare, hmisuse, hopens]

theorem Sqlite.verifyClient_status (h : codes.Reads calls users username) :
    (s.verifyClient codes calls.validatePassword password).1 =
      Server.verifyClient calls users username password := by
  have hready := (Sqlite.prepare_ok_iff (s := s)).trans h.prepares
  unfold Sqlite.verifyClient Server.verifyClient
  by_cases hprepares : calls.prepares = true
  · have hok := hready.mpr hprepares
    simp only [hok, hprepares, ne_eq, not_true_eq_false, if_false, Bool.not_true,
      Bool.false_eq_true]
    cases hselect : selectUser calls users username with
    | none =>
        have hrow : codes.stepping ≠ sqliteRow := by
          intro hrow
          obtain ⟨user, hsome⟩ := h.row.mp hrow
          rw [hselect] at hsome
          cases hsome
        simp only [hrow, if_false]
    | some user =>
        have hrow := h.row.mpr ⟨user, hselect⟩
        simp only [hrow, if_true, h.text user hselect, Option.map_some, Option.getD_some]
  · have hfailed := mt hready.mp hprepares
    simp only [hfailed, hprepares, ne_eq, not_false_eq_true, if_true, Bool.not_false]

theorem Sqlite.registerClient_status
    (h : codes.Writes calls users ⟨cString username, cString (calls.generateHash password)⟩) :
    (s.registerClient codes).1 = (Server.registerClient calls users username password).1 := by
  have hpresent : codes.opening = sqliteOk →
      (s.openDatabase codes).1 = some s.nextHandle := by
    intro hopening
    have hopens : codes.Opens := Or.inl hopening
    rw [Sqlite.openDatabase, if_pos hopens]
  unfold Sqlite.registerClient Server.registerClient
  by_cases hopens : calls.opens = true
  · have hopening := h.opens.mpr hopens
    simp only [hopening, hopens, ne_eq, not_true_eq_false, if_false, Bool.not_true,
      Bool.false_eq_true, hpresent hopening, Sqlite.prepare]
    by_cases hprepares : calls.prepares = true
    · simp only [h.prepares.mpr hprepares, hprepares, if_true, Bool.not_true, Bool.false_eq_true,
        if_false]
      by_cases hsteps : calls.steps = true
      · cases hinsert : users.insert ⟨cString username, cString (calls.generateHash password)⟩ with
        | none =>
            have hdone : codes.stepping ≠ sqliteDone :=
              fun hdone => (h.inserted.mp hdone).2 hinsert
            simp only [hdone, h.exists_already.mpr ⟨hsteps, hinsert⟩, hsteps, if_true, if_false,
              Bool.not_true, Bool.false_eq_true]
        | some users' =>
            have hdone := h.inserted.mpr ⟨hsteps, by rw [hinsert]; exact Option.some_ne_none _⟩
            simp only [hdone, hsteps, if_true, if_false, Bool.not_true, Bool.false_eq_true]
      · have hdone : codes.stepping ≠ sqliteDone := fun hdone => hsteps (h.inserted.mp hdone).1
        have hexists := mt h.exists_already.mp fun hexists => hsteps hexists.1
        simp only [hdone, hexists, hsteps, if_false, Bool.not_false, if_true]
    · have hfailed := mt h.prepares.mp hprepares
      simp only [hfailed, hprepares, if_false, Bool.not_false, if_true]
  · have hfailed := mt h.opens.mp hopens
    simp only [hfailed, hopens, ne_eq, not_false_eq_true, if_true, Bool.not_false]

end

/-! ## Runs of calls -/

variable {history : List (Transition Sqlite DatabaseCall)}

theorem numbered_of_run (hrun : Run databaseStep Sqlite.initial history s) : s.Numbered :=
  hrun.invariant ⟨by simp [Sqlite.initial], by simp [Sqlite.initial], by simp [Sqlite.initial]⟩
    fun h hs => (effect_of_databaseStep h hs).numbered h

/-- One call gives back what it took exactly when it leaves by one of the clean exits. -/
theorem released_iff_clean (hrun : Run databaseStep Sqlite.initial history s)
    {t : Transition Sqlite DatabaseCall} (ht : t ∈ history) : Released t ↔ t.input.Clean := by
  obtain ⟨hs, before, hbefore⟩ := hrun.transition ht
  have hnumbered := numbered_of_run hbefore
  exact ((effect_of_databaseStep hnumbered hs).released_iff hnumbered).trans decide_eq_true_iff

theorem handles_of_run (hrun : Run databaseStep Sqlite.initial history s)
    (hclean : ∀ t ∈ history, t.input.Clean) : s.handles = [] := by
  refine hrun.invariant_of (fun t => t.input.Clean) (fun _ s => s.handles = []) rfl ?_ hclean
  intro before s s' call hbefore hempty hs hcall
  have heffect := effect_of_databaseStep (numbered_of_run hbefore) hs
  rw [heffect.handles, decide_eq_true hcall, if_pos rfl, hempty]

/-- However many calls were made: every one of them has closed its handle and finalized its
statement once, and no handle is left open, if and only if each left by one of the exits
that do both. -/
theorem handles_released (hrun : Run databaseStep Sqlite.initial history s) :
    ((∀ t ∈ history, Released t) ∧ s.handles = []) ↔ ∀ t ∈ history, t.input.Clean := by
  constructor
  · intro h t ht
    exact (released_iff_clean hrun ht).mp (h.1 t ht)
  · intro hclean
    exact ⟨fun t ht => (released_iff_clean hrun ht).mpr (hclean t ht),
      handles_of_run hrun hclean⟩

def SqliteCodes.found : SqliteCodes := ⟨sqliteOk, true, sqliteOk, sqliteRow, some []⟩
def SqliteCodes.unknown : SqliteCodes := ⟨sqliteOk, true, sqliteOk, sqliteDone, none⟩

theorem handles_released_login :
    Released ⟨.initial, .verifyClient .found (fun _ _ => true) [], ⟨1, 1, [], [], [0]⟩⟩ := by
  have hrun : Run databaseStep Sqlite.initial
      [⟨.initial, .verifyClient .found (fun _ _ => true) [], ⟨1, 1, [], [], [0]⟩⟩]
      ⟨1, 1, [], [], [0]⟩ := Run.start.next rfl
  refine ((handles_released hrun).mpr fun t ht => ?_).1 _ (List.mem_singleton_self _)
  rw [List.mem_singleton.mp ht]
  decide

/-- A login under a name that nobody has registered leaves its handle open. -/
theorem unknown_user_leaks :
    ¬∀ (history : List (Transition Sqlite DatabaseCall)) (s : Sqlite),
      Run databaseStep Sqlite.initial history s →
        (∀ t ∈ history, Released t) ∧ s.handles = [] := by
  intro h
  have hrun : Run databaseStep Sqlite.initial
      [⟨.initial, .verifyClient .unknown (fun _ _ => true) [], ⟨1, 1, [0], [(0, 0)], []⟩⟩]
      ⟨1, 1, [0], [(0, 0)], []⟩ := Run.start.next rfl
  exact List.cons_ne_nil _ _ (h _ _ hrun).2

end

end TChat.Server
