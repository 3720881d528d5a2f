import TChat.Common.Protocol
import TChat.Lib.Allotment
import TChat.Lib.OrderedMap
/-!
# The colors of the users

`getUserColorPair` of `common/ui.cpp` and what it keeps between its calls.  `std::hash`, the
colors of the terminal and the results of the calls of ncurses are parameters.
-/

namespace TChat.Common

open TChat.Lib

/-- The variables of `ui.cpp` that are about colors, and the pairs that `init_pair` has set,
each with its foreground and its background. -/
structure Colors where
  colorsReady : Bool
  backgroundColor : ℤ
  userPairs : OrderedMap Bytes ℤ
  nextPair : ℤ
  nextPalette : ℕ
  initialised : List (ℤ × ℤ × ℤ)

def Colors.static : Colors := ⟨false, 0, .empty, 4, 0, []⟩

def extendedPalette : List ℤ :=
  [202, 208, 214, 220, 226, 190, 154, 118, 82, 48, 51, 45, 33, 69, 99, 129,
    165, 201, 198, 166, 172, 178, 184, 148, 112, 76, 43, 37, 75, 111, 147, 183]

def basicPalette : List ℤ := [6, 5, 3, 7]

/-- A call of `getUserColorPair`: its argument, the value of `COLORS`, and whether `init_pair`
succeeds if it is called. -/
structure ColorCall where
  username : Bytes
  colors : ℤ
  initPair : Bool
  deriving DecidableEq, Repr

def maxPair (colorPairs : ℤ) : ℤ := min (colorPairs - 1) 255

/-- `getUserColorPair`, with `COLOR_PAIRS`. -/
def getUserColorPair (hash : Bytes → UInt64) (colorPairs : ℤ) (call : ColorCall) (ui : Colors) :
    ℤ × Colors :=
  if ui.colorsReady = false ∨ call.username = [] then (0, ui)
  else
    match ui.userPairs.find? call.username with
    | some pair => (pair, ui)
    | none =>
        let availableSlots := maxPair colorPairs - 3
        if availableSlots ≤ 0 then (0, ui)
        else if ui.nextPair ≤ maxPair colorPairs then
          let pair := ui.nextPair
          let foreground :=
            if 256 ≤ call.colors then
              extendedPalette.getD (ui.nextPalette % extendedPalette.length) 0
            else basicPalette.getD (ui.nextPalette % basicPalette.length) 0
          if call.initPair = false then (0, ui)
          else
            (pair,
              { ui with
                userPairs := ui.userPairs.insert call.username pair
                nextPair := ui.nextPair + 1
                nextPalette := ui.nextPalette + 1
                initialised := ui.initialised ++ [(pair, foreground, ui.backgroundColor)] })
        else
          let pair : ℤ := 4 + ((hash call.username).toNat % availableSlots.toNat : ℕ)
          (pair, { ui with userPairs := ui.userPairs.insert call.username pair })

/-- What `initPrintColors` gets from ncurses: whether its calls succeed, and `COLORS`. -/
structure Terminal where
  hasColors : Bool
  startColor : Bool
  useDefaultColors : Bool
  colors : ℤ
  initPair : ℤ → Bool

def initPrintColors (terminal : Terminal) (ui : Colors) : Colors :=
  if terminal.hasColors = false ∨ terminal.startColor = false then { ui with colorsReady := false }
  else
    let background : ℤ := if terminal.useDefaultColors = false then 0 else -1
    let blue : ℤ := if 256 ≤ terminal.colors then 39 else 4
    let green : ℤ := if 256 ≤ terminal.colors then 46 else 2
    let red : ℤ := if 256 ≤ terminal.colors then 196 else 1
    let pairs := [(1, blue, background), (2, green, background), (3, red, background)]
    -- the calls stop at the first one that fails
    let initialised := pairs.takeWhile fun pair => terminal.initPair pair.1
    { ui with
      backgroundColor := background
      initialised := ui.initialised ++ initialised
      colorsReady := decide (initialised.length = pairs.length) }

/-- Calls of `getUserColorPair` one after the other: the names with the pairs returned, and what
is left. -/
def getUserColorPairs (hash : Bytes → UInt64) (colorPairs : ℤ) (calls : List ColorCall)
    (ui : Colors) : List (Bytes × ℤ) × Colors :=
  calls.foldl
    (fun (answers, ui) call =>
      let (pair, ui) := getUserColorPair hash colorPairs call ui
      (answers ++ [(call.username, pair)], ui))
    ([], ui)

def Colors.Initialised (ui : Colors) (pair : ℤ) : Prop :=
  ∃ foreground background, (pair, foreground, background) ∈ ui.initialised

/-- What the users can rely on, as far as the names have been asked for: a name keeps the pair it
has got, no pair is one of those that are reserved or out of the terminal's range or have not been
set, and a pair is given to a second name only when there was none left. -/
structure Assigned (maxPair : ℤ) (answers : List (Bytes × ℤ)) (ui : Colors) : Prop where
  same : ∀ before username pair after pair', answers = before ++ (username, pair) :: after →
    pair ≠ 0 → (username, pair') ∈ after → pair' = pair
  initialised : ∀ username pair, (username, pair) ∈ answers → pair ≠ 0 →
    4 ≤ pair ∧ pair ≤ maxPair ∧ ui.Initialised pair
  shared : ∀ before username pair after other,
    answers = before ++ (username, pair) :: after → pair ≠ 0 → (other, pair) ∈ before →
      other ≠ username → ∀ pair', 4 ≤ pair' → pair' ≤ maxPair → ∃ name, (name, pair') ∈ before

/-! ## One call -/

namespace Colors

def allotment (ui : Colors) : Allotment Bytes := ⟨ui.userPairs.find?, ui.nextPair⟩

/-- What holds between the calls: nothing was given to the empty name or without colors, and the
pairs below the next one have been set. -/
structure Valid (ui : Colors) : Prop where
  unnamed : ui.userPairs.find? [] = none
  unready : ui.colorsReady = false → ∀ username, ui.userPairs.find? username = none
  initialised : ∀ pair, 4 ≤ pair → pair < ui.nextPair → ui.Initialised pair

end Colors

section

variable {hash : Bytes → UInt64} {colorPairs pair : ℤ} {call : ColorCall} {ui ui' : Colors}

theorem allotment_insert {username : Bytes} {next : ℤ} {palette : ℕ}
    {initialised : List (ℤ × ℤ × ℤ)} :
    Colors.allotment
        { ui with
          userPairs := ui.userPairs.insert username pair, nextPair := next,
          nextPalette := palette, initialised := initialised } =
      ⟨Function.update ui.allotment.given username (some pair), next⟩ := by
  unfold Colors.allotment
  congr 1
  funext name
  rw [OrderedMap.find?_insert, Function.update_apply]

/-- What a call does: it returns nothing to a name without a pair, the pair of the name, the next
pair, which it sets, or one of those that are out. -/
inductive Answered (maxPair : ℤ) (call : ColorCall) (ui : Colors) : ℤ → Colors → Prop
  | refused : ui.userPairs.find? call.username = none → Answered maxPair call ui 0 ui
  | known {pair : ℤ} :
      ui.userPairs.find? call.username = some pair → Answered maxPair call ui pair ui
  | fresh {foreground : ℤ} :
      ui.colorsReady = true → call.username ≠ [] →
      ui.userPairs.find? call.username = none → ui.nextPair ≤ maxPair →
      Answered maxPair call ui ui.nextPair
        { ui with
          userPairs := ui.userPairs.insert call.username ui.nextPair
          nextPair := ui.nextPair + 1
          nextPalette := ui.nextPalette + 1
          initialised := ui.initialised ++ [(ui.nextPair, foreground, ui.backgroundColor)] }
  | shared {pair : ℤ} :
      ui.colorsReady = true → call.username ≠ [] →
      ui.userPairs.find? call.username = none → maxPair < ui.nextPair → 4 ≤ pair → pair ≤ maxPair →
      Answered maxPair call ui pair { ui with userPairs := ui.userPairs.insert call.username pair }

theorem answered_getUserColorPair (hvalid : ui.Valid) :
    Answered (maxPair colorPairs) call ui (getUserColorPair hash colorPairs call ui).1
      (getUserColorPair hash colorPairs call ui).2 := by
  unfold getUserColorPair
  by_cases hready : ui.colorsReady = false ∨ call.username = []
  · rw [if_pos hready]
    apply Answered.refused
    rcases hready with hready | hname
    · exact hvalid.unready hready _
    · rw [hname]
      exact hvalid.unnamed
  · rw [if_neg hready]
    rw [not_or, Bool.not_eq_false] at hready
    cases hfound : ui.userPairs.find? call.username with
    | some pair => exact .known hfound
    | none =>
        dsimp only
        by_cases hslots : maxPair colorPairs - 3 ≤ 0
        · rw [if_pos hslots]
          exact .refused hfound
        · rw [if_neg hslots]
          by_cases hnext : ui.nextPair ≤ maxPair colorPairs
          · rw [if_pos hnext]
            cases call.initPair with
            | false => exact .refused hfound
            | true => exact .fresh hready.1 hready.2 hfound hnext
          · rw [if_neg hnext]
            -- the remainder is less than the number of pairs that the users can have
            have hremainder : (hash call.username).toNat % (maxPair colorPairs - 3).toNat <
                (maxPair colorPairs - 3).toNat := Nat.mod_lt _ (by omega)
            generalize (hash call.username).toNat % (maxPair colorPairs - 3).toNat = remainder at *
            exact .shared hready.1 hready.2 hfound (not_le.mp hnext) (by omega) (by omega)

theorem Colors.Valid.answered (hvalid : ui.Valid)
    (h : Answered (maxPair colorPairs) call ui pair ui') : ui'.Valid := by
  cases h with
  | refused hnone => exact hvalid
  | known hfound => exact hvalid
  | fresh hready hname hnone hnext =>
      constructor
      · rw [OrderedMap.find?_insert, if_neg hname.symm]
        exact hvalid.unnamed
      · intro hunready
        cases hready.symm.trans hunready
      · intro pair hlow hlt
        rcases (Int.lt_add_one_iff.mp hlt).lt_or_eq with hlt | rfl
        · obtain ⟨foreground, background, hpair⟩ := hvalid.initialised pair hlow hlt
          exact ⟨foreground, background, List.mem_append_left _ hpair⟩
        · exact ⟨_, _, List.mem_append_right _ List.mem_cons_self⟩
  | shared hready hname hnone hnext hlow hhigh =>
      constructor
      · rw [OrderedMap.find?_insert, if_neg hname.symm]
        exact hvalid.unnamed
      · intro hunready
        cases hready.symm.trans hunready
      · exact hvalid.initialised

def granted (pair : ℤ) : Option ℤ := if pair = 0 then none else some pair

def request (answer : Bytes × ℤ) : Bytes × Option ℤ := (answer.1, granted answer.2)

theorem granted_eq_some (hpair : pair ≠ 0) : granted pair = some pair := if_neg hpair

/-- A call is a request for a number from 4 to `max_pair`. -/
theorem step_of_answered (hfair : Allotment.Fair 4 (maxPair colorPairs) ui.allotment)
    (h : Answered (maxPair colorPairs) call ui pair ui') :
    Allotment.Step 4 (maxPair colorPairs) ui.allotment call.username (granted pair)
      ui'.allotment := by
  cases h with
  | refused hnone => exact .refused hnone
  | known hfound =>
      have hlow := (hfair.inInterval hfound).1
      rw [granted_eq_some (by omega)]
      exact .known hfound
  | fresh hready hname hnone hnext =>
      have hlow : 4 ≤ ui.nextPair := hfair.low_le_next
      rw [granted_eq_some (by omega), allotment_insert]
      exact .fresh hnone hnext
  | shared hready hname hnone hnext hlow hhigh =>
      rw [granted_eq_some (by omega), allotment_insert]
      exact .shared hnone hnext hlow hhigh

/-! ## All calls -/

theorem valid_of_start (hpairs : ui.userPairs = .empty) (hnext : ui.nextPair = 4) : ui.Valid := by
  constructor
  · rw [hpairs, OrderedMap.find?_empty]
  · intro _ username
    rw [hpairs, OrderedMap.find?_empty]
  · intro pair hlow hlt
    omega

theorem allotment_of_start (hpairs : ui.userPairs = .empty) (hnext : ui.nextPair = 4) :
    ui.allotment = .start 4 := by
  rw [Colors.allotment, hpairs, hnext]
  rfl

theorem initPrintColors_frame (terminal : Terminal) :
    (initPrintColors terminal ui).userPairs = ui.userPairs ∧
      (initPrintColors terminal ui).nextPair = ui.nextPair := by
  unfold initPrintColors
  split_ifs <;> exact ⟨rfl, rfl⟩

theorem getUserColorPairs_concat (calls : List ColorCall) :
    getUserColorPairs hash colorPairs (calls ++ [call]) ui =
      ((getUserColorPairs hash colorPairs calls ui).1 ++
          [(call.username, (getUserColorPair hash colorPairs call
            (getUserColorPairs hash colorPairs calls ui).2).1)],
        (getUserColorPair hash colorPairs call
          (getUserColorPairs hash colorPairs calls ui).2).2) := by
  rw [getUserColorPairs, List.foldl_append]
  rfl

theorem requests_getUserColorPairs (terminal : Terminal) (calls : List ColorCall) :
    (getUserColorPairs hash colorPairs calls (initPrintColors terminal .static)).2.Valid ∧
      Allotment.Requests 4 (maxPair colorPairs)
        ((getUserColorPairs hash colorPairs calls (initPrintColors terminal .static)).1.map request)
        (getUserColorPairs hash colorPairs calls
          (initPrintColors terminal .static)).2.allotment := by
  induction calls using List.reverseRecOn with
  | nil =>
      obtain ⟨hpairs, hnext⟩ := @initPrintColors_frame .static terminal
      refine ⟨valid_of_start hpairs hnext, ?_⟩
      rw [getUserColorPairs, List.foldl_nil, allotment_of_start hpairs hnext]
      exact .start
  | append_singleton calls call ih =>
      obtain ⟨hvalid, hrequests⟩ := ih
      have hanswered := @answered_getUserColorPair hash colorPairs call _ hvalid
      rw [getUserColorPairs_concat, List.map_append]
      exact ⟨hvalid.answered hanswered, hrequests.next (step_of_answered hrequests.fair hanswered)⟩

theorem granted_injective {pair' : ℤ} (h : granted pair = granted pair') : pair = pair' := by
  unfold granted at h
  split_ifs at h with hpair hpair' hpair'
  · rw [hpair, hpair']
  · exact Option.some.inj h

theorem request_injective : Function.Injective request := by
  intro answer answer' h
  obtain ⟨hname, hpair⟩ := Prod.mk.inj h
  exact Prod.ext hname (granted_injective hpair)

theorem request_of_ne (username : Bytes) (hpair : pair ≠ 0) :
    request (username, pair) = (username, some pair) := by
  rw [request, granted_eq_some hpair]

theorem mem_request {answers : List (Bytes × ℤ)} {username : Bytes} (hpair : pair ≠ 0) :
    (username, some pair) ∈ answers.map request ↔ (username, pair) ∈ answers := by
  rw [← request_of_ne username hpair, List.mem_map_of_injective request_injective]

/-- The pairs are assigned properly in any sequence of calls, whichever of them fail. -/
theorem getUserColorPairs_assigned (hash : Bytes → UInt64) (terminal : Terminal) (colorPairs : ℤ)
    (calls : List ColorCall) :
    Assigned (min (colorPairs - 1) 255)
      (getUserColorPairs hash colorPairs calls (initPrintColors terminal .static)).1
      (getUserColorPairs hash colorPairs calls (initPrintColors terminal .static)).2 := by
  obtain ⟨hvalid, hrequests⟩ := @requests_getUserColorPairs hash colorPairs terminal calls
  generalize
    getUserColorPairs hash colorPairs calls (initPrintColors terminal .static) = result at *
  obtain ⟨answers, ui⟩ := result
  constructor
  · rintro before username pair after pair' rfl hpair hafter
    rw [List.map_append, List.map_cons, request_of_ne username hpair] at hrequests
    have hkept := hrequests.keeps rfl (List.mem_map_of_mem (f := request) hafter)
    rw [← granted_eq_some hpair] at hkept
    exact granted_injective hkept
  · intro username pair hmem hpair
    obtain ⟨hlow, hhigh, hnext⟩ := hrequests.inInterval ((mem_request hpair).mpr hmem)
    exact ⟨hlow, hhigh, hvalid.initialised pair hlow hnext⟩
  · rintro before username pair after other rfl hpair hother hne pair' hlow hhigh
    rw [List.map_append, List.map_cons, request_of_ne username hpair] at hrequests
    obtain ⟨name, hname⟩ := hrequests.shares ((mem_request hpair).mpr hother) hne hlow hhigh
    exact ⟨name, (mem_request (by omega)).mp hname⟩

end

/-- With room for two names, of which the first has to ask again, the third gets the pair of
one of them. -/
example :
    (getUserColorPairs (fun _ => 7) 6
      [⟨literal "ann", 8, false⟩, ⟨literal "bob", 8, true⟩, ⟨literal "ann", 8, true⟩,
        ⟨literal "eve", 8, true⟩, ⟨literal "bob", 8, true⟩]
      (initPrintColors ⟨true, true, true, 8, fun _ => true⟩ .static)).1 =
      [(literal "ann", 0), (literal "bob", 4), (literal "ann", 5), (literal "eve", 5),
        (literal "bob", 4)] := by
  decide

end TChat.Common
