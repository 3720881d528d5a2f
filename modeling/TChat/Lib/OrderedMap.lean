import Mathlib
/-!
# Key-sorted finite maps

A finite map represented by its entry list in strictly increasing key order,
which is the order in which a tree map iterates.  The order is a field of the
structure, so every map is well formed and a key has at most one entry.

Lookups after each operation are stated as `find?` equations; a proof about a
map never has to look at the entry list again.
-/

namespace TChat.Lib

/-- A finite map: its entries, sorted strictly by key. -/
structure OrderedMap (κ α : Type) [LT κ] where
  entries : List (κ × α)
  sorted : entries.Pairwise (fun a b => a.1 < b.1)

namespace OrderedMap

variable {κ α β : Type}

def empty [LT κ] : OrderedMap κ α := ⟨[], .nil⟩

instance [LT κ] : Inhabited (OrderedMap κ α) := ⟨empty⟩

def lookup [DecidableEq κ] (k : κ) : List (κ × α) → Option α
  | [] => none
  | entry :: rest => if entry.1 = k then some entry.2 else lookup k rest

def find? [LT κ] [DecidableEq κ] (m : OrderedMap κ α) (k : κ) : Option α :=
  lookup k m.entries

@[simp] theorem find?_empty [LT κ] [DecidableEq κ] (k : κ) :
    (empty : OrderedMap κ α).find? k = none := rfl

theorem mem_of_lookup [DecidableEq κ] {k : κ} {v : α} {l : List (κ × α)}
    (h : lookup k l = some v) : (k, v) ∈ l := by
  induction l with
  | nil => simp [lookup] at h
  | cons entry rest ih =>
      by_cases hk : entry.1 = k
      · simp only [lookup, hk, if_true, Option.some.injEq] at h
        simp [← hk, ← h]
      · simp only [lookup, hk, if_false] at h
        exact List.mem_cons_of_mem _ (ih h)

/-- Rewrites the first value, in list order, that satisfies `p`. -/
def modifyFirstEntry (p : α → Bool) (f : α → α) : List (κ × α) → List (κ × α)
  | [] => []
  | entry :: rest =>
      if p entry.2 then (entry.1, f entry.2) :: rest
      else entry :: modifyFirstEntry p f rest

theorem map_fst_modifyFirstEntry (p : α → Bool) (f : α → α) (l : List (κ × α)) :
    (modifyFirstEntry p f l).map Prod.fst = l.map Prod.fst := by
  induction l with
  | nil => rfl
  | cons entry rest ih =>
      unfold modifyFirstEntry
      split_ifs <;> simp [ih]

variable [LT κ] [IsStrictTotalOrder κ (· < ·)]

theorem lookup_of_mem [DecidableEq κ] {k : κ} {v : α} {l : List (κ × α)}
    (hsorted : l.Pairwise (fun a b => a.1 < b.1)) (h : (k, v) ∈ l) :
    lookup k l = some v := by
  induction l with
  | nil => simp at h
  | cons entry rest ih =>
      rw [List.pairwise_cons] at hsorted
      rcases List.mem_cons.mp h with rfl | hrest
      · simp [lookup]
      · have hlt : entry.1 < k := hsorted.1 _ hrest
        have hne : entry.1 ≠ k := by
          rintro rfl
          exact irrefl_of (· < ·) _ hlt
        simp only [lookup, hne, if_false]
        exact ih hsorted.2 hrest

theorem mem_entries [DecidableEq κ] {m : OrderedMap κ α} {k : κ} {v : α} :
    (k, v) ∈ m.entries ↔ m.find? k = some v :=
  ⟨lookup_of_mem m.sorted, mem_of_lookup⟩

theorem find?_eq_of_mem_iff [DecidableEq κ] {m : OrderedMap κ α} {k : κ}
    {o : Option α} (h : ∀ v, (k, v) ∈ m.entries ↔ o = some v) :
    m.find? k = o := by
  apply Option.ext
  intro v
  rw [← mem_entries, h v]

theorem ext_find? [DecidableEq κ] {m m' : OrderedMap κ α}
    (h : ∀ k, m.find? k = m'.find? k) : m = m' := by
  have hnodup (m : OrderedMap κ α) : m.entries.Nodup := by
    refine m.sorted.imp ?_
    rintro a b hlt rfl
    exact irrefl_of (· < ·) a.1 hlt
  have hperm : m.entries.Perm m'.entries := by
    rw [List.perm_ext_iff_of_nodup (hnodup m) (hnodup m')]
    rintro ⟨k, v⟩
    rw [mem_entries, mem_entries, h k]
  have hentries : m.entries = m'.entries := by
    refine List.Perm.eq_of_pairwise ?_ m.sorted m'.sorted hperm
    intro a b _ _ hab hba
    exact absurd (trans_of (· < ·) hab hba) (irrefl_of (· < ·) a.1)
  cases m
  cases m'
  simpa using hentries

/-! ## Insertion -/

/-- Puts an entry in its place, in the stead of one with the same key. -/
def insertEntry [DecidableEq κ] [DecidableLT κ] (k : κ) (v : α) :
    List (κ × α) → List (κ × α)
  | [] => [(k, v)]
  | entry :: rest =>
      if k < entry.1 then (k, v) :: entry :: rest
      else if entry.1 = k then (k, v) :: rest
      else entry :: insertEntry k v rest

theorem mem_insertEntry [DecidableEq κ] [DecidableLT κ] {k : κ} {v : α}
    {l : List (κ × α)} (hsorted : l.Pairwise (fun a b => a.1 < b.1))
    (x : κ × α) :
    x ∈ insertEntry k v l ↔ x = (k, v) ∨ (x ∈ l ∧ x.1 ≠ k) := by
  induction l with
  | nil => simp [insertEntry]
  | cons entry rest ih =>
      rw [List.pairwise_cons] at hsorted
      have hne : ∀ y ∈ rest, ∀ z : κ, z = entry.1 ∨ z < entry.1 → y.1 ≠ z := by
        rintro y hy z (rfl | hz) heq
        · exact irrefl_of (· < ·) y.1 (heq ▸ hsorted.1 y hy)
        · have hlt := trans_of (· < ·) hz (hsorted.1 y hy)
          exact irrefl_of (· < ·) y.1 (heq ▸ hlt)
      unfold insertEntry
      split_ifs with hlt heq
      · have hentry : entry.1 ≠ k := by
          intro heq
          exact irrefl_of (· < ·) k (heq ▸ hlt)
        constructor
        · intro hx
          rcases List.mem_cons.mp hx with rfl | hx
          · exact Or.inl rfl
          · rcases List.mem_cons.mp hx with rfl | hx'
            · exact Or.inr ⟨hx, hentry⟩
            · exact Or.inr ⟨hx, hne x hx' k (Or.inr hlt)⟩
        · rintro (rfl | ⟨hx, _⟩)
          · simp
          · exact List.mem_cons_of_mem _ hx
      · constructor
        · intro hx
          rcases List.mem_cons.mp hx with rfl | hx
          · exact Or.inl rfl
          · exact Or.inr ⟨List.mem_cons_of_mem _ hx, hne x hx k (Or.inl heq.symm)⟩
        · rintro (rfl | ⟨hx, hxk⟩)
          · simp
          · rcases List.mem_cons.mp hx with rfl | hx
            · exact absurd heq hxk
            · exact List.mem_cons_of_mem _ hx
      · rw [List.mem_cons, ih hsorted.2, List.mem_cons]
        constructor
        · rintro (rfl | rfl | ⟨hx, hxk⟩)
          · exact Or.inr ⟨Or.inl rfl, heq⟩
          · exact Or.inl rfl
          · exact Or.inr ⟨Or.inr hx, hxk⟩
        · rintro (rfl | ⟨rfl | hx, hxk⟩)
          · exact Or.inr (Or.inl rfl)
          · exact Or.inl rfl
          · exact Or.inr (Or.inr ⟨hx, hxk⟩)

theorem sorted_insertEntry [DecidableEq κ] [DecidableLT κ] (k : κ) (v : α)
    {l : List (κ × α)} (hsorted : l.Pairwise (fun a b => a.1 < b.1)) :
    (insertEntry k v l).Pairwise (fun a b => a.1 < b.1) := by
  induction l with
  | nil => simp [insertEntry]
  | cons entry rest ih =>
      have htail := (List.pairwise_cons.mp hsorted).2
      have hhead := (List.pairwise_cons.mp hsorted).1
      unfold insertEntry
      split_ifs with hlt heq
      · refine List.pairwise_cons.mpr ⟨?_, hsorted⟩
        intro y hy
        rcases List.mem_cons.mp hy with rfl | hy
        · exact hlt
        · exact trans_of (· < ·) hlt (hhead y hy)
      · refine List.pairwise_cons.mpr ⟨?_, htail⟩
        intro y hy
        exact heq ▸ hhead y hy
      · refine List.pairwise_cons.mpr ⟨?_, ih htail⟩
        intro y hy
        rcases (mem_insertEntry htail y).mp hy with rfl | ⟨hy, _⟩
        · rcases trichotomous_of (· < ·) k entry.1 with h | h | h
          · exact absurd h hlt
          · exact absurd h.symm heq
          · exact h
        · exact hhead y hy

def insert [DecidableEq κ] [DecidableLT κ] (m : OrderedMap κ α) (k : κ) (v : α) :
    OrderedMap κ α :=
  ⟨insertEntry k v m.entries, sorted_insertEntry k v m.sorted⟩

@[simp] theorem find?_insert [DecidableEq κ] [DecidableLT κ]
    (m : OrderedMap κ α) (k k' : κ) (v : α) :
    (m.insert k v).find? k' = if k' = k then some v else m.find? k' := by
  apply find?_eq_of_mem_iff
  intro w
  rw [insert, mem_insertEntry m.sorted]
  by_cases hk : k' = k
  · subst hk
    simp [eq_comm]
  · simp [hk, mem_entries]

/-! ## Removal -/

def erase [DecidableEq κ] (m : OrderedMap κ α) (k : κ) : OrderedMap κ α :=
  ⟨m.entries.filter (fun entry => entry.1 ≠ k), m.sorted.filter _⟩

@[simp] theorem find?_erase [DecidableEq κ] (m : OrderedMap κ α) (k k' : κ) :
    (m.erase k).find? k' = if k' = k then none else m.find? k' := by
  apply find?_eq_of_mem_iff
  intro w
  rw [erase, List.mem_filter, mem_entries]
  by_cases hk : k' = k <;> simp [hk]

theorem insert_insert [DecidableEq κ] [DecidableLT κ] (m : OrderedMap κ α) (k : κ)
    (v w : α) : (m.insert k v).insert k w = m.insert k w := by
  apply ext_find?
  intro k'
  simp only [find?_insert]
  split_ifs <;> rfl

theorem erase_insert [DecidableEq κ] [DecidableLT κ] (m : OrderedMap κ α) (k : κ)
    (v : α) : (m.insert k v).erase k = m.erase k := by
  apply ext_find?
  intro k'
  simp only [find?_erase, find?_insert]
  split_ifs <;> rfl

theorem erase_of_find? [DecidableEq κ] {m : OrderedMap κ α} {k : κ}
    (h : m.find? k = none) : m.erase k = m := by
  apply ext_find?
  intro k'
  rw [find?_erase]
  split_ifs with hk
  · rw [hk, h]
  · rfl

theorem insert_of_find? [DecidableEq κ] [DecidableLT κ] {m : OrderedMap κ α} {k : κ}
    {v : α} (h : m.find? k = some v) : m.insert k v = m := by
  apply ext_find?
  intro k'
  rw [find?_insert]
  split_ifs with hk
  · rw [hk, h]
  · rfl

/-! ## Traversals -/

def mapEntries (f : κ → α → β) (m : OrderedMap κ α) : OrderedMap κ β :=
  ⟨m.entries.map (fun entry => (entry.1, f entry.1 entry.2)),
    List.Pairwise.map _ (fun _ _ h => h) m.sorted⟩

@[simp] theorem find?_mapEntries [DecidableEq κ] (f : κ → α → β)
    (m : OrderedMap κ α) (k : κ) :
    (m.mapEntries f).find? k = (m.find? k).map (f k) := by
  apply find?_eq_of_mem_iff
  intro w
  simp only [mapEntries, List.mem_map, Prod.mk.injEq, Prod.exists,
    Option.map_eq_some_iff]
  constructor
  · rintro ⟨a, v, hmem, rfl, rfl⟩
    exact ⟨v, mem_entries.mp hmem, rfl⟩
  · rintro ⟨v, hv, rfl⟩
    exact ⟨k, v, mem_entries.mpr hv, rfl, rfl⟩

def modifyFirst (p : α → Bool) (f : α → α) (m : OrderedMap κ α) : OrderedMap κ α :=
  ⟨modifyFirstEntry p f m.entries, by
    have h : (m.entries.map Prod.fst).Pairwise (· < ·) :=
      List.Pairwise.map _ (fun _ _ h => h) m.sorted
    rw [← map_fst_modifyFirstEntry p f] at h
    exact List.Pairwise.of_map Prod.fst (fun _ _ h => h) h⟩

theorem modifyFirstEntry_eq_map {p : α → Bool} (f : α → α) {l : List (κ × α)}
    (hsorted : l.Pairwise (fun a b => a.1 < b.1))
    (hunique : ∀ a ∈ l, ∀ b ∈ l, p a.2 → p b.2 → a.1 = b.1) :
    modifyFirstEntry p f l =
      l.map (fun entry => (entry.1, if p entry.2 then f entry.2 else entry.2)) := by
  induction l with
  | nil => rfl
  | cons entry rest ih =>
      rw [List.pairwise_cons] at hsorted
      by_cases hp : p entry.2
      · have hrest : ∀ e ∈ rest, p e.2 = false := by
          intro e he
          by_contra hpe
          have hkey := hunique entry (by simp) e (List.mem_cons_of_mem _ he) hp
            (by simpa using hpe)
          exact irrefl_of (· < ·) e.1 (hkey ▸ hsorted.1 e he)
        have hmap : rest.map
            (fun e => (e.1, if p e.2 then f e.2 else e.2)) = rest := by
          calc
            _ = rest.map id := by
              apply List.map_congr_left
              intro e he
              simp [hrest e he]
            _ = rest := List.map_id rest
        simp [modifyFirstEntry, hp, hmap]
      · simp only [modifyFirstEntry, hp, Bool.false_eq_true, if_false, List.map_cons]
        rw [ih hsorted.2 fun a ha b hb =>
          hunique a (List.mem_cons_of_mem _ ha) b (List.mem_cons_of_mem _ hb)]

/-- When at most one value satisfies `p`, stopping at the first one rewrites
every value that satisfies it. -/
theorem find?_modifyFirst [DecidableEq κ] {p : α → Bool} (f : α → α)
    {m : OrderedMap κ α}
    (hunique : ∀ k v k' v', m.find? k = some v → m.find? k' = some v' →
      p v → p v' → k = k') (k : κ) :
    (m.modifyFirst p f).find? k =
      (m.find? k).map (fun v => if p v then f v else v) := by
  rw [← find?_mapEntries (fun _ v => if p v then f v else v) m k]
  have hentries : modifyFirstEntry p f m.entries =
      m.entries.map (fun entry => (entry.1, if p entry.2 then f entry.2 else entry.2)) := by
    apply modifyFirstEntry_eq_map f m.sorted
    intro a ha b hb hpa hpb
    exact hunique a.1 a.2 b.1 b.2 (mem_entries.mp ha) (mem_entries.mp hb) hpa hpb
  simp only [find?, modifyFirst, mapEntries, hentries]

end OrderedMap

end TChat.Lib
