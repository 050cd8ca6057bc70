/-!
# Keyed entries

A finite map from names to values, kept in ascending order of the names.  The
order of the entries does not depend on the order in which they were added, and
a name that is added again replaces its value.  Main statements: what is found
after an insertion, and that two maps are equal if they find the same values.
-/

namespace Scenery

namespace Keyed

/-- Put an entry in its place among entries in ascending order of their names. -/
def insertEntry (name : String) (value : α) : List (String × α) → List (String × α)
  | [] => [(name, value)]
  | (key, old) :: rest =>
    if name < key then (name, value) :: (key, old) :: rest
    else if name = key then (name, value) :: rest
    else (key, old) :: insertEntry name value rest

/-- The value of the first entry with a name. -/
def findEntry (name : String) : List (String × α) → Option α
  | [] => none
  | (key, value) :: rest => if name = key then some value else findEntry name rest

theorem lt_or_lt_of_ne {a b : String} (h : a ≠ b) : a < b ∨ b < a := by
  by_cases hlt : a < b
  · exact Or.inl hlt
  · by_cases hgt : b < a
    · exact Or.inr hgt
    · exact absurd (String.le_antisymm (String.not_lt.mp hgt) (String.not_lt.mp hlt)) h

theorem mem_insertEntry
    {name : String} {value : α} {entry : String × α}
    {entries : List (String × α)} (h : entry ∈ insertEntry name value entries) :
    entry = (name, value) ∨ entry ∈ entries := by
  induction entries with
  | nil => simpa [insertEntry] using h
  | cons head rest ih =>
      obtain ⟨key, old⟩ := head
      simp only [insertEntry] at h
      split at h
      · simpa using h
      · split at h
        · simp only [List.mem_cons] at h ⊢
          exact h.imp_right Or.inr
        · simp only [List.mem_cons] at h ⊢
          rcases h with h | h
          · exact Or.inr (Or.inl h)
          · exact (ih h).imp_right Or.inr

theorem pairwise_insertEntry
    (name : String) (value : α) {entries : List (String × α)}
    (h : entries.Pairwise (·.1 < ·.1)) :
    (insertEntry name value entries).Pairwise (·.1 < ·.1) := by
  induction entries with
  | nil => simp [insertEntry]
  | cons head rest ih =>
      obtain ⟨key, old⟩ := head
      obtain ⟨hhead, hrest⟩ := List.pairwise_cons.mp h
      simp only [insertEntry]
      split
      · rename_i hlt
        refine List.pairwise_cons.mpr ⟨?_, h⟩
        intro entry hentry
        rcases List.mem_cons.mp hentry with rfl | hentry
        · exact hlt
        · exact String.lt_trans hlt (hhead entry hentry)
      · split
        · rename_i heq
          subst heq
          exact List.pairwise_cons.mpr ⟨hhead, hrest⟩
        · rename_i hnlt hne
          refine List.pairwise_cons.mpr ⟨?_, ih hrest⟩
          intro entry hentry
          rcases mem_insertEntry hentry with rfl | hentry
          · rcases lt_or_lt_of_ne hne with hlt | hlt
            · exact absurd hlt hnlt
            · exact hlt
          · exact hhead entry hentry

theorem findEntry_insertEntry
    (name : String) (value : α) (key : String) (entries : List (String × α)) :
    findEntry key (insertEntry name value entries) =
      if key = name then some value else findEntry key entries := by
  induction entries with
  | nil => simp [insertEntry, findEntry]
  | cons head rest ih =>
      obtain ⟨other, old⟩ := head
      simp only [insertEntry]
      split
      · simp [findEntry]
      · split
        · rename_i heq
          subst heq
          by_cases hkey : key = name <;> simp [findEntry, hkey]
        · rename_i hne
          by_cases hkey : key = name
          · subst hkey
            simp [findEntry, hne, ih]
          · simp [findEntry, ih, hkey]

theorem findEntry_eq_none_of_lt
    {entries : List (String × α)} {name : String}
    (h : ∀ entry ∈ entries, name < entry.1) :
    findEntry name entries = none := by
  induction entries with
  | nil => rfl
  | cons head rest ih =>
      have hne : name ≠ head.1 := by
        intro heq
        exact String.lt_irrefl _ (heq ▸ h head List.mem_cons_self)
      simp only [findEntry, if_neg hne]
      exact ih (fun entry hentry => h entry (List.mem_cons_of_mem _ hentry))

theorem findEntry_head (head : String × α) (rest : List (String × α)) :
    findEntry head.1 (head :: rest) = some head.2 := by
  simp [findEntry]

theorem findEntry_cons_of_lt
    {head : String × α} {rest : List (String × α)} {name : String}
    (hlt : name < head.1) (hrest : ∀ entry ∈ rest, head.1 < entry.1) :
    findEntry name (head :: rest) = none := by
  apply findEntry_eq_none_of_lt
  intro entry hentry
  rcases List.mem_cons.mp hentry with rfl | hentry
  · exact hlt
  · exact String.lt_trans hlt (hrest entry hentry)

/-- What is found under a name is the value of the entry with that name. -/
theorem findEntry_eq_some_iff
    {entries : List (String × α)} (h : entries.Pairwise (·.1 < ·.1))
    (name : String) (value : α) :
    findEntry name entries = some value ↔ (name, value) ∈ entries := by
  induction entries with
  | nil => simp [findEntry]
  | cons head rest ih =>
      obtain ⟨key, found⟩ := head
      obtain ⟨hhead, hrest⟩ := List.pairwise_cons.mp h
      rw [findEntry, List.mem_cons, Prod.mk.injEq]
      by_cases hname : name = key
      · have hnone : (name, value) ∉ rest := by
          intro hmem
          exact String.lt_irrefl key (hname ▸ hhead _ hmem)
        rw [if_pos hname, Option.some_inj, eq_comm]
        simp [hname, hname ▸ hnone]
      · rw [if_neg hname, ih hrest]
        simp [hname]

theorem eq_of_findEntry_eq
    {first second : List (String × α)}
    (hfirst : first.Pairwise (·.1 < ·.1)) (hsecond : second.Pairwise (·.1 < ·.1))
    (h : ∀ name, findEntry name first = findEntry name second) :
    first = second := by
  induction first generalizing second with
  | nil =>
      cases second with
      | nil => rfl
      | cons head rest =>
          have hhead := h head.1
          rw [findEntry_head] at hhead
          simp [findEntry] at hhead
  | cons head rest ih =>
      cases second with
      | nil =>
          have hhead := h head.1
          rw [findEntry_head] at hhead
          simp [findEntry] at hhead
      | cons other others =>
          obtain ⟨hhead, hrest⟩ := List.pairwise_cons.mp hfirst
          obtain ⟨hother, hothers⟩ := List.pairwise_cons.mp hsecond
          have hname : head.1 = other.1 := by
            apply Decidable.byContradiction
            intro hne
            rcases lt_or_lt_of_ne hne with hlt | hlt
            · have hfound := h head.1
              rw [findEntry_head, findEntry_cons_of_lt hlt hother] at hfound
              simp at hfound
            · have hfound := h other.1
              rw [findEntry_head, findEntry_cons_of_lt hlt hhead] at hfound
              simp at hfound
          have hvalue : head.2 = other.2 := by
            have hfound := h head.1
            rw [findEntry_head, hname, findEntry_head] at hfound
            exact Option.some.inj hfound
          have htails : ∀ name, findEntry name rest = findEntry name others := by
            intro name
            by_cases hn : name = head.1
            · subst hn
              rw [findEntry_eq_none_of_lt hhead,
                findEntry_eq_none_of_lt (fun entry hentry => hname ▸ hother entry hentry)]
            · have hfound := h name
              simp only [findEntry, if_neg hn, if_neg (hname ▸ hn)] at hfound
              exact hfound
          rw [ih hrest hothers htails, Prod.ext hname hvalue]

end Keyed

/-- A map from names to values, in ascending order of the names. -/
structure Keyed (α : Type) where
  entries : List (String × α)
  ordered : entries.Pairwise (·.1 < ·.1)

namespace Keyed

def empty : Keyed α := ⟨[], List.Pairwise.nil⟩

instance : Inhabited (Keyed α) := ⟨empty⟩

def get? (map : Keyed α) (name : String) : Option α :=
  findEntry name map.entries

/-- Put a value under a name, in place of the value that was there. -/
def insert (map : Keyed α) (name : String) (value : α) : Keyed α :=
  ⟨insertEntry name value map.entries, pairwise_insertEntry name value map.ordered⟩

/-- The entries whose values `f` keeps, with what it makes of them. -/
def filterMap (map : Keyed α) (f : α → Option β) : Keyed β where
  entries := map.entries.filterMap fun entry => (f entry.2).map (entry.1, ·)
  ordered := by
    refine List.Pairwise.filterMap _ ?_ map.ordered
    intro first second hlt third hthird fourth hfourth
    simp only [Option.map_eq_some_iff] at hthird hfourth
    obtain ⟨_, _, rfl⟩ := hthird
    obtain ⟨_, _, rfl⟩ := hfourth
    exact hlt

@[simp] theorem get?_empty (name : String) : (empty : Keyed α).get? name = none := rfl

theorem get?_insert (map : Keyed α) (name : String) (value : α) (key : String) :
    (map.insert name value).get? key =
      if key = name then some value else map.get? key :=
  findEntry_insertEntry name value key map.entries

@[simp] theorem get?_insert_self (map : Keyed α) (name : String) (value : α) :
    (map.insert name value).get? name = some value := by
  simp [get?_insert]

theorem get?_eq_some_iff (map : Keyed α) (name : String) (value : α) :
    map.get? name = some value ↔ (name, value) ∈ map.entries :=
  findEntry_eq_some_iff map.ordered name value

theorem findEntry_filterMap
    (f : α → Option β) (name : String) {entries : List (String × α)}
    (h : entries.Pairwise (·.1 < ·.1)) :
    findEntry name (entries.filterMap fun entry => (f entry.2).map (entry.1, ·)) =
      (findEntry name entries).bind f := by
  induction entries with
  | nil => rfl
  | cons head rest ih =>
      obtain ⟨key, value⟩ := head
      obtain ⟨hhead, hrest⟩ := List.pairwise_cons.mp h
      cases hvalue : f value with
      | none =>
          rw [List.filterMap_cons_none (by simp [hvalue]), ih hrest, findEntry]
          by_cases hname : name = key
          · subst hname
            rw [if_pos rfl, findEntry_eq_none_of_lt hhead]
            simp [hvalue]
          · rw [if_neg hname]
      | some made =>
          rw [List.filterMap_cons_some (b := (key, made)) (by simp [hvalue]), findEntry,
            findEntry]
          by_cases hname : name = key
          · simp [hname, hvalue]
          · rw [if_neg hname, if_neg hname, ih hrest]

theorem get?_filterMap (map : Keyed α) (f : α → Option β) (name : String) :
    (map.filterMap f).get? name = (map.get? name).bind f :=
  findEntry_filterMap f name map.ordered

/-- Two maps that find the same value under every name are equal. -/
theorem eq_of_get?_eq
    {first second : Keyed α} (h : ∀ name, first.get? name = second.get? name) :
    first = second := by
  obtain ⟨entries, hentries⟩ := first
  obtain ⟨others, hothers⟩ := second
  have : entries = others := eq_of_findEntry_eq hentries hothers h
  subst this
  rfl

end Keyed

end Scenery
