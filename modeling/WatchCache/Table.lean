set_option autoImplicit false

/-!
# Tables

Values by key, each key once.  `insert` replaces a value where it stands and puts a new key at the
end; `ofPairs` lets the last of equal keys win.  The `find?` lemmas say what a table holds after
each operation.
-/

namespace WatchCache

/-- Values by key, each key once. -/
abbrev Table (κ α : Type) := List (κ × α)

namespace Table

variable {κ α : Type} [DecidableEq κ]

/-- The value under a key. -/
def find? (t : Table κ α) (key : κ) : Option α :=
  match t with
  | [] => none
  | (k, v) :: rest => if k = key then some v else find? rest key

/-- Whether a key has a value. -/
def has (t : Table κ α) (key : κ) : Bool := (find? t key).isSome

/-- The table with a value under a key. -/
def insert (t : Table κ α) (key : κ) (value : α) : Table κ α :=
  match t with
  | [] => [(key, value)]
  | (k, v) :: rest => if k = key then (key, value) :: rest else (k, v) :: insert rest key value

/-- The table without a key. -/
def erase (t : Table κ α) (key : κ) : Table κ α := t.filter fun (k, _) => k ≠ key

/-- The table with the last value of every key of a list. -/
def ofPairs (pairs : List (κ × α)) : Table κ α :=
  pairs.foldl (fun t (k, v) => t.insert k v) []

/-- The keys in order. -/
def keys (t : Table κ α) : List κ := t.map Prod.fst

/-- The values in order of their keys. -/
def values (t : Table κ α) : List α := t.map Prod.snd

@[simp] theorem find?_nil (key : κ) : find? ([] : Table κ α) key = none := rfl

@[simp] theorem find?_cons (k key : κ) (v : α) (t : Table κ α) :
    find? ((k, v) :: t) key = if k = key then some v else find? t key := rfl

@[simp] theorem find?_insert_self (t : Table κ α) (key : κ) (value : α) :
    (t.insert key value).find? key = some value := by
  induction t with
  | nil => simp [insert]
  | cons p rest ih =>
    obtain ⟨k, v⟩ := p
    simp only [insert]
    split <;> simp_all

theorem find?_insert_of_ne (t : Table κ α) {key other : κ} (value : α) (h : other ≠ key) :
    (t.insert key value).find? other = t.find? other := by
  induction t with
  | nil => simp [insert, h.symm]
  | cons p rest ih =>
    obtain ⟨k, v⟩ := p
    simp only [insert]
    split
    · next hk => subst hk; simp [h.symm]
    · simp [ih]

@[simp] theorem find?_erase_self (t : Table κ α) (key : κ) : (t.erase key).find? key = none := by
  induction t with
  | nil => rfl
  | cons p rest ih =>
    obtain ⟨k, v⟩ := p
    simp only [erase, List.filter_cons] at ih ⊢
    split <;> simp_all

theorem find?_erase_of_ne (t : Table κ α) {key other : κ} (h : other ≠ key) :
    (t.erase key).find? other = t.find? other := by
  induction t with
  | nil => rfl
  | cons p rest ih =>
    obtain ⟨k, v⟩ := p
    simp only [erase, List.filter_cons] at ih ⊢
    split
    · rw [find?_cons, find?_cons, ih]
    · next hk =>
      have hk : k = key := by simpa using hk
      rw [ih, find?_cons, if_neg (hk ▸ h.symm)]

end Table

end WatchCache
