/-! Tables ordered by key.

A table keeps its entries in ascending order of key, so that listing it gives
the order in which entries are shown. -/
namespace ColdSigner

structure Table (κ α : Type) where
  entries : List (κ × α) := []

namespace Table

variable {κ α : Type} [DecidableEq κ]

instance : Inhabited (Table κ α) := ⟨{}⟩

/-- What is stored under a key. -/
def find? (t : Table κ α) (k : κ) : Option α :=
  (t.entries.find? fun e => e.1 = k).map (·.2)

def insertEntry [LT κ] [DecidableLT κ] (k : κ) (v : α) : List (κ × α) → List (κ × α)
  | [] => [(k, v)]
  | e :: rest =>
    if k = e.1 then (k, v) :: rest
    else if k < e.1 then (k, v) :: e :: rest
    else e :: insertEntry k v rest

/-- Stores `v` under `k`, in place of what was there. -/
def insert [LT κ] [DecidableLT κ] (t : Table κ α) (k : κ) (v : α) : Table κ α :=
  ⟨insertEntry k v t.entries⟩

/-- Drops what is stored under `k`. -/
def erase (t : Table κ α) (k : κ) : Table κ α := ⟨t.entries.filter fun e => e.1 ≠ k⟩

/-- Keeps the entries that satisfy `p`. -/
def filter (t : Table κ α) (p : κ → α → Bool) : Table κ α :=
  ⟨t.entries.filter fun e => p e.1 e.2⟩

def keys (t : Table κ α) : List κ := t.entries.map (·.1)

def values (t : Table κ α) : List α := t.entries.map (·.2)

def size (t : Table κ α) : Nat := t.entries.length

@[simp] theorem find?_empty (k : κ) : ({} : Table κ α).find? k = none := rfl

theorem find?_insertEntry [LT κ] [DecidableLT κ] (entries : List (κ × α)) (k : κ) (v : α) (k' : κ) :
    (insertEntry k v entries).find? (fun e => e.1 = k') =
      if k = k' then some (k, v) else entries.find? fun e => e.1 = k' := by
  induction entries with
  | nil => by_cases h : k = k' <;> simp [insertEntry, h]
  | cons e rest ih =>
    unfold insertEntry
    split
    · next he => subst he; by_cases h : e.1 = k' <;> simp [h]
    · next he =>
      split
      · by_cases h : k = k' <;> simp [h]
      · by_cases h : e.1 = k'
        · have : k ≠ k' := fun hk => he (hk.trans h.symm)
          simp [h, this]
        · simp [h, ih]

theorem find?_insert [LT κ] [DecidableLT κ] (t : Table κ α) (k : κ) (v : α) (k' : κ) :
    (t.insert k v).find? k' = if k = k' then some v else t.find? k' := by
  unfold find? insert
  rw [find?_insertEntry]
  split <;> rfl

theorem find?_erase (t : Table κ α) (k k' : κ) :
    (t.erase k).find? k' = if k = k' then none else t.find? k' := by
  unfold find? erase
  by_cases h : k = k'
  · subst h
    simp
  · rw [if_neg h, List.find?_filter]
    congr 2
    funext e
    by_cases he : e.1 = k' <;> simp [he, Ne.symm h]

end Table

end ColdSigner
