/-!
# Entries under keys

A list of names with values, in which names with the same key stand for the same entry.  The
spelling under which an entry came first stays.
-/

namespace ContainerAudit.Entries

variable {α κ β : Type} [DecidableEq κ]

/-- The value under a key. -/
def find? (key : α → κ) (entries : List (α × β)) (k : κ) : Option β :=
  (entries.find? fun entry => key entry.1 = k).map (·.2)

/-- Sets the value of a name. -/
def insert (key : α → κ) (name : α) (value : β) : List (α × β) → List (α × β)
  | [] => [(name, value)]
  | entry :: rest =>
    if key entry.1 = key name then (entry.1, value) :: rest
    else entry :: insert key name value rest

/-- Takes the entry of a key out. -/
def erase (key : α → κ) (k : κ) (entries : List (α × β)) : List (α × β) :=
  entries.filter fun entry => key entry.1 ≠ k

/-- An inserted value is found under its key. -/
theorem find?_insert_self (key : α → κ) (name : α) (value : β) (entries : List (α × β)) :
    find? key (insert key name value entries) (key name) = some value := by
  induction entries with
  | nil => simp [insert, find?]
  | cons entry rest ih =>
    by_cases h : key entry.1 = key name
    · simp [insert, find?, h]
    · simpa [insert, find?, h] using ih

/-- An insertion changes nothing under the other keys. -/
theorem find?_insert_of_ne (key : α → κ) {name : α} {k : κ} (value : β)
    (entries : List (α × β)) (h : key name ≠ k) :
    find? key (insert key name value entries) k = find? key entries k := by
  induction entries with
  | nil => simp [insert, find?, h]
  | cons entry rest ih =>
    by_cases h' : key entry.1 = key name
    · simp [insert, find?, h', h]
    · rw [insert, if_neg h']
      simp only [find?, List.find?_cons] at ih ⊢
      split
      · rfl
      · exact ih

end ContainerAudit.Entries
