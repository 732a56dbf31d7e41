namespace Attribution

abbrev Assoc (α β : Type) := List (α × β)

namespace Assoc

variable {α β : Type} [DecidableEq α]

def find? (table : Assoc α β) (key : α) : Option β :=
  match table with
  | [] => none
  | (k, v) :: rest => if k = key then some v else find? rest key

def set (table : Assoc α β) (key : α) (value : β) : Assoc α β :=
  match table with
  | [] => [(key, value)]
  | (k, v) :: rest => if k = key then (k, value) :: rest else (k, v) :: set rest key value

def erase (table : Assoc α β) (key : α) : Assoc α β :=
  match table with
  | [] => []
  | (k, v) :: rest => if k = key then rest else (k, v) :: erase rest key

/-- The table of pairs set one after another. -/
def ofPairs (pairs : List (α × β)) : Assoc α β :=
  pairs.foldl (fun table p => set table p.1 p.2) []

def keys (table : Assoc α β) : List α := table.map (·.1)

theorem find?_set (table : Assoc α β) (key k : α) (value : β) :
    find? (set table key value) k = if k = key then some value else find? table k := by
  induction table with
  | nil => simp only [set, find?, eq_comm]
  | cons p rest ih =>
    obtain ⟨j, v⟩ := p
    by_cases hj : j = key
    · subst hj
      by_cases hk : k = j
      · simp [set, find?, hk]
      · simp [set, find?, hk, Ne.symm hk]
    · by_cases hk : k = j
      · subst hk
        simp [set, find?, hj]
      · simp [set, find?, hj, Ne.symm hk, ih]

end Assoc
end Attribution
