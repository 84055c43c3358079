/-!
# Entries

Named entries in the order in which their names first appeared. Writing an entry that is
already there replaces its value and keeps its place.

* `Entries.insert`: writes one entry.
* `Entries.ofList`: writes entries one after another.
-/

namespace Feel

namespace Entries

/-- Writes an entry: in place when the name is there, else at the end. -/
def insert {α : Type} : List (String × α) → String → α → List (String × α)
  | [], name, value => [(name, value)]
  | (n, v) :: entries, name, value =>
    if n = name then (n, value) :: entries else (n, v) :: insert entries name value

/-- Writes entries one after another. -/
def ofList {α : Type} (entries : List (String × α)) : List (String × α) :=
  entries.foldl (fun acc (name, value) => insert acc name value) []

@[simp] theorem lookup_insert_self {α : Type} (entries : List (String × α)) (name : String)
    (value : α) : (insert entries name value).lookup name = some value := by
  induction entries with
  | nil => simp [insert]
  | cons e entries ih =>
    obtain ⟨n, v⟩ := e
    by_cases h : n = name
    · simp [insert, h]
    · have h' : (name == n) = false := by simpa using fun e => h e.symm
      simp [insert, h, List.lookup_cons, h', ih]

theorem map_fst_insert {α : Type} (entries : List (String × α)) (name : String) (value : α) :
    (insert entries name value).map (·.1) =
      if name ∈ entries.map (·.1) then entries.map (·.1) else entries.map (·.1) ++ [name] := by
  induction entries with
  | nil => simp [insert]
  | cons e entries ih =>
    obtain ⟨n, v⟩ := e
    by_cases h : n = name
    · simp [insert, h]
    · have h' : ¬ name = n := fun e => h e.symm
      simp only [insert, h, if_false, List.map_cons, ih, List.mem_cons, h', false_or]
      split <;> simp

end Entries

end Feel
