/-
# Tables sorted by name

A table is a list of named entries whose names stand in strictly increasing order of their code
points. The fields of a record and the functions an evaluator knows are kept in tables, so what is
listed never depends on the order in which entries were set.
-/

namespace ExprTree.Table

variable {α : Type}

/-- Set the entry called `name`, replacing an earlier entry of that name. -/
def insert (name : String) (entry : α) : List (String × α) → List (String × α)
  | [] => [(name, entry)]
  | (key, value) :: rest =>
      if key < name then (key, value) :: insert name entry rest
      else if key = name then (name, entry) :: rest
      else (name, entry) :: (key, value) :: rest

/-- The table that holds the given entries; of two entries of one name the later one stays. -/
def ofList (entries : List (String × α)) : List (String × α) :=
  entries.foldl (fun table entry => insert entry.1 entry.2 table) []

/-- The names of a table, in order. -/
def names (table : List (String × α)) : List String :=
  table.map Prod.fst

/-- An entry just set is the one found. -/
theorem lookup_insert_self (name : String) (entry : α) (table : List (String × α)) :
    (insert name entry table).lookup name = some entry := by
  induction table with
  | nil => simp [insert]
  | cons head rest ih =>
      obtain ⟨key, value⟩ := head
      by_cases below : key < name
      · have different : (name == key) = false := by
          simpa using fun same : name = key => String.lt_irrefl name (same ▸ below)
        simp [insert, below, List.lookup_cons, different, ih]
      · by_cases same : key = name <;> simp [insert, below, same]

end ExprTree.Table
