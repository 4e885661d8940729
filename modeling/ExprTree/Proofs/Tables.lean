/-
# Tables in order

The names of a table stand in strictly increasing order whatever order its entries were set in, and
setting the entries of a table one after the other gives that table again. A table holds only entries
that were set, of those with one name the last one.
-/
import Mathlib.Data.List.Induction
import Mathlib.Data.List.Perm.Subperm
import Mathlib.Data.String.Basic
import ExprTree.Table

namespace ExprTree.Table

variable {α : Type}

/-- The names of a table stand in strictly increasing order. -/
def Sorted (table : List (String × α)) : Prop :=
  (names table).Pairwise (· < ·)

theorem sorted_cons {name : String} {entry : α} {table : List (String × α)} :
    Sorted ((name, entry) :: table) ↔ (∀ key ∈ names table, name < key) ∧ Sorted table :=
  List.pairwise_cons

theorem mem_names_insert {name key : String} {entry : α} {table : List (String × α)}
    (h : key ∈ names (insert name entry table)) : key = name ∨ key ∈ names table := by
  induction table with
  | nil => exact Or.inl (List.mem_singleton.mp h)
  | cons head table ih =>
      obtain ⟨first, value⟩ := head
      rw [insert] at h
      split_ifs at h with hlt heq
      · rcases List.mem_cons.mp h with rfl | h
        · exact Or.inr List.mem_cons_self
        · exact (ih h).imp_right (List.mem_cons_of_mem _)
      · exact (List.mem_cons.mp h).imp_right (List.mem_cons_of_mem _)
      · exact List.mem_cons.mp h

/-- Setting an entry keeps the names in order. -/
theorem sorted_insert {table : List (String × α)} (h : Sorted table) (name : String) (entry : α) :
    Sorted (insert name entry table) := by
  induction table with
  | nil => exact List.pairwise_singleton _ _
  | cons head table ih =>
      obtain ⟨first, value⟩ := head
      obtain ⟨hfirst, htable⟩ := sorted_cons.mp h
      rw [insert]
      split_ifs with hlt heq
      · refine sorted_cons.mpr ⟨fun key hkey => ?_, ih htable⟩
        rcases mem_names_insert hkey with rfl | hkey
        · exact hlt
        · exact hfirst key hkey
      · exact sorted_cons.mpr ⟨heq ▸ hfirst, htable⟩
      · have hname : name < first := lt_of_le_of_ne (not_lt.mp hlt) (Ne.symm heq)
        refine sorted_cons.mpr ⟨fun key hkey => ?_, h⟩
        rcases List.mem_cons.mp hkey with rfl | hkey
        · exact hname
        · exact hname.trans (hfirst key hkey)

/-- **Tables are in order**, whatever the order in which their entries were set. -/
theorem sorted_ofList (entries : List (String × α)) : Sorted (ofList entries) := by
  unfold ofList
  refine List.foldlRecOn entries _ List.Pairwise.nil fun table h entry _ => ?_
  exact sorted_insert h entry.1 entry.2

/-- An entry whose name is greater than all names of a table is set behind them. -/
theorem insert_of_forall_lt {name : String} {table : List (String × α)}
    (h : ∀ key ∈ names table, key < name) (entry : α) :
    insert name entry table = table ++ [(name, entry)] := by
  induction table with
  | nil => rfl
  | cons head table ih =>
      obtain ⟨first, value⟩ := head
      rw [insert, if_pos (h first List.mem_cons_self),
        ih fun key hkey => h key (List.mem_cons_of_mem _ hkey)]
      rfl

/-- The entries of a table, set one after the other, give that table again. -/
theorem ofList_of_sorted {table : List (String × α)} (h : Sorted table) : ofList table = table := by
  suffices hfold : ∀ front : List (String × α), Sorted (front ++ table) →
      table.foldl (fun table entry => insert entry.1 entry.2 table) front = front ++ table from
    hfold [] h
  induction table with
  | nil => exact fun front _ => (List.append_nil front).symm
  | cons entry table ih =>
      intro front hsorted
      have hlt : ∀ key ∈ names front, key < entry.1 := fun key hkey => by
        rw [Sorted, names, List.map_append, List.pairwise_append] at hsorted
        exact hsorted.2.2 key hkey entry.1 List.mem_cons_self
      have hshift : front ++ entry :: table = (front ++ [entry]) ++ table := by simp
      rw [List.foldl_cons, insert_of_forall_lt hlt, hshift]
      exact ih (List.pairwise_cons.mp h).2 _ (hshift ▸ hsorted)

/-! ## What a table holds -/

open List in
/-- Setting an entry may drop one, and adds no other. -/
theorem subperm_insert (name : String) (entry : α) (table : List (String × α)) :
    insert name entry table <+~ (name, entry) :: table := by
  induction table with
  | nil => exact Subperm.refl _
  | cons head table ih =>
      obtain ⟨first, value⟩ := head
      rw [insert]
      split_ifs with hlt heq
      · exact ((subperm_cons _).mpr ih).trans (Perm.swap _ _ _).subperm
      · exact (subperm_cons _).mpr (sublist_cons_self _ _).subperm
      · exact Subperm.refl _

/-- The table of some entries and one more is that of the others with the last one set in it. -/
theorem ofList_concat (entries : List (String × α)) (entry : String × α) :
    ofList (entries ++ [entry]) = insert entry.1 entry.2 (ofList entries) := by
  rw [ofList, List.foldl_append]
  rfl

open List in
/-- A table holds entries that were set, each as often at most. -/
theorem subperm_ofList (entries : List (String × α)) : ofList entries <+~ entries := by
  induction entries using List.reverseRecOn with
  | nil => exact Subperm.refl _
  | append_singleton entries entry ih =>
      rw [ofList_concat]
      have hinsert := subperm_insert entry.1 entry.2 (ofList entries)
      exact (hinsert.trans ((subperm_cons _).mpr ih)).trans (perm_append_singleton _ _).symm.subperm

/-- An entry just set is the one found under its name; all other names keep theirs. -/
theorem lookup_insert (name key : String) (entry : α) (table : List (String × α)) :
    (insert name entry table).lookup key = if key = name then some entry else table.lookup key := by
  split_ifs with hkey
  · rw [hkey, lookup_insert_self]
  · induction table with
    | nil => rw [insert, List.lookup_cons, beq_false_of_ne hkey]
    | cons head table ih =>
        obtain ⟨first, value⟩ := head
        rw [insert]
        split_ifs with hlt heq
        · rw [List.lookup_cons, List.lookup_cons, ih]
        · subst heq
          rw [List.lookup_cons, List.lookup_cons, beq_false_of_ne hkey]
        · rw [List.lookup_cons, beq_false_of_ne hkey]

/-- **Of the entries set under one name the last one is found.** -/
theorem lookup_ofList (entries : List (String × α)) (name : String) :
    (ofList entries).lookup name = entries.reverse.lookup name := by
  induction entries using List.reverseRecOn with
  | nil => rfl
  | append_singleton entries entry ih =>
      rw [ofList_concat, lookup_insert, ih, List.reverse_concat, List.lookup_cons]
      split_ifs with hname
      · rw [hname, beq_self_eq_true]
      · rw [beq_false_of_ne hname]

/-- Entries changed one by one are found changed. -/
theorem lookup_map {β : Type} (f : α → β) (entries : List (String × α)) (name : String) :
    (entries.map (Prod.map id f)).lookup name = (entries.lookup name).map f := by
  induction entries with
  | nil => rfl
  | cons entry entries ih =>
      rw [List.map_cons, List.lookup_cons, List.lookup_cons, ih, Prod.map_fst, id]
      split <;> rfl

end ExprTree.Table
