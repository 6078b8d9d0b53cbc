/-!
# Tables

A table gives values to names, in the order in which the names were first given
one.  Giving a name another value leaves it in its place.
-/

namespace NodeFormula.Table

open List

variable {α : Type}

def insert (name : String) (value : α) : List (String × α) → List (String × α)
  | [] => [(name, value)]
  | entry :: rest =>
    if entry.1 = name then (name, value) :: rest else entry :: insert name value rest

theorem lookup_cons (name : String) (entry : String × α) (rest : List (String × α)) :
    (entry :: rest).lookup name = if entry.1 = name then some entry.2 else rest.lookup name := by
  rcases entry with ⟨key, value⟩
  rw [List.lookup_cons]
  by_cases same : key = name
  · simp [same]
  · have differs : (name == key) = false := beq_false_of_ne (Ne.symm same)
    simp [same, differs]

theorem lookup_insert (name other : String) (value : α) (table : List (String × α)) :
    (insert name value table).lookup other =
      if name = other then some value else table.lookup other := by
  induction table with
  | nil => rw [insert, lookup_cons]
  | cons entry rest ih =>
    by_cases here : entry.1 = name
    · rw [insert, if_pos here, lookup_cons, lookup_cons]
      by_cases same : name = other
      · simp [same]
      · simp [same, here]
    · rw [insert, if_neg here, lookup_cons, lookup_cons, ih]
      by_cases same : name = other
      · subst same
        simp [here]
      · simp [same]

theorem insert_of_not_mem (value : α) (missing : name ∉ table.map (·.1)) :
    insert name value table = table ++ [(name, value)] := by
  induction table with
  | nil => rfl
  | cons entry rest ih =>
    simp only [map_cons, mem_cons, not_or] at missing
    rw [insert, if_neg (Ne.symm missing.1), ih missing.2, cons_append]

variable {β : Type}

theorem lookup_map (change : α → β) (name : String) (table : List (String × α)) :
    (table.map fun entry => (entry.1, change entry.2)).lookup name =
      (table.lookup name).map change := by
  induction table with
  | nil => rfl
  | cons entry rest ih =>
    rw [map_cons, lookup_cons, lookup_cons, ih]
    split <;> rfl

theorem map_insert (change : α → β) (name : String) (value : α) (table : List (String × α)) :
    (insert name value table).map (fun entry => (entry.1, change entry.2)) =
      insert name (change value) (table.map fun entry => (entry.1, change entry.2)) := by
  induction table with
  | nil => rfl
  | cons entry rest ih =>
    rw [insert, map_cons, insert]
    split
    · rw [map_cons]
    · rw [map_cons, ih]

theorem mem_of_mem_insert {value : α} (member : entry ∈ insert name value table) :
    entry = (name, value) ∨ entry ∈ table := by
  induction table with
  | nil => exact .inl (mem_singleton.mp member)
  | cons first rest ih =>
    rw [insert] at member
    split at member
    · rcases mem_cons.mp member with rfl | inRest
      · exact .inl rfl
      · exact .inr (mem_cons_of_mem _ inRest)
    · rcases mem_cons.mp member with rfl | inRest
      · exact .inr mem_cons_self
      · rcases ih inRest with same | listed
        · exact .inl same
        · exact .inr (mem_cons_of_mem _ listed)

end NodeFormula.Table
