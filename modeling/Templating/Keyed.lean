/-!
# Keyed lists

Bindings from names to things, kept as a list of pairs in the order of the
names. Names are ordered by code point, so that the order of a listing does not
depend on the order of the insertions.

Main statements: what is found after an insertion (`find?_insert_self`,
`find?_insert_of_ne`).
-/

namespace Templating
namespace Keyed

section Defs

variable {β : Type}

/-- What is bound to a name. -/
def find? (key : String) : List (String × β) → Option β
  | [] => none
  | (k, v) :: rest => if k = key then some v else find? key rest

/-- Binds a name, in place of an earlier binding of the same name. -/
def insert (key : String) (value : β) :
    List (String × β) → List (String × β)
  | [] => [(key, value)]
  | (k, v) :: rest =>
      if key = k then
        (key, value) :: rest
      else if key < k then
        (key, value) :: (k, v) :: rest
      else
        (k, v) :: insert key value rest

/-- Binds each name in turn; the last binding of a name stays. -/
def ofList (entries : List (String × β)) : List (String × β) :=
  entries.foldl (fun acc e => insert e.1 e.2 acc) []

/-- The bound names, in order. -/
def keys (entries : List (String × β)) : List String :=
  entries.map Prod.fst

end Defs

section Lemmas

variable {β : Type}

@[simp] theorem find?_insert_self
    (key : String) (value : β) (entries : List (String × β)) :
    find? key (insert key value entries) = some value := by
  induction entries with
  | nil => simp [insert, find?]
  | cons e rest ih =>
      obtain ⟨k, v⟩ := e
      by_cases h : key = k
      · simp [insert, find?, h]
      · by_cases hlt : key < k
        · simp [insert, find?, h, hlt]
        · simp [insert, find?, h, hlt, Ne.symm h, ih]

theorem find?_insert_of_ne
    {key other : String} (value : β) (entries : List (String × β))
    (h : other ≠ key) :
    find? other (insert key value entries) = find? other entries := by
  induction entries with
  | nil => simp [insert, find?, Ne.symm h]
  | cons e rest ih =>
      obtain ⟨k, v⟩ := e
      by_cases hk : key = k
      · subst hk
        simp [insert, find?, Ne.symm h]
      · by_cases hlt : key < k
        · simp [insert, find?, hk, hlt, Ne.symm h]
        · simp [insert, find?, hk, hlt, ih]

theorem mem_insert_cases
    {key : String} {value : β} {entry : String × β}
    {entries : List (String × β)}
    (h : entry ∈ insert key value entries) :
    entry = (key, value) ∨ entry ∈ entries := by
  induction entries with
  | nil => exact .inl (List.mem_singleton.1 h)
  | cons head rest ih =>
      simp only [insert] at h
      split at h
      · exact (List.mem_cons.1 h).imp_right (List.mem_cons_of_mem _)
      · split at h
        · exact List.mem_cons.1 h
        · rcases List.mem_cons.1 h with rfl | h
          · exact .inr List.mem_cons_self
          · exact (ih h).imp_right (List.mem_cons_of_mem _)

/-- Binding a name once more in the same way changes nothing. -/
theorem insert_insert (key : String) (value : β) (entries : List (String × β)) :
    insert key value (insert key value entries) = insert key value entries := by
  induction entries with
  | nil => simp [insert]
  | cons e rest ih =>
      obtain ⟨k, v⟩ := e
      by_cases h : key = k
      · simp [insert, h]
      · by_cases hlt : key < k
        · simp [insert, h, hlt]
        · simp [insert, h, hlt, ih]

end Lemmas

end Keyed
end Templating
