/-! Values under keys, in the order in which the keys came. -/

namespace Prognosis

/-- Values under keys. Of two entries with one key the first one counts. -/
abbrev Entries (β : Type) :=
  List (String × β)

namespace Entries

variable {β : Type}

/-- Gives a key a value, at the place of its entry if there is one. -/
def put (key : String) (value : β) : Entries β → Entries β
  | [] => [(key, value)]
  | (k, v) :: rest => if k == key then (k, value) :: rest else (k, v) :: put key value rest

/-- The entries of all other keys. -/
def without (key : String) (entries : Entries β) : Entries β :=
  entries.filter fun (k, _) => k != key

/-- Entries of several lists as one; a later value replaces an earlier one. -/
def ofList (entries : List (String × β)) : Entries β :=
  entries.foldl (fun done (key, value) => done.put key value) []

theorem lookup_put_self (key : String) (value : β) (entries : Entries β)
    : (entries.put key value).lookup key = some value := by
  induction entries with
  | nil => simp [put]
  | cons entry rest ih =>
      obtain ⟨k, v⟩ := entry
      by_cases h : k = key
      · subst h
        simp [put]
      · have hne : (key == k) = false := by simpa using Ne.symm h
        simp [put, h, List.lookup_cons, hne, ih]

theorem lookup_put_of_ne {key other : String} (value : β) (entries : Entries β)
    (h : other ≠ key)
    : (entries.put key value).lookup other = entries.lookup other := by
  induction entries with
  | nil =>
      have hne : (other == key) = false := by simpa using h
      simp [put, List.lookup_cons, hne]
  | cons entry rest ih =>
      obtain ⟨k, v⟩ := entry
      by_cases hk : k = key
      · subst hk
        have hne : (other == k) = false := by simpa using h
        simp [put, List.lookup_cons, hne]
      · by_cases ho : other = k
        · subst ho
          simp [put, hk]
        · have hne : (other == k) = false := by simpa using ho
          simp [put, hk, List.lookup_cons, hne, ih]

end Entries

end Prognosis
