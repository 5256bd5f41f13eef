import Prognosis.Entries

/-! What is found under a key is one of the entries, what a choice of keys leaves, and which entries
keys without a double give.
-/

namespace Prognosis.Entries

variable {β : Type}

theorem mem_of_lookup {entries : List (String × β)} {key : String} {value : β}
    (found : entries.lookup key = some value)
    : (key, value) ∈ entries := by
  obtain ⟨before, after, rfl, -⟩ := List.lookup_eq_some_iff.mp found
  simp

theorem lookup_ne_none_of_mem {entries : List (String × β)} {key : String} {value : β}
    (member : (key, value) ∈ entries)
    : entries.lookup key ≠ none := by
  intro missing
  have apart := List.lookup_eq_none_iff.mp missing _ member
  simp at apart

/-- Of entries with distinct keys each is found. -/
theorem lookup_of_mem {entries : List (String × β)} (distinct : (entries.map (·.1)).Nodup)
    {key : String} {value : β} (member : (key, value) ∈ entries)
    : entries.lookup key = some value := by
  obtain ⟨before, after, rfl⟩ := List.append_of_mem member
  refine List.lookup_eq_some_iff.mpr ⟨before, after, rfl, fun entry earlier => ?_⟩
  rw [List.map_append, List.map_cons] at distinct
  have apart := (List.nodup_append.mp distinct).2.2 entry.1 (List.mem_map_of_mem earlier) key
    List.mem_cons_self
  simpa using Ne.symm apart

/-- Of entries with distinct keys the order makes no difference. -/
theorem lookup_eq_of_perm {entries others : List (String × β)}
    (distinct : (entries.map (·.1)).Nodup) (perm : entries.Perm others) (key : String)
    : entries.lookup key = others.lookup key := by
  have distinctOthers := (perm.map (·.1)).nodup_iff.mp distinct
  refine Option.ext fun value => ⟨fun found => ?_, fun found => ?_⟩
  · exact lookup_of_mem distinctOthers (perm.subset (mem_of_lookup found))
  · exact lookup_of_mem distinct (perm.symm.subset (mem_of_lookup found))

/-- A new entry in front shows only under its own key. -/
theorem lookup_cons_of_ne {key other : String} (different : other ≠ key) (value : β)
    (entries : List (String × β))
    : List.lookup other ((key, value) :: entries) = entries.lookup other := by
  have unequal : (other == key) = false := by simpa using different
  simp only [List.lookup_cons, unequal]

/-- What is left of the entries under some keys is found under these. By induction along the
entries.
-/
theorem lookup_filter (keep : String → Bool) (key : String) (entries : List (String × β))
    : List.lookup key (entries.filter fun entry => keep entry.1)
      = if keep key = true then entries.lookup key else none := by
  induction entries with
  | nil => simp
  | cons entry rest ih =>
      obtain ⟨k, v⟩ := entry
      rw [List.filter_cons]
      by_cases same : key = k
      · subst same
        cases kept : keep key <;> simp [kept, ih]
      · rw [lookup_cons_of_ne same, ← ih]
        cases keep k with
        | false => simp
        | true => simp [lookup_cons_of_ne same]

/-- Removal of a key leaves the entries of the others. -/
theorem lookup_without {entries : Entries β} {key other : String} {value : β}
    (found : (entries.without key).lookup other = some value)
    : other ≠ key ∧ entries.lookup other = some value := by
  induction entries with
  | nil => simp [without] at found
  | cons entry rest ih =>
      obtain ⟨k, v⟩ := entry
      simp only [without, List.filter_cons] at found ih
      by_cases removed : k = key
      · subst removed
        simp only [bne_self_eq_false, Bool.false_eq_true, if_false] at found
        obtain ⟨different, known⟩ := ih found
        exact ⟨different, (lookup_cons_of_ne different v rest).trans known⟩
      · have stays : (k != key) = true := by simpa using removed
        simp only [stays, if_true] at found
        by_cases same : other = k
        · subst same
          exact ⟨removed, by simpa using found⟩
        · rw [lookup_cons_of_ne same] at found ⊢
          exact ih found

/-- A value under a new key comes last. By induction along the entries. -/
theorem put_of_new {entries : Entries β} {key : String} (fresh : key ∉ entries.map (·.1))
    (value : β)
    : entries.put key value = entries ++ [(key, value)] := by
  induction entries with
  | nil => rfl
  | cons entry rest ih =>
      obtain ⟨k, v⟩ := entry
      simp only [List.map_cons, List.mem_cons, not_or] at fresh
      have other : (k == key) = false := by simpa using Ne.symm fresh.1
      simp only [put, other, Bool.false_eq_true, if_false, ih fresh.2, List.cons_append]

/-- Of entries with distinct keys none replaces another one. By induction along the entries, with
those before them.
-/
theorem ofList_eq {entries : List (String × β)} (distinct : (entries.map (·.1)).Nodup)
    : ofList entries = entries := by
  have appended (done : Entries β) (apart : ((done ++ entries).map (·.1)).Nodup)
      : entries.foldl (fun done entry => done.put entry.1 entry.2) done = done ++ entries := by
    induction entries generalizing done with
    | nil => simp
    | cons entry rest ih =>
        obtain ⟨k, v⟩ := entry
        have rearranged : done ++ (k, v) :: rest = done ++ [(k, v)] ++ rest := by simp
        have fresh : k ∉ done.map (·.1) := by
          rw [List.map_append, List.map_cons, List.nodup_append] at apart
          exact fun before => apart.2.2 _ before _ List.mem_cons_self rfl
        rw [rearranged] at apart ⊢
        rw [List.foldl_cons, ← ih (List.nodup_cons.mp distinct).2 _ apart, ← put_of_new fresh v]
  exact appended [] distinct

/-- What is found once entries were put to others is one of these or was there before. By induction
along the entries.
-/
theorem mem_or_of_lookup_puts {entries : List (String × β)} {done : Entries β} {key : String}
    {value : β}
    (found
      : (entries.foldl (fun done entry => done.put entry.1 entry.2) done).lookup key = some value)
    : (key, value) ∈ entries ∨ done.lookup key = some value := by
  induction entries generalizing done with
  | nil => exact Or.inr found
  | cons entry rest ih =>
      obtain ⟨k, v⟩ := entry
      rcases ih found with later | now
      · exact Or.inl (List.mem_cons_of_mem _ later)
      · by_cases same : key = k
        · subst same
          rw [lookup_put_self] at now
          cases now
          exact Or.inl List.mem_cons_self
        · rw [lookup_put_of_ne v done same] at now
          exact Or.inr now

theorem mem_of_lookup_ofList {entries : List (String × β)} {key : String} {value : β}
    (found : (ofList entries).lookup key = some value)
    : (key, value) ∈ entries :=
  (mem_or_of_lookup_puts found).resolve_right (by simp)

end Prognosis.Entries
