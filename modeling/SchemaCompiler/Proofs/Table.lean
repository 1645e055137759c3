import Mathlib.Data.List.Nodup
import SchemaCompiler.Table

/-!
# Tables of lists of pairs

What a table holds after pairs have been put into it one by one: its keys are those of the pairs,
each once, in the order of their first occurrence (`keys_ofList`), and a key has the value of the
last pair with this key (`get?_ofList`). With distinct keys the table holds the pairs as they are
(`entries_ofList_of_nodup`).
-/

namespace SchemaCompiler

/-- A list without repetitions has nothing to erase. -/
theorem eraseDups_of_nodup {keys : List String} (h : keys.Nodup) : keys.eraseDups = keys := by
  induction keys with
  | nil => rfl
  | cons key keys ih =>
    obtain ⟨absent, distinct⟩ := List.nodup_cons.mp h
    have hfilter : keys.filter (fun other => !other == key) = keys := by
      rw [List.filter_eq_self]
      intro other hmem
      have hne : other ≠ key := fun e => absent (e ▸ hmem)
      simpa using hne
    rw [List.eraseDups_cons, hfilter, ih distinct]

/-- Erasing repetitions keeps the order of what is left. -/
theorem eraseDups_sublist : ∀ keys : List String, keys.eraseDups.Sublist keys
  | [] => by simp
  | key :: keys => by
    rw [List.eraseDups_cons]
    exact ((eraseDups_sublist (keys.filter _)).trans List.filter_sublist).cons_cons key
termination_by keys => keys.length
decreasing_by exact Nat.lt_succ_of_le (List.length_filter_le _ _)

/-- A place in a list is its head or a place behind it. -/
theorem exists_split_cons_iff {α : Type} {head : α} {rest : List α} {P : List α → α → Prop} :
    (∃ earlier x later, head :: rest = earlier ++ x :: later ∧ P earlier x) ↔
      P [] head ∨ ∃ earlier x later, rest = earlier ++ x :: later ∧ P (head :: earlier) x := by
  constructor
  · rintro ⟨_ | ⟨first, earlier⟩, x, later, heq, hP⟩
    · cases heq
      exact .inl hP
    · cases heq
      exact .inr ⟨earlier, x, later, rfl, hP⟩
  · rintro (hP | ⟨earlier, x, later, rfl, hP⟩)
    · exact ⟨[], head, rest, rfl, hP⟩
    · exact ⟨head :: earlier, x, later, rfl, hP⟩

/-- The last thing of a kind: none that comes later is of the kind. -/
theorem find?_reverse_eq_some_iff {β : Type} (p : β → Bool) (xs : List β) (x : β) :
    xs.reverse.find? p = some x ↔
      p x = true ∧ ∃ earlier later, xs = earlier ++ x :: later ∧ ∀ y ∈ later, p y = false := by
  rw [List.find?_eq_some_iff_append]
  refine and_congr_right fun _ => ⟨?_, ?_⟩
  · rintro ⟨front, back, h, none⟩
    refine ⟨back.reverse, front.reverse, ?_, fun y hy => ?_⟩
    · rw [← List.reverse_reverse xs, h, List.reverse_append, List.reverse_cons, List.append_assoc,
        List.singleton_append]
    · simpa using none y (List.mem_reverse.mp hy)
  · rintro ⟨earlier, later, rfl, none⟩
    refine ⟨later.reverse, earlier.reverse, by simp, fun y hy => ?_⟩
    simpa using none y (List.mem_reverse.mp hy)

namespace Table

variable {α β : Type}

/-! ### Entries -/

/-- A key has a value exactly when the two are an entry. -/
theorem get?_eq_some_iff (t : Table α) (key : String) (value : α) :
    t.get? key = some value ↔ (key, value) ∈ t.entries := by
  have distinct := t.nodup_keys
  rw [get?, List.lookup_eq_some_iff]
  constructor
  · rintro ⟨front, back, h, -⟩
    rw [h]
    simp
  · intro hmem
    obtain ⟨front, back, h⟩ := List.append_of_mem hmem
    refine ⟨front, back, h, fun entry hfront => ?_⟩
    rw [h, Entries.keys, List.map_append, List.map_cons, List.nodup_append] at distinct
    have hne := distinct.2.2 entry.1 (List.mem_map_of_mem hfront) key (by simp)
    simpa [bne_iff_ne] using hne.symm

theorem mem_keys_iff (t : Table α) (key : String) :
    key ∈ t.keys ↔ ∃ value, t.get? key = some value := by
  simp only [get?_eq_some_iff, keys, Entries.keys, List.mem_map]
  constructor
  · rintro ⟨⟨_, value⟩, hmem, rfl⟩
    exact ⟨value, hmem⟩
  · rintro ⟨value, hmem⟩
    exact ⟨(key, value), hmem, rfl⟩

theorem length_keys (t : Table α) : t.keys.length = t.size := by
  rw [keys, Entries.keys, List.length_map, size]

theorem mem_values_iff (t : Table α) (value : α) :
    value ∈ t.values ↔ ∃ key, t.get? key = some value := by
  simp only [get?_eq_some_iff, values, List.mem_map]
  constructor
  · rintro ⟨⟨key, _⟩, hmem, rfl⟩
    exact ⟨key, hmem⟩
  · rintro ⟨key, hmem⟩
    exact ⟨(key, value), hmem, rfl⟩

/-! ### Putting pairs into a table -/

/-- What one run of insertions does to the keys: those that are new follow the old ones, each once,
in the order of their first occurrence. -/
theorem keys_foldl_insert (pairs : List (String × α)) (t : Table α) :
    (pairs.foldl (fun t pair => t.insert pair.1 pair.2) t).keys =
      t.keys ++ ((pairs.map Prod.fst).removeAll t.keys).eraseDups := by
  -- for any table to begin with, since each step leaves a fuller one to the next
  induction pairs generalizing t with
  | nil => simp
  | cons pair pairs ih =>
    obtain ⟨key, value⟩ := pair
    rw [List.foldl_cons, ih, keys_insert, List.map_cons, List.cons_removeAll]
    by_cases h : key ∈ t.keys
    · simp [h]
    · have later : ((pairs.map Prod.fst).removeAll t.keys).filter (fun other => !other == key) =
          (pairs.map Prod.fst).removeAll (t.keys ++ [key]) := by
        simp only [List.removeAll, List.filter_filter]
        refine List.filter_congr fun other _ => ?_
        simp [beq_eq_decide, Bool.and_comm]
      simp [h, List.eraseDups_cons, later]

/-- What one run of insertions does to the values: the last pair of a key decides, and a key that
no pair has keeps its value. -/
theorem get?_foldl_insert (pairs : List (String × α)) (t : Table α) (key : String) :
    (pairs.foldl (fun t pair => t.insert pair.1 pair.2) t).get? key =
      (pairs.reverse.lookup key).or (t.get? key) := by
  induction pairs generalizing t with
  | nil => simp
  | cons pair pairs ih =>
    rw [List.foldl_cons, ih, get?_insert, List.reverse_cons, List.lookup_append, Option.or_assoc]
    congr 1
    obtain ⟨k, value⟩ := pair
    rw [List.lookup_cons, List.lookup_nil]
    by_cases h : key = k
    · simp [h]
    · simp [h, beq_false_of_ne h]

/-- The keys of a table of pairs are theirs, each once, in the order of their first occurrence. -/
theorem keys_ofList (pairs : List (String × α)) :
    (ofList pairs).keys = (pairs.map Prod.fst).eraseDups := by
  rw [ofList, keys_foldl_insert]
  simp [List.removeAll]

/-- The value of a key in a table of pairs is that of the last pair with the key. -/
theorem get?_ofList (pairs : List (String × α)) (key : String) :
    (ofList pairs).get? key = pairs.reverse.lookup key := by
  have hempty : (empty : Table α).get? key = none := rfl
  rw [ofList, get?_foldl_insert, hempty, Option.or_none]

theorem entries_insert_of_notMem {key : String} {value : α} {entries : List (String × α)}
    (h : key ∉ Entries.keys entries) : Entries.insert key value entries = entries ++ [(key, value)] := by
  induction entries with
  | nil => rfl
  | cons entry rest ih =>
    simp only [Entries.keys, List.map_cons, List.mem_cons, not_or] at h
    rw [Entries.insert, if_neg (Ne.symm h.1), ih h.2, List.cons_append]

/-- Pairs with distinct keys, none of them in the table, are put behind its entries as they are. -/
theorem entries_foldl_insert_of_nodup (pairs : List (String × α)) (t : Table α)
    (h : (Entries.keys (t.entries ++ pairs)).Nodup) :
    (pairs.foldl (fun t pair => t.insert pair.1 pair.2) t).entries = t.entries ++ pairs := by
  induction pairs generalizing t with
  | nil => simp
  | cons pair pairs ih =>
    have absent : pair.1 ∉ Entries.keys t.entries := by
      rw [Entries.keys, List.map_append, List.map_cons, List.nodup_append] at h
      exact fun hmem => h.2.2 pair.1 hmem pair.1 (by simp) rfl
    have hinsert : (t.insert pair.1 pair.2).entries = t.entries ++ [pair] :=
      entries_insert_of_notMem absent
    rw [List.foldl_cons, ih, hinsert, List.append_assoc, List.singleton_append]
    rwa [hinsert, List.append_assoc, List.singleton_append]

/-- A table with distinct keys holds the pairs as they came. -/
theorem entries_ofList_of_nodup {pairs : List (String × α)} (h : (pairs.map Prod.fst).Nodup) :
    (ofList pairs).entries = pairs :=
  entries_foldl_insert_of_nodup pairs empty h

/-! ### Entries without a table -/

/-- A list of pairs gives the same entries with or without a table. -/
theorem entries_ofList (pairs : List (String × α)) :
    (ofList pairs).entries = Entries.ofPairs pairs := by
  have hfold : ∀ t : Table α, (pairs.foldl (fun t pair => t.insert pair.1 pair.2) t).entries =
      pairs.foldl (fun entries pair => Entries.insert pair.1 pair.2 entries) t.entries := by
    induction pairs with
    | nil => exact fun _ => rfl
    | cons pair pairs ih => exact fun t => ih (t.insert pair.1 pair.2)
  exact hfold empty

/-- The value of a key among entries is that of the last pair with the key. -/
theorem lookup_ofPairs (pairs : List (String × α)) (key : String) :
    (Entries.ofPairs pairs).lookup key = pairs.reverse.lookup key := by
  rw [← entries_ofList, ← get?_ofList]
  rfl

/-- Pairs with distinct keys are entries as they are. -/
theorem ofPairs_of_nodup {pairs : List (String × α)} (h : (pairs.map Prod.fst).Nodup) :
    Entries.ofPairs pairs = pairs := by
  rw [← entries_ofList, entries_ofList_of_nodup h]

theorem map_insert (f : String → α → β) (key : String) (value : α) (entries : List (String × α)) :
    (Entries.insert key value entries).map (fun entry => (entry.1, f entry.1 entry.2)) =
      Entries.insert key (f key value) (entries.map fun entry => (entry.1, f entry.1 entry.2)) := by
  induction entries with
  | nil => rfl
  | cons entry entries ih =>
    rw [Entries.insert, List.map_cons, Entries.insert]
    by_cases h : entry.1 = key
    · simp [h]
    · simp [h, ih]

/-- What is made of every value, depending on its key, can be made before or after. -/
theorem map_ofPairs (f : String → α → β) (pairs : List (String × α)) :
    (Entries.ofPairs pairs).map (fun entry => (entry.1, f entry.1 entry.2)) =
      Entries.ofPairs (pairs.map fun pair => (pair.1, f pair.1 pair.2)) := by
  have hfold : ∀ entries : List (String × α),
      (pairs.foldl (fun entries pair => Entries.insert pair.1 pair.2 entries) entries).map
          (fun entry => (entry.1, f entry.1 entry.2)) =
        (pairs.map fun pair => (pair.1, f pair.1 pair.2)).foldl
          (fun entries pair => Entries.insert pair.1 pair.2 entries)
          (entries.map fun entry => (entry.1, f entry.1 entry.2)) := by
    induction pairs with
    | nil => exact fun _ => rfl
    | cons pair pairs ih =>
      intro entries
      rw [List.foldl_cons, List.map_cons, List.foldl_cons, ih, map_insert]
  exact hfold []

/-! ### Tables of keyed things -/

section Keyed

variable (key : β → String) (value : β → α) (xs : List β)

theorem lookup_map_keyed (k : String) :
    (xs.map fun x => (key x, value x)).lookup k = (xs.find? (key · = k)).map value := by
  induction xs with
  | nil => rfl
  | cons x xs ih =>
    rw [List.map_cons, List.lookup_cons, List.find?_cons, ih]
    by_cases h : key x = k
    · simp [h]
    · simp [h, beq_false_of_ne (Ne.symm h)]

/-- Of things with one key the last counts. -/
theorem get?_ofList_map (k : String) :
    (ofList (xs.map fun x => (key x, value x))).get? k =
      (xs.reverse.find? (key · = k)).map value := by
  rw [get?_ofList, ← List.map_reverse, lookup_map_keyed]

variable {key xs}

/-- Among things with distinct keys the one with a key counts. -/
theorem get?_ofList_map_of_nodup (h : (xs.map key).Nodup) (k : String) (v : α) :
    (ofList (xs.map fun x => (key x, value x))).get? k = some v ↔
      ∃ x ∈ xs, key x = k ∧ value x = v := by
  have distinct : ((xs.map fun x => (key x, value x)).map Prod.fst).Nodup := by
    rw [List.map_map]
    exact h
  rw [get?_eq_some_iff, entries_ofList_of_nodup distinct, List.mem_map]
  simp only [Prod.mk.injEq]

end Keyed

end Table

end SchemaCompiler
