/-!
# Tables in insertion order

A `Table α` maps texts to values and remembers the order in which its keys came. A new key goes
to the end; giving a present key another value leaves the key where it is. So the order of a
table is the order of first occurrences, and its values are the last ones given.

The keys of a table are pairwise distinct, which is part of the type.
-/

namespace SchemaCompiler

namespace Entries

variable {α : Type}

/-- The keys of a list of entries. -/
def keys (entries : List (String × α)) : List String :=
  entries.map Prod.fst

/-- Gives `key` the value `value`: in place if the key is present, else at the end. -/
def insert (key : String) (value : α) : List (String × α) → List (String × α)
  | [] => [(key, value)]
  | entry :: rest =>
    if entry.1 = key then (key, value) :: rest else entry :: insert key value rest

/-- The entries of a list of key and value pairs, the last value of a key winning. -/
def ofPairs (pairs : List (String × α)) : List (String × α) :=
  pairs.foldl (fun entries pair => insert pair.1 pair.2 entries) []

theorem keys_insert (key : String) (value : α) (entries : List (String × α)) :
    keys (insert key value entries) =
      if key ∈ keys entries then keys entries else keys entries ++ [key] := by
  induction entries with
  | nil => simp [keys, insert]
  | cons entry rest ih =>
    by_cases h : entry.1 = key
    · simp [insert, keys, h]
    · simp only [keys] at ih
      have h' : key ≠ entry.1 := fun e => h e.symm
      simp only [insert, h, if_false, keys, List.map_cons, ih, List.mem_cons, h', false_or]
      split <;> simp_all

/-- Inserting keeps the keys distinct. -/
theorem nodup_keys_insert {key : String} {value : α} {entries : List (String × α)}
    (h : (keys entries).Nodup) : (keys (insert key value entries)).Nodup := by
  rw [keys_insert]
  split
  · exact h
  · next absent =>
    rw [List.nodup_append]
    exact ⟨h, by simp, fun a ha b hb e => by simp at hb; exact absent (hb ▸ e ▸ ha)⟩

/-- Looking up after an insertion: the key has the value given, every other key its old one. -/
theorem lookup_insert (key other : String) (value : α) (entries : List (String × α)) :
    (insert key value entries).lookup other =
      if other = key then some value else entries.lookup other := by
  induction entries with
  | nil =>
    by_cases e : other = key
    · simp [insert, e]
    · simp [insert, List.lookup_cons, beq_false_of_ne e, e]
  | cons entry rest ih =>
    obtain ⟨k, v⟩ := entry
    by_cases h : k = key
    · subst h
      by_cases e : other = k
      · simp [insert, e]
      · have : (other == k) = false := by simpa using e
        simp [insert, List.lookup_cons, e, this]
    · cases hb : (other == k) with
      | true =>
        have : other = k := by simpa using hb
        simp [insert, h, this]
      | false => simpa [insert, h, List.lookup_cons, hb] using ih

end Entries

/-- A map from texts to values that keeps the order in which its keys were first given. -/
structure Table (α : Type) where
  /-- The keys with their values, in order. -/
  entries : List (String × α)
  /-- No key occurs twice. -/
  nodup_keys : (Entries.keys entries).Nodup

namespace Table

variable {α : Type}

/-- The table without entries. -/
def empty : Table α :=
  ⟨[], by simp [Entries.keys]⟩

instance : Inhabited (Table α) :=
  ⟨empty⟩

/-- Gives a key a value: in place if the key is present, else at the end. -/
def insert (t : Table α) (key : String) (value : α) : Table α :=
  ⟨Entries.insert key value t.entries, Entries.nodup_keys_insert t.nodup_keys⟩

/-- The table of a list of pairs, the last value of a key winning at the key's first place. -/
def ofList (pairs : List (String × α)) : Table α :=
  pairs.foldl (fun t pair => t.insert pair.1 pair.2) empty

/-- The value of a key. -/
def get? (t : Table α) (key : String) : Option α :=
  t.entries.lookup key

/-- The keys in order. -/
def keys (t : Table α) : List String :=
  Entries.keys t.entries

/-- The values in the order of their keys. -/
def values (t : Table α) : List α :=
  t.entries.map Prod.snd

/-- How many keys the table has. -/
def size (t : Table α) : Nat :=
  t.entries.length

/-- Whether the table has no keys. -/
def isEmpty (t : Table α) : Bool :=
  t.entries.isEmpty

@[simp] theorem keys_empty : (empty : Table α).keys = [] := rfl

/-- A key that is new goes to the end, and one that is present stays in place. -/
theorem keys_insert (t : Table α) (key : String) (value : α) :
    (t.insert key value).keys = if key ∈ t.keys then t.keys else t.keys ++ [key] :=
  Entries.keys_insert key value t.entries

/-- After an insertion the key has the value given and every other key is as it was. -/
theorem get?_insert (t : Table α) (key other : String) (value : α) :
    (t.insert key value).get? other = if other = key then some value else t.get? other :=
  Entries.lookup_insert key other value t.entries

end Table

end SchemaCompiler
