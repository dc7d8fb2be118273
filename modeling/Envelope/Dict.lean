/-!
# Dictionaries

Finite maps from texts, kept as a list whose keys increase strictly.  The
order of texts is that of their characters, and so of their bytes.  Since the
written form is unique, two dictionaries with the same entries are equal
(`ext_get?`).
-/

namespace Envelope

/-- A finite map from texts to `α`. -/
structure Dict (α : Type) where
  /-- The entries in increasing order of their keys. -/
  entries : List (String × α)
  /-- No key is repeated or out of order. -/
  increasing : entries.Pairwise fun a b => a.1 < b.1
deriving DecidableEq

/-- A dictionary of texts: key properties, rule parameters, configurations. -/
abbrev Properties := Dict String

namespace Dict

variable {α β : Type}

/-- The dictionary without entries. -/
def empty : Dict α := ⟨[], .nil⟩

instance : EmptyCollection (Dict α) := ⟨empty⟩

instance : Inhabited (Dict α) := ⟨empty⟩

/-- The value under a key. -/
def get? (d : Dict α) (key : String) : Option α :=
  d.entries.lookup key

/-- The number of entries. -/
def size (d : Dict α) : Nat :=
  d.entries.length

/-- Puts an entry into an increasing list, over an entry with the same key. -/
def insertEntry (key : String) (value : α) : List (String × α) → List (String × α)
  | [] => [(key, value)]
  | (k, v) :: rest =>
    if key < k then (key, value) :: (k, v) :: rest
    else if key = k then (key, value) :: rest
    else (k, v) :: insertEntry key value rest

theorem fst_mem_insertEntry {key : String} {value : α} {l : List (String × α)} {e : String × α}
    (h : e ∈ insertEntry key value l) : e.1 = key ∨ e ∈ l := by
  induction l with
  | nil => simp_all [insertEntry]
  | cons head rest ih =>
    obtain ⟨k, v⟩ := head
    unfold insertEntry at h
    split at h
    · rcases List.mem_cons.mp h with rfl | h
      · exact .inl rfl
      · exact .inr h
    · split at h
      · rcases List.mem_cons.mp h with rfl | h
        · exact .inl rfl
        · exact .inr (List.mem_cons_of_mem _ h)
      · rcases List.mem_cons.mp h with rfl | h
        · exact .inr List.mem_cons_self
        · exact (ih h).imp id (List.mem_cons_of_mem _)

theorem pairwise_insertEntry (key : String) (value : α) {l : List (String × α)}
    (h : l.Pairwise fun a b => a.1 < b.1) :
    (insertEntry key value l).Pairwise fun a b => a.1 < b.1 := by
  induction l with
  | nil => simp [insertEntry]
  | cons head rest ih =>
    obtain ⟨k, v⟩ := head
    obtain ⟨first, tail⟩ := List.pairwise_cons.mp h
    unfold insertEntry
    split
    · rename_i less
      refine List.pairwise_cons.mpr ⟨fun e he => ?_, h⟩
      rcases List.mem_cons.mp he with rfl | he
      · exact less
      · exact String.lt_trans less (first e he)
    · split
      · rename_i same
        subst same
        exact List.pairwise_cons.mpr ⟨first, tail⟩
      · rename_i notLess notSame
        refine List.pairwise_cons.mpr ⟨fun e he => ?_, ih tail⟩
        rcases fst_mem_insertEntry he with same | he
        · rw [same]
          exact Std.lt_of_le_of_ne (String.not_lt.mp notLess) (Ne.symm notSame)
        · exact first e he

/-- The dictionary with one entry added or replaced. -/
def insert (d : Dict α) (key : String) (value : α) : Dict α :=
  ⟨insertEntry key value d.entries, pairwise_insertEntry key value d.increasing⟩

/-- The dictionary without the entry under `key`. -/
def erase (d : Dict α) (key : String) : Dict α :=
  ⟨d.entries.filter fun e => e.1 ≠ key, d.increasing.filter _⟩

/-- The dictionary with the entries of `other` put over its own. -/
def merge (d other : Dict α) : Dict α :=
  other.entries.foldl (fun d e => d.insert e.1 e.2) d

/-- The dictionary of a list of entries; of equal keys the last one counts. -/
def ofList (entries : List (String × α)) : Dict α :=
  entries.foldl (fun d e => d.insert e.1 e.2) empty

/-- The dictionary with a function applied to every value. -/
def map (f : α → β) (d : Dict α) : Dict β :=
  ⟨d.entries.map fun e => (e.1, f e.2), by
    rw [List.pairwise_map]
    exact d.increasing⟩

/-! ## Values -/

theorem lookup_cons {κ : Type} [DecidableEq κ] (e : κ × α) (l : List (κ × α)) (key : κ) :
    (e :: l).lookup key = if key = e.1 then some e.2 else l.lookup key := by
  rw [List.lookup_cons]
  by_cases h : key = e.1
  · simp [h]
  · simp [h, beq_eq_false_iff_ne.mpr h]

theorem lookup_insertEntry (key other : String) (value : α) (l : List (String × α)) :
    (insertEntry key value l).lookup other =
      if other = key then some value else l.lookup other := by
  induction l with
  | nil => rw [insertEntry, lookup_cons]
  | cons head rest ih =>
    obtain ⟨k, v⟩ := head
    unfold insertEntry
    split
    · rw [lookup_cons]
    · split
      · rename_i same
        subst same
        simp only [lookup_cons]
        split <;> rfl
      · rename_i different
        simp only [lookup_cons, ih]
        by_cases h : other = key
        · subst h
          simp [different]
        · simp [h]

theorem lookup_filter (l : List (String × α)) (key other : String) :
    (l.filter fun e => e.1 ≠ key).lookup other =
      if other = key then none else l.lookup other := by
  induction l with
  | nil => simp
  | cons head rest ih =>
    by_cases h : head.1 = key
    · rw [List.filter_cons_of_neg (by simpa using h), ih, lookup_cons, h]
      split <;> rfl
    · rw [List.filter_cons_of_pos (by simpa using h), lookup_cons, lookup_cons, ih]
      by_cases same : other = head.1
      · simp [same, h]
      · simp [same]

theorem lookup_eq_none_of_lt {key : String} {l : List (String × α)}
    (h : ∀ e ∈ l, key < e.1) : l.lookup key = none := by
  induction l with
  | nil => rfl
  | cons head rest ih =>
    have different : key ≠ head.1 := fun same =>
      String.lt_irrefl _ (same ▸ h head List.mem_cons_self)
    rw [lookup_cons, if_neg different]
    exact ih fun e he => h e (List.mem_cons_of_mem _ he)

/-- An increasing list does not hold a key below its first one. -/
theorem lookup_eq_none_of_lt_head {key : String} {e : String × α} {l : List (String × α)}
    (increasing : (e :: l).Pairwise fun a b => a.1 < b.1) (h : key < e.1) :
    (e :: l).lookup key = none :=
  lookup_eq_none_of_lt fun a ha => by
    rcases List.mem_cons.mp ha with rfl | ha
    · exact h
    · exact String.lt_trans h ((List.pairwise_cons.mp increasing).1 a ha)

/-- Increasing lists with the same values are equal. -/
theorem eq_of_lookup_eq {l m : List (String × α)} (hl : l.Pairwise fun a b => a.1 < b.1)
    (hm : m.Pairwise fun a b => a.1 < b.1) (h : ∀ key, l.lookup key = m.lookup key) :
    l = m := by
  induction l generalizing m with
  | nil =>
    cases m with
    | nil => rfl
    | cons b m => simpa [lookup_cons] using h b.1
  | cons a l ih =>
    cases m with
    | nil => simpa [lookup_cons] using h a.1
    | cons b m =>
      have notLess : ¬ a.1 < b.1 := fun less => by
        have := h a.1
        rw [lookup_eq_none_of_lt_head hm less, lookup_cons, if_pos rfl] at this
        simp at this
      have notGreater : ¬ b.1 < a.1 := fun greater => by
        have := h b.1
        rw [lookup_eq_none_of_lt_head hl greater, lookup_cons, if_pos rfl] at this
        simp at this
      have keys : a.1 = b.1 :=
        String.le_antisymm (String.not_lt.mp notGreater) (String.not_lt.mp notLess)
      have values : a.2 = b.2 := by
        simpa [lookup_cons, keys] using h b.1
      obtain rfl : a = b := Prod.ext keys values
      obtain ⟨la, lrest⟩ := List.pairwise_cons.mp hl
      obtain ⟨ma, mrest⟩ := List.pairwise_cons.mp hm
      refine congrArg _ (ih lrest mrest fun key => ?_)
      by_cases same : key = a.1
      · rw [same, lookup_eq_none_of_lt la, lookup_eq_none_of_lt ma]
      · simpa [lookup_cons, same] using h key

/-- Two dictionaries with the same values are equal. -/
theorem ext_get? {d e : Dict α} (h : ∀ key, d.get? key = e.get? key) : d = e := by
  obtain ⟨l, hl⟩ := d
  obtain ⟨m, hm⟩ := e
  obtain rfl := eq_of_lookup_eq hl hm h
  rfl

/-- The entries of a dictionary are its values under their keys. -/
theorem mem_entries_iff (d : Dict α) {e : String × α} :
    e ∈ d.entries ↔ d.get? e.1 = some e.2 := by
  obtain ⟨l, hl⟩ := d
  show e ∈ l ↔ l.lookup e.1 = some e.2
  induction l with
  | nil => simp
  | cons head rest ih =>
    obtain ⟨first, tail⟩ := List.pairwise_cons.mp hl
    rw [List.mem_cons, lookup_cons, ih tail]
    by_cases same : e.1 = head.1
    · have absent : rest.lookup head.1 = none := lookup_eq_none_of_lt first
      simp [same, absent, Prod.ext_iff, eq_comm]
    · simp [same, Prod.ext_iff]

@[simp] theorem get?_empty (key : String) : (∅ : Dict α).get? key = none := rfl

theorem get?_insert (d : Dict α) (key other : String) (value : α) :
    (d.insert key value).get? other = if other = key then some value else d.get? other :=
  lookup_insertEntry key other value d.entries

theorem get?_erase (d : Dict α) (key other : String) :
    (d.erase key).get? other = if other = key then none else d.get? other :=
  lookup_filter d.entries key other

/-- Of the entries put in one after the other, the last one under a key
counts. -/
theorem get?_foldl_insert (l : List (String × α)) (d : Dict α) (key : String) :
    (l.foldl (fun d e => d.insert e.1 e.2) d).get? key =
      (l.reverse.lookup key).or (d.get? key) := by
  induction l generalizing d with
  | nil => rfl
  | cons head rest ih =>
    rw [List.foldl_cons, ih, get?_insert, List.reverse_cons, List.lookup_append]
    by_cases h : key = head.1 <;> simp [h, lookup_cons]

theorem get?_ofList (l : List (String × α)) (key : String) :
    (ofList l).get? key = l.reverse.lookup key := by
  rw [ofList, get?_foldl_insert]
  exact Option.or_none

/-- A dictionary is the dictionary of its entries. -/
theorem ofList_entries (d : Dict α) : ofList d.entries = d := by
  obtain ⟨l, hl⟩ := d
  refine ext_get? fun key => ?_
  rw [get?_ofList]
  show l.reverse.lookup key = l.lookup key
  induction l with
  | nil => rfl
  | cons head rest ih =>
    obtain ⟨first, tail⟩ := List.pairwise_cons.mp hl
    rw [List.reverse_cons, List.lookup_append, ih tail, lookup_cons, lookup_cons]
    by_cases h : key = head.1
    · rw [h, lookup_eq_none_of_lt first, if_pos rfl, if_pos rfl]
      rfl
    · simp [h]

/-- The entries of the second dictionary count before those of the first. -/
theorem get?_merge (d other : Dict α) (key : String) :
    (d.merge other).get? key = (other.get? key).or (d.get? key) := by
  rw [merge, get?_foldl_insert, ← get?_ofList, ofList_entries]

theorem get?_map (f : α → β) (d : Dict α) (key : String) :
    (d.map f).get? key = (d.get? key).map f := by
  obtain ⟨l, hl⟩ := d
  show (l.map fun e => (e.1, f e.2)).lookup key = (l.lookup key).map f
  induction l with
  | nil => rfl
  | cons head rest ih =>
    rw [List.map_cons, lookup_cons, lookup_cons, ih (List.pairwise_cons.mp hl).2]
    split <;> rfl

end Dict
end Envelope
