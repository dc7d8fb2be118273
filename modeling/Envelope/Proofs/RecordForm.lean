import Envelope.Proofs.Columns

/-!
# The forms of a record

A type of records has different names of its columns and a default for every
value that is not written (`LawfulRecord`).  Its records are read back from their
text (`read_write`, `parse_render_write`), whatever order the fields are brought
into and whatever fields are added (`read_object_congr`), and an array is read as
the object that gives its items in the order of the columns
(`read_array_iff_object`).
-/

namespace Envelope
namespace Record

/-- The names of the columns of a type of records. -/
def names (α : Type) [Record α] : List String :=
  (columns α).map Column.name

/-- A type of records with different names of its columns, with a default for
each value that is not written, and without records that are read and written as
different rows. -/
class LawfulRecord (α : Type) [Record α] : Prop where
  nodup_names : (names α).Nodup
  restores : ∀ column ∈ columns α, column.Restores
  toRow_ofRow : ∀ row, toRow (ofRow row : α) = row

variable {α : Type} [Record α]

theorem read_object_eq (fields : List (String × Json)) :
    (read (.object fields) : Except ReadError α) =
      Row.ofFields (columns α) (Dict.ofList fields) >>= fun row => .ok (ofRow row) :=
  rfl

theorem read_object_eq_ok_iff {fields : List (String × Json)} {r : α} :
    read (.object fields) = .ok r ↔
      ∃ row, Row.collect (columns α) (Dict.ofList fields) = .ok row ∧ ofRow row = r := by
  rw [read_object_eq, bind_eq_ok_iff]
  apply exists_congr
  intro row
  rw [Row.ofFields_eq_ok_iff, Except.ok.injEq]

/-- An array is read if it is not too long and each of its items can be read. -/
theorem read_array_eq_ok_iff {items : List Json} {r : α} :
    read (.array items) = .ok r ↔
      items.length ≤ (columns α).length ∧
        ∃ row, Row.ofItems (fun length => .tooShort length (title α) (columns α).length)
          (columns α) 0 items = .ok row ∧ ofRow row = r := by
  unfold read
  dsimp only
  rw [bind_eq_ok_iff]
  by_cases hlong : (columns α).length < items.length
  · refine iff_of_false ?_ fun h => absurd hlong (Nat.not_lt.mpr h.1)
    rintro ⟨row, -, h⟩
    rw [if_pos hlong] at h
    cases h
  · simp only [if_neg hlong, Nat.not_lt.mp hlong, true_and]
    apply exists_congr
    intro row
    apply and_congr_right
    intro _
    exact ⟨fun h => Except.ok.inj h, fun h => congrArg Except.ok h⟩

/-- Whatever is read has been made of a row. -/
theorem exists_row_of_read {json : Json} {r : α} (h : read json = .ok r) :
    ∃ row, ofRow row = r := by
  cases json with
  | object fields =>
    obtain ⟨row, -, hrow⟩ := read_object_eq_ok_iff.mp h
    exact ⟨row, hrow⟩
  | array items =>
    obtain ⟨-, row, -, hrow⟩ := read_array_eq_ok_iff.mp h
    exact ⟨row, hrow⟩
  | _ => nomatch h

/-- Objects with the same values under the names of the columns are read alike. -/
theorem read_object_congr {fields fields' : List (String × Json)}
    (h : ∀ name ∈ names α, (Dict.ofList fields).get? name = (Dict.ofList fields').get? name) :
    (read (.object fields) : Except ReadError α) = read (.object fields') := by
  rw [read_object_eq, read_object_eq, Row.ofFields_congr (List.forall_mem_map.mp h)]

/-- A written record is read back from its text as a value. -/
theorem parse_render_write (r : α) : Json.parse (Json.render (write r)) = some (write r) := by
  apply Json.parse_render
  exact .object fun _ hfield => Row.whole_of_mem_write hfield

section Lawful

variable [LawfulRecord α]

/-- A record is read back as the record of its row. -/
theorem read_write (r : α) : read (write r) = .ok (ofRow (toRow r) : α) := by
  apply read_object_eq_ok_iff.mpr
  refine ⟨toRow r, ?_, rfl⟩
  have hnodup : ((Row.write (columns α) (toRow r)).map Prod.fst).Nodup :=
    (Row.write_sublist (columns α) (toRow r)).nodup LawfulRecord.nodup_names
  apply Row.collect_of_written LawfulRecord.nodup_names LawfulRecord.restores
  intro column _
  exact Dict.get?_ofList_of_nodup hnodup column.name

/-- A record that was read is read back unchanged. -/
theorem read_write_of_read {json : Json} {r : α} (h : read json = .ok r) :
    read (write r) = .ok r := by
  obtain ⟨row, rfl⟩ := exists_row_of_read h
  rw [read_write, LawfulRecord.toRow_ofRow]

/-- Items stand under the names of their columns. -/
theorem get?_zip_names {i : Nat} {column : Column} (hcolumn : (columns α)[i]? = some column)
    (items : List Json) :
    (Dict.ofList ((names α).zip items)).get? column.name = items[i]? := by
  have hname : (names α)[i]? = some column.name := by
    rw [names, List.getElem?_map, hcolumn]
    rfl
  have hnodup : (((names α).zip items).map Prod.fst).Nodup := by
    rw [List.zip_eq_zip_take_min, List.map_fst_zip (by simp)]
    exact (List.take_sublist _ _).nodup LawfulRecord.nodup_names
  apply Option.ext
  intro json
  rw [Dict.get?_ofList_eq_some_iff hnodup, List.mem_iff_getElem?]
  constructor
  · rintro ⟨j, hj⟩
    obtain ⟨hother, hitem⟩ := List.getElem?_zip_eq_some.mp hj
    -- no name stands in two places
    have hlength : i < (names α).length := (List.getElem?_eq_some_iff.mp hname).1
    have hij : i = j :=
      (List.getElem?_inj hlength LawfulRecord.nodup_names).mp (hname.trans hother.symm)
    rw [hij]
    exact hitem
  · intro hitem
    exact ⟨i, List.getElem?_zip_eq_some.mpr ⟨hname, hitem⟩⟩

/-- An array is read as the object that has its items as fields, in the order of
the columns. -/
theorem read_array_iff_object {items : List Json} (hlength : items.length ≤ (columns α).length)
    {r : α} :
    read (.array items) = .ok r ↔ read (.object ((names α).zip items)) = .ok r := by
  rw [read_array_eq_ok_iff, read_object_eq_ok_iff, and_iff_right hlength]
  apply exists_congr
  intro row
  apply and_congr_left
  intro _
  apply Row.ofItems_eq_ok_iff
  intro i column hcolumn
  exact get?_zip_names hcolumn items

end Lawful

/-! ## The four types of records -/

instance : LawfulRecord Kek where
  nodup_names := by decide
  restores := by decide
  toRow_ofRow _ := rfl

instance : LawfulRecord KekRequest where
  nodup_names := by decide
  restores := by decide
  toRow_ofRow _ := rfl

instance : LawfulRecord Dek where
  nodup_names := by decide
  restores := by decide
  toRow_ofRow _ := rfl

instance : LawfulRecord DekRequest where
  nodup_names := by decide
  restores := by decide
  toRow_ofRow _ := rfl

/-- The text of a record. -/
def render (r : α) : String :=
  Json.render (write r)

/-- The record of a text, if the text is that of a value. -/
def parse (text : String) : Option (Except ReadError α) :=
  (Json.parse text).map read

/-- The written form of a type of records; `stored` is a record as it is
stored. -/
structure HasNormalForm (α : Type) [Record α] (stored : α → α) : Prop where
  /-- A record is read back from the object written for it, and from the text of
  this object. -/
  read_write : ∀ r : α, read (write r) = .ok (stored r) ∧ parse (render r) = some (.ok (stored r))
  /-- Whatever value a record was read from, its text is read as this record and
  written as this text again. -/
  normal : ∀ (json : Json) (r : α), read json = .ok r →
    ∃ r' : α, parse (render r) = some (.ok r') ∧ r' = r ∧ render r' = render r
  /-- The order of the fields of an object does not matter, where no name is
  repeated. -/
  order_free : ∀ fields fields' : List (String × Json), fields.Perm fields' →
    (fields.map Prod.fst).Nodup →
    (read (.object fields) : Except ReadError α) = read (.object fields')
  /-- Fields with other names than those of the columns do not matter. -/
  unknown_free : ∀ fields : List (String × Json),
    (read (.object fields) : Except ReadError α) =
      read (.object (fields.filter fun field => field.1 ∈ names α))

theorem hasNormalForm [LawfulRecord α] {stored : α → α}
    (hstored : ∀ r : α, ofRow (toRow r) = stored r) : HasNormalForm α stored := by
  have hparse : ∀ r : α,
      (parse (render r) : Option (Except ReadError α)) = some (read (write r)) := by
    intro r
    rw [parse, render, parse_render_write]
    rfl
  refine ⟨?_, ?_, ?_, ?_⟩
  · intro r
    have hread : read (write r) = .ok (stored r) := by
      rw [Record.read_write, hstored]
    exact ⟨hread, (hparse r).trans (congrArg some hread)⟩
  · intro json r hread
    have hagain := read_write_of_read hread
    exact ⟨r, (hparse r).trans (congrArg some hagain), rfl, rfl⟩
  · intro fields fields' hperm hnodup
    apply read_object_congr
    intro name _
    rw [Dict.ofList_eq_of_perm hperm hnodup]
  · intro fields
    apply read_object_congr
    intro name hname
    rw [Dict.get?_ofList, Dict.get?_ofList, ← List.filter_reverse]
    exact (Dict.lookup_filter_of_pos (p := fun name => name ∈ names α) (decide_eq_true hname)
      fields.reverse).symm

/-- The written form of records is a normal form.  Each record is read back from
its object and from its text, a data-encryption key without the raw key that it
may carry; whatever value a record was read from, its text is read as this record
and is its text again; and neither the order of fields nor unknown fields matter,
not even for why an object is refused. -/
theorem records_normal :
    HasNormalForm Kek id ∧ HasNormalForm KekRequest id ∧
      HasNormalForm Dek (fun dek => { dek with rawKey := none }) ∧
      HasNormalForm DekRequest id :=
  ⟨hasNormalForm fun _ => rfl, hasNormalForm fun _ => rfl, hasNormalForm fun _ => rfl,
    hasNormalForm fun _ => rfl⟩

/-- The array form of a type of records. -/
structure HasArrayForm (α : Type) [Record α] : Prop where
  /-- Items are read as fields with the names of the first columns. -/
  read_iff : ∀ items : List Json, items.length ≤ (columns α).length → ∀ r : α,
    read (.array items) = .ok r ↔ read (.object ((names α).zip items)) = .ok r
  /-- There is no item beyond the columns. -/
  refused : ∀ items : List Json, (columns α).length < items.length →
    ∃ cause, (read (.array items) : Except ReadError α) = .error cause

theorem hasArrayForm [LawfulRecord α] : HasArrayForm α := by
  refine ⟨?_, ?_⟩
  · intro items hlength r
    exact read_array_iff_object hlength
  · intro items hlong
    cases hread : (read (.array items) : Except ReadError α) with
    | error cause => exact ⟨cause, rfl⟩
    | ok r =>
      have hlength := (read_array_eq_ok_iff.mp hread).1
      exact absurd hlong (Nat.not_lt.mpr hlength)

/-- The array form of records agrees with their object form.  An array of at most
as many items as there are columns gives the record of the object that maps the
names of the first columns to the items, and is refused if this object is; a
longer array is refused. -/
theorem arrays_agree :
    HasArrayForm Kek ∧ HasArrayForm KekRequest ∧ HasArrayForm Dek ∧ HasArrayForm DekRequest :=
  ⟨hasArrayForm, hasArrayForm, hasArrayForm, hasArrayForm⟩

end Record
end Envelope
