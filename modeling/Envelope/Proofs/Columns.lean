import Envelope.Proofs.Canonical
import Envelope.Proofs.JsonText
import Envelope.Record.Dek
import Envelope.Record.Kek

/-!
# Columns and rows

A row is written as the fields of an object, and read from fields or from the
items of an array.  What is read depends only on what stands in the place of each
column (`Row.ofFields_congr`, `Row.ofItems_eq_ok_iff`): the check of the fields
chooses the refusal that is reported, and refuses nothing that can be read
(`Row.ofFields_eq_ok_iff`).  A row is read back from what was written, if the
columns have different names and leave out no value but their default
(`Row.collect_of_written`).
-/

namespace Envelope

namespace Dict

variable {α : Type} {l l' : List (String × α)} {key : String} {value : α}

theorem mem_of_get?_ofList (h : (ofList l).get? key = some value) : (key, value) ∈ l := by
  rw [get?_ofList] at h
  obtain ⟨before, after, hsplit, -⟩ := List.lookup_eq_some_iff.mp h
  apply List.mem_reverse.mp
  rw [hsplit]
  exact List.mem_append_right before List.mem_cons_self

theorem not_mem_of_get?_ofList (h : (ofList l).get? key = none) : (key, value) ∉ l := by
  rw [get?_ofList, List.lookup_eq_none_iff] at h
  intro hmem
  have hother := h (key, value) (List.mem_reverse.mpr hmem)
  exact bne_iff_ne.mp hother rfl

theorem lookup_eq_some_iff (hnodup : (l.map Prod.fst).Nodup) :
    l.lookup key = some value ↔ (key, value) ∈ l := by
  induction l with
  | nil => simp
  | cons e l ih =>
    obtain ⟨hfirst, htail⟩ := List.nodup_cons.mp hnodup
    rw [lookup_cons, List.mem_cons]
    by_cases hkey : key = e.1
    · have habsent : (key, value) ∉ l := fun h => hfirst (hkey ▸ List.mem_map_of_mem h)
      rw [if_pos hkey, or_iff_left habsent, Option.some.injEq, Prod.ext_iff, eq_comm (a := value)]
      exact (and_iff_right hkey).symm
    · have hother : (key, value) ≠ e := fun h => hkey (congrArg Prod.fst h)
      rw [if_neg hkey, ih htail, or_iff_right hother]

/-- Where no name is repeated every field counts. -/
theorem get?_ofList_eq_some_iff (hnodup : (l.map Prod.fst).Nodup) :
    (ofList l).get? key = some value ↔ (key, value) ∈ l := by
  have hreverse : (l.reverse.map Prod.fst).Nodup :=
    (l.reverse_perm.map Prod.fst).nodup_iff.mpr hnodup
  rw [get?_ofList, lookup_eq_some_iff hreverse, List.mem_reverse]

theorem get?_ofList_of_nodup (hnodup : (l.map Prod.fst).Nodup) (key : String) :
    (ofList l).get? key = l.lookup key := by
  apply Option.ext
  intro value
  rw [get?_ofList_eq_some_iff hnodup, lookup_eq_some_iff hnodup]

theorem ofList_eq_of_perm (hperm : l.Perm l') (hnodup : (l.map Prod.fst).Nodup) :
    ofList l = ofList l' := by
  have hnodup' : (l'.map Prod.fst).Nodup := (hperm.map Prod.fst).nodup hnodup
  apply ext_get?
  intro key
  apply Option.ext
  intro value
  rw [get?_ofList_eq_some_iff hnodup, get?_ofList_eq_some_iff hnodup', hperm.mem_iff]

/-- Leaving out other keys changes no look-up. -/
theorem lookup_filter_of_pos {p : String → Bool} (h : p key = true) (l : List (String × α)) :
    (l.filter fun e => p e.1).lookup key = l.lookup key := by
  induction l with
  | nil => rfl
  | cons e l ih =>
    rw [lookup_cons]
    by_cases he : p e.1 = true
    · rw [List.filter_cons_of_pos (by simpa using he), lookup_cons, ih]
    · have hkey : key ≠ e.1 := fun hkey => he (hkey ▸ h)
      rw [List.filter_cons_of_neg (by simpa using he), ih, if_neg hkey]

theorem lookup_filter_of_neg {p : String → Bool} (h : p key = false) (l : List (String × α)) :
    (l.filter fun e => p e.1).lookup key = none := by
  induction l with
  | nil => rfl
  | cons e l ih =>
    by_cases he : p e.1 = true
    · have hkey : key ≠ e.1 := fun hkey => by simp [hkey, he] at h
      rw [List.filter_cons_of_pos (by simpa using he), lookup_cons, if_neg hkey, ih]
    · rw [List.filter_cons_of_neg (by simpa using he), ih]

end Dict

namespace Record

/-! ## One column -/

namespace Kind

theorem mapM_readText (l : List (String × String)) :
    (l.map fun e => (e.1, Json.string e.2)).mapM
      (fun (name, value) => return (name, ← readText value) :
        String × Json → Except ReadError (String × String)) = .ok l := by
  induction l with
  | nil => rfl
  | cons e l ih =>
    rw [List.map_cons, List.mapM_cons, ih]
    rfl

theorem readProperties_map (d : Properties) : readProperties (d.map Json.string) = .ok d := by
  unfold readProperties
  rw [Dict.map, mapM_readText]
  exact congrArg Except.ok (Dict.ofList_entries d)

/-- A value is read back from its written form. -/
theorem read_of_write {kind : Kind} {value : kind.Value} {json : Json}
    (h : kind.write value = some json) : kind.read json = .ok value := by
  cases kind with
  | text =>
    obtain rfl := Option.some.inj h
    rfl
  | optionalText =>
    obtain ⟨text, rfl, rfl⟩ := Option.map_eq_some_iff.mp h
    rfl
  | flag =>
    obtain rfl := Option.some.inj h
    rfl
  | properties =>
    obtain rfl := Option.some.inj h
    show readProperties (Dict.ofList (Dict.map Json.string value).entries) = .ok value
    rw [Dict.ofList_entries, readProperties_map]
  | version =>
    obtain rfl := Option.some.inj h
    have hrange : (0 : Int) ≤ value.toNat ∧ (value.toNat : Int) < UInt32.size :=
      ⟨Int.natCast_nonneg _, Int.ofNat_lt.mpr value.toNat_lt⟩
    simp only [read, if_pos hrange, Int.toNat_natCast, UInt32.ofNat_toNat]
  | time =>
    obtain rfl := Option.some.inj h
    simp only [read, if_pos (And.intro value.minValue_le_toInt value.toInt_le), Int64.ofInt_toInt]

/-- Only whole numbers are written. -/
theorem whole_of_write {kind : Kind} {value : kind.Value} {json : Json}
    (h : kind.write value = some json) : json.Whole := by
  cases kind with
  | text =>
    obtain rfl := Option.some.inj h
    exact .string value
  | optionalText =>
    obtain ⟨text, rfl, rfl⟩ := Option.map_eq_some_iff.mp h
    exact .string text
  | flag =>
    obtain rfl := Option.some.inj h
    exact .bool value
  | properties =>
    obtain rfl := Option.some.inj h
    refine .object ?_
    intro field hfield
    obtain ⟨entry, -, rfl⟩ := List.mem_map.mp hfield
    exact .string entry.2
  | version =>
    obtain rfl := Option.some.inj h
    have hlow : Int64.minValue.toInt ≤ 0 := by decide
    have hhigh : value.toNat < UInt64.size :=
      Nat.lt_trans value.toNat_lt (by decide : UInt32.size < UInt64.size)
    exact .integer (Int.le_trans hlow (Int.natCast_nonneg _)) (Int.ofNat_lt.mpr hhigh)
  | time =>
    obtain rfl := Option.some.inj h
    have hhigh : Int64.maxValue.toInt < UInt64.size := by decide
    exact .integer value.minValue_le_toInt (Int.lt_of_le_of_lt value.toInt_le hhigh)

end Kind

/-- The value of a column, of what stands in its place: what is there is read,
and the default taken if there is nothing. -/
def Column.valueOf (column : Column) (missing : ReadError) :
    Option Json → Except ReadError column.kind.Value
  | some json => column.kind.read json
  | none =>
    match column.default? with
    | some value => .ok value
    | none => .error missing

/-- A column that is not written has the value that is not written as its
default. -/
def Column.Restores (column : Column) : Prop :=
  ∀ value, column.kind.write value = none → column.default? = some value

instance (column : Column) : Decidable column.Restores :=
  match column with
  | ⟨_, .optionalText, some none⟩ => .isTrue fun value h => by
    rw [Option.map_eq_none_iff.mp h]
  | ⟨_, .optionalText, some (some _)⟩ => .isFalse fun h => nomatch h none rfl
  | ⟨_, .optionalText, none⟩ => .isFalse fun h => nomatch h none rfl
  | ⟨_, .text, _⟩ => .isTrue fun _ h => nomatch h
  | ⟨_, .flag, _⟩ => .isTrue fun _ h => nomatch h
  | ⟨_, .properties, _⟩ => .isTrue fun _ h => nomatch h
  | ⟨_, .version, _⟩ => .isTrue fun _ h => nomatch h
  | ⟨_, .time, _⟩ => .isTrue fun _ h => nomatch h

theorem Column.valueOf_write {column : Column} (h : column.Restores) (missing : ReadError)
    (value : column.kind.Value) :
    column.valueOf missing (column.kind.write value) = .ok value := by
  cases hwrite : column.kind.write value with
  | some json => exact Kind.read_of_write hwrite
  | none => rw [valueOf, h value hwrite]

/-- What is reported for a missing value does not decide whether there is one. -/
theorem Column.valueOf_eq_ok_congr {column : Column} {missing missing' : ReadError}
    {cell : Option Json} {value : column.kind.Value} :
    column.valueOf missing cell = .ok value ↔ column.valueOf missing' cell = .ok value := by
  cases cell with
  | some json => exact Iff.rfl
  | none =>
    unfold valueOf
    cases column.default? with
    | some default => exact Iff.rfl
    | none => exact iff_of_false (fun h => nomatch h) fun h => nomatch h

/-! ## Rows -/

namespace Row

variable {columns : List Column} {fields fields' : Dict Json}

theorem collect_cons (column : Column) (columns : List Column) (fields : Dict Json) :
    collect (column :: columns) fields =
      column.valueOf (.missingField column.name) (fields.get? column.name) >>= fun value =>
        collect columns fields >>= fun row => .ok (value, row) := by
  rw [collect, Column.valueOf.eq_def]
  cases fields.get? column.name with
  | some json => rfl
  | none => cases column.default? <;> rfl

theorem ofItems_cons (short : Nat → ReadError) (column : Column) (columns : List Column)
    (index : Nat) (items : List Json) :
    ofItems short (column :: columns) index items =
      column.valueOf (short index) items.head? >>= fun value =>
        ofItems short columns (index + 1) (items.drop 1) >>= fun row => .ok (value, row) := by
  obtain ⟨name, kind, _ | value⟩ := column <;> cases items <;> rfl

/-- Fields count by what they hold under the names of the columns. -/
theorem collect_congr
    (h : ∀ column ∈ columns, fields.get? column.name = fields'.get? column.name) :
    collect columns fields = collect columns fields' := by
  induction columns with
  | nil => rfl
  | cons column columns ih =>
    obtain ⟨hfirst, hrest⟩ := List.forall_mem_cons.mp h
    rw [collect_cons, collect_cons, hfirst, ih hrest]

/-- Whatever is collected has been read. -/
theorem read_of_collect {row : Row columns} (h : collect columns fields = .ok row)
    {column : Column} (hcolumn : column ∈ columns) {json : Json}
    (hjson : fields.get? column.name = some json) :
    ∃ value, column.kind.read json = .ok value := by
  induction columns with
  | nil => nomatch hcolumn
  | cons first columns ih =>
    rw [collect_cons] at h
    obtain ⟨value, hvalue, h⟩ := bind_eq_ok_iff.mp h
    obtain ⟨rest, hrest, -⟩ := bind_eq_ok_iff.mp h
    rcases List.mem_cons.mp hcolumn with rfl | hcolumn
    · rw [hjson] at hvalue
      exact ⟨value, hvalue⟩
    · exact ih hrest hcolumn

theorem checkFields_of_read {entries : List (String × Json)}
    (h : ∀ entry ∈ entries, ∀ column ∈ columns, column.name = entry.1 →
      ∃ value, column.kind.read entry.2 = .ok value) :
    checkFields columns entries = .ok () := by
  induction entries with
  | nil => rfl
  | cons entry entries ih =>
    obtain ⟨hfirst, hrest⟩ := List.forall_mem_cons.mp h
    rw [checkFields]
    cases hfind : columns.find? fun column => column.name = entry.1 with
    | none => exact ih hrest
    | some column =>
      have hname : column.name = entry.1 := by simpa using List.find?_some hfind
      obtain ⟨value, hvalue⟩ := hfirst column (List.mem_of_find?_eq_some hfind) hname
      show column.kind.read entry.2 >>= _ = _
      rw [hvalue]
      exact ih hrest

/-- The check of the fields refuses nothing that can be collected. -/
theorem ofFields_eq_ok_iff {row : Row columns} :
    ofFields columns fields = .ok row ↔ collect columns fields = .ok row := by
  unfold ofFields
  constructor
  · intro h
    obtain ⟨-, -, h⟩ := bind_eq_ok_iff.mp h
    exact h
  · intro h
    refine bind_eq_ok_iff.mpr ⟨(), checkFields_of_read ?_, h⟩
    intro entry hentry column hcolumn hname
    apply read_of_collect h hcolumn
    rw [hname]
    exact (Dict.mem_entries_iff fields).mp hentry

/-- Fields under other names are not checked. -/
theorem checkFields_filter {p : String → Bool} (hp : ∀ column ∈ columns, p column.name = true)
    (entries : List (String × Json)) :
    checkFields columns (entries.filter fun entry => p entry.1) = checkFields columns entries := by
  induction entries with
  | nil => rfl
  | cons entry entries ih =>
    rw [checkFields]
    by_cases hentry : p entry.1 = true
    · rw [List.filter_cons_of_pos (by simpa using hentry), checkFields, ih]
    · have hfind : (columns.find? fun column => column.name = entry.1) = none := by
        rw [List.find?_eq_none]
        intro column hcolumn hname
        exact hentry (of_decide_eq_true hname ▸ hp column hcolumn)
      rw [List.filter_cons_of_neg (by simpa using hentry), ih, hfind]

/-- Objects with the same values under the names of the columns are read alike,
and refused alike. -/
theorem ofFields_congr
    (h : ∀ column ∈ columns, fields.get? column.name = fields'.get? column.name) :
    ofFields columns fields = ofFields columns fields' := by
  let p : String → Bool := fun name => name ∈ columns.map Column.name
  have hp : ∀ column ∈ columns, p column.name = true := by
    intro column hcolumn
    exact decide_eq_true (List.mem_map_of_mem hcolumn)
  have hentries : fields.entries.filter (fun entry => p entry.1) =
      fields'.entries.filter fun entry => p entry.1 := by
    apply Dict.eq_of_lookup_eq (fields.increasing.filter _) (fields'.increasing.filter _)
    intro key
    by_cases hkey : p key = true
    · obtain ⟨column, hcolumn, rfl⟩ := List.mem_map.mp (of_decide_eq_true hkey)
      rw [Dict.lookup_filter_of_pos hkey, Dict.lookup_filter_of_pos hkey]
      exact h column hcolumn
    · have hkey : p key = false := Bool.eq_false_iff.mpr hkey
      rw [Dict.lookup_filter_of_neg hkey, Dict.lookup_filter_of_neg hkey]
  have hcheck : checkFields columns fields.entries = checkFields columns fields'.entries := by
    rw [← checkFields_filter hp, hentries, checkFields_filter hp]
  rw [ofFields, ofFields, hcheck, collect_congr h]

/-! ### Written rows -/

/-- Only columns are written, in their order. -/
theorem write_sublist (columns : List Column) (row : Row columns) :
    ((write columns row).map Prod.fst).Sublist (columns.map Column.name) := by
  induction columns with
  | nil => exact .slnil
  | cons column columns ih =>
    obtain ⟨value, row⟩ := row
    rw [write]
    cases column.kind.write value with
    | none => exact (ih row).cons _
    | some json => exact (ih row).cons_cons _

theorem whole_of_mem_write {row : Row columns} {field : String × Json}
    (h : field ∈ write columns row) : field.2.Whole := by
  induction columns with
  | nil => nomatch h
  | cons column columns ih =>
    obtain ⟨value, row⟩ := row
    rw [write] at h
    cases hwrite : column.kind.write value with
    | none =>
      rw [hwrite] at h
      exact ih h
    | some json =>
      rw [hwrite] at h
      rcases List.mem_cons.mp h with rfl | h
      · exact Kind.whole_of_write hwrite
      · exact ih h

theorem lookup_write_of_ne {column : Column} {name : String} (h : name ≠ column.name)
    (value : column.kind.Value) (row : Row columns) :
    (write (column :: columns) (value, row)).lookup name = (write columns row).lookup name := by
  rw [write]
  cases column.kind.write value with
  | none => rfl
  | some json => rw [Dict.lookup_cons, if_neg h]

/-- Under the name of a column stands its value, if no other column has this
name. -/
theorem lookup_write_self {column : Column} (h : column.name ∉ columns.map Column.name)
    (value : column.kind.Value) (row : Row columns) :
    (write (column :: columns) (value, row)).lookup column.name = column.kind.write value := by
  rw [write]
  cases column.kind.write value with
  | some json => rw [Dict.lookup_cons, if_pos rfl]
  | none =>
    apply List.lookup_eq_none_iff.mpr
    intro field hfield
    rw [bne_iff_ne]
    intro hsame
    exact h (hsame ▸ (write_sublist columns row).subset (List.mem_map_of_mem hfield))

/-- A row is collected from fields that hold what was written under the names of
the columns. -/
theorem collect_of_written {row : Row columns} (hnodup : (columns.map Column.name).Nodup)
    (hrestores : ∀ column ∈ columns, column.Restores)
    (h : ∀ column ∈ columns,
      fields.get? column.name = (write columns row).lookup column.name) :
    collect columns fields = .ok row := by
  induction columns with
  | nil => rfl
  | cons column columns ih =>
    obtain ⟨value, row⟩ := row
    obtain ⟨hname, hnodup⟩ := List.nodup_cons.mp hnodup
    obtain ⟨hcolumn, hrestores⟩ := List.forall_mem_cons.mp hrestores
    obtain ⟨hfirst, hrest⟩ := List.forall_mem_cons.mp h
    have hmore : collect columns fields = .ok row := by
      apply ih hnodup hrestores
      intro other hother
      have hne : other.name ≠ column.name := fun h => hname (h ▸ List.mem_map_of_mem hother)
      rw [hrest other hother, lookup_write_of_ne hne]
    rw [collect_cons, hfirst, lookup_write_self hname, Column.valueOf_write hcolumn, hmore]
    rfl

/-! ### Arrays -/

/-- Items are read as the fields that hold them under the names of the columns. -/
theorem ofItems_eq_ok_iff {short : Nat → ReadError} {row : Row columns} {index : Nat}
    {items : List Json}
    (h : ∀ (i : Nat) (column : Column), columns[i]? = some column →
      fields.get? column.name = items[i]?) :
    ofItems short columns index items = .ok row ↔ collect columns fields = .ok row := by
  induction columns generalizing index items with
  | nil => exact iff_of_true rfl rfl
  | cons column columns ih =>
    have hfirst : fields.get? column.name = items.head? := by
      rw [List.head?_eq_getElem?]
      exact h 0 column rfl
    have hrest : ∀ (i : Nat) (other : Column), columns[i]? = some other →
        fields.get? other.name = (items.drop 1)[i]? := by
      intro i other hother
      rw [List.getElem?_drop, Nat.add_comm]
      exact h (i + 1) other hother
    rw [ofItems_cons, collect_cons, hfirst, bind_eq_ok_iff, bind_eq_ok_iff]
    apply exists_congr
    intro value
    rw [bind_eq_ok_iff, bind_eq_ok_iff]
    apply and_congr Column.valueOf_eq_ok_congr
    apply exists_congr
    intro row
    rw [ih hrest]

end Row

end Record
end Envelope
