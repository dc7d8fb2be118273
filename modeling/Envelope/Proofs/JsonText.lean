import Envelope.Json.Parser
import Envelope.Json.Printer
import Envelope.Proofs.Numerals
import Mathlib.Data.List.Basic
import Mathlib.Data.List.TakeWhile

/-!
# Reading what was printed

A value whose numbers are all whole is read back from its text (`parse_render`).
One symbol is taken first, then one number, and then arrays and objects part by
part: the reader of each part leaves what follows the part in the text, as long
as this cannot be taken for more of a number (`Ends`).
-/

namespace Envelope

namespace Json

/-- All numbers of a value are whole and in the range in which whole numbers are
told apart from others. -/
inductive Whole : Json → Prop where
  | null : Whole null
  | bool (value : Bool) : Whole (bool value)
  | integer {n : Int} (hlow : Int64.minValue.toInt ≤ n) (hhigh : n < UInt64.size) :
    Whole (integer n)
  | string (value : String) : Whole (string value)
  | array {items : List Json} (hitems : ∀ item ∈ items, Whole item) : Whole (array items)
  | object {fields : List (String × Json)} (hfields : ∀ field ∈ fields, Whole field.2) :
    Whole (object fields)

/-- A text ends or goes on with what may stand behind a value in an array or an
object. -/
def Ends (text : List Char) : Prop :=
  ∀ c, text.head? = some c → c = ',' ∨ c = ']' ∨ c = '\x7d'

theorem ends_nil : Ends [] :=
  fun _ h => nomatch h

theorem ends_itemsChars (items : List Json) (rest : List Char) :
    Ends (itemsChars items ++ rest) := by
  intro c h
  cases items with
  | nil => exact .inr (.inl (Option.some.inj h).symm)
  | cons item items => exact .inl (Option.some.inj h).symm

theorem ends_fieldsChars (fields : List (String × Json)) (rest : List Char) :
    Ends (fieldsChars fields ++ rest) := by
  intro c h
  cases fields with
  | nil => exact .inr (.inr (Option.some.inj h).symm)
  | cons field fields => exact .inl (Option.some.inj h).symm

variable {rest : List Char}

/-- A character that ends a value belongs to no number. -/
theorem Ends.head_ne (h : Ends rest) {c : Char} {text : List Char} (hrest : rest = c :: text) :
    c.isDigit = false ∧ c ≠ '.' ∧ c ≠ 'e' ∧ c ≠ 'E' := by
  rcases h c (hrest ▸ rfl) with rfl | rfl | rfl <;> decide

/-! ## Strings -/

/-- The digits of a control character are those of its code unit. -/
theorem codeUnit_ofByte : ∀ n < 32, ∃ high low, Hex.ofByte (UInt8.ofNat n) = [high, low] ∧
    codeUnit '0' '0' high low = some n := by
  intro n h
  refine ⟨_, _, rfl, ?_⟩
  revert n
  decide

/-- A control character is read from its code unit, also if another code unit
follows. -/
theorem readString_control {high low : Char} {n : Nat} {text rest' : List Char} (hn : n < 32)
    (hunit : codeUnit '0' '0' high low = some n) (h : readString rest = some (text, rest')) :
    readString ('\\' :: 'u' :: '0' :: '0' :: high :: low :: rest) =
      some (Char.ofNat n :: text, rest') := by
  have hhigh : ¬ (0xd800 ≤ n ∧ n < 0xdc00) := by omega
  have hlow : ¬ (0xdc00 ≤ n ∧ n < 0xe000) := by omega
  have hsurrogate : ¬ (0xd800 ≤ n ∧ n < 0xe000) := by omega
  rw [readString.eq_def]
  split <;> rename_i heq <;> cases heq
  · simp only [hunit, Option.bind_eq_bind, Option.bind_some, if_neg hhigh, if_neg hlow, h]
    rfl
  · simp only [hunit, Option.bind_eq_bind, Option.bind_some, if_neg hsurrogate, h]
    rfl
  · rename_i hunits
    exact (hunits _ _ _ _ _ rfl rfl).elim
  · rename_i hletter
    exact (hletter _ _ rfl rfl).elim

theorem readString_letter {letter c : Char} {text rest' : List Char} (hletter : letter ≠ 'u')
    (hc : unescape letter = some c) (h : readString rest = some (text, rest')) :
    readString ('\\' :: letter :: rest) = some (c :: text, rest') := by
  rw [readString.eq_def]
  split <;> rename_i heq <;> cases heq
  · exact absurd rfl hletter
  · exact absurd rfl hletter
  · simp only [hc, h, Option.bind_eq_bind, Option.bind_some]
    rfl
  · rename_i hother
    exact (hother _ _ rfl rfl).elim

theorem readString_same {c : Char} {text rest' : List Char} (hquote : c ≠ '"')
    (hslash : c ≠ '\\') (hc : ¬ c.toNat < 32) (h : readString rest = some (text, rest')) :
    readString (c :: rest) = some (c :: text, rest') := by
  rw [readString.eq_def]
  split <;> rename_i heq <;> cases heq
  · exact absurd rfl hquote
  · exact absurd rfl hslash
  · exact absurd rfl hslash
  · exact absurd rfl hslash
  · simp only [if_neg hc, h, Option.bind_eq_bind, Option.bind_some]
    rfl

/-- A character is read from its written form. -/
theorem readString_escape (c : Char) {text rest' : List Char}
    (h : readString rest = some (text, rest')) :
    readString (escape c ++ rest) = some (c :: text, rest') := by
  unfold escape
  split
  · exact readString_letter (by decide) rfl h
  · exact readString_letter (by decide) rfl h
  · exact readString_letter (by decide) rfl h
  · exact readString_letter (by decide) rfl h
  · exact readString_letter (by decide) rfl h
  · exact readString_letter (by decide) rfl h
  · exact readString_letter (by decide) rfl h
  · rename_i hquote hslash _ _ _ _ _
    split
    · rename_i hcontrol
      obtain ⟨high, low, hdigits, hunit⟩ := codeUnit_ofByte c.toNat hcontrol
      have hread := readString_control hcontrol hunit h
      rw [Char.ofNat_toNat] at hread
      rw [hdigits]
      exact hread
    · rename_i hc
      exact readString_same hquote hslash hc h

/-- A text is read from its written form, up to the closing quotation mark. -/
theorem readString_flatMap (text rest : List Char) :
    readString (text.flatMap escape ++ '"' :: rest) = some (text, rest) := by
  induction text with
  | nil => simp [readString]
  | cons c text ih =>
    rw [List.flatMap_cons, List.append_assoc]
    exact readString_escape c ih

theorem readString_stringChars (text : String) (rest : List Char) :
    ∃ body, stringChars text ++ rest = '"' :: body ∧
      readString body = some (text.toList, rest) := by
  refine ⟨text.toList.flatMap escape ++ '"' :: rest, ?_, readString_flatMap text.toList rest⟩
  simp [stringChars]

/-! ## Numbers -/

/-- Digits are read up to what ends the number. -/
theorem readDigits_append {digits : List Char} (hdigits : ∀ c ∈ digits, c.isDigit = true)
    (hrest : Ends rest) : readDigits (digits ++ rest) = (digits, rest) := by
  have hnone : rest.takeWhile Char.isDigit = [] ∧ rest.dropWhile Char.isDigit = rest := by
    cases rest with
    | nil => exact ⟨rfl, rfl⟩
    | cons c text =>
      have hc := (hrest.head_ne rfl).1
      exact ⟨List.takeWhile_cons_of_neg (by simp [hc]), List.dropWhile_cons_of_neg (by simp [hc])⟩
  rw [readDigits, List.takeWhile_append_of_pos hdigits, List.dropWhile_append_of_pos hdigits,
    hnone.1, hnone.2, List.append_nil]

/-- A whole number is read from its decimal digits. -/
theorem readNumber_toDigits {negative : Bool} {n : Nat} {value : Json} (hrest : Ends rest)
    (hvalue : ofWhole? negative (Nat.toDigits 10 n) = some value) :
    readNumber negative (Nat.toDigits 10 n ++ rest) = some (value, rest) := by
  have hlead : ¬ (Nat.toDigits 10 n = [] ∨
      ((Nat.toDigits 10 n).head? = some '0' ∧ 1 < (Nat.toDigits 10 n).length)) := by
    rintro (hempty | ⟨hzero, hlong⟩)
    · exact Nat.toDigits_ne_nil hempty
    · rcases Nat.eq_zero_or_pos n with rfl | hpos
      · exact absurd hlong (by decide)
      · exact Digits.head?_toDigits hpos hzero
  have hexponent : readExponent rest = some (none, rest) := by
    cases rest with
    | nil => rfl
    | cons c text =>
      obtain ⟨-, -, he, hE⟩ := hrest.head_ne rfl
      simp [readExponent, he, hE]
  unfold readNumber
  simp only [readDigits_append (Digits.isDigit_toDigits n) hrest, if_neg hlead]
  split
  · exact absurd rfl (hrest.head_ne rfl).2.1
  · simp only [hexponent, Option.bind_eq_bind, Option.bind_some, hvalue]
    rfl

theorem chars_integer_ofNat (n : Nat) : chars (integer n) = Nat.toDigits 10 n := by
  have htext : toString (n : Int) = n.repr := rfl
  rw [chars, htext, Nat.toList_repr]

theorem chars_integer_negSucc (n : Nat) :
    chars (integer (Int.negSucc n)) = '-' :: Nat.toDigits 10 (n + 1) := by
  have htext : toString (Int.negSucc n) = "-" ++ (n + 1).repr := rfl
  rw [chars, htext, String.toList_append, Nat.toList_repr]
  rfl

theorem exists_toDigits (n : Nat) :
    ∃ d digits, Nat.toDigits 10 n = d :: digits ∧ d.isDigit = true := by
  cases hdigits : Nat.toDigits 10 n with
  | nil => exact absurd hdigits Nat.toDigits_ne_nil
  | cons d digits =>
    have hd := Digits.isDigit_toDigits n d
    rw [hdigits] at hd
    exact ⟨d, digits, rfl, hd List.mem_cons_self⟩

/-! ## Values -/

/-- Whether a character is skipped before a value. -/
def isBlank (c : Char) : Bool :=
  c = ' ' ∨ c = '\n' ∨ c = '\r' ∨ c = '\t'

theorem skipBlanks_cons {c : Char} (h : isBlank c = false) (text : List Char) :
    skipBlanks (c :: text) = c :: text := by
  rw [skipBlanks, List.dropWhile_cons_of_neg]
  simpa [isBlank] using h

theorem isBlank_of_isDigit {c : Char} (h : c.isDigit = true) : isBlank c = false := by
  unfold isBlank
  rw [decide_eq_false_iff_not]
  rintro (rfl | rfl | rfl | rfl) <;> exact absurd h (by decide)

/-- The text of a value does not begin with a blank nor with the end of an array. -/
theorem Whole.exists_head {value : Json} (h : Whole value) :
    ∃ c text, chars value = c :: text ∧ isBlank c = false ∧ c ≠ ']' := by
  cases h with
  | null => exact ⟨_, _, rfl, by decide, by decide⟩
  | bool value => cases value <;> exact ⟨_, _, rfl, by decide, by decide⟩
  | @integer n =>
    cases n with
    | ofNat n =>
      obtain ⟨d, digits, hdigits, hd⟩ := exists_toDigits n
      refine ⟨d, digits, (chars_integer_ofNat n).trans hdigits, isBlank_of_isDigit hd, ?_⟩
      rintro rfl
      exact absurd hd (by decide)
    | negSucc n => exact ⟨_, _, chars_integer_negSucc n, by decide, by decide⟩
  | string value => exact ⟨_, _, by rw [chars, stringChars], by decide, by decide⟩
  | @array items =>
    cases items <;> exact ⟨_, _, by rw [chars], by decide, by decide⟩
  | @object fields =>
    cases fields <;> exact ⟨_, _, by rw [chars], by decide, by decide⟩

/-- A value is read from its text whatever follows, with fuel for every
character. -/
def ReadsBack (value : Json) : Prop :=
  ∀ fuel rest, Ends rest → (chars value).length ≤ fuel →
    readValue fuel (chars value ++ rest) = some (value, rest)

/-- Fuel for a text is enough for one step and then for what follows its first
character. -/
theorem exists_fuel {c : Char} {text : List Char} {fuel : Nat} (h : (c :: text).length ≤ fuel) :
    ∃ fuel', fuel = fuel' + 1 ∧ text.length ≤ fuel' := by
  cases fuel with
  | zero => nomatch h
  | succ fuel => exact ⟨fuel, rfl, Nat.le_of_succ_le_succ h⟩

theorem readValue_digit {d : Char} (hd : d.isDigit = true) (fuel : Nat) (text : List Char) :
    readValue (fuel + 1) (d :: text) = readNumber false (d :: text) := by
  rw [readValue, skipBlanks_cons (isBlank_of_isDigit hd)]
  split
  case h_8 => rfl
  all_goals
    rename_i heq
    obtain rfl := (List.cons.inj heq).1
    exact absurd hd (by decide)

theorem readValue_minus (fuel : Nat) (text : List Char) :
    readValue (fuel + 1) ('-' :: text) = readNumber true text := by
  rw [readValue, skipBlanks_cons (by decide)]
  rfl

theorem readsBack_integer {n : Int} (hlow : Int64.minValue.toInt ≤ n) (hhigh : n < UInt64.size) :
    ReadsBack (integer n) := by
  intro fuel rest hrest hfuel
  cases n with
  | ofNat n =>
    have hvalue : ofWhole? false (Nat.toDigits 10 n) = some (integer n) := by
      have hn : n < UInt64.size := Int.ofNat_lt.mp hhigh
      simp [ofWhole?, Digits.value_toDigits, hn]
    have hread := readNumber_toDigits hrest hvalue
    obtain ⟨d, digits, hdigits, hd⟩ := exists_toDigits n
    rw [Int.ofNat_eq_natCast, chars_integer_ofNat] at hfuel ⊢
    rw [hdigits] at hfuel hread ⊢
    obtain ⟨fuel, rfl, -⟩ := exists_fuel hfuel
    exact (readValue_digit hd fuel _).trans hread
  | negSucc n =>
    have hvalue : ofWhole? true (Nat.toDigits 10 (n + 1)) = some (integer (Int.negSucc n)) := by
      have hn : Int64.minValue.toInt ≤ -((n + 1 : Nat) : Int) := hlow
      simp only [ofWhole?, Digits.value_toDigits, true_and]
      rw [if_pos ⟨Nat.succ_pos n, hn⟩]
      rfl
    rw [chars_integer_negSucc] at hfuel ⊢
    obtain ⟨fuel, rfl, -⟩ := exists_fuel hfuel
    exact (readValue_minus fuel _).trans (readNumber_toDigits hrest hvalue)

theorem readsBack_string (text : String) : ReadsBack (string text) := by
  intro fuel rest _ hfuel
  rw [chars] at hfuel ⊢
  obtain ⟨body, hbody, hread⟩ := readString_stringChars text rest
  obtain ⟨fuel, rfl, -⟩ := exists_fuel hfuel
  rw [hbody, readValue, skipBlanks_cons (by decide)]
  simp only [hread, Option.bind_eq_bind, Option.bind_some, String.ofList_toList]
  rfl

/-! ### Parts of arrays and objects -/

theorem readItems_itemsChars {items : List Json} (hitems : ∀ item ∈ items, ReadsBack item)
    (fuel : Nat) (hfuel : (itemsChars items).length ≤ fuel) (rest : List Char) :
    readItems fuel (itemsChars items ++ rest) = some (items, rest) := by
  induction items generalizing fuel with
  | nil =>
    obtain ⟨fuel, rfl, -⟩ := exists_fuel hfuel
    rw [itemsChars, List.cons_append, readItems, skipBlanks_cons (by decide)]
    rfl
  | cons item items ih =>
    obtain ⟨hitem, hrest⟩ := List.forall_mem_cons.mp hitems
    rw [itemsChars] at hfuel
    obtain ⟨fuel, rfl, hlength⟩ := exists_fuel hfuel
    rw [List.length_append] at hlength
    have hfirst := hitem fuel _ (ends_itemsChars items rest) (by omega)
    have hmore := ih hrest fuel (by omega)
    rw [itemsChars, List.cons_append, List.append_assoc, readItems, skipBlanks_cons (by decide)]
    simp only [hfirst, hmore, Option.bind_eq_bind, Option.bind_some]
    rfl

/-- The text of a field, with what separates its name from its value. -/
def fieldChars (field : String × Json) : List Char :=
  stringChars field.1 ++ ':' :: chars field.2

theorem fieldsChars_cons (field : String × Json) (fields : List (String × Json)) :
    fieldsChars (field :: fields) = ',' :: (fieldChars field ++ fieldsChars fields) := by
  simp [fieldsChars, fieldChars]

theorem chars_object_cons (field : String × Json) (fields : List (String × Json)) :
    chars (object (field :: fields)) = '\x7b' :: (fieldChars field ++ fieldsChars fields) := by
  simp [chars, fieldChars]

/-- A field begins with a quotation mark and is read from its text. -/
theorem readField_fieldChars {field : String × Json} (hvalue : ReadsBack field.2) (fuel : Nat)
    (hfuel : (fieldChars field).length ≤ fuel) (hrest : Ends rest) :
    ∃ body, fieldChars field ++ rest = '"' :: body ∧
      readField fuel ('"' :: body) = some (field, rest) := by
  obtain ⟨body, hbody, hread⟩ := readString_stringChars field.1 (':' :: (chars field.2 ++ rest))
  have hchars : fieldChars field ++ rest = '"' :: body := by
    rw [← hbody]
    simp [fieldChars]
  refine ⟨body, hchars, ?_⟩
  rw [fieldChars, stringChars, List.cons_append] at hfuel
  obtain ⟨fuel, rfl, hlength⟩ := exists_fuel hfuel
  have hfollows := hvalue fuel rest hrest (by
    simp only [List.length_append, List.length_cons] at hlength
    omega)
  rw [readField, skipBlanks_cons (by decide)]
  simp only [hread, Option.bind_eq_bind, Option.bind_some, skipBlanks_cons (c := ':') (by decide),
    hfollows, String.ofList_toList]
  rfl

theorem readFields_fieldsChars {fields : List (String × Json)}
    (hfields : ∀ field ∈ fields, ReadsBack field.2) (fuel : Nat)
    (hfuel : (fieldsChars fields).length ≤ fuel) (rest : List Char) :
    readFields fuel (fieldsChars fields ++ rest) = some (fields, rest) := by
  induction fields generalizing fuel with
  | nil =>
    obtain ⟨fuel, rfl, -⟩ := exists_fuel hfuel
    rw [fieldsChars, List.cons_append, readFields, skipBlanks_cons (by decide)]
    rfl
  | cons field fields ih =>
    obtain ⟨hfield, hrest⟩ := List.forall_mem_cons.mp hfields
    rw [fieldsChars_cons] at hfuel ⊢
    obtain ⟨fuel, rfl, hlength⟩ := exists_fuel hfuel
    rw [List.length_append] at hlength
    have hmore := ih hrest fuel (by omega)
    obtain ⟨body, hbody, hfirst⟩ := readField_fieldChars hfield fuel (by omega)
      (ends_fieldsChars fields rest)
    rw [List.cons_append, List.append_assoc, readFields, skipBlanks_cons (by decide), hbody]
    simp only [hfirst, hmore, Option.bind_eq_bind, Option.bind_some]
    rfl

theorem readsBack_array {items : List Json} (hwhole : ∀ item ∈ items, Whole item)
    (hitems : ∀ item ∈ items, ReadsBack item) : ReadsBack (array items) := by
  intro fuel rest _ hfuel
  cases items with
  | nil =>
    obtain ⟨fuel, rfl, -⟩ := exists_fuel hfuel
    rw [chars, List.cons_append, readValue, skipBlanks_cons (by decide)]
    simp only [List.cons_append, List.nil_append, skipBlanks_cons (c := ']') (by decide)]
  | cons item items =>
    obtain ⟨hitem, hrest⟩ := List.forall_mem_cons.mp hitems
    obtain ⟨c, text, hchars, hblank, hclose⟩ := (hwhole item List.mem_cons_self).exists_head
    rw [chars] at hfuel
    obtain ⟨fuel, rfl, hlength⟩ := exists_fuel hfuel
    rw [List.length_append] at hlength
    have hfirst := hitem fuel _ (ends_itemsChars items rest) (by omega)
    have hmore := readItems_itemsChars hrest fuel (by omega) rest
    rw [chars, List.cons_append, readValue, skipBlanks_cons (by decide), List.append_assoc]
    rw [hchars, List.cons_append] at hfirst ⊢
    simp only [skipBlanks_cons hblank]
    split
    · rename_i heq
      exact absurd (List.cons.inj heq).1 hclose
    · simp only [hfirst, hmore, Option.bind_eq_bind, Option.bind_some]
      rfl

theorem readsBack_object {fields : List (String × Json)}
    (hfields : ∀ field ∈ fields, ReadsBack field.2) : ReadsBack (object fields) := by
  intro fuel rest _ hfuel
  cases fields with
  | nil =>
    obtain ⟨fuel, rfl, -⟩ := exists_fuel hfuel
    rw [chars, List.cons_append, readValue, skipBlanks_cons (by decide)]
    simp only [List.cons_append, List.nil_append, skipBlanks_cons (c := '\x7d') (by decide)]
  | cons field fields =>
    obtain ⟨hfield, hrest⟩ := List.forall_mem_cons.mp hfields
    rw [chars_object_cons] at hfuel ⊢
    obtain ⟨fuel, rfl, hlength⟩ := exists_fuel hfuel
    rw [List.length_append] at hlength
    have hmore := readFields_fieldsChars hrest fuel (by omega) rest
    obtain ⟨body, hbody, hfirst⟩ := readField_fieldChars hfield fuel (by omega)
      (ends_fieldsChars fields rest)
    rw [List.cons_append, List.append_assoc, readValue, skipBlanks_cons (by decide), hbody]
    simp only [skipBlanks_cons (c := '"') (by decide)]
    split
    · rename_i heq
      nomatch heq
    · simp only [hfirst, hmore, Option.bind_eq_bind, Option.bind_some]
      rfl

theorem Whole.readsBack {value : Json} (h : Whole value) : ReadsBack value := by
  induction h with
  | null =>
    intro fuel rest _ hfuel
    obtain ⟨fuel, rfl, -⟩ := exists_fuel hfuel
    rfl
  | bool value =>
    intro fuel rest _ hfuel
    cases value <;> obtain ⟨fuel, rfl, -⟩ := exists_fuel hfuel <;> rfl
  | integer hlow hhigh => exact readsBack_integer hlow hhigh
  | string value => exact readsBack_string value
  | array hitems ih => exact readsBack_array hitems ih
  | object hfields ih => exact readsBack_object ih

/-- A value without fractions is read back from its text. -/
theorem parse_render {value : Json} (h : Whole value) : parse (render value) = some value := by
  have hread := h.readsBack (2 * (render value).length + 2) [] ends_nil (by
    rw [render, String.length_ofList]
    omega)
  rw [List.append_nil] at hread
  have hchars : (render value).toList = chars value := String.toList_ofList
  rw [parse, hchars, hread]
  rfl

end Json
end Envelope
