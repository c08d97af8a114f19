import Vigabss.Lib.Calendar
import Vigabss.Lib.IpText
import Vigabss.Lib.Rfc4180

/-!
# Vigabss.Utils.Csv — CSV cells for files that staff open in a spreadsheet

`formatValue`, `csvCell` and `toCsv`.  `csv_reads_back_iff` says for which rows the text is read
back by RFC 4180 and holds no formula.
-/

namespace Vigabss.Utils.Csv

open Vigabss.Lib Vigabss.Lib.Rfc4180

/-! ### The code -/

/-- `FORMULA_START`. -/
def startsFormula (text : List Char) : Bool :=
  text.head?.any fun c => c ∈ ['\t', '\r', '\n', ' ', '=', '+', '-', '@']

/-- `[-+]?`, taken away. -/
def dropSign : List Char → List Char
  | '+' :: text => text
  | '-' :: text => text
  | text => text

/-- `(?:[eE][-+]?\d+)?$`. -/
def isExponent : List Char → Bool
  | [] => true
  | c :: text =>
    (c = 'e' ∨ c = 'E') ∧ dropSign text ≠ [] ∧ (dropSign text).all (JsText.isDigit 10) = true

/-- `NUMERIC`. -/
def isNumeric (text : List Char) : Bool :=
  let whole := (dropSign text).takeWhile (JsText.isDigit 10)
  match (dropSign text).dropWhile (JsText.isDigit 10) with
  | '.' :: rest =>
    (whole ≠ [] ∨ rest.takeWhile (JsText.isDigit 10) ≠ []) ∧
      isExponent (rest.dropWhile (JsText.isDigit 10)) = true
  | rest => whole ≠ [] ∧ isExponent rest = true

/-- A number's text: a numeral, or one of the values that have none. -/
structure NumberText where
  text : List Char
  form : isNumeric text = true ∨
    text ∈ [['N', 'a', 'N'], "Infinity".toList, '-' :: "Infinity".toList]

/-- A `Date`, in milliseconds, within the range that a `Date` has. -/
structure JsDate where
  ms : ℤ
  range : -8640000000000000 ≤ ms ∧ ms ≤ 8640000000000000

/-- A value of a row.  Of an object that is no `Date` and no array, its `toString()` is given. -/
inductive Value where
  | null
  | undefined
  | string (text : List Char)
  | boolean (b : Bool)
  | number (n : NumberText)
  | date (d : JsDate)
  | array (items : List Value)
  | object (text : List Char)

def Value.isNullish : Value → Bool
  | .null | .undefined => true
  | _ => false

def Value.isString : Value → Bool
  | .string _ => true
  | _ => false

def pad (length n : ℕ) : List Char := JsText.padStart length '0' (Nat.toDigits 10 n)

/-- The year of `toISOString()`. -/
def isoYear (year : ℤ) : List Char :=
  if 0 ≤ year ∧ year ≤ 9999 then pad 4 year.toNat
  else (if year < 0 then '-' else '+') :: pad 6 year.natAbs

/-- `toISOString()`. -/
def JsDate.toISOString (d : JsDate) : List Char :=
  let day := civil (utcDay d.ms)
  let time := (d.ms % msPerDay).toNat
  isoYear day.year ++ '-' :: pad 2 day.month.toNat ++ '-' :: pad 2 day.day.toNat ++
    'T' :: pad 2 (time / 3600000) ++ ':' :: pad 2 (time / 60000 % 60) ++
    ':' :: pad 2 (time / 1000 % 60) ++ '.' :: pad 3 (time % 1000) ++ ['Z']

/-- A `Date` as `formatValue` writes it. -/
def formatDate (d : JsDate) : List Char :=
  let iso := d.toISOString
  if "T00:00:00.000Z".toList.isSuffixOf iso then iso.take 10
  else iso.take 10 ++ ' ' :: (iso.drop 11).take 8

section Texts

-- `String(date)`, which depends on the zone of the process
variable (dateString : JsDate → List Char)

mutual

/-- `String(value)`. -/
def Value.toText : Value → List Char
  | .null => "null".toList
  | .undefined => "undefined".toList
  | .string text => text
  | .boolean b => if b then "true".toList else "false".toList
  | .number n => n.text
  | .date d => dateString d
  | .array items => [','].intercalate (itemTexts items)
  | .object text => text

/-- The elements of an array, as `join` writes them. -/
def itemTexts : List Value → List (List Char)
  | [] => []
  | v :: items => (if v.isNullish then [] else v.toText) :: itemTexts items

end

/-- `formatValue(value)`. -/
def formatValue : Value → List Char
  | .date d => formatDate d
  | v => v.toText dateString

/-- The text of a cell, with the apostrophe in front of a formula. -/
def cellText (v : Value) : List Char :=
  if v.isNullish then []
  else
    let text := formatValue dateString v
    if v.isString && startsFormula text && !isNumeric text then '\'' :: text else text

/-- `csvCell(value)`. -/
def csvCell (v : Value) : List Char :=
  if v.isNullish then []
  else
    let text := cellText dateString v
    if text.any isSpecial then '"' :: (double text ++ ['"']) else text

/-- A row: its keys and values, in the order of `Object.keys`. -/
abbrev Row := List (List Char × Value)

/-- `row[c]`. -/
def Row.get (row : Row) (c : List Char) : Value :=
  match row.find? fun entry => entry.1 = c with
  | some entry => entry.2
  | none => .undefined

/-- `columns || Object.keys(rows[0])`. -/
def columnsOf (rows : List Row) (columns : Option (List (List Char))) : List (List Char) :=
  columns.getD ((rows.headD []).map Prod.fst)

/-- `toCsv(rows, columns, { eol })`. -/
def toCsv (rows : List Row) (columns : Option (List (List Char))) (eol : LineEnd) : List Char :=
  if rows = [] then []
  else
    let cols := columnsOf rows columns
    eol.text.intercalate
      ([','].intercalate (cols.map fun c => csvCell dateString (.string c)) ::
        rows.map fun row => [','].intercalate (cols.map fun c => csvCell dateString (row.get c)))

/-! ### The law -/

/-- The header and one record per row, with each cell's text. -/
def records (rows : List Row) (columns : Option (List (List Char))) : List (List (List Char)) :=
  let cols := columnsOf rows columns
  cols.map (fun c => cellText dateString (.string c)) ::
    rows.map fun row => cols.map fun c => cellText dateString (row.get c)

/-- The text is read back as the header and the rows, and no cell that is not a plain number starts
a formula. -/
def ReadsBack (rows : List Row) (columns : Option (List (List Char))) (eol : LineEnd) : Prop :=
  parse (toCsv dateString rows columns eol) = some (records dateString rows columns) ∧
    ∀ record ∈ records dateString rows columns, ∀ cell ∈ record,
      startsFormula cell = true → isNumeric cell = true

/-- The values whose text is no formula, or is given an apostrophe. -/
def Harmless : Value → Prop
  | .null | .undefined | .string _ | .boolean _ => True
  | .number n => n.text ≠ '-' :: "Infinity".toList
  | .date d => 0 ≤ (civil (utcDay d.ms)).year ∧ (civil (utcDay d.ms)).year ≤ 9999
  | .array items => startsFormula (Value.toText dateString (.array items)) = true →
    isNumeric (Value.toText dateString (.array items)) = true
  | .object text => startsFormula text = true → isNumeric text = true

/-- There are rows and columns, and where there is one column the last cell is not empty. -/
def Shaped (rows : List Row) (columns : Option (List (List Char))) : Prop :=
  columnsOf rows columns ≠ [] ∧ ∃ row, rows.getLast? = some row ∧
    ∀ c, columnsOf rows columns = [c] → cellText dateString (row.get c) ≠ []

/-! ### Cells -/

variable {dateString}

theorem csvCell_eq (v : Value) : csvCell dateString v = quote (cellText dateString v) := by
  unfold csvCell quote
  by_cases hnull : v.isNullish = true
  · rw [if_pos hnull, cellText, if_pos hnull]
    rfl
  · rw [if_neg hnull]

theorem toCsv_eq {rows : List Row} (hrows : rows ≠ []) (columns : Option (List (List Char)))
    (eol : LineEnd) :
    toCsv dateString rows columns eol = write eol (records dateString rows columns) := by
  simp only [toCsv, if_neg hrows, csvCell_eq, records, write, List.map_cons, List.map_map,
    Function.comp_def, writeRecord]

theorem not_startsFormula_of_isDigit {c : Char} (hc : JsText.isDigit 10 c = true)
    (text : List Char) : startsFormula (c :: text) = false := by
  rw [startsFormula, List.head?_cons, Option.any_some, decide_eq_false_iff_not]
  intro hmem
  simp only [List.mem_cons, List.not_mem_nil, or_false] at hmem
  rcases hmem with rfl | rfl | rfl | rfl | rfl | rfl | rfl | rfl <;> exact absurd hc (by decide)

theorem not_isNumeric_of_hyphen {sign : Char} (hsign : sign = '-' ∨ sign = '+')
    {digits : List Char} (hdigits : digits.all (JsText.isDigit 10) = true) (text : List Char) :
    isNumeric (sign :: (digits ++ '-' :: text)) = false := by
  have hdrop : dropSign (sign :: (digits ++ '-' :: text)) = digits ++ '-' :: text := by
    rcases hsign with rfl | rfl <;> rfl
  have hrest : (digits ++ '-' :: text).dropWhile (JsText.isDigit 10) = '-' :: text := by
    rw [List.dropWhile_append_of_pos (List.all_eq_true.1 hdigits),
      List.dropWhile_cons_of_neg (by decide)]
  simp only [isNumeric, hdrop, hrest]
  simp [isExponent]

/-! ### Dates -/

theorem all_isDigit_pad (length n : ℕ) : (pad length n).all (JsText.isDigit 10) = true := by
  rw [pad, JsText.padStart, List.all_append, IpText.all_isDigit_toDigits (by omega) (by omega),
    Bool.and_true, List.all_eq_true]
  intro c hc
  rw [List.eq_of_mem_replicate hc]
  decide

theorem pad_ne_nil (length n : ℕ) : pad length n ≠ [] :=
  List.append_ne_nil_of_right_ne_nil _ Nat.toDigits_ne_nil

theorem length_pad {length n : ℕ} (hlength : 0 < length) (hn : n < 10 ^ length) :
    (pad length n).length = length := by
  have hle := (Nat.length_toDigits_le_iff (show 1 < 10 by omega) hlength).2 hn
  rw [pad, JsText.padStart, List.length_append, List.length_replicate]
  omega

theorem JsDate.year_bounds (d : JsDate) : (civil (utcDay d.ms)).year.natAbs < 10 ^ 6 := by
  obtain ⟨ms, hlow, hhigh⟩ := d
  simp only [civil, utcDay, msPerDay]
  split_ifs <;> omega

theorem formatDate_eq (d : JsDate) : ∃ more,
    formatDate d = d.toISOString.take 10 ++ more := by
  unfold formatDate
  dsimp only
  split_ifs
  · exact ⟨[], (List.append_nil _).symm⟩
  · exact ⟨_, rfl⟩

theorem toISOString_eq (d : JsDate) : ∃ more,
    d.toISOString = isoYear (civil (utcDay d.ms)).year ++ '-' :: more := by
  simp only [JsDate.toISOString, List.append_assoc, List.cons_append]
  exact ⟨_, rfl⟩

/-- **Which dates start no formula**: those of the years of four digits. -/
theorem formatDate_harmless (d : JsDate) :
    (startsFormula (formatDate d) = true → isNumeric (formatDate d) = true) ↔
      0 ≤ (civil (utcDay d.ms)).year ∧ (civil (utcDay d.ms)).year ≤ 9999 := by
  obtain ⟨rest, hrest⟩ := formatDate_eq d
  obtain ⟨more, hmore⟩ := toISOString_eq d
  have hyear := d.year_bounds
  generalize (civil (utcDay d.ms)).year = year at hmore hyear
  rw [hrest, hmore, isoYear]
  by_cases hrange : 0 ≤ year ∧ year ≤ 9999
  · rw [if_pos hrange]
    obtain ⟨c, digits, hpad⟩ := List.exists_cons_of_ne_nil (pad_ne_nil 4 year.toNat)
    have hc : JsText.isDigit 10 c = true := by
      have hall := all_isDigit_pad 4 year.toNat
      rw [hpad, List.all_cons, Bool.and_eq_true] at hall
      exact hall.1
    refine iff_of_true (fun hstarts => ?_) hrange
    rw [hpad, List.cons_append, List.take_succ_cons, List.cons_append,
      not_startsFormula_of_isDigit hc] at hstarts
    cases hstarts
  · rw [if_neg hrange]
    have hsign : (if year < 0 then '-' else '+') = '-' ∨
        (if year < 0 then '-' else '+') = '+' := by
      split_ifs
      · exact .inl rfl
      · exact .inr rfl
    generalize (if year < 0 then '-' else '+') = sign at hsign
    have hlength := length_pad (show 0 < 6 by omega) hyear
    have htake : ((sign :: pad 6 year.natAbs) ++ '-' :: more).take 10 =
        sign :: (pad 6 year.natAbs ++ '-' :: more.take 2) := by
      rw [List.cons_append, List.take_succ_cons, List.take_append, hlength,
        List.take_of_length_le (by omega)]
      rfl
    refine iff_of_false (fun hnumeric => ?_) hrange
    rw [htake, List.cons_append, List.append_assoc, List.cons_append,
      not_isNumeric_of_hyphen hsign (all_isDigit_pad 6 year.natAbs)] at hnumeric
    refine absurd (hnumeric ?_) (by decide)
    rcases hsign with rfl | rfl <;> rfl

/-! ### Values -/

/-- **Which values leave no formula in a cell.** -/
theorem cellText_harmless (v : Value) :
    (startsFormula (cellText dateString v) = true → isNumeric (cellText dateString v) = true) ↔
      Harmless dateString v := by
  cases v with
  | null | undefined => exact iff_of_true (fun h => by cases h) trivial
  | string text =>
    refine iff_of_true (fun h => ?_) trivial
    have htext : cellText dateString (.string text) =
        if startsFormula text && !isNumeric text then '\'' :: text else text := rfl
    rw [htext] at h ⊢
    split_ifs at h ⊢ with hguard
    · cases h
    · rw [h, Bool.true_and, Bool.not_eq_true', Bool.not_eq_false] at hguard
      exact hguard
  | boolean b =>
    refine iff_of_true (fun h => ?_) trivial
    cases b with
    | false => exact absurd (show startsFormula "false".toList = true from h) (by decide)
    | true => exact absurd (show startsFormula "true".toList = true from h) (by decide)
  | number n =>
    show (startsFormula n.text = true → isNumeric n.text = true) ↔ n.text ≠ _
    constructor
    · intro h hinf
      rw [hinf] at h
      exact absurd (h (by decide)) (by decide)
    · intro hinf hstarts
      rcases n.form with hnumeric | hvalue
      · exact hnumeric
      · simp only [List.mem_cons, List.not_mem_nil, or_false] at hvalue
        rcases hvalue with htext | htext | htext
        · rw [htext] at hstarts
          exact absurd hstarts (by decide)
        · rw [htext] at hstarts
          exact absurd hstarts (by decide)
        · exact absurd htext hinf
  | date d => exact formatDate_harmless d
  | array items => exact Iff.rfl
  | object text => exact Iff.rfl

/-! ### The file -/

/-- The records are readable just when the file has the shape. -/
theorem readable_iff {rows : List Row} (hrows : rows ≠ []) (columns : Option (List (List Char))) :
    Readable (records dateString rows columns) ↔ Shaped dateString rows columns := by
  obtain ⟨row, hlast⟩ := Option.isSome_iff_exists.1 (List.getLast?_isSome.2 hrows)
  have hgetLast : (records dateString rows columns).getLast? =
      some ((columnsOf rows columns).map fun c => cellText dateString (row.get c)) := by
    obtain ⟨first, rest, rfl⟩ := List.exists_cons_of_ne_nil hrows
    rw [records, List.map_cons, List.getLast?_cons_cons]
    show (List.map (fun row => (columnsOf (first :: rest) columns).map
      fun c => cellText dateString (row.get c)) (first :: rest)).getLast? = _
    rw [List.getLast?_map, hlast]
    rfl
  have hone : (columnsOf rows columns).map (fun c => cellText dateString (row.get c)) = [[]] ↔
      ∃ c, columnsOf rows columns = [c] ∧ cellText dateString (row.get c) = [] := by
    rw [List.map_eq_singleton_iff]
  constructor
  · rintro ⟨hne, hblank⟩
    have hcols : columnsOf rows columns ≠ [] := fun hnil => by
      refine hne _ List.mem_cons_self ?_
      rw [hnil]
      rfl
    refine ⟨hcols, row, hlast, fun c hc hempty => ?_⟩
    rw [hgetLast, hone.2 ⟨c, hc, hempty⟩] at hblank
    exact hblank rfl
  · rintro ⟨hcols, row', hlast', hcell⟩
    rw [hlast] at hlast'
    cases hlast'
    refine ⟨fun r hr => ?_, fun hblank => ?_⟩
    · rcases List.mem_cons.1 hr with rfl | hr
      · simpa using hcols
      · obtain ⟨row'', -, rfl⟩ := List.mem_map.1 hr
        simpa using hcols
    · rw [hgetLast] at hblank
      obtain ⟨c, hc, hempty⟩ := hone.1 (Option.some.inj hblank)
      exact hcell c hc hempty

/-- **Which files are read back**, and hold no formula: those with a row and a column, but not with
one column and an empty cell at its end, where each value is harmless. -/
theorem csv_reads_back_iff (dateString : JsDate → List Char) (rows : List Row)
    (columns : Option (List (List Char))) (eol : LineEnd) :
    ReadsBack dateString rows columns eol ↔
      Shaped dateString rows columns ∧
        ∀ row ∈ rows, ∀ c ∈ columnsOf rows columns, Harmless dateString (row.get c) := by
  by_cases hrows : rows = []
  · refine iff_of_false ?_ ?_
    · rintro ⟨hparse, -⟩
      rw [toCsv, if_pos hrows] at hparse
      cases hparse
    · rintro ⟨⟨-, row, hlast, -⟩, -⟩
      rw [hrows] at hlast
      cases hlast
  · refine and_congr ?_ ?_
    · rw [toCsv_eq hrows, parse_write_iff, readable_iff hrows]
    · constructor
      · intro h row hrow c hc
        refine (cellText_harmless _).1
          (h _ (List.mem_cons_of_mem _ (List.mem_map_of_mem hrow)) _ ?_)
        exact List.mem_map_of_mem hc
      · intro h record hrecord cell hcell
        rcases List.mem_cons.1 hrecord with rfl | hrecord
        · obtain ⟨c, -, rfl⟩ := List.mem_map.1 hcell
          exact (cellText_harmless (.string c)).2 trivial
        · obtain ⟨row, hrow, rfl⟩ := List.mem_map.1 hrecord
          obtain ⟨c, hc, rfl⟩ := List.mem_map.1 hcell
          exact (cellText_harmless _).2 (h row hrow c hc)

/-- A list with a formula in it. -/
theorem array_formula : ¬ ∀ dateString rows columns eol, ReadsBack dateString rows columns eol := by
  intro h
  have hcells := (h (fun _ => []) [[(['n'], .array [.string ['=', '1', '+', '1']])]] none .lf).2
  have hcell := hcells _ (List.mem_cons_of_mem _ List.mem_cons_self) _ List.mem_cons_self
  exact absurd (hcell (by decide)) (by decide)

end Texts

end Vigabss.Utils.Csv
