import Mathlib.Data.List.Basic

/-!
# Vigabss.Lib.Rfc4180 — records of fields between commas and line breaks

The text form of RFC 4180: fields between commas, records between line breaks, and quotes around a
field that holds one of these or a quote.  A line break is CRLF or a bare LF, and one behind the
last record ends that record.  `parse_write` says which lists of records are read back from what is
written.
-/

namespace Vigabss.Lib.Rfc4180

/-! ### Writing -/

inductive LineEnd where
  | lf | crlf
  deriving DecidableEq, Repr

def LineEnd.text : LineEnd → List Char
  | .lf => ['\n']
  | .crlf => ['\r', '\n']

/-- The characters for which a field is quoted. -/
def isSpecial (c : Char) : Bool := c = '"' ∨ c = ',' ∨ c = '\r' ∨ c = '\n'

/-- A field with its quotes doubled. -/
def double (field : List Char) : List Char :=
  field.flatMap fun c => if c = '"' then ['"', '"'] else [c]

def quote (field : List Char) : List Char :=
  if field.any isSpecial then '"' :: (double field ++ ['"']) else field

def writeRecord (record : List (List Char)) : List Char := [','].intercalate (record.map quote)

def write (eol : LineEnd) (records : List (List (List Char))) : List Char :=
  eol.text.intercalate (records.map writeRecord)

/-! ### Reading -/

/-- Where a reader stands: before a record, before a field, in one, in a quoted one, behind the
quote that may end it, or behind a CR. -/
inductive Mode where
  | begin | field | bare | quoted | closed | cr
  deriving DecidableEq, Repr

/-- The records of a text, from a field and a record that have begun. -/
def read : Mode → List Char → List (List Char) → List Char → Option (List (List (List Char)))
  | .begin, _, _, [] => some []
  | .quoted, _, _, [] | .cr, _, _, [] => none
  | .field, field, record, [] | .bare, field, record, [] | .closed, field, record, [] =>
    some [record ++ [field]]
  | .quoted, field, record, c :: rest =>
    if c = '"' then read .closed field record rest else read .quoted (field ++ [c]) record rest
  | .cr, _, record, c :: rest =>
    if c = '\n' then (read .begin [] [] rest).map (record :: ·) else none
  | mode, field, record, c :: rest =>
    if c = ',' then read .field [] (record ++ [field]) rest
    else if c = '\n' then (read .begin [] [] rest).map ((record ++ [field]) :: ·)
    else if c = '\r' then read .cr [] (record ++ [field]) rest
    else if c = '"' then
      match mode with
      | .bare => none
      | .closed => read .quoted (field ++ ['"']) record rest
      | _ => read .quoted [] record rest
    else if mode = .closed then none
    else read .bare (field ++ [c]) record rest

def parse (text : List Char) : Option (List (List (List Char))) := read .begin [] [] text

/-! ### A field is read back -/

/-- A field may end here. -/
def Mode.mayEnd (mode : Mode) : Prop := mode ≠ .quoted ∧ mode ≠ .cr

attribute [local simp] read in
theorem read_comma {mode : Mode} (h : mode.mayEnd) (field : List Char)
    (record : List (List Char)) (rest : List Char) :
    read mode field record (',' :: rest) = read .field [] (record ++ [field]) rest := by
  cases mode with
  | quoted => exact absurd rfl h.1
  | cr => exact absurd rfl h.2
  | begin | field | bare | closed => rw [read] <;> simp

theorem read_eol {mode : Mode} (h : mode.mayEnd) (eol : LineEnd) (field : List Char)
    (record : List (List Char)) (rest : List Char) :
    read mode field record (eol.text ++ rest) =
      (read .begin [] [] rest).map ((record ++ [field]) :: ·) := by
  cases eol with
  | lf =>
    show read mode field record ('\n' :: rest) = _
    cases mode with
    | quoted => exact absurd rfl h.1
    | cr => exact absurd rfl h.2
    | begin | field | bare | closed => rw [read] <;> simp
  | crlf =>
    show read mode field record ('\r' :: '\n' :: rest) = _
    cases mode with
    | quoted => exact absurd rfl h.1
    | cr => exact absurd rfl h.2
    | begin | field | bare | closed => rw [read] <;> simp [read]

theorem read_end {mode : Mode} (h : mode.mayEnd) (hbegin : mode ≠ .begin) (field : List Char)
    (record : List (List Char)) : read mode field record [] = some [record ++ [field]] := by
  cases mode with
  | quoted => exact absurd rfl h.1
  | cr => exact absurd rfl h.2
  | begin => exact absurd rfl hbegin
  | field | bare | closed => rw [read]

theorem read_double (field more : List Char) (record : List (List Char)) (rest : List Char) :
    read .quoted field record (double more ++ '"' :: rest) =
      read .closed (field ++ more) record rest := by
  induction more generalizing field with
  | nil => simp [double, read]
  | cons c more ih =>
    have hdouble : double (c :: more) = (if c = '"' then ['"', '"'] else [c]) ++ double more :=
      List.flatMap_cons
    rw [hdouble]
    by_cases hc : c = '"'
    · subst hc
      rw [if_pos rfl]
      show read .quoted field record ('"' :: '"' :: (double more ++ '"' :: rest)) = _
      rw [read, if_pos rfl, read]
      simp only [if_false, if_true, Char.reduceEq]
      rw [ih, List.append_assoc]
      rfl
    · rw [if_neg hc]
      show read .quoted field record (c :: (double more ++ '"' :: rest)) = _
      rw [read, if_neg hc, ih, List.append_assoc]
      rfl

theorem read_plain {c : Char} (hc : isSpecial c = false) {mode : Mode} (h : mode.mayEnd)
    (hclosed : mode ≠ .closed) (field : List Char) (record : List (List Char))
    (rest : List Char) :
    read mode field record (c :: rest) = read .bare (field ++ [c]) record rest := by
  simp only [isSpecial, decide_eq_false_iff_not, not_or] at hc
  obtain ⟨hquote, hcomma, hcr, hlf⟩ := hc
  cases mode with
  | quoted => exact absurd rfl h.1
  | cr => exact absurd rfl h.2
  | closed => exact absurd rfl hclosed
  | begin | field | bare => rw [read] <;> simp [hquote, hcomma, hcr, hlf]

theorem read_bare {more : List Char} (hmore : more.any isSpecial = false) (field : List Char)
    (record : List (List Char)) (rest : List Char) :
    read .bare field record (more ++ rest) = read .bare (field ++ more) record rest := by
  induction more generalizing field with
  | nil => rw [List.append_nil, List.nil_append]
  | cons c more ih =>
    rw [List.any_cons, Bool.or_eq_false_iff] at hmore
    rw [List.cons_append, read_plain hmore.1 ⟨by decide, by decide⟩ (by decide), ih hmore.2,
      List.append_assoc]
    rfl

/-- **A field is read**, and may end there. -/
theorem read_quote {mode : Mode} (hmode : mode = .begin ∨ mode = .field) (field : List Char)
    (record : List (List Char)) :
    ∃ mode', mode'.mayEnd ∧ (mode' = .begin ↔ mode = .begin ∧ field = []) ∧
      ∀ rest, read mode [] record (quote field ++ rest) = read mode' field record rest := by
  have hmay : mode.mayEnd ∧ mode ≠ .closed := by
    rcases hmode with rfl | rfl <;> exact ⟨⟨by decide, by decide⟩, by decide⟩
  by_cases hspecial : field.any isSpecial = true
  · refine ⟨.closed, ⟨by decide, by decide⟩, ?_, fun rest => ?_⟩
    · refine iff_of_false (by decide) ?_
      rintro ⟨-, rfl⟩
      cases hspecial
    · have hquoted : read mode [] record ('"' :: (double field ++ '"' :: rest)) =
          read .quoted [] record (double field ++ '"' :: rest) := by
        rcases hmode with rfl | rfl <;> rw [read] <;> simp
      rw [quote, if_pos hspecial, List.cons_append, List.append_assoc, List.singleton_append,
        hquoted, read_double, List.nil_append]
  · rw [Bool.not_eq_true] at hspecial
    rw [quote, if_neg (by rw [hspecial]; decide)]
    rcases field with _ | ⟨c, field⟩
    · exact ⟨mode, hmay.1, by simp, fun rest => rfl⟩
    · rw [List.any_cons, Bool.or_eq_false_iff] at hspecial
      refine ⟨.bare, ⟨by decide, by decide⟩, by simp, fun rest => ?_⟩
      rw [List.cons_append, read_plain hspecial.1 hmay.1 hmay.2, read_bare hspecial.2]
      rfl

/-! ### Records are read back -/

theorem writeRecord_cons (f g : List Char) (fs : List (List Char)) :
    writeRecord (f :: g :: fs) = quote f ++ ',' :: writeRecord (g :: fs) := by
  simp [writeRecord, List.intercalate_cons_cons]

/-- A record is read, up to the end of its last field. -/
theorem read_writeRecord {mode : Mode} (hmode : mode = .begin ∨ mode = .field)
    {fields : List (List Char)} (hne : fields ≠ []) (record : List (List Char)) :
    ∃ mode' field front, mode'.mayEnd ∧ front ++ [field] = record ++ fields ∧
      (mode' = .begin ↔ mode = .begin ∧ fields = [[]]) ∧
      ∀ rest, read mode [] record (writeRecord fields ++ rest) = read mode' field front rest := by
  induction fields generalizing mode record with
  | nil => exact absurd rfl hne
  | cons f fields ih =>
    obtain ⟨mode', hmay, hbegin, hread⟩ := read_quote hmode f record
    rcases fields with _ | ⟨g, fields⟩
    · refine ⟨mode', f, record, hmay, rfl, ?_, fun rest => ?_⟩
      · rw [hbegin, List.cons.injEq, and_iff_left rfl]
      · have hone : writeRecord [f] = quote f := by simp [writeRecord]
        rw [hone, hread]
    · obtain ⟨mode'', field, front, hmay', hfront, hbegin', hread'⟩ :=
        ih (.inr rfl) (List.cons_ne_nil g fields) (record ++ [f])
      refine ⟨mode'', field, front, hmay', ?_, ?_, fun rest => ?_⟩
      · rw [hfront, List.append_assoc]
        rfl
      · rw [hbegin']
        exact iff_of_false (by simp) (by simp)
      · rw [writeRecord_cons, List.append_assoc, List.cons_append, hread, read_comma hmay, hread']

theorem write_cons (eol : LineEnd) (r s : List (List Char)) (rs : List (List (List Char))) :
    write eol (r :: s :: rs) = writeRecord r ++ (eol.text ++ write eol (s :: rs)) := by
  simp [write, List.intercalate_cons_cons, List.append_assoc]

/-- A record is not empty, and the last one is more than one empty field. -/
def Readable (records : List (List (List Char))) : Prop :=
  (∀ r ∈ records, r ≠ []) ∧ records.getLast? ≠ some [[]]

/-- **What is written is read back**, where the records are readable. -/
theorem parse_write (eol : LineEnd) {records : List (List (List Char))} (h : Readable records) :
    parse (write eol records) = some records := by
  obtain ⟨hne, hlast⟩ := h
  induction records with
  | nil => rfl
  | cons r records ih =>
    obtain ⟨mode, field, front, hmay, hfront, hbegin, hread⟩ :=
      read_writeRecord (.inl rfl) (hne r List.mem_cons_self) []
    rw [List.nil_append] at hfront
    rcases records with _ | ⟨s, records⟩
    · have hone : write eol [r] = writeRecord r ++ [] := by simp [write]
      have hmode : mode ≠ .begin := fun hmode => by
        rw [(hbegin.1 hmode).2] at hlast
        exact hlast rfl
      rw [parse, hone, hread, read_end hmay hmode, hfront]
    · have hrest := ih (fun t ht => hne t (List.mem_cons_of_mem r ht)) (by
        rwa [List.getLast?_cons_cons] at hlast)
      rw [parse] at hrest
      rw [parse, write_cons, hread, read_eol hmay, hrest, hfront]
      rfl

theorem parse_write_blank (eol : LineEnd) {records : List (List (List Char))}
    (hne : ∀ r ∈ records, r ≠ []) : parse (write eol (records ++ [[[]]])) = some records := by
  induction records with
  | nil => rfl
  | cons r records ih =>
    obtain ⟨mode, field, front, hmay, hfront, -, hread⟩ :=
      read_writeRecord (.inl rfl) (hne r List.mem_cons_self) []
    rw [List.nil_append] at hfront
    obtain ⟨s, rest, hrest⟩ := List.exists_cons_of_ne_nil
      (show records ++ [[[]]] ≠ [] by simp)
    have hparse := ih fun t ht => hne t (List.mem_cons_of_mem r ht)
    rw [hrest, parse] at hparse
    rw [List.cons_append, hrest, parse, write_cons, hread, read_eol hmay, hparse, hfront]
    rfl

theorem ne_nil_of_map {first : List (List Char)} (hfirst : first ≠ [])
    {more : Option (List (List (List Char)))} (ih : ∀ rs, more = some rs → ∀ r ∈ rs, r ≠ [])
    {records : List (List (List Char))} (h : more.map (first :: ·) = some records) :
    ∀ r ∈ records, r ≠ [] := by
  intro r hr
  obtain ⟨rs, hrs, rfl⟩ := Option.map_eq_some_iff.1 h
  rcases List.mem_cons.1 hr with rfl | hr
  · exact hfirst
  · exact ih rs hrs r hr

/-- No record that is read is empty. -/
theorem ne_nil_of_read {mode : Mode} {field : List Char} {record : List (List Char)}
    {text : List Char} {records : List (List (List Char))} (hrecord : mode = .cr → record ≠ [])
    (h : read mode field record text = some records) : ∀ r ∈ records, r ≠ [] := by
  have happend : ∀ (fields : List (List Char)) (f : List Char), fields ++ [f] ≠ [] :=
    fun _ f => List.append_ne_nil_of_right_ne_nil _ (List.cons_ne_nil f [])
  fun_induction read mode field record text generalizing records with
  | case1 =>
    cases h
    exact fun r hr => absurd hr List.not_mem_nil
  | case2 | case3 | case10 | case14 | case17 => cases h
  | case4 | case5 | case6 =>
    cases h
    intro r hr
    rw [List.mem_singleton.1 hr]
    exact happend _ _
  | case9 _ _ _ ih =>
    exact ne_nil_of_map (hrecord rfl) (fun _ hrs => ih (fun habs => by cases habs) hrs) h
  | case12 _ _ _ _ _ _ _ ih =>
    exact ne_nil_of_map (happend _ _) (fun _ hrs => ih (fun habs => by cases habs) hrs) h
  | case13 _ _ _ _ _ _ _ _ ih => exact ih (fun _ => happend _ _) h
  | case7 _ _ _ ih | case8 _ _ _ _ _ ih | case11 _ _ _ _ _ _ ih | case15 _ _ _ _ _ _ _ _ ih
  | case16 _ _ _ _ _ _ _ _ _ _ _ ih | case18 _ _ _ _ _ _ _ _ _ _ _ _ ih =>
    exact ih (fun habs => by cases habs) h

/-- **Which records are read back** from what is written of them. -/
theorem parse_write_iff (eol : LineEnd) (records : List (List (List Char))) :
    parse (write eol records) = some records ↔ Readable records := by
  refine ⟨fun h => ?_, parse_write eol⟩
  have hne := ne_nil_of_read (fun habs => by cases habs) h
  refine ⟨hne, fun hlast => ?_⟩
  obtain ⟨front, hfront⟩ := List.getLast?_eq_some_iff.1 hlast
  rw [hfront] at h hne
  rw [parse_write_blank eol fun r hr => hne r (List.mem_append_left _ hr)] at h
  have hlength := congrArg List.length (Option.some.inj h)
  rw [List.length_append, List.length_singleton] at hlength
  omega

end Vigabss.Lib.Rfc4180
