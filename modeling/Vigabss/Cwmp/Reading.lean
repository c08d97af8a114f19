import Vigabss.Cwmp.Requests

/-!
# Vigabss.Cwmp.Reading — how the tokenizer reads well-formed text

An escaped text is read back as it was, and a piece of text whose tags are balanced adds exactly
its elements to the element it stands in (`Reads`), whatever that element and the text behind it
are.
-/

namespace Vigabss.Cwmp

open Vigabss.Lib.JsText

/-! ### entities -/

/-- What `xmlEscape` makes of one character. -/
def escapeChar (c : Char) : Text :=
  if c = '&' then "&amp;".toList
  else if c = '<' then "&lt;".toList
  else if c = '>' then "&gt;".toList
  else if c = '"' then "&quot;".toList
  else if c = '\'' then "&apos;".toList
  else [c]

theorem replaceAll_append (c : Char) (entity : String) (a b : Text) :
    replaceAll c entity (a ++ b) = replaceAll c entity a ++ replaceAll c entity b :=
  List.flatMap_append

@[simp] theorem xmlEscape_nil : xmlEscape [] = [] := rfl

theorem xmlEscape_append (a b : Text) : xmlEscape (a ++ b) = xmlEscape a ++ xmlEscape b := by
  simp only [xmlEscape, replaceAll_append]

theorem replaceAll_singleton {c d : Char} (h : d ≠ c) (entity : String) :
    replaceAll c entity [d] = [d] := by
  rw [replaceAll, List.flatMap_cons, if_neg h, List.flatMap_nil, List.append_nil]

theorem xmlEscape_singleton (c : Char) : xmlEscape [c] = escapeChar c := by
  unfold escapeChar
  split_ifs with h₁ h₂ h₃ h₄ h₅
  · subst h₁; decide
  · subst h₂; decide
  · subst h₃; decide
  · subst h₄; decide
  · subst h₅; decide
  · rw [xmlEscape, replaceAll_singleton h₁, replaceAll_singleton h₂, replaceAll_singleton h₃,
      replaceAll_singleton h₄, replaceAll_singleton h₅]

theorem xmlEscape_cons (c : Char) (text : Text) :
    xmlEscape (c :: text) = escapeChar c ++ xmlEscape text := by
  rw [← xmlEscape_singleton, ← xmlEscape_append]
  rfl

theorem not_mem_xmlEscape (text : Text) : '<' ∉ xmlEscape text ∧ '"' ∉ xmlEscape text := by
  induction text with
  | nil => simp
  | cons c text ih =>
    rw [xmlEscape_cons, List.mem_append, List.mem_append]
    have hc : '<' ∉ escapeChar c ∧ '"' ∉ escapeChar c := by
      unfold escapeChar
      split_ifs with h₁ h₂ h₃ h₄ h₅
      · decide
      · decide
      · decide
      · decide
      · decide
      · simp only [List.mem_singleton]
        exact ⟨fun h => h₂ h.symm, fun h => h₄ h.symm⟩
    exact ⟨fun h => h.elim hc.1 ih.1, fun h => h.elim hc.2 ih.2⟩

theorem decodeEntities_nil : decodeEntities [] = [] := by rw [decodeEntities]

theorem decodeEntities_of_ne {c : Char} (h : c ≠ '&') (text : Text) :
    decodeEntities (c :: text) = c :: decodeEntities text := by
  rw [decodeEntities, if_neg h]

theorem decodeEntities_reference (ref : Text) {d : Char} (hsemi : ';' ∉ ref)
    (href : isReference ref = true) (hd : replacement ref = some d) (text : Text) :
    decodeEntities ('&' :: (ref ++ ';' :: text)) = d :: decodeEntities text := by
  have hne : ∀ c ∈ ref, decide (c ≠ ';') = true := by
    intro c hc
    exact decide_eq_true fun h => hsemi (h ▸ hc)
  have h : reference (ref ++ ';' :: text) = some (ref, text) := by
    simp only [reference, List.takeWhile_append_of_pos hne, List.dropWhile_append_of_pos hne]
    simp [href]
  rw [decodeEntities, if_pos rfl]
  split
  · next ref' rest heq =>
    rw [h, Option.some.injEq, Prod.mk.injEq] at heq
    obtain ⟨rfl, rfl⟩ := heq
    rw [hd]
  · next heq =>
    rw [h] at heq
    exact absurd heq (by simp)

theorem decodeEntities_xmlEscape (text rest : Text) :
    decodeEntities (xmlEscape text ++ rest) = text ++ decodeEntities rest := by
  induction text with
  | nil => rfl
  | cons c text ih =>
    rw [xmlEscape_cons, List.append_assoc, List.cons_append, ← ih]
    unfold escapeChar
    split_ifs with h₁ h₂ h₃ h₄ h₅
    · subst h₁
      exact decodeEntities_reference "amp".toList (by decide) (by decide) (by decide) _
    · subst h₂
      exact decodeEntities_reference "lt".toList (by decide) (by decide) (by decide) _
    · subst h₃
      exact decodeEntities_reference "gt".toList (by decide) (by decide) (by decide) _
    · subst h₄
      exact decodeEntities_reference "quot".toList (by decide) (by decide) (by decide) _
    · subst h₅
      exact decodeEntities_reference "apos".toList (by decide) (by decide) (by decide) _
    · exact decodeEntities_of_ne h₁ _

/-! ### one pass of the loop -/

theorem ne_lt_of_not_mem {text : Text} (h : '<' ∉ text) :
    ∀ c ∈ text, decide (c ≠ '<') = true := by
  intro c hc
  exact decide_eq_true fun heq => h (heq ▸ hc)

theorem parseFrom_markup (s : Parser) {text xml rest : Text} {m : Markup} (htext : '<' ∉ text)
    (hm : markup xml = some (m, rest)) :
    parseFrom s (text ++ '<' :: xml) =
      ((s.addText (decodeEntities text)).feed m).bind (parseFrom · rest) := by
  have hne := ne_lt_of_not_mem htext
  have htake : (text ++ '<' :: xml).takeWhile (· ≠ '<') = text := by
    rw [List.takeWhile_append_of_pos hne]
    simp
  have hdrop : (text ++ '<' :: xml).dropWhile (· ≠ '<') = '<' :: xml := by
    rw [List.dropWhile_append_of_pos hne]
    simp
  rw [parseFrom]
  simp only [htake]
  split
  · next heq => rw [hdrop] at heq; simp at heq
  · next rest₀ heq =>
    rw [hdrop, List.cons.injEq] at heq
    obtain ⟨_, rfl⟩ := heq
    split
    · next heq => rw [hm] at heq; simp at heq
    · next m' rest' heq =>
      rw [hm, Option.some.injEq, Prod.mk.injEq] at heq
      obtain ⟨rfl, rfl⟩ := heq
      split
      · next hfeed => rw [hfeed]; rfl
      · next hfeed => rw [hfeed]; rfl

theorem parseFrom_lt (s : Parser) {xml rest : Text} {m : Markup}
    (hm : markup xml = some (m, rest)) :
    parseFrom s ('<' :: xml) = (s.feed m).bind (parseFrom · rest) := by
  have hs : s.addText (decodeEntities []) = s := by
    simp [decodeEntities_nil, Parser.addText, Frame.addText]
  have h := @parseFrom_markup s [] xml rest m (by simp) hm
  rwa [hs] at h

theorem Parser.addText_addText (s : Parser) (a b : Text) :
    (s.addText a).addText b = s.addText (a ++ b) := by
  simp [Parser.addText, Frame.addText]

theorem parseFrom_text (s : Parser) {text : Text} (h : '<' ∉ text) :
    parseFrom s text = .ok (s.addText (decodeEntities text)) := by
  have hne := ne_lt_of_not_mem h
  have htake : text.takeWhile (· ≠ '<') = text := List.takeWhile_eq_self_iff.mpr hne
  have hdrop : text.dropWhile (· ≠ '<') = [] := List.dropWhile_eq_nil_iff.mpr hne
  rw [parseFrom]
  simp only [htake]
  split
  · rfl
  · next heq => rw [hdrop] at heq; simp at heq

theorem parseFrom_truncated (s : Parser) {text xml : Text} (htext : '<' ∉ text)
    (hm : markup xml = none) :
    parseFrom s (text ++ '<' :: xml) = .ok (s.addText (decodeEntities text)) := by
  have hne := ne_lt_of_not_mem htext
  have htake : (text ++ '<' :: xml).takeWhile (· ≠ '<') = text := by
    rw [List.takeWhile_append_of_pos hne]
    simp
  have hdrop : (text ++ '<' :: xml).dropWhile (· ≠ '<') = '<' :: xml := by
    rw [List.dropWhile_append_of_pos hne]
    simp
  rw [parseFrom]
  simp only [htake]
  split
  · rfl
  · next rest₀ heq =>
    rw [hdrop, List.cons.injEq] at heq
    obtain ⟨_, rfl⟩ := heq
    split
    · rfl
    · next heq => rw [hm] at heq; simp at heq

theorem first_lt (text : Text) : '<' ∉ text ∨ ∃ a xml, '<' ∉ a ∧ text = a ++ '<' :: xml := by
  by_cases h : '<' ∈ text
  · obtain ⟨a, xml, rfl, ha⟩ := List.eq_append_cons_of_mem h
    exact Or.inr ⟨a, xml, ha, rfl⟩
  · exact Or.inl h

theorem parseFrom_front (s : Parser) {a t : Text} (ha : '<' ∉ a)
    (hd : ∀ x, decodeEntities (a ++ x) = t ++ decodeEntities x) (rest : Text) :
    parseFrom s (a ++ rest) = parseFrom (s.addText t) rest := by
  rcases first_lt rest with hrest | ⟨b, xml, hb, rfl⟩
  · rw [parseFrom_text _ hrest, parseFrom_text _ (by simp [ha, hrest]), hd,
      Parser.addText_addText]
  · have hab : '<' ∉ a ++ b := by simp [ha, hb]
    rw [← List.append_assoc]
    rcases hm : markup xml with _ | ⟨m, rest⟩
    · rw [parseFrom_truncated _ hab hm, parseFrom_truncated _ hb hm, hd, Parser.addText_addText]
    · rw [parseFrom_markup _ hab hm, parseFrom_markup _ hb hm, hd, Parser.addText_addText]

/-! ### tags -/

/-- The quotation mark that is open behind a text; `none` if the text closes the tag. -/
def quoteAfter : Option Char → Text → Option (Option Char)
  | quote, [] => some quote
  | some quote, c :: xml => quoteAfter (if c = quote then none else some quote) xml
  | none, c :: xml =>
    if c = '"' ∨ c = '\'' then quoteAfter (some c) xml
    else if c = '>' then none
    else quoteAfter none xml

theorem tagEnd_append {a : Text} {quote quote' : Option Char}
    (h : quoteAfter quote a = some quote') (rest : Text) :
    tagEnd quote (a ++ rest) = (tagEnd quote' rest).map fun p => (a ++ p.1, p.2) := by
  induction a generalizing quote with
  | nil =>
    have : quote = quote' := by simpa [quoteAfter] using h
    simp [this]
  | cons c a ih =>
    rcases quote with _ | quote
    · rw [quoteAfter] at h
      rw [List.cons_append, tagEnd]
      split_ifs at h ⊢
      · rw [ih h, Option.map_map]
        rfl
      · rw [ih h, Option.map_map]
        rfl
    · rw [quoteAfter] at h
      rw [List.cons_append, tagEnd, ih h, Option.map_map]
      rfl

theorem quoteAfter_append {a b : Text} {quote quote' : Option Char}
    (h : quoteAfter quote a = some quote') : quoteAfter quote (a ++ b) = quoteAfter quote' b := by
  induction a generalizing quote with
  | nil =>
    have : quote = quote' := by simpa [quoteAfter] using h
    simp [this]
  | cons c a ih =>
    rcases quote with _ | quote
    · rw [quoteAfter] at h
      rw [List.cons_append, quoteAfter]
      split_ifs at h ⊢
      · exact ih h
      · exact ih h
    · rw [quoteAfter] at h
      rw [List.cons_append, quoteAfter, ih h]

theorem quoteAfter_value {value : Text} (h : '"' ∉ value) :
    quoteAfter (some '"') value = some (some '"') := by
  induction value with
  | nil => rfl
  | cons c value ih =>
    rw [List.mem_cons, not_or] at h
    rw [quoteAfter, if_neg (Ne.symm h.1), ih h.2]

/-- `inner` is the inside of a tag that means `m`. -/
structure IsTag (inner : Text) (m : Markup) : Prop where
  head : inner.head? ≠ some '!' ∧ inner.head? ≠ some '?' ∧ inner ≠ []
  closed : quoteAfter none inner = some none
  means : tag inner = m

instance (inner : Text) (m : Markup) : Decidable (IsTag inner m) :=
  decidable_of_iff
    ((inner.head? ≠ some '!' ∧ inner.head? ≠ some '?' ∧ inner ≠ []) ∧
      quoteAfter none inner = some none ∧ tag inner = m)
    ⟨fun h => ⟨h.1, h.2.1, h.2.2⟩, fun h => ⟨h.head, h.closed, h.means⟩⟩

theorem IsTag.markup_eq {inner : Text} {m : Markup} (h : IsTag inner m) (rest : Text) :
    markup (inner ++ '>' :: rest) = some (m, rest) := by
  obtain ⟨c, inner', rfl⟩ := List.exists_cons_of_ne_nil h.head.2.2
  have hbang : c ≠ '!' := fun heq => h.head.1 (by rw [heq]; rfl)
  have hquery : c ≠ '?' := fun heq => h.head.2.1 (by rw [heq]; rfl)
  have hend : tagEnd none (c :: inner' ++ '>' :: rest) = some (c :: inner', rest) := by
    rw [tagEnd_append h.closed]
    simp [tagEnd]
  have hfront : ∀ mark : Text, ('!' :: mark).isPrefixOf (c :: inner' ++ '>' :: rest) = false := by
    intro mark
    simp [List.isPrefixOf, Ne.symm hbang]
  have h₁ := hfront "--".toList
  have h₂ := hfront "[CDATA[".toList
  rw [show '!' :: "--".toList = "!--".toList by decide] at h₁
  rw [show '!' :: "[CDATA[".toList = "![CDATA[".toList by decide] at h₂
  rw [markup, h₁, h₂, hend, Option.map_some, h.means]
  simp [hbang, hquery]

/-- Characters of an element's name. -/
def isNameChar (c : Char) : Bool := isSpace c = false ∧ c ≠ '"' ∧ c ≠ '\'' ∧ c ≠ '>'

theorem quoteAfter_name {name : Text} (h : name.all isNameChar = true) :
    quoteAfter none name = some none := by
  induction name with
  | nil => rfl
  | cons c name ih =>
    rw [List.all_cons, Bool.and_eq_true] at h
    obtain ⟨_, hdouble, hsingle, hgt⟩ := of_decide_eq_true h.1
    rw [quoteAfter, if_neg (not_or.mpr ⟨hdouble, hsingle⟩), if_neg hgt, ih h.2]

/-- A tag with one attribute, whatever its value is. -/
theorem IsTag.attribute {qname attr value : Text} {name : String}
    (hqname : qname.all isNameChar = true)
    (hhead : qname ≠ [] ∧ qname.head? ∉ ['!', '?', '/'].map some)
    (hlocal : localName qname = name) (hattr : quoteAfter none attr = some (some '"'))
    (hvalue : '"' ∉ value) :
    IsTag (qname ++ (' ' :: attr ++ (value ++ ['"']))) (.start name false) := by
  obtain ⟨first, rest, rfl⟩ := List.exists_cons_of_ne_nil hhead.1
  have hfirst : first ≠ '!' ∧ first ≠ '?' ∧ first ≠ '/' := by
    simpa using hhead.2
  have hspace : ∀ c ∈ first :: rest, (!isSpace c) = true := by
    intro c hc
    rw [(of_decide_eq_true (List.all_eq_true.mp hqname c hc)).1]
    rfl
  have hlast : (first :: rest ++ (' ' :: attr ++ (value ++ ['"']))).getLast? = some '"' := by
    simp only [← List.append_assoc, List.getLast?_concat]
  refine ⟨⟨?_, ?_, by simp⟩, ?_, ?_⟩
  · simpa using hfirst.1
  · simpa using hfirst.2.1
  · rw [quoteAfter_append (quoteAfter_name hqname)]
    have h : quoteAfter none (' ' :: attr) = some (some '"') := by
      rw [quoteAfter, if_neg (by decide), if_neg (by decide), hattr]
    rw [quoteAfter_append h, quoteAfter_append (quoteAfter_value hvalue)]
    rfl
  · have htrim : trim (first :: rest ++ (' ' :: attr ++ (value ++ ['"']))) = _ :=
      trim_of_ends
        (by
          intro c hc
          have : first = c := by simpa using hc
          have := hspace c (by simp [this])
          simpa using this)
        (by
          intro c hc
          rw [hlast, Option.some.injEq] at hc
          rw [← hc]
          decide)
    have htake : (first :: rest ++ (' ' :: attr ++ (value ++ ['"']))).takeWhile (!isSpace ·) =
        first :: rest := by
      rw [List.takeWhile_append_of_pos hspace]
      have : isSpace ' ' = true := by decide
      simp [this]
    have hhead : (first :: rest ++ (' ' :: attr ++ (value ++ ['"']))).head? ≠ some '/' := by
      simpa using hfirst.2.2
    rw [tag, if_neg hhead, hlast]
    simp only [show ¬ (some '"' = some '/') by decide, decide_false, if_false,
      htrim, htake, hlocal]
    simp

/-! ### what a piece of text adds -/

theorem sizeAll_append (as bs : List Node) : sizeAll (as ++ bs) = sizeAll as + sizeAll bs := by
  induction as with
  | nil => simp [sizeAll]
  | cons a as ih => simp only [List.cons_append, sizeAll, ih]; omega

/-- The elements and the text added to the innermost open element. -/
def Parser.append (s : Parser) (nodes : List Node) (said : Text) : Parser :=
  { s with
    top := { s.top with children := s.top.children ++ nodes, text := s.top.text ++ said }
    elements := s.elements + sizeAll nodes }

/-- A `text` adds `nodes` and the characters `said` to the element it stands in, unless there are
too many elements.  It opens at most `d` elements at a time. -/
def Reads (d : ℕ) (text : Text) (nodes : List Node) (said : Text) : Prop :=
  ∀ (s : Parser) (rest : Text), s.elements ≤ MAX_ELEMENTS → s.below.length + d ≤ MAX_DEPTH →
    parseFrom s (text ++ rest) =
      if s.elements + sizeAll nodes ≤ MAX_ELEMENTS then parseFrom (s.append nodes said) rest
      else .error "Too many XML elements"

variable {d : ℕ}

theorem Reads.nil : Reads d [] [] [] := by
  intro s rest hs _
  have happend : s.append [] [] = s := by simp [Parser.append, sizeAll]
  rw [happend, sizeAll, Nat.add_zero, if_pos hs, List.nil_append]

theorem Reads.append {a b : Text} {as bs : List Node} {t u : Text} (ha : Reads d a as t)
    (hb : Reads d b bs u) : Reads d (a ++ b) (as ++ bs) (t ++ u) := by
  intro s rest hs hd
  rw [List.append_assoc, ha s _ hs hd, sizeAll_append]
  by_cases hfit : s.elements + sizeAll as ≤ MAX_ELEMENTS
  · rw [if_pos hfit, hb (s.append as t) rest hfit hd]
    have happend : (s.append as t).append bs u = s.append (as ++ bs) (t ++ u) := by
      simp [Parser.append, sizeAll_append, Nat.add_assoc]
    rw [happend]
    simp only [Parser.append, Nat.add_assoc]
  · rw [if_neg hfit, if_neg (by omega)]

theorem Reads.escaped (text : Text) : Reads d (xmlEscape text) [] text := by
  intro s rest hs _
  have happend : s.append [] text = s.addText text := by
    simp [Parser.append, Parser.addText, Frame.addText, sizeAll]
  rw [parseFrom_front s (not_mem_xmlEscape text).1 (decodeEntities_xmlEscape text), happend,
    sizeAll, Nat.add_zero, if_pos hs]

theorem Reads.plain {text : Text} (h : xmlEscape text = text) : Reads d text [] text := by
  have := Reads.escaped (d := d) text
  rwa [h] at this

/-- `<…>` -/
def tagText (inner : Text) : Text := '<' :: (inner ++ ['>'])

theorem parseFrom_tag (s : Parser) {inner : Text} {m : Markup} (h : IsTag inner m) (rest : Text) :
    parseFrom s (tagText inner ++ rest) = (s.feed m).bind (parseFrom · rest) := by
  have htext : tagText inner ++ rest = '<' :: (inner ++ '>' :: rest) := by simp [tagText]
  rw [htext, parseFrom_lt s (h.markup_eq rest)]

theorem Parser.feed_start (s : Parser) (name : String) (hd : s.below.length + 1 ≤ MAX_DEPTH) :
    s.feed (.start name false) =
      if MAX_ELEMENTS < s.elements + 1 then .error "Too many XML elements"
      else .ok ⟨⟨name, [], []⟩, s.top :: s.below, s.elements + 1⟩ := by
  rw [Parser.feed]
  split_ifs with h
  · rfl
  · contradiction
  · omega
  · rfl

/-- What stands in an element that is opened and closed. -/
theorem parseFrom_element {inner close : Text} {name : String}
    (hopen : IsTag inner (.start name false)) (hclose : IsTag close (.stop name))
    {body : Text} {nodes : List Node} {said : Text}
    (hbody : ∀ (s : Parser) (rest : Text), s.elements ≤ MAX_ELEMENTS →
      s.below.length + d ≤ MAX_DEPTH →
      parseFrom s (body ++ (tagText close ++ rest)) =
        if s.elements + sizeAll nodes ≤ MAX_ELEMENTS then
          parseFrom (s.append nodes said) (tagText close ++ rest)
        else .error "Too many XML elements") :
    Reads (d + 1) (tagText inner ++ (body ++ tagText close)) [.mk name nodes said] [] := by
  intro s rest hs hd
  have hsize : sizeAll [.mk name nodes said] = 1 + sizeAll nodes := by
    simp [sizeAll, Node.size]
  rw [List.append_assoc, List.append_assoc, parseFrom_tag s hopen,
    s.feed_start name (by omega), hsize]
  by_cases hone : MAX_ELEMENTS < s.elements + 1
  · rw [if_pos hone, if_neg (by omega)]
    rfl
  · rw [if_neg hone]
    show parseFrom _ _ = _
    rw [hbody _ rest (by show s.elements + 1 ≤ MAX_ELEMENTS; omega)
      (by show s.below.length + 1 + d ≤ MAX_DEPTH; omega)]
    show (if s.elements + 1 + sizeAll nodes ≤ MAX_ELEMENTS then _ else _) = _
    by_cases hfit : s.elements + 1 + sizeAll nodes ≤ MAX_ELEMENTS
    · rw [if_pos hfit, if_pos (by omega), parseFrom_tag _ hclose]
      simp [Parser.feed, Parser.append, closeTo, Frame.addChild, Frame.node, Except.bind, hsize,
        Nat.add_assoc]
    · rw [if_neg hfit, if_neg (by omega)]

theorem Reads.element {inner close body : Text} {name : String} {nodes : List Node} {said : Text}
    (hopen : IsTag inner (.start name false)) (hclose : IsTag close (.stop name))
    (hbody : Reads d body nodes said) :
    Reads (d + 1) (tagText inner ++ (body ++ tagText close)) [.mk name nodes said] [] :=
  parseFrom_element hopen hclose fun s rest hs hd => hbody s (tagText close ++ rest) hs hd

theorem Reads.raw {inner close text : Text} {name : String}
    (hopen : IsTag inner (.start name false)) (hclose : IsTag close (.stop name))
    (htext : '<' ∉ text) :
    Reads (d + 1) (tagText inner ++ (text ++ tagText close))
      [.mk name [] (decodeEntities text)] [] := by
  refine parseFrom_element hopen hclose fun s rest hs _ => ?_
  have hend := hclose.markup_eq rest
  have happend : s.append [] (decodeEntities text) = s.addText (decodeEntities text) := by
    simp [Parser.append, Parser.addText, Frame.addText, sizeAll]
  have htag : tagText close ++ rest = '<' :: (close ++ '>' :: rest) := by simp [tagText]
  have h := parseFrom_markup s htext hend
  have h' := parseFrom_lt (s.addText (decodeEntities text)) hend
  rw [htag, h, happend, h', sizeAll, Nat.add_zero, if_pos hs]

theorem Reads.selfClosing {inner : Text} {name : String} (h : IsTag inner (.start name true)) :
    Reads d (tagText inner) [.mk name [] []] [] := by
  intro s rest hs _
  have hsize : sizeAll [.mk name [] []] = 1 := by simp [sizeAll, Node.size]
  rw [parseFrom_tag s h, Parser.feed, hsize]
  by_cases hone : MAX_ELEMENTS < s.elements + 1
  · rw [if_pos hone, if_neg (by omega)]
    rfl
  · rw [if_neg hone, if_pos rfl, if_pos (by omega)]
    simp [Except.bind, Parser.append, Frame.addChild, hsize]

theorem Reads.skip {text : Text} (h : ∀ rest, ∃ xml, text ++ rest = '<' :: xml ∧
    markup xml = some (.skip, rest)) : Reads d text [] [] := by
  intro s rest hs hd
  obtain ⟨xml, htext, hm⟩ := h rest
  rw [htext, parseFrom_lt s hm]
  exact Reads.nil s rest hs hd

/-- **A document read as a whole.** -/
theorem Reads.parseTree {text : Text} {nodes : List Node} {said : Text}
    (h : Reads d text nodes said) (hd : d ≤ MAX_DEPTH) :
    parseTree text =
      if sizeAll nodes ≤ MAX_ELEMENTS then .ok (.mk "#document" nodes said)
      else .error "Too many XML elements" := by
  have hread := h .init [] (by decide) (by simpa [Parser.init] using hd)
  have hend := @parseFrom_text (Parser.init.append nodes said) [] (by simp)
  rw [List.append_nil, hend, decodeEntities_nil] at hread
  rw [Cwmp.parseTree, hread]
  simp only [Parser.init, Nat.zero_add]
  split_ifs with hfit
  · simp [Except.map, Parser.tree, Parser.append, Parser.addText, Frame.addText, closeAll,
      Frame.node]
  · rfl

end Vigabss.Cwmp
