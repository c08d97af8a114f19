import Vigabss.Lib.JsText

/-!
# Vigabss.Cwmp.Xml — the tokenizer of CWMP envelopes

`decodeEntities`, `tagEnd`, `parseTree` and `xmlEscape` of `cwmpXml.js`, on the characters of the
text.  The open elements stand innermost first; an element joins its parent's children when it is
closed, and the elements that nobody closed are closed at the end of the text.
-/

namespace Vigabss.Cwmp

open Vigabss.Lib.JsText

abbrev Text := List Char

def MAX_ELEMENTS : ℕ := 20000
def MAX_DEPTH : ℕ := 64

/-! ### entities -/

def ENTITIES : List (String × Char) :=
  [("amp", '&'), ("lt", '<'), ("gt", '>'), ("quot", '"'), ("apos", '\'')]

def isLetter (c : Char) : Bool := 'a' ≤ c ∧ c ≤ 'z' ∨ 'A' ≤ c ∧ c ≤ 'Z'

/-- `#x[0-9a-fA-F]{1,6}|#[0-9]{1,7}|[a-zA-Z]{2,4}`, on a whole text. -/
def isReference (ref : Text) : Bool :=
  if ref.take 2 = ['#', 'x'] then
    1 ≤ (ref.drop 2).length ∧ (ref.drop 2).length ≤ 6 ∧ (ref.drop 2).all (isDigit 16)
  else if ref.head? = some '#' then
    1 ≤ ref.tail.length ∧ ref.tail.length ≤ 7 ∧ ref.tail.all (isDigit 10)
  else 2 ≤ ref.length ∧ ref.length ≤ 4 ∧ ref.all isLetter

/-- The reference that stands behind an `&`, up to its `;`, and what follows.  No reference has a
`;` of its own. -/
def reference (text : Text) : Option (Text × Text) :=
  let ref := text.takeWhile (· ≠ ';')
  let rest := text.dropWhile (· ≠ ';')
  if rest ≠ [] ∧ isReference ref then some (ref, rest.tail) else none

/-- `String.fromCodePoint(code)`.  A lone surrogate is read as U+FFFD, as which it is written. -/
def fromCodePoint (code : ℕ) : Char :=
  if code.isValidChar then Char.ofNat code else Char.ofNat 0xFFFD

/-- What a reference stands for; `none` leaves it in the text. -/
def replacement (ref : Text) : Option Char :=
  if ref.head? = some '#' then
    let code :=
      if ref.tail.head? = some 'x' ∨ ref.tail.head? = some 'X' then parseInt 16 (ref.drop 2)
      else parseInt 10 ref.tail
    match code with
    | some code => if 0 < code ∧ code ≤ 0x10ffff then some (fromCodePoint code.toNat) else none
    | none => none
  else (ENTITIES.find? (·.1 = String.ofList ref)).map (·.2)

theorem reference_length {text ref rest : Text} (h : reference text = some (ref, rest)) :
    rest.length < text.length := by
  simp only [reference, Option.ite_none_right_eq_some, Option.some.injEq, Prod.mk.injEq] at h
  obtain ⟨⟨hne, _⟩, _, rfl⟩ := h
  have hle := List.length_dropWhile_le (· ≠ ';') text
  have hpos := List.length_pos_iff.mpr hne
  rw [List.length_tail]
  omega

/-- `text.replace(/&(…);/g, …)`. -/
def decodeEntities (text : Text) : Text :=
  match text with
  | [] => []
  | c :: text =>
    if c = '&' then
      match h : reference text with
      | some (ref, rest) =>
        have := reference_length h
        match replacement ref with
        | some d => d :: decodeEntities rest
        | none => '&' :: ref ++ ';' :: decodeEntities rest
      | none => c :: decodeEntities text
    else c :: decodeEntities text
termination_by text.length

/-- `text.replace(/c/g, entity)`. -/
def replaceAll (c : Char) (entity : String) (text : Text) : Text :=
  text.flatMap fun d => if d = c then entity.toList else [d]

def xmlEscape (str : Text) : Text :=
  replaceAll '\'' "&apos;" <| replaceAll '"' "&quot;" <| replaceAll '>' "&gt;" <|
    replaceAll '<' "&lt;" <| replaceAll '&' "&amp;" str

/-! ### tags -/

/-- `localName(qname)`; `toLowerCase` on the letters that element names are written in. -/
def localName (qname : Text) : String :=
  let name := if ':' ∈ qname then (qname.dropWhile (· ≠ ':')).tail else qname
  String.ofList (name.map Char.toLower)

/-- What stands before the `>` that closes the tag, and what follows it.  `quote` is the quotation
mark of the attribute value that is open. -/
def tagEnd : Option Char → Text → Option (Text × Text)
  | _, [] => none
  | some quote, c :: xml =>
    (tagEnd (if c = quote then none else some quote) xml).map fun p => (c :: p.1, p.2)
  | none, c :: xml =>
    if c = '"' ∨ c = '\'' then (tagEnd (some c) xml).map fun p => (c :: p.1, p.2)
    else if c = '>' then some ([], xml)
    else (tagEnd none xml).map fun p => (c :: p.1, p.2)

/-- `indexOf(mark)`: what stands before the first `mark`, and what follows it. -/
def cut (mark : Text) : Text → Option (Text × Text)
  | [] => none
  | c :: xml =>
    if mark.isPrefixOf (c :: xml) then some ([], (c :: xml).drop mark.length)
    else (cut mark xml).map fun p => (c :: p.1, p.2)

/-- What one pass of the loop finds at a `<`. -/
inductive Markup
  /-- A comment, a processing instruction or a tag without a name. -/
  | skip
  | cdata (text : Text)
  /-- `<!`, neither a comment nor a CDATA section. -/
  | declaration
  | start (name : String) (selfClosing : Bool)
  | stop (name : String)
deriving DecidableEq, Repr

/-- What a tag says. -/
def tag (inner : Text) : Markup :=
  if inner.head? = some '/' then .stop (localName (trim inner.tail))
  else
    let selfClosing := inner.getLast? = some '/'
    let qname := (trim (if selfClosing then inner.dropLast else inner)).takeWhile (!isSpace ·)
    if qname = [] then .skip else .start (localName qname) selfClosing

/-- The markup that begins with the `<` before `xml`, and what follows it; `none` for a truncated
tag. -/
def markup (xml : Text) : Option (Markup × Text) :=
  if "!--".toList.isPrefixOf xml then
    some (.skip, ((cut "-->".toList (xml.drop 3)).map (·.2)).getD [])
  else if "![CDATA[".toList.isPrefixOf xml then
    match cut "]]>".toList (xml.drop 8) with
    | some (text, rest) => some (.cdata text, rest)
    | none => some (.cdata (xml.drop 8), [])
  else if xml.head? = some '!' then some (.declaration, xml)
  else if xml.head? = some '?' then
    some (.skip, ((cut "?>".toList (xml.drop 1)).map (·.2)).getD [])
  else (tagEnd none xml).map fun p => (tag p.1, p.2)

/-! ### the tree -/

/-- `{ name, children, text }`. -/
inductive Node
  | mk (name : String) (children : List Node) (text : Text)

/-- An element that is open. -/
structure Frame where
  name : String
  children : List Node
  text : Text

def Frame.node (f : Frame) : Node := .mk f.name f.children f.text

def Frame.addChild (f : Frame) (node : Node) : Frame := { f with children := f.children ++ [node] }

def Frame.addText (f : Frame) (text : Text) : Frame := { f with text := f.text ++ text }

/-- The locals of the loop: the top of the stack, what lies under it (the document last), and the
number of elements met. -/
structure Parser where
  top : Frame
  below : List Frame
  elements : ℕ

def Parser.init : Parser := ⟨⟨"#document", [], []⟩, [], 0⟩

def Parser.addText (s : Parser) (text : Text) : Parser := { s with top := s.top.addText text }

/-- The stack cut under the innermost element of that name; the document itself stays. -/
def closeTo (name : String) : Frame → List Frame → Option (Frame × List Frame)
  | _, [] => none
  | top, parent :: below =>
    if top.name = name then some (parent.addChild top.node, below)
    else closeTo name (parent.addChild top.node) below

/-- What one pass does with the markup it found. -/
def Parser.feed (s : Parser) : Markup → Except String Parser
  | .skip => .ok s
  | .cdata text => .ok (s.addText text)
  | .declaration => .error "DOCTYPE and ENTITY declarations are not accepted"
  | .stop name =>
    match closeTo name s.top s.below with
    | some (top, below) => .ok { s with top := top, below := below }
    | none => .ok s
  | .start name selfClosing =>
    if MAX_ELEMENTS < s.elements + 1 then .error "Too many XML elements"
    else if selfClosing then
      .ok { s with top := s.top.addChild (.mk name [] []), elements := s.elements + 1 }
    else if MAX_DEPTH < s.below.length + 1 then .error "XML nesting is too deep"
    else .ok ⟨⟨name, [], []⟩, s.top :: s.below, s.elements + 1⟩

/-! ### every pass moves on -/

theorem cut_length {mark xml text rest : Text} (h : cut mark xml = some (text, rest)) :
    rest.length ≤ xml.length := by
  induction xml generalizing text with
  | nil => simp [cut] at h
  | cons c xml ih =>
    rw [cut] at h
    split_ifs at h
    · simp only [Option.some.injEq, Prod.mk.injEq] at h
      rw [← h.2, List.length_drop]
      omega
    · obtain ⟨p, hp, heq⟩ := Option.map_eq_some_iff.mp h
      simp only [Prod.mk.injEq] at heq
      have := ih (heq.2 ▸ hp : cut mark xml = some (p.1, rest))
      simp only [List.length_cons]
      omega

theorem cut_getD_length (mark xml : Text) :
    (((cut mark xml).map (·.2)).getD []).length ≤ xml.length := by
  rcases h : cut mark xml with _ | ⟨text, rest⟩
  · simp
  · simpa using cut_length h

theorem tagEnd_length {xml inner rest : Text} {quote : Option Char}
    (h : tagEnd quote xml = some (inner, rest)) : rest.length ≤ xml.length := by
  induction xml generalizing quote inner with
  | nil => simp [tagEnd] at h
  | cons c xml ih =>
    have hstep : ∀ q, (tagEnd q xml).map (fun p => (c :: p.1, p.2)) = some (inner, rest) →
        rest.length ≤ (c :: xml).length := by
      intro q hq
      obtain ⟨p, hp, heq⟩ := Option.map_eq_some_iff.mp hq
      simp only [Prod.mk.injEq] at heq
      have := ih (heq.2 ▸ hp : tagEnd q xml = some (p.1, rest))
      simp only [List.length_cons]
      omega
    rcases quote with _ | quote
    · rw [tagEnd] at h
      split_ifs at h
      · exact hstep _ h
      · simp only [Option.some.injEq, Prod.mk.injEq] at h
        simp [h.2]
      · exact hstep _ h
    · rw [tagEnd] at h
      exact hstep _ h

theorem markup_length {xml rest : Text} {m : Markup} (h : markup xml = some (m, rest)) :
    rest.length ≤ xml.length := by
  rw [markup] at h
  split_ifs at h
  · simp only [Option.some.injEq, Prod.mk.injEq] at h
    have := cut_getD_length "-->".toList (xml.drop 3)
    rw [← h.2]
    simp only [List.length_drop] at this
    omega
  · rcases hcut : cut "]]>".toList (xml.drop 8) with _ | ⟨text, rest'⟩
    · simp only [hcut, Option.some.injEq, Prod.mk.injEq] at h
      simp [← h.2]
    · simp only [hcut, Option.some.injEq, Prod.mk.injEq] at h
      have := cut_length hcut
      rw [← h.2]
      simp only [List.length_drop] at this
      omega
  · simp only [Option.some.injEq, Prod.mk.injEq] at h
    simp [h.2]
  · simp only [Option.some.injEq, Prod.mk.injEq] at h
    have := cut_getD_length "?>".toList (xml.drop 1)
    rw [← h.2]
    simp only [List.length_drop] at this
    omega
  · obtain ⟨p, hp, heq⟩ := Option.map_eq_some_iff.mp h
    simp only [Prod.mk.injEq] at heq
    exact tagEnd_length (heq.2 ▸ hp : tagEnd none xml = some (p.1, rest))

/-! ### the loop -/

/-- The loop of `parseTree`, from what it has built and the text that is left. -/
def parseFrom (s : Parser) (xml : Text) : Except String Parser :=
  let s := s.addText (decodeEntities (xml.takeWhile (· ≠ '<')))
  match hlt : xml.dropWhile (· ≠ '<') with
  | [] => .ok s
  | _ :: rest =>
    match hm : markup rest with
    | none => .ok s
    | some (m, rest') =>
      match s.feed m with
      | .error message => .error message
      | .ok s =>
        have : rest'.length < xml.length := by
          have hle := List.length_dropWhile_le (· ≠ '<') xml
          have := markup_length hm
          rw [hlt, List.length_cons] at hle
          omega
        parseFrom s rest'
termination_by xml.length

/-- Every open element closed, from the innermost. -/
def closeAll : Frame → List Frame → Node
  | top, [] => top.node
  | top, parent :: below => closeAll (parent.addChild top.node) below

def Parser.tree (s : Parser) : Node := closeAll s.top s.below

def parseTree (xml : Text) : Except String Node := (parseFrom .init xml).map Parser.tree

end Vigabss.Cwmp
