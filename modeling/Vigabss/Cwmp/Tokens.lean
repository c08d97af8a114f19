import Vigabss.Cwmp.Requests

/-!
# Vigabss.Cwmp.Tokens — one pass over a hostile envelope

The endpoint takes any text from anyone.  `tokens` cuts a text into the tokens that the loop of
`parseTree` reads, which make up the text; the loop feeds just these, moves on with each of them,
and ends with an error or with a tree within its bounds.
-/

namespace Vigabss.Cwmp

/-! ### Tokens -/

/-- What the loop reads; `closed` says whether the end mark was found. -/
inductive Token
  | text (text : Text)
  | comment (body : Text) (closed : Bool)
  | cdata (body : Text) (closed : Bool)
  | instruction (body : Text) (closed : Bool)
  | tag (inner : Text)
  /-- `<!`, with all that stands behind it. -/
  | declaration (rest : Text)
  /-- A tag that does not end. -/
  | truncated (rest : Text)
deriving DecidableEq, Repr

/-- The characters that a token covers. -/
def Token.raw : Token → Text
  | .text t => t
  | .comment body closed => "<!--".toList ++ (body ++ if closed then "-->".toList else [])
  | .cdata body closed => "<![CDATA[".toList ++ (body ++ if closed then "]]>".toList else [])
  | .instruction body closed => "<?".toList ++ (body ++ if closed then "?>".toList else [])
  | .tag inner => '<' :: (inner ++ ['>'])
  | .declaration rest | .truncated rest => '<' :: rest

/-- What the loop does with a token. -/
def Token.feed (s : Parser) : Token → Except String Parser
  | .text t => .ok (s.addText (decodeEntities t))
  | .comment _ _ | .instruction _ _ | .truncated _ => .ok s
  | .cdata body _ => .ok (s.addText body)
  | .tag inner => s.feed (Cwmp.tag inner)
  | .declaration _ => s.feed .declaration

/-- What stands before the first `mark`, whether it was found, and what follows it. -/
def upTo (mark xml : Text) : Text × Bool × Text :=
  match cut mark xml with
  | some (body, rest) => (body, true, rest)
  | none => (xml, false, [])

/-- The token that begins with the `<` before `xml`, and what follows it. -/
def markupToken (xml : Text) : Token × Text :=
  if "!--".toList.isPrefixOf xml then
    let found := upTo "-->".toList (xml.drop 3)
    (.comment found.1 found.2.1, found.2.2)
  else if "![CDATA[".toList.isPrefixOf xml then
    let found := upTo "]]>".toList (xml.drop 8)
    (.cdata found.1 found.2.1, found.2.2)
  else if xml.head? = some '!' then (.declaration xml, [])
  else if xml.head? = some '?' then
    let found := upTo "?>".toList (xml.drop 1)
    (.instruction found.1 found.2.1, found.2.2)
  else
    match tagEnd none xml with
    | some (inner, rest) => (.tag inner, rest)
    | none => (.truncated xml, [])

/-! ### A token is cut off the text -/

theorem cut_spec {mark xml body rest : Text} (h : cut mark xml = some (body, rest)) :
    xml = body ++ (mark ++ rest) := by
  induction xml generalizing body with
  | nil => simp [cut] at h
  | cons c xml ih =>
    rw [cut] at h
    split_ifs at h with hmark
    · obtain ⟨tail, htail⟩ := List.isPrefixOf_iff_prefix.1 hmark
      obtain ⟨rfl, rfl⟩ := Prod.mk.inj (Option.some.inj h)
      rw [← htail, List.drop_left, List.nil_append]
    · obtain ⟨p, hp, heq⟩ := Option.map_eq_some_iff.1 h
      obtain ⟨rfl, rfl⟩ := Prod.mk.inj heq
      exact congrArg (c :: ·) (ih hp)

theorem upTo_spec (mark xml : Text) :
    xml = (upTo mark xml).1 ++ ((if (upTo mark xml).2.1 then mark else []) ++
      (upTo mark xml).2.2) := by
  rw [upTo]
  cases h : cut mark xml with
  | none => simp
  | some p => exact cut_spec h

theorem tagEnd_spec {xml inner rest : Text} {quote : Option Char}
    (h : tagEnd quote xml = some (inner, rest)) : xml = inner ++ '>' :: rest := by
  induction xml generalizing quote inner with
  | nil => simp [tagEnd] at h
  | cons c xml ih =>
    have hstep : ∀ q, (tagEnd q xml).map (fun p => (c :: p.1, p.2)) = some (inner, rest) →
        c :: xml = inner ++ '>' :: rest := by
      intro q hq
      obtain ⟨p, hp, heq⟩ := Option.map_eq_some_iff.1 hq
      obtain ⟨rfl, rfl⟩ := Prod.mk.inj heq
      exact congrArg (c :: ·) (ih hp)
    rcases quote with - | quote
    · rw [tagEnd] at h
      split_ifs at h with hquote hend
      · exact hstep _ h
      · obtain ⟨rfl, rfl⟩ := Prod.mk.inj (Option.some.inj h)
        rw [hend, List.nil_append]
      · exact hstep _ h
    · rw [tagEnd] at h
      exact hstep _ h

theorem eq_cons_of_head? {xml : Text} {c : Char} (h : xml.head? = some c) :
    xml = c :: xml.drop 1 := by
  rcases xml with - | ⟨d, xml⟩
  · cases h
  · cases h
    rfl

/-- **A token covers the text up to where the loop goes on.** -/
theorem raw_markupToken (xml : Text) :
    '<' :: xml = (markupToken xml).1.raw ++ (markupToken xml).2 := by
  have hopen : ∀ {mark : Text}, mark.isPrefixOf xml → xml = mark ++ xml.drop mark.length := by
    intro mark hmark
    obtain ⟨tail, rfl⟩ := List.isPrefixOf_iff_prefix.1 hmark
    rw [List.drop_left]
  by_cases hcomment : "!--".toList.isPrefixOf xml = true
  · have hrest := upTo_spec "-->".toList (xml.drop 3)
    rw [markupToken, if_pos hcomment]
    show '<' :: xml = "<!--".toList ++ ((upTo "-->".toList (xml.drop 3)).1 ++ _) ++ _
    rw [List.append_assoc, List.append_assoc, ← hrest]
    exact congrArg ('<' :: ·) (hopen hcomment)
  by_cases hcdata : "![CDATA[".toList.isPrefixOf xml = true
  · have hrest := upTo_spec "]]>".toList (xml.drop 8)
    rw [markupToken, if_neg hcomment, if_pos hcdata]
    show '<' :: xml = "<![CDATA[".toList ++ ((upTo "]]>".toList (xml.drop 8)).1 ++ _) ++ _
    rw [List.append_assoc, List.append_assoc, ← hrest]
    exact congrArg ('<' :: ·) (hopen hcdata)
  by_cases hdeclaration : xml.head? = some '!'
  · rw [markupToken, if_neg hcomment, if_neg hcdata, if_pos hdeclaration]
    exact (List.append_nil _).symm
  by_cases hinstruction : xml.head? = some '?'
  · have hrest := upTo_spec "?>".toList (xml.drop 1)
    rw [markupToken, if_neg hcomment, if_neg hcdata, if_neg hdeclaration, if_pos hinstruction]
    show '<' :: xml = "<?".toList ++ ((upTo "?>".toList (xml.drop 1)).1 ++ _) ++ _
    rw [List.append_assoc, List.append_assoc, ← hrest]
    exact congrArg ('<' :: ·) (eq_cons_of_head? hinstruction)
  · rw [markupToken, if_neg hcomment, if_neg hcdata, if_neg hdeclaration, if_neg hinstruction]
    cases htag : tagEnd none xml with
    | none => exact (List.append_nil _).symm
    | some p =>
      show '<' :: xml = '<' :: (p.1 ++ ['>']) ++ p.2
      rw [tagEnd_spec htag]
      simp

theorem raw_ne_nil_of_markup (xml : Text) : (markupToken xml).1.raw ≠ [] := by
  unfold markupToken
  repeat' split
  all_goals exact List.cons_ne_nil _ _

theorem length_markupToken (xml : Text) : (markupToken xml).2.length ≤ xml.length := by
  have hlength := congrArg List.length (raw_markupToken xml)
  have hpos := List.length_pos_iff.2 (raw_ne_nil_of_markup xml)
  rw [List.length_cons, List.length_append] at hlength
  omega

/-! ### The tokens of a text -/

/-- The text before a `<`. -/
def textToken (text : Text) : List Token := if text = [] then [] else [.text text]

theorem length_behind_markup {xml rest : Text} {c : Char}
    (hlt : xml.dropWhile (· ≠ '<') = c :: rest) : (markupToken rest).2.length < xml.length := by
  have hle := List.length_dropWhile_le (· ≠ '<') xml
  have hrest := length_markupToken rest
  rw [hlt, List.length_cons] at hle
  omega

/-- The tokens of a text. -/
def tokens (xml : Text) : List Token :=
  textToken (xml.takeWhile (· ≠ '<')) ++
    match hlt : xml.dropWhile (· ≠ '<') with
    | [] => []
    | _ :: rest =>
      have : (markupToken rest).2.length < xml.length := length_behind_markup hlt
      (markupToken rest).1 :: tokens (markupToken rest).2
termination_by xml.length

/-- The index at the beginning of each pass of the loop, and where the last one stops. -/
def indices (i : ℕ) (xml : Text) : List ℕ :=
  i :: match hlt : xml.dropWhile (· ≠ '<') with
    | [] => []
    | _ :: rest =>
      have : (markupToken rest).2.length < xml.length := length_behind_markup hlt
      indices (i + (xml.length - (markupToken rest).2.length)) (markupToken rest).2
termination_by xml.length

end Vigabss.Cwmp
