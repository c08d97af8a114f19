import Vigabss.Cwmp.Reading
import Vigabss.Cwmp.Tokens

/-!
# Vigabss.Cwmp.Bounds — what any text costs the parser

The tokens of a text make it up, every pass of the loop moves on, and the tree that is built has at
most `MAX_ELEMENTS` elements, none of them under more than `MAX_DEPTH` others.
-/

namespace Vigabss.Cwmp

/-! ### The tokens and the loop -/

theorem takeWhile_lt {text xml : Text} (h : '<' ∉ text) :
    (text ++ '<' :: xml).takeWhile (· ≠ '<') = text := by
  rw [List.takeWhile_append_of_pos (ne_lt_of_not_mem h)]
  simp

theorem dropWhile_lt {text xml : Text} (h : '<' ∉ text) :
    (text ++ '<' :: xml).dropWhile (· ≠ '<') = '<' :: xml := by
  rw [List.dropWhile_append_of_pos (ne_lt_of_not_mem h)]
  simp

theorem tokens_text {text : Text} (h : '<' ∉ text) : tokens text = textToken text := by
  have htake : text.takeWhile (· ≠ '<') = text :=
    List.takeWhile_eq_self_iff.2 (ne_lt_of_not_mem h)
  have hdrop : text.dropWhile (· ≠ '<') = [] :=
    List.dropWhile_eq_nil_iff.2 (ne_lt_of_not_mem h)
  rw [tokens, htake]
  split
  · exact List.append_nil _
  · next heq =>
    rw [hdrop] at heq
    cases heq

theorem tokens_markup {text : Text} (h : '<' ∉ text) (xml : Text) :
    tokens (text ++ '<' :: xml) =
      textToken text ++ (markupToken xml).1 :: tokens (markupToken xml).2 := by
  rw [tokens, takeWhile_lt h]
  split
  · next heq =>
    rw [dropWhile_lt h] at heq
    cases heq
  · next heq =>
    rw [dropWhile_lt h] at heq
    cases heq
    rfl

theorem indices_text {text : Text} (h : '<' ∉ text) (i : ℕ) : indices i text = [i] := by
  have hdrop : text.dropWhile (· ≠ '<') = [] :=
    List.dropWhile_eq_nil_iff.2 (ne_lt_of_not_mem h)
  rw [indices]
  split
  · rfl
  · next heq =>
    rw [hdrop] at heq
    cases heq

theorem indices_markup {text : Text} (h : '<' ∉ text) (xml : Text) (i : ℕ) :
    indices i (text ++ '<' :: xml) =
      i :: indices (i + (text.length + (markupToken xml).1.raw.length)) (markupToken xml).2 := by
  have hlength := congrArg List.length (raw_markupToken xml)
  rw [List.length_cons, List.length_append] at hlength
  have hcovered : (text ++ '<' :: xml).length - (markupToken xml).2.length =
      text.length + (markupToken xml).1.raw.length := by
    rw [List.length_append, List.length_cons]
    omega
  rw [indices]
  split
  · next heq =>
    rw [dropWhile_lt h] at heq
    cases heq
  · next heq =>
    rw [dropWhile_lt h] at heq
    cases heq
    rw [hcovered]

theorem tokens_induction {P : Text → Prop} (htext : ∀ text, '<' ∉ text → P text)
    (hmarkup : ∀ text xml, '<' ∉ text → P (markupToken xml).2 → P (text ++ '<' :: xml))
    (xml : Text) : P xml := by
  induction hn : xml.length using Nat.strong_induction_on generalizing xml with
  | _ n ih =>
    rcases first_lt xml with hxml | ⟨text, rest, hnot, rfl⟩
    · exact htext xml hxml
    · refine hmarkup text rest hnot (ih _ ?_ _ rfl)
      have hle := length_markupToken rest
      rw [← hn, List.length_append, List.length_cons]
      omega

theorem raw_textToken (text : Text) : (textToken text).flatMap Token.raw = text := by
  unfold textToken
  split_ifs with h
  · rw [h, List.flatMap_nil]
  · exact List.append_nil text

/-- **The tokens make up the text**: each character belongs to one of them. -/
theorem raw_tokens (xml : Text) : (tokens xml).flatMap Token.raw = xml := by
  induction xml using tokens_induction with
  | htext text h => rw [tokens_text h, raw_textToken]
  | hmarkup text xml h ih =>
    rw [tokens_markup h, List.flatMap_append, List.flatMap_cons, raw_textToken, ih,
      ← raw_markupToken]

theorem raw_ne_nil (xml : Text) : ∀ t ∈ tokens xml, t.raw ≠ [] := by
  have htoken : ∀ text, ∀ t ∈ textToken text, t.raw ≠ [] := by
    intro text t ht
    unfold textToken at ht
    split_ifs at ht with hnil
    · cases ht
    · rw [List.mem_singleton.1 ht]
      exact hnil
  induction xml using tokens_induction with
  | htext text h =>
    rw [tokens_text h]
    exact htoken text
  | hmarkup text xml h ih =>
    rw [tokens_markup h]
    intro t ht
    rcases List.mem_append.1 ht with ht | ht
    · exact htoken text t ht
    · rcases List.mem_cons.1 ht with rfl | ht
      · exact raw_ne_nil_of_markup xml
      · exact ih t ht

/-- **Every pass moves on.** -/
theorem indices_pairwise (xml : Text) (i : ℕ) :
    (indices i xml).Pairwise (· < ·) ∧ ∀ j ∈ indices i xml, i ≤ j ∧ j ≤ i + xml.length := by
  induction xml using tokens_induction generalizing i with
  | htext text h =>
    rw [indices_text h]
    exact ⟨List.pairwise_singleton _ i, List.forall_mem_singleton.2 ⟨le_rfl, Nat.le_add_right ..⟩⟩
  | hmarkup text xml h ih =>
    have hpos := List.length_pos_iff.2 (raw_ne_nil_of_markup xml)
    have hlength := congrArg List.length (raw_markupToken xml)
    rw [List.length_cons, List.length_append] at hlength
    obtain ⟨hrest, hbound⟩ := ih (i + (text.length + (markupToken xml).1.raw.length))
    rw [indices_markup h]
    refine ⟨List.pairwise_cons.2 ⟨fun j hj => ?_, hrest⟩, List.forall_mem_cons.2 ⟨?_, ?_⟩⟩
    · have := (hbound j hj).1
      omega
    · exact ⟨le_rfl, Nat.le_add_right ..⟩
    · intro j hj
      have := hbound j hj
      rw [List.length_append, List.length_cons]
      omega

/-- What the loop finds at a `<` is what the token says. -/
theorem markup_eq (xml : Text) :
    (markup xml = none ∧ markupToken xml = (.truncated xml, [])) ∨
      ∃ m rest, markup xml = some (m, rest) ∧ (∀ s, (markupToken xml).1.feed s = s.feed m) ∧
        (m ≠ .declaration → (markupToken xml).2 = rest) := by
  have hskip : ∀ mark text : Text,
      ((cut mark text).map (·.2)).getD [] = (upTo mark text).2.2 := by
    intro mark text
    rw [upTo]
    cases cut mark text <;> rfl
  by_cases hcomment : "!--".toList.isPrefixOf xml = true
  · rw [markup, markupToken, if_pos hcomment, if_pos hcomment, hskip]
    exact .inr ⟨_, _, rfl, fun s => rfl, fun _ => rfl⟩
  by_cases hcdata : "![CDATA[".toList.isPrefixOf xml = true
  · rw [markup, markupToken, if_neg hcomment, if_pos hcdata, if_neg hcomment, if_pos hcdata, upTo]
    cases cut "]]>".toList (xml.drop 8) with
    | none => exact .inr ⟨_, _, rfl, fun s => rfl, fun _ => rfl⟩
    | some p => exact .inr ⟨_, _, rfl, fun s => rfl, fun _ => rfl⟩
  by_cases hdeclaration : xml.head? = some '!'
  · rw [markup, markupToken, if_neg hcomment, if_neg hcdata, if_pos hdeclaration, if_neg hcomment,
      if_neg hcdata, if_pos hdeclaration]
    exact .inr ⟨_, _, rfl, fun s => rfl, fun h => absurd rfl h⟩
  by_cases hinstruction : xml.head? = some '?'
  · rw [markup, markupToken, if_neg hcomment, if_neg hcdata, if_neg hdeclaration,
      if_pos hinstruction, if_neg hcomment, if_neg hcdata, if_neg hdeclaration,
      if_pos hinstruction, hskip]
    exact .inr ⟨_, _, rfl, fun s => rfl, fun _ => rfl⟩
  · rw [markup, markupToken, if_neg hcomment, if_neg hcdata, if_neg hdeclaration,
      if_neg hinstruction, if_neg hcomment, if_neg hcdata, if_neg hdeclaration,
      if_neg hinstruction]
    cases tagEnd none xml with
    | none => exact .inl ⟨rfl, rfl⟩
    | some p => exact .inr ⟨_, _, rfl, fun s => rfl, fun _ => rfl⟩

theorem feed_textToken (s : Parser) (text : Text) (more : List Token) :
    (textToken text ++ more).foldlM Token.feed s =
      more.foldlM Token.feed (s.addText (decodeEntities text)) := by
  unfold textToken
  split_ifs with h
  · have hs : s.addText (decodeEntities []) = s := by
      simp [decodeEntities_nil, Parser.addText, Frame.addText]
    rw [h, hs, List.nil_append]
  · rfl

/-- **The loop feeds just the tokens**, in their order. -/
theorem parseFrom_eq_tokens (s : Parser) (xml : Text) :
    parseFrom s xml = (tokens xml).foldlM Token.feed s := by
  induction xml using tokens_induction generalizing s with
  | htext text h =>
    have hfeed := feed_textToken s text []
    rw [List.append_nil] at hfeed
    rw [parseFrom_text s h, tokens_text h, hfeed]
    rfl
  | hmarkup text xml h ih =>
    rw [tokens_markup h, feed_textToken, List.foldlM_cons]
    rcases markup_eq xml with ⟨hnone, htoken⟩ | ⟨m, rest, hm, hfeed, hrest⟩
    · rw [parseFrom_truncated s h hnone, htoken, tokens_text (by simp)]
      rfl
    · rw [parseFrom_markup s h hm, hfeed]
      by_cases hdeclaration : m = .declaration
      · subst hdeclaration
        rfl
      · rw [← hrest hdeclaration]
        cases (s.addText (decodeEntities text)).feed m with
        | error message => rfl
        | ok s' => exact ih s'

/-! ### The bounds of the tree -/

def Node.children : Node → List Node
  | .mk _ children _ => children

mutual
/-- How many elements stand one within the other. -/
def Node.depth : Node → ℕ
  | .mk _ children _ => depthAll children + 1
def depthAll : List Node → ℕ
  | [] => 0
  | node :: nodes => max node.depth (depthAll nodes)
end

theorem depthAll_append (as bs : List Node) :
    depthAll (as ++ bs) = max (depthAll as) (depthAll bs) := by
  induction as with
  | nil => simp [depthAll]
  | cons a as ih => rw [List.cons_append, depthAll, depthAll, ih, max_assoc]

/-- The elements of the open ones, and these themselves but for the document. -/
def stackSize : Frame → List Frame → ℕ
  | top, [] => sizeAll top.children
  | top, parent :: below => sizeAll top.children + 1 + stackSize parent below

/-- The children of an open element leave room for the elements that it stands in. -/
def Shallow : Frame → List Frame → Prop
  | top, [] => depthAll top.children ≤ MAX_DEPTH + 1
  | top, parent :: below =>
    depthAll top.children + (below.length + 1) ≤ MAX_DEPTH + 1 ∧ Shallow parent below

/-- The bounds that every pass keeps. -/
structure Parser.Bounded (s : Parser) : Prop where
  size : stackSize s.top s.below ≤ s.elements
  elements : s.elements ≤ MAX_ELEMENTS
  nesting : s.below.length ≤ MAX_DEPTH
  depth : Shallow s.top s.below

theorem sizeAll_addChild (f : Frame) (node : Node) :
    sizeAll (f.addChild node).children = sizeAll f.children + node.size := by
  rw [Frame.addChild, sizeAll_append, sizeAll, sizeAll, Nat.add_zero]

theorem depthAll_addChild (f : Frame) (node : Node) :
    depthAll (f.addChild node).children = max (depthAll f.children) node.depth := by
  rw [Frame.addChild, depthAll_append, depthAll, depthAll, Nat.max_zero]

theorem Shallow.top_le {top : Frame} {below : List Frame} (h : Shallow top below) :
    depthAll top.children + below.length ≤ MAX_DEPTH + 1 := by
  cases below with
  | nil => exact h
  | cons parent below => exact h.1

theorem Shallow.addChild {top : Frame} {below : List Frame} (h : Shallow top below) {node : Node}
    (hnode : node.depth + below.length ≤ MAX_DEPTH + 1) : Shallow (top.addChild node) below := by
  have hle := h.top_le
  cases below with
  | nil =>
    rw [Shallow, depthAll_addChild]
    exact max_le hle hnode
  | cons parent below =>
    refine ⟨?_, h.2⟩
    rw [depthAll_addChild]
    rw [List.length_cons] at hle hnode
    omega

theorem close_spec {top parent : Frame} {below : List Frame} (h : Shallow top (parent :: below)) :
    Shallow (parent.addChild top.node) below ∧
      stackSize (parent.addChild top.node) below = stackSize top (parent :: below) := by
  constructor
  · refine h.2.addChild ?_
    have hle := h.1
    show depthAll top.children + 1 + below.length ≤ MAX_DEPTH + 1
    omega
  · have hsize : top.node.size = 1 + sizeAll top.children := by rw [Frame.node, Node.size]
    cases below with
    | nil =>
      show sizeAll _ = sizeAll top.children + 1 + sizeAll parent.children
      rw [sizeAll_addChild, hsize]
      omega
    | cons parent' below =>
      show sizeAll _ + 1 + stackSize parent' below =
        sizeAll top.children + 1 + (sizeAll parent.children + 1 + stackSize parent' below)
      rw [sizeAll_addChild, hsize]
      omega

theorem closeTo_spec {name : String} {top top' : Frame} {below below' : List Frame}
    (h : Shallow top below) (hclose : closeTo name top below = some (top', below')) :
    Shallow top' below' ∧ stackSize top' below' = stackSize top below ∧
      below'.length ≤ below.length := by
  induction below generalizing top with
  | nil => cases hclose
  | cons parent below ih =>
    obtain ⟨hshallow, hsize⟩ := close_spec h
    rw [closeTo] at hclose
    split_ifs at hclose with hname
    · obtain ⟨rfl, rfl⟩ := Prod.mk.inj (Option.some.inj hclose)
      exact ⟨hshallow, hsize, Nat.le_succ _⟩
    · obtain ⟨hshallow', hsize', hlength⟩ := ih hshallow hclose
      exact ⟨hshallow', hsize'.trans hsize, hlength.trans (Nat.le_succ _)⟩

theorem closeAll_spec {top : Frame} {below : List Frame} (h : Shallow top below) :
    sizeAll (closeAll top below).children = stackSize top below ∧
      depthAll (closeAll top below).children ≤ MAX_DEPTH + 1 := by
  induction below generalizing top with
  | nil => exact ⟨rfl, h⟩
  | cons parent below ih =>
    obtain ⟨hshallow, hsize⟩ := close_spec h
    rw [closeAll, ← hsize]
    exact ih hshallow

theorem Parser.Bounded.addText {s : Parser} (h : s.Bounded) (text : Text) :
    (s.addText text).Bounded := by
  obtain ⟨⟨name, children, said⟩, below, elements⟩ := s
  refine ⟨?_, h.elements, h.nesting, ?_⟩
  · have hsize := h.size
    cases below <;> exact hsize
  · have hdepth := h.depth
    cases below <;> exact hdepth

/-- **Markup keeps the bounds.** -/
theorem Parser.Bounded.feed {s s' : Parser} (h : s.Bounded) {m : Markup}
    (hfeed : s.feed m = .ok s') : s'.Bounded := by
  cases m with
  | skip =>
    cases hfeed
    exact h
  | cdata text =>
    cases hfeed
    exact h.addText text
  | declaration => cases hfeed
  | stop name =>
    rw [Parser.feed] at hfeed
    cases hclose : closeTo name s.top s.below with
    | none =>
      rw [hclose] at hfeed
      cases hfeed
      exact h
    | some p =>
      obtain ⟨hshallow, hsize, hlength⟩ := closeTo_spec h.depth hclose
      rw [hclose] at hfeed
      cases hfeed
      exact ⟨hsize.trans_le h.size, h.elements, hlength.trans h.nesting, hshallow⟩
  | start name selfClosing =>
    have hnew : sizeAll [] = 0 ∧ depthAll [] = 0 := ⟨by rw [sizeAll], by rw [depthAll]⟩
    rw [Parser.feed] at hfeed
    split_ifs at hfeed with hmany hself hdeep
    · cases hfeed
      have hopen := h.nesting
      have hsize := h.size
      have hone : (Node.mk name [] []).size = 1 ∧ (Node.mk name [] []).depth = 1 := by
        rw [Node.size, Node.depth, hnew.1, hnew.2]
        exact ⟨rfl, rfl⟩
      refine ⟨?_, not_lt.1 hmany, hopen, h.depth.addChild ?_⟩
      · show stackSize (s.top.addChild (.mk name [] [])) s.below ≤ s.elements + 1
        cases hbelow : s.below with
        | nil =>
          rw [hbelow, stackSize] at hsize
          rw [stackSize, sizeAll_addChild, hone.1]
          omega
        | cons parent below =>
          rw [hbelow, stackSize] at hsize
          rw [stackSize, sizeAll_addChild, hone.1]
          omega
      · rw [hone.2]
        omega
    · cases hfeed
      have hopen : s.below.length + 1 ≤ MAX_DEPTH := not_lt.1 hdeep
      have hsize := h.size
      refine ⟨?_, not_lt.1 hmany, hopen, ?_, h.depth⟩
      · show sizeAll [] + 1 + stackSize s.top s.below ≤ s.elements + 1
        rw [hnew.1]
        omega
      · show depthAll [] + (s.below.length + 1) ≤ MAX_DEPTH + 1
        rw [hnew.2]
        omega

theorem Parser.Bounded.token {s s' : Parser} (h : s.Bounded) {t : Token}
    (hfeed : t.feed s = .ok s') : s'.Bounded := by
  cases t with
  | text t =>
    cases hfeed
    exact h.addText _
  | cdata body closed =>
    cases hfeed
    exact h.addText _
  | comment body closed | instruction body closed | truncated rest =>
    cases hfeed
    exact h
  | tag inner => exact h.feed hfeed
  | declaration rest => cases hfeed

/-- **The tokens keep the bounds.** -/
theorem Parser.Bounded.tokens {s s' : Parser} (h : s.Bounded) {ts : List Token}
    (hrun : ts.foldlM Token.feed s = .ok s') : s'.Bounded := by
  induction ts generalizing s with
  | nil =>
    cases hrun
    exact h
  | cons t ts ih =>
    rw [List.foldlM_cons] at hrun
    cases hfeed : t.feed s with
    | error message =>
      rw [hfeed] at hrun
      cases hrun
    | ok next =>
      rw [hfeed] at hrun
      exact ih (h.token hfeed) hrun

/-- **What any text costs**: `parseTree` throws or returns a tree within its bounds; the index grows
with every pass; and the tokens that it feeds cover the text, each character once. -/
theorem parseTree_bounded (xml : Text) :
    ((∃ message, parseTree xml = .error message) ∨
      ∃ tree, parseTree xml = .ok tree ∧ sizeAll tree.children ≤ 20000 ∧
        depthAll tree.children ≤ 65) ∧
    (indices 0 xml).Pairwise (· < ·) ∧ (∀ i ∈ indices 0 xml, i ≤ xml.length) ∧
    parseTree xml = ((tokens xml).foldlM Token.feed .init).map Parser.tree ∧
    (tokens xml).flatMap Token.raw = xml ∧ ∀ t ∈ tokens xml, t.raw ≠ [] := by
  have hrun := parseFrom_eq_tokens .init xml
  obtain ⟨hgrows, hwithin⟩ := indices_pairwise xml 0
  refine ⟨?_, hgrows, fun i hi => ?_, by rw [parseTree, hrun], raw_tokens xml, raw_ne_nil xml⟩
  · cases hparse : parseFrom .init xml with
    | error message => exact .inl ⟨message, by rw [parseTree, hparse]; rfl⟩
    | ok s =>
      have hinit : Parser.init.Bounded := by
        refine ⟨?_, Nat.zero_le _, Nat.zero_le _, ?_⟩
        · show sizeAll [] ≤ 0
          rw [sizeAll]
        · show depthAll [] ≤ MAX_DEPTH + 1
          rw [depthAll]
          exact Nat.zero_le _
      have hs : s.Bounded := hinit.tokens (hrun ▸ hparse)
      obtain ⟨hsize, hdepth⟩ := closeAll_spec hs.depth
      refine .inr ⟨s.tree, by rw [parseTree, hparse]; rfl, ?_, hdepth⟩
      rw [Parser.tree, hsize]
      exact hs.size.trans hs.elements
  · have := (hwithin i hi).2
    omega

end Vigabss.Cwmp
