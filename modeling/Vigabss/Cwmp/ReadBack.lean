import Vigabss.Cwmp.RoundTrip

/-!
# Vigabss.Cwmp.ReadBack — the lists of a request, and every request

A list of names or parameters is written as one element for each; with the builders of
`RoundTrip` this covers every request that the server sends.
-/

namespace Vigabss.Cwmp

open Vigabss.Lib.JsText

variable {d : ℕ}

/-! ### lists -/

theorem says_stringItem (name : Text) : Says (d + 1) (stringItem name) [leaf "string" name] := by
  unfold stringItem
  rw [List.append_assoc]
  exact Says.field "      <string>" "</string>" "string" (by simp [elementLines]) name

theorem endsIn_attribute {indent qname attr value : Text} {name : String}
    (h : (indent.all isSpace = true ∧ qname.all isNameChar = true) ∧
      (qname ≠ [] ∧ qname.head? ∉ ['!', '?', '/'].map some) ∧ localName qname = name ∧
      quoteAfter none attr = some (some '"')) (hvalue : '"' ∉ value) :
    EndsIn (indent ++ tagText (qname ++ (' ' :: attr ++ (value ++ ['"'])))) (.start name false) :=
  ⟨indent, _, rfl, h.1.1, IsTag.attribute h.1.2 h.2.1 h.2.2.1 h.2.2.2 hvalue⟩

theorem quote_not_mem_arrayType {type : Text} (h : '"' ∉ type) (n : ℕ) :
    '"' ∉ type ++ (decimal n ++ [']']) := by
  simp only [List.mem_append, List.mem_singleton, not_or]
  refine ⟨h, fun hmem => ?_, by decide⟩
  have := Nat.isDigit_of_mem_toDigits (by omega) (by omega) hmem
  exact absurd this (by decide)

theorem says_listElement {start stop : Text} {name : String} {α : Type} {item : α → Text}
    {node : α → Node} (hopen : EndsIn start (.start name false))
    (hclose : EndsIn stop (.stop name)) (hitem : ∀ a, Says d (item a) [node a]) (as : List α) :
    Says (d + 1) (joinLines (start :: ([joinLines (as.map item)] ++ [stop])))
      [group name (as.map node)] := by
  have h := Says.lines hopen hclose (.cons (Says.joinLines hitem as) .nil)
  rwa [List.flatten_cons, List.flatten_nil, List.append_nil] at h

theorem names_constants :
    ((("      ".toList.all isSpace = true ∧ "ParameterNames".toList.all isNameChar = true) ∧
      ("ParameterNames".toList ≠ [] ∧ "ParameterNames".toList.head? ∉ ['!', '?', '/'].map some) ∧
      localName "ParameterNames".toList = "parameternames" ∧
      quoteAfter none r#"soapenv:arrayType=""#.toList = some (some '"')) ∧
    '"' ∉ "xsd:string[".toList) ∧
    (r#"      <ParameterNames soapenv:arrayType="xsd:string["#.toList =
        "      ".toList ++ ('<' :: ("ParameterNames".toList ++
          (' ' :: (r#"soapenv:arrayType=""#.toList ++ "xsd:string[".toList)))) ∧
      r#"]">"#.toList = ']' :: '"' :: ['>']) ∧
    ("      </ParameterNames>".toList.dropWhile isSpace = tagText (inside "      </ParameterNames>")
      ∧ IsTag (inside "      </ParameterNames>") (.stop "parameternames")) := by
  unfold inside
  repeat rw [String.toList_ofList]
  decide

theorem says_getParameterValues (messageId : Text) (names : List Text) :
    Says (d + 5) (buildGetParameterValues messageId names)
      (envelope messageId [getParameterValues names]) := by
  have hc := names_constants
  have hopen := endsIn_attribute hc.1.1 (quote_not_mem_arrayType hc.1.2 names.length)
  have hlist := says_listElement hopen (endsIn_of_inside hc.2.2.1 hc.2.2.2)
    (says_stringItem (d := d)) names
  have hbody := Says.message "<cwmp:GetParameterValues>" "    </cwmp:GetParameterValues>"
    "getparametervalues" (by simp [elementLines]) (.cons hlist .nil)
  refine says_wrapEnvelope messageId ?_
  rw [hc.2.1.1, hc.2.1.2]
  simpa only [joinLines, tagText, List.intersperse, List.flatten_cons, List.flatten_nil,
    List.append_nil, List.append_assoc, List.cons_append, List.nil_append, getParameterValues]
    using hbody

theorem value_constants :
    (("        ".toList.all isSpace = true ∧ "Value".toList.all isNameChar = true) ∧
      ("Value".toList ≠ [] ∧ "Value".toList.head? ∉ ['!', '?', '/'].map some) ∧
      localName "Value".toList = "value" ∧
      quoteAfter none r#"xsi:type=""#.toList = some (some '"')) ∧
    (r#"        <Value xsi:type=""#.toList =
        "        ".toList ++ ('<' :: ("Value".toList ++ (' ' :: r#"xsi:type=""#.toList))) ∧
      r#"">"#.toList = '"' :: ['>']) ∧
    ("</Value>".toList.dropWhile isSpace = tagText (inside "</Value>") ∧
      IsTag (inside "</Value>") (.stop "value")) := by
  unfold inside
  repeat rw [String.toList_ofList]
  decide

theorem says_structItem (p : ParameterValue) :
    Says (d + 2) (structItem p)
      [group "parametervaluestruct" [leaf "name" p.name, leaf "value" p.value]] := by
  have hc := value_constants
  have hname := Says.field (d := d) "        <Name>" "</Name>" "name"
    (by simp [elementLines]) p.name
  have hopen := endsIn_attribute hc.1 (not_mem_xmlEscape p.xsdType).2
  have hvalue := Says.value (d := d) hopen (endsIn_of_inside hc.2.2.1 hc.2.2.2) p.value
  have h := Says.message "      <ParameterValueStruct>" "      </ParameterValueStruct>"
    "parametervaluestruct" (by simp [elementLines]) (.cons hname (.cons hvalue .nil))
  unfold structItem
  rw [hc.2.1.1, hc.2.1.2]
  simpa only [tagText, List.flatten_cons, List.flatten_nil, List.append_assoc, List.cons_append,
    List.nil_append, List.append_nil] using h

theorem list_constants :
    ((("      ".toList.all isSpace = true ∧ "ParameterList".toList.all isNameChar = true) ∧
      ("ParameterList".toList ≠ [] ∧ "ParameterList".toList.head? ∉ ['!', '?', '/'].map some) ∧
      localName "ParameterList".toList = "parameterlist" ∧
      quoteAfter none r#"soapenv:arrayType=""#.toList = some (some '"')) ∧
    '"' ∉ "cwmp:ParameterValueStruct[".toList) ∧
    (r#"      <ParameterList soapenv:arrayType="cwmp:ParameterValueStruct["#.toList =
        "      ".toList ++ ('<' :: ("ParameterList".toList ++
          (' ' :: (r#"soapenv:arrayType=""#.toList ++ "cwmp:ParameterValueStruct[".toList)))) ∧
      r#"]">"#.toList = ']' :: '"' :: ['>']) ∧
    ("      </ParameterList>".toList.dropWhile isSpace = tagText (inside "      </ParameterList>")
      ∧ IsTag (inside "      </ParameterList>") (.stop "parameterlist")) := by
  unfold inside
  repeat rw [String.toList_ofList]
  decide

theorem says_setParameterValues (messageId : Text) (list : List ParameterValue) :
    Says (d + 6) (buildSetParameterValues messageId list)
      (envelope messageId [setParameterValues list]) := by
  have hc := list_constants
  have hopen := endsIn_attribute hc.1.1 (quote_not_mem_arrayType hc.1.2 list.length)
  have hlist := says_listElement hopen (endsIn_of_inside hc.2.2.1 hc.2.2.2)
    (says_structItem (d := d)) list
  have hkey := Says.emptyField (d := d + 2) "      <ParameterKey>" "</ParameterKey>"
    "parameterkey" (by simp [elementLines])
  have hbody := Says.message "<cwmp:SetParameterValues>" "    </cwmp:SetParameterValues>"
    "setparametervalues" (by simp [elementLines]) (.cons hlist (.cons hkey .nil))
  refine says_wrapEnvelope messageId ?_
  rw [hc.2.1.1, hc.2.1.2]
  simpa only [joinLines, tagText, List.intersperse, List.flatten_cons, List.flatten_nil,
    List.append_nil, List.append_assoc, List.cons_append, List.nil_append, setParameterValues]
    using hbody

/-! ### every request -/

/-- The file size of a download, the one field that the builders do not escape, holds no markup
and no entity.  The text of a number never does. -/
def Request.PlainFileSize : Request → Prop
  | .Download params =>
    '<' ∉ orElse params.fileSize ['0'] ∧
      trim (decodeEntities (orElse params.fileSize ['0'])) = trim (orElse params.fileSize ['0'])
  | _ => True

theorem fileSize_constants :
    ("      <FileSize>".toList = "      ".toList ++ tagText "FileSize".toList ∧
      "</FileSize>".toList = tagText "/FileSize".toList ∧ "      ".toList.all isSpace = true) ∧
    IsTag "FileSize".toList (.start "filesize" false) ∧
    IsTag "/FileSize".toList (.stop "filesize") := by
  repeat rw [String.toList_ofList]
  decide

theorem says_fileSize {fileSize : Text} (hmarkup : '<' ∉ fileSize)
    (hdecode : trim (decodeEntities fileSize) = trim fileSize) :
    Says (d + 1) ("      <FileSize>".toList ++ fileSize ++ "</FileSize>".toList)
      [leaf "filesize" fileSize] := by
  have hc := fileSize_constants
  have h := (Says.blank (d := d + 1) hc.1.2.2).append (Says.raw hc.2.1 hc.2.2 hmarkup hdecode)
  rw [hc.1.1, hc.1.2.1]
  simpa only [List.append_assoc, List.nil_append] using h

theorem says_request (messageId : Text) (request : Request) (h : request.PlainFileSize) :
    Says (d + 6) (buildCwmpResponse messageId request) (envelope messageId request.body) := by
  cases request with
  | InformResponse => exact says_informResponse messageId
  | GetParameterValues names => exact says_getParameterValues messageId names
  | SetParameterValues list => exact says_setParameterValues messageId list
  | GetParameterNames path nextLevel => exact says_getParameterNames messageId path nextLevel
  | Download params => exact says_download messageId params (says_fileSize h.1 h.2)
  | Reboot => exact says_reboot messageId
  | FactoryReset => exact says_factoryReset messageId
  | StartPingDiagnostic params => exact says_setParameterValues messageId params.pvList
  | StartTracerouteDiagnostic params => exact says_setParameterValues messageId params.pvList
  | GetDiagnosticResults paths => exact says_getParameterValues messageId paths
  | TransferCompleteResponse => exact says_transferCompleteResponse messageId
  | Empty => exact says_empty messageId

/-- **A request is read as exactly its intended elements**, in order and with the texts that were
given, for every message id and all parameters; the tokenizer refuses it if it has more elements
than it takes. -/
theorem request_read_back (messageId : Text) (request : Request) (h : request.PlainFileSize) :
    (request.elements messageId ≤ MAX_ELEMENTS →
      ReadAs (buildCwmpResponse messageId request) (request.intended messageId)) ∧
    (MAX_ELEMENTS < request.elements messageId →
      parseTree (buildCwmpResponse messageId request) = .error "Too many XML elements") :=
  (says_request (d := 0) messageId request h).parseTree (by decide)

/-- A download whose file size is a number. -/
theorem request_read_back_download :
    ReadAs (buildCwmpResponse "TASK-7".toList (.Download ⟨some "DL-7".toList, none,
        some "http://acs/fw?a=1&b=<2>".toList, some "1048576".toList⟩))
      (Request.intended (.Download ⟨some "DL-7".toList, none,
        some "http://acs/fw?a=1&b=<2>".toList, some "1048576".toList⟩) "TASK-7".toList) := by
  have h : Request.PlainFileSize (.Download ⟨some "DL-7".toList, none,
      some "http://acs/fw?a=1&b=<2>".toList, some "1048576".toList⟩) := by
    show '<' ∉ "1048576".toList ∧ trim (decodeEntities "1048576".toList) = trim "1048576".toList
    rw [String.toList_ofList]
    decide +kernel
  exact (request_read_back "TASK-7".toList _ h).1 (by decide)

theorem sizeAll_map_leaf (name : String) (texts : List Text) :
    sizeAll (texts.map (leaf name)) = texts.length := by
  induction texts with
  | nil => simp [sizeAll]
  | cons text texts ih =>
    rw [List.map_cons, sizeAll, ih, leaf, Node.size, sizeAll, List.length_cons]
    omega

theorem parseTree_getParameterValues_of_many (messageId : Text) (names : List Text)
    (h : MAX_ELEMENTS < names.length + 6) :
    parseTree (buildGetParameterValues messageId names) = .error "Too many XML elements" := by
  have hsize : sizeAll (envelope messageId (Request.body (.GetParameterValues names))) =
      names.length + 6 := by
    simp only [envelope, Request.body, getParameterValues, group, leaf, sizeAll, Node.size]
    rw [sizeAll_map_leaf]
    omega
  refine ((says_getParameterValues (d := 0) messageId names).parseTree (by decide)).2 ?_
  show MAX_ELEMENTS < sizeAll (envelope messageId (Request.body (.GetParameterValues names)))
  omega

/-- A request for twenty thousand parameters has more elements than the tokenizer takes. -/
theorem long_request_refused :
    ¬ ∀ (messageId : Text) (request : Request),
      ReadAs (buildCwmpResponse messageId request) (request.intended messageId) := by
  intro hall
  obtain ⟨read, hread, _⟩ := hall [] (.GetParameterValues (List.replicate 20000 []))
  have hmany : MAX_ELEMENTS < (List.replicate 20000 ([] : Text)).length + 6 := by
    rw [List.length_replicate]
    decide
  rw [buildCwmpResponse, parseTree_getParameterValues_of_many [] _ hmany] at hread
  exact absurd hread (by simp)

theorem task_read_back (task : Task) (h : task.request.PlainFileSize)
    (hfit : task.request.elements ("TASK-".toList ++ decimal task.id) ≤ MAX_ELEMENTS) :
    ReadAs (buildResponseForTask task)
      (task.request.intended ("TASK-".toList ++ decimal task.id)) :=
  ((says_request (d := 0) _ task.request h).parseTree (by decide)).1 hfit

end Vigabss.Cwmp
