import Vigabss.Cwmp.Reading

/-!
# Vigabss.Cwmp.RoundTrip — a request is read as it was meant

Each builder writes the text of its intended elements.  Only the file size of a download goes into
the text as it is.
-/

namespace Vigabss.Cwmp

open Vigabss.Lib.JsText

/-! ### texts of elements -/

/-- The text says these elements, with white space between them. -/
def Says (d : ℕ) (text : Text) (nodes : List Node) : Prop :=
  ∃ read blank, Reads d text read blank ∧ Alike read nodes ∧ ∀ c ∈ blank, isSpace c = true

variable {d : ℕ}

theorem Says.nil : Says d [] [] := ⟨[], [], Reads.nil, rfl, by simp⟩

theorem trimmedAll_append (as bs : List Node) :
    trimmedAll (as ++ bs) = trimmedAll as ++ trimmedAll bs := by
  induction as with
  | nil => simp
  | cons a as ih => simp [ih]

theorem Says.append {a b : Text} {as bs : List Node} (ha : Says d a as) (hb : Says d b bs) :
    Says d (a ++ b) (as ++ bs) := by
  obtain ⟨ra, wa, hra, has, hwa⟩ := ha
  obtain ⟨rb, wb, hrb, hbs, hwb⟩ := hb
  refine ⟨ra ++ rb, wa ++ wb, hra.append hrb, ?_, ?_⟩
  · show trimmedAll _ = trimmedAll _
    rw [trimmedAll_append, trimmedAll_append, has, hbs]
  · intro c hc
    exact (List.mem_append.mp hc).elim (hwa c) (hwb c)

theorem xmlEscape_blank {text : Text} (h : ∀ c ∈ text, isSpace c = true) :
    xmlEscape text = text := by
  induction text with
  | nil => rfl
  | cons c text ih =>
    have hc := h c List.mem_cons_self
    have hne : ∀ d, isSpace d = false → c ≠ d := by
      rintro d hd rfl
      simp [hd] at hc
    have hescape : escapeChar c = [c] := by
      unfold escapeChar
      rw [if_neg (hne _ (by decide)), if_neg (hne _ (by decide)), if_neg (hne _ (by decide)),
        if_neg (hne _ (by decide)), if_neg (hne _ (by decide))]
    rw [xmlEscape_cons, hescape, ih fun c hc => h c (List.mem_cons_of_mem _ hc)]
    rfl

theorem Says.blank {text : Text} (h : text.all isSpace = true) : Says d text [] := by
  have hall := List.all_eq_true.mp h
  exact ⟨[], text, Reads.plain (xmlEscape_blank hall), rfl, hall⟩

theorem Says.group {inner close body : Text} {name : String} {nodes : List Node}
    (hopen : IsTag inner (.start name false)) (hclose : IsTag close (.stop name))
    (hbody : Says d body nodes) :
    Says (d + 1) (tagText inner ++ (body ++ tagText close)) [group name nodes] := by
  obtain ⟨read, blank, hread, halike, hblank⟩ := hbody
  refine ⟨_, [], Reads.element hopen hclose hread, ?_, by simp⟩
  have htrim : trim blank = trim [] := by rw [trim_of_blank hblank, trim_of_blank (by simp)]
  simp only [Alike, Cwmp.group, trimmedAll_cons, trimmedAll_nil, Node.trimmed_mk, htrim]
  rw [show trimmedAll read = trimmedAll nodes from halike]

theorem Says.leaf {inner close blank : Text} {name : String}
    (hopen : IsTag inner (.start name false)) (hclose : IsTag close (.stop name))
    (hblank : blank.all isSpace = true) (text : Text) :
    Says (d + 1) (tagText inner ++ ((xmlEscape text ++ blank) ++ tagText close))
      [leaf name text] := by
  have hall := List.all_eq_true.mp hblank
  have hbody := (Reads.escaped (d := d) text).append (Reads.plain (xmlEscape_blank hall))
  refine ⟨_, [], Reads.element hopen hclose hbody, ?_, by simp⟩
  simp [Alike, Cwmp.leaf, trim_append_blank hall]

theorem Says.raw {inner close text : Text} {name : String}
    (hopen : IsTag inner (.start name false)) (hclose : IsTag close (.stop name))
    (htext : '<' ∉ text) (hdecode : trim (decodeEntities text) = trim text) :
    Says (d + 1) (tagText inner ++ (text ++ tagText close)) [Cwmp.leaf name text] := by
  refine ⟨_, [], Reads.raw hopen hclose htext, ?_, by simp⟩
  simp [Alike, Cwmp.leaf, hdecode]

/-- **A text that says these elements is read as they are**, unless they are too many. -/
theorem Says.parseTree {text : Text} {nodes : List Node} (h : Says d text nodes)
    (hd : d ≤ MAX_DEPTH) :
    (sizeAll nodes ≤ MAX_ELEMENTS → ReadAs text (Cwmp.group "#document" nodes)) ∧
      (MAX_ELEMENTS < sizeAll nodes → parseTree text = .error "Too many XML elements") := by
  obtain ⟨read, blank, hread, halike, hblank⟩ := h
  have hparse := hread.parseTree hd
  rw [halike.sizeAll_eq] at hparse
  refine ⟨fun hfit => ?_, fun hmany => ?_⟩
  · rw [if_pos hfit] at hparse
    refine ⟨_, hparse, ?_⟩
    have htrim : trim blank = trim [] := by rw [trim_of_blank hblank, trim_of_blank (by simp)]
    rw [Cwmp.group, Node.trimmed_mk, Node.trimmed_mk, htrim,
      show trimmedAll read = trimmedAll nodes from halike]
  · rw [hparse, if_neg (by omega)]

/-! ### tags in lines -/

/-- A line that is a tag, behind white space only. -/
def EndsIn (line : Text) (m : Markup) : Prop :=
  ∃ indent inner, line = indent ++ tagText inner ∧ indent.all isSpace = true ∧ IsTag inner m

/-- The inside of the tag of a line. -/
def inside (line : String) : Text := (line.toList.dropWhile isSpace).tail.dropLast

theorem endsIn_of_inside {line : String} {m : Markup}
    (hline : line.toList.dropWhile isSpace = tagText (inside line))
    (htag : IsTag (inside line) m) : EndsIn line.toList m := by
  refine ⟨line.toList.takeWhile isSpace, inside line, ?_, ?_, htag⟩
  · rw [← hline, List.takeWhile_append_dropWhile]
  · rw [List.all_eq_true]
    exact fun c hc => List.mem_takeWhile_imp hc

theorem elementLines_tags : ∀ e ∈ elementLines,
    (e.1.toList.dropWhile isSpace = tagText (inside e.1) ∧
      IsTag (inside e.1) (.start e.2.2 false)) ∧
    (e.2.1.toList.dropWhile isSpace = tagText (inside e.2.1) ∧
      IsTag (inside e.2.1) (.stop e.2.2)) := by
  -- the literals become lists of characters before anything is evaluated
  have htexts : ∀ e ∈ elementLines.map (fun e => (e.1.toList, e.2.1.toList, e.2.2)),
      (e.1.dropWhile isSpace = tagText (e.1.dropWhile isSpace).tail.dropLast ∧
        IsTag (e.1.dropWhile isSpace).tail.dropLast (.start e.2.2 false)) ∧
      (e.2.1.dropWhile isSpace = tagText (e.2.1.dropWhile isSpace).tail.dropLast ∧
        IsTag (e.2.1.dropWhile isSpace).tail.dropLast (.stop e.2.2)) := by
    simp only [elementLines, List.map_cons, List.map_nil]
    repeat rw [String.toList_ofList]
    decide
  exact fun e he => htexts _ (List.mem_map_of_mem he)

theorem opens {start stop name : String} (h : (start, stop, name) ∈ elementLines) :
    EndsIn start.toList (.start name false) :=
  endsIn_of_inside (elementLines_tags _ h).1.1 (elementLines_tags _ h).1.2

theorem closes {start stop name : String} (h : (start, stop, name) ∈ elementLines) :
    EndsIn stop.toList (.stop name) :=
  endsIn_of_inside (elementLines_tags _ h).2.1 (elementLines_tags _ h).2.2

/-! ### elements in lines -/

variable {start stop : Text} {name : String}

theorem Says.between {body : Text} {nodes : List Node} (hopen : EndsIn start (.start name false))
    (hclose : EndsIn stop (.stop name)) (hbody : Says d body nodes) :
    Says (d + 1) (start ++ (body ++ stop)) [Cwmp.group name nodes] := by
  obtain ⟨indent, inner, rfl, hindent, hinner⟩ := hopen
  obtain ⟨indent', close, rfl, hindent', hclose⟩ := hclose
  have hinside := hbody.append (Says.blank hindent')
  have h := (Says.blank (d := d + 1) hindent).append (Says.group hinner hclose hinside)
  simpa only [List.append_assoc, List.nil_append, List.append_nil] using h

theorem Says.value (hopen : EndsIn start (.start name false)) (hclose : EndsIn stop (.stop name))
    (text : Text) : Says (d + 1) (start ++ (xmlEscape text ++ stop)) [Cwmp.leaf name text] := by
  obtain ⟨indent, inner, rfl, hindent, hinner⟩ := hopen
  obtain ⟨indent', close, rfl, hindent', hclose⟩ := hclose
  have h := (Says.blank (d := d + 1) hindent).append (Says.leaf hinner hclose hindent' text)
  simpa only [List.append_assoc, List.nil_append] using h

theorem Says.field (start stop name : String) (h : (start, stop, name) ∈ elementLines)
    (text : Text) :
    Says (d + 1) (start.toList ++ (xmlEscape text ++ stop.toList)) [Cwmp.leaf name text] :=
  Says.value (opens h) (closes h) text

theorem Says.emptyField (start stop name : String) (h : (start, stop, name) ∈ elementLines) :
    Says (d + 1) (start.toList ++ stop.toList) [Cwmp.leaf name []] :=
  Says.value (opens h) (closes h) []

theorem joinLines_cons {line : Text} {lines : List Text} (h : lines ≠ []) :
    joinLines (line :: lines) = line ++ ('\n' :: joinLines lines) := by
  obtain ⟨next, rest, rfl⟩ := List.exists_cons_of_ne_nil h
  simp [joinLines]

theorem Says.flatMap {lines : List Text} {nodes : List (List Node)}
    (h : List.Forall₂ (Says d) lines nodes) :
    Says d (lines.flatMap ('\n' :: ·)) nodes.flatten := by
  induction h with
  | nil => exact Says.nil
  | cons hline _ ih =>
    have hbreak : Says d ['\n'] [] := Says.blank (by decide)
    exact (hbreak.append hline).append ih

theorem joinLines_between (start stop : Text) (lines : List Text) :
    joinLines (start :: (lines ++ [stop])) =
      start ++ ((lines.flatMap ('\n' :: ·) ++ ['\n']) ++ stop) := by
  induction lines generalizing start with
  | nil => simp [joinLines]
  | cons line lines ih =>
    rw [List.cons_append, joinLines_cons (by simp), ih]
    simp

/-- **Lines between the lines of an element's tags.** -/
theorem Says.lines {lines : List Text} {nodes : List (List Node)}
    (hopen : EndsIn start (.start name false)) (hclose : EndsIn stop (.stop name))
    (h : List.Forall₂ (Says d) lines nodes) :
    Says (d + 1) (joinLines (start :: (lines ++ [stop]))) [Cwmp.group name nodes.flatten] := by
  have hbreak : Says d ['\n'] [] := Says.blank (by decide)
  have hbody := (Says.flatMap h).append hbreak
  rw [List.append_nil] at hbody
  rw [joinLines_between]
  exact Says.between hopen hclose hbody

theorem Says.message (start stop name : String) (hlisted : (start, stop, name) ∈ elementLines)
    {lines : List Text} {nodes : List (List Node)} (h : List.Forall₂ (Says d) lines nodes) :
    Says (d + 1) (joinLines (start.toList :: (lines ++ [stop.toList])))
      [Cwmp.group name nodes.flatten] :=
  Says.lines (opens hlisted) (closes hlisted) h

theorem Says.joinLines {α : Type} {item : α → Text} {node : α → Node}
    (hitem : ∀ a, Says d (item a) [node a]) (as : List α) :
    Says d (joinLines (as.map item)) (as.map node) := by
  induction as with
  | nil => exact Says.nil
  | cons a as ih =>
    cases as with
    | nil =>
      have hone : Cwmp.joinLines [item a] = item a := by simp [Cwmp.joinLines]
      rw [List.map_cons, List.map_nil, hone]
      exact hitem a
    | cons b as =>
      have hbreak : Says d ['\n'] [] := Says.blank (by decide)
      rw [List.map_cons, List.map_cons, joinLines_cons (by simp)]
      exact (hitem a).append (hbreak.append ih)

/-! ### the envelope -/

/-- The attributes of the envelope, up to the value of the last one. -/
def envelopeAttributes : Text :=
  joinLines
    [r#"xmlns:soapenv="http://schemas.xmlsoap.org/soap/envelope/""#.toList,
     r#"                  xmlns:cwmp="urn:dslforum-org:cwmp-1-0""#.toList,
     r#"                  xmlns:xsd="http://www.w3.org/2001/XMLSchema""#.toList,
     r#"                  xmlns:xsi=""#.toList]

def envelopeTag : Text :=
  "soapenv:Envelope".toList ++ (' ' :: envelopeAttributes ++
    ("http://www.w3.org/2001/XMLSchema-instance".toList ++ ['"']))

/-- The inside of `<?xml … ?>`. -/
def xmlDeclaration : Text := r#"xml version="1.0" encoding="UTF-8""#.toList

theorem envelope_constants :
    (SOAP_HEADER = '<' :: '?' :: (xmlDeclaration ++ ['?', '>']) ++ ('\n' :: tagText envelopeTag) ∧
      '?' ∉ xmlDeclaration) ∧
    (("soapenv:Envelope".toList.all isNameChar = true ∧
      ("soapenv:Envelope".toList ≠ [] ∧
        "soapenv:Envelope".toList.head? ∉ ['!', '?', '/'].map some) ∧
      localName "soapenv:Envelope".toList = "envelope") ∧
    (quoteAfter none envelopeAttributes = some (some '"') ∧
      '"' ∉ "http://www.w3.org/2001/XMLSchema-instance".toList)) ∧
    ("</soapenv:Envelope>".toList = tagText "/soapenv:Envelope".toList ∧
      IsTag "/soapenv:Envelope".toList (.stop "envelope")) := by
  unfold SOAP_HEADER xmlDeclaration envelopeTag envelopeAttributes
  repeat rw [String.toList_ofList]
  decide +kernel

theorem isTag_envelopeTag : IsTag envelopeTag (.start "envelope" false) :=
  have h := envelope_constants.2.1
  IsTag.attribute h.1.1 h.1.2.1 h.1.2.2 h.2.1 h.2.2

theorem cut_question {a : Text} (h : '?' ∉ a) (rest : Text) :
    cut ['?', '>'] (a ++ '?' :: '>' :: rest) = some (a, rest) := by
  induction a with
  | nil => simp [cut, List.isPrefixOf]
  | cons c a ih =>
    rw [List.mem_cons, not_or] at h
    have hfront : List.isPrefixOf ['?', '>'] (c :: (a ++ '?' :: '>' :: rest)) = false := by
      simp [List.isPrefixOf, h.1]
    rw [List.cons_append, cut, hfront, ih h.2]
    rfl

theorem says_xmlDeclaration :
    Says d ('<' :: '?' :: (xmlDeclaration ++ ['?', '>'])) [] := by
  refine ⟨[], [], Reads.skip fun rest => ?_, rfl, by simp⟩
  refine ⟨'?' :: (xmlDeclaration ++ '?' :: '>' :: rest), by simp, ?_⟩
  have hfront : ∀ mark, ('!' :: mark).isPrefixOf
      ('?' :: (xmlDeclaration ++ '?' :: '>' :: rest)) = false :=
    fun mark => by simp [List.isPrefixOf]
  have h₁ := hfront "--".toList
  have h₂ := hfront "[CDATA[".toList
  have hcut := cut_question envelope_constants.1.2 rest
  rw [show '!' :: "--".toList = "!--".toList by decide] at h₁
  rw [show '!' :: "[CDATA[".toList = "![CDATA[".toList by decide] at h₂
  rw [show ['?', '>'] = "?>".toList by decide] at hcut
  rw [markup, h₁, h₂, List.drop_one, List.tail_cons, hcut]
  simp

/-- The elements under the document. -/
def envelope (messageId : Text) (body : List Node) : List Node :=
  [group "envelope" [group "header" [leaf "id" messageId], group "body" body]]

theorem says_wrapEnvelope (messageId : Text) {body : Text} {nodes : List Node}
    (h : Says (d + 1) body nodes) :
    Says (d + 3) (wrapEnvelope messageId body) (envelope messageId nodes) := by
  have hid := Says.field (d := d) r#"    <cwmp:ID soapenv:mustUnderstand="1">"# "</cwmp:ID>" "id"
    (by simp [elementLines])
    messageId
  have hheader := Says.message "  <soapenv:Header>" "  </soapenv:Header>" "header"
    (by simp [elementLines]) (.cons hid .nil)
  have hindent : Says (d + 1) "    ".toList [] := Says.blank (by decide)
  have hbody := Says.message "  <soapenv:Body>" "  </soapenv:Body>" "body" (by simp [elementLines])
    (.cons (hindent.append h) .nil)
  rw [List.nil_append, List.flatten_cons, List.flatten_nil, List.append_nil] at hbody
  have henvelope := Says.lines ⟨[], envelopeTag, rfl, rfl, isTag_envelopeTag⟩
    ⟨[], _, rfl, rfl, envelope_constants.2.2.2⟩ (.cons hheader (.cons hbody .nil))
  have hbreak : Says (d + 3) ['\n'] [] := Says.blank (by decide)
  have hall := (says_xmlDeclaration (d := d + 3)).append (hbreak.append henvelope)
  have htext : wrapEnvelope messageId body =
      '<' :: '?' :: (xmlDeclaration ++ ['?', '>']) ++ (['\n'] ++
        joinLines ([] ++ tagText envelopeTag ::
          ([joinLines ("  <soapenv:Header>".toList ::
              ([r#"    <cwmp:ID soapenv:mustUnderstand="1">"#.toList ++
                (xmlEscape messageId ++ "</cwmp:ID>".toList)] ++ ["  </soapenv:Header>".toList])),
            joinLines ("  <soapenv:Body>".toList ::
              (["    ".toList ++ body] ++ ["  </soapenv:Body>".toList]))] ++
            [[] ++ tagText "/soapenv:Envelope".toList]))) := by
    rw [wrapEnvelope, envelope_constants.1.1, envelope_constants.2.2.1]
    simp only [joinLines, List.intersperse, List.flatten_cons, List.flatten_nil, List.nil_append,
      List.append_nil, List.cons_append, List.append_assoc]
  rw [htext]
  exact hall

/-! ### the builders -/

theorem says_informResponse (messageId : Text) :
    Says (d + 4) (buildInformResponse messageId)
      (envelope messageId (Request.body .InformResponse)) := by
  have hone := Says.field (d := d) "      <MaxEnvelopes>" "</MaxEnvelopes>" "maxenvelopes"
    (by simp [elementLines]) ['1']
  rw [show xmlEscape ['1'] = ['1'] by decide, ← List.append_assoc] at hone
  exact says_wrapEnvelope messageId
    (Says.message "<cwmp:InformResponse>" "    </cwmp:InformResponse>" "informresponse"
      (by simp [elementLines])
      (.cons hone .nil))

theorem says_reboot (messageId : Text) :
    Says (d + 4) (buildReboot messageId) (envelope messageId (Request.body .Reboot)) := by
  have hkey := Says.field (d := d) "      <CommandKey>" "</CommandKey>" "commandkey"
    (by simp [elementLines]) "reboot".toList
  rw [show xmlEscape "reboot".toList = "reboot".toList by decide, ← List.append_assoc] at hkey
  exact says_wrapEnvelope messageId
    (Says.message "<cwmp:Reboot>" "    </cwmp:Reboot>" "reboot"
      (by simp [elementLines]) (.cons hkey .nil))

theorem says_factoryReset (messageId : Text) :
    Says (d + 4) (buildFactoryReset messageId)
      (envelope messageId (Request.body .FactoryReset)) :=
  says_wrapEnvelope messageId
    (Says.emptyField "<cwmp:FactoryReset>" "</cwmp:FactoryReset>" "factoryreset"
      (by simp [elementLines]))

theorem says_transferCompleteResponse (messageId : Text) :
    Says (d + 4) (buildTransferCompleteResponse messageId)
      (envelope messageId (Request.body .TransferCompleteResponse)) := by
  have htag : "<cwmp:TransferCompleteResponse/>".toList =
        tagText "cwmp:TransferCompleteResponse/".toList ∧
      IsTag "cwmp:TransferCompleteResponse/".toList (.start "transfercompleteresponse" true) := by
    repeat rw [String.toList_ofList]
    decide
  rw [buildTransferCompleteResponse, htag.1]
  exact says_wrapEnvelope messageId ⟨_, [], Reads.selfClosing htag.2, rfl, by simp⟩

theorem says_empty (messageId : Text) :
    Says (d + 4) (buildEmpty messageId) (envelope messageId (Request.body .Empty)) :=
  says_wrapEnvelope messageId Says.nil

theorem says_getParameterNames (messageId : Text) (path : Option Text) (nextLevel : Bool) :
    Says (d + 4) (buildGetParameterNames messageId path nextLevel)
      (envelope messageId (Request.body (.GetParameterNames path nextLevel))) := by
  have hflag : xmlEscape [if nextLevel then '1' else '0'] = [if nextLevel then '1' else '0'] := by
    cases nextLevel <;> decide
  have hpath := Says.field (d := d) "      <ParameterPath>" "</ParameterPath>" "parameterpath"
    (by simp [elementLines])
    (orElse path [])
  have hlevel := Says.field (d := d) "      <NextLevel>" "</NextLevel>" "nextlevel"
    (by simp [elementLines])
    [if nextLevel then '1' else '0']
  rw [← List.append_assoc] at hpath
  rw [hflag, ← List.append_assoc] at hlevel
  exact says_wrapEnvelope messageId
    (Says.message "<cwmp:GetParameterNames>" "    </cwmp:GetParameterNames>" "getparameternames"
      (by simp [elementLines])
      (.cons hpath (.cons hlevel .nil)))

/-- The fields of a download around what its file size says. -/
def downloadAround (params : DownloadParams) (fileSize : List Node) : List Node :=
  [group "download"
    ([leaf "commandkey" (orElse params.commandKey []),
      leaf "filetype" (orElse params.fileType "1 Firmware Upgrade Image".toList),
      leaf "url" (orElse params.url []), leaf "username" [], leaf "password" []] ++
    (fileSize ++
     [leaf "targetfilename" [], leaf "delayseconds" ['0'], leaf "successurl" [],
      leaf "failureurl" []]))]

theorem says_download (messageId : Text) (params : DownloadParams) {fileSize : List Node}
    (hsize : Says (d + 1)
      ("      <FileSize>".toList ++ orElse params.fileSize ['0'] ++ "</FileSize>".toList)
      fileSize) :
    Says (d + 4) (buildDownload messageId params)
      (envelope messageId (downloadAround params fileSize)) := by
  have hkey := Says.field (d := d) "      <CommandKey>" "</CommandKey>" "commandkey"
    (by simp [elementLines])
    (orElse params.commandKey [])
  have htype := Says.field (d := d) "      <FileType>" "</FileType>" "filetype"
    (by simp [elementLines])
    (orElse params.fileType "1 Firmware Upgrade Image".toList)
  have hurl := Says.field (d := d) "      <URL>" "</URL>" "url"
    (by simp [elementLines]) (orElse params.url [])
  have hdelay := Says.field (d := d) "      <DelaySeconds>" "</DelaySeconds>" "delayseconds"
    (by simp [elementLines]) ['0']
  rw [← List.append_assoc] at hkey htype hurl
  rw [show xmlEscape ['0'] = ['0'] by decide, ← List.append_assoc] at hdelay
  have hbody := Says.message "<cwmp:Download>" "    </cwmp:Download>" "download"
    (by simp [elementLines])
    (.cons hkey (.cons htype (.cons hurl
    (.cons (Says.emptyField "      <Username>" "</Username>" "username" (by simp [elementLines]))
    (.cons (Says.emptyField "      <Password>" "</Password>" "password" (by simp [elementLines]))
    (.cons hsize
    (.cons (Says.emptyField "      <TargetFileName>" "</TargetFileName>" "targetfilename"
      (by simp [elementLines]))
    (.cons hdelay
    (.cons (Says.emptyField "      <SuccessURL>" "</SuccessURL>" "successurl"
      (by simp [elementLines]))
    (.cons (Says.emptyField "      <FailureURL>" "</FailureURL>" "failureurl"
      (by simp [elementLines])) .nil))))))))))
  exact says_wrapEnvelope messageId hbody

end Vigabss.Cwmp
