import Vigabss.Cwmp.Xml

/-!
# Vigabss.Cwmp.Requests — the envelopes that the server sends

`wrapEnvelope` and the builders of `cwmpXml.js`, `setParameterList` and `buildResponseForTask` of
`cwmpSessionService.js`, with the texts of the source.  A number among the parameters of a task is
taken as the text that JavaScript writes it as.
-/

namespace Vigabss.Cwmp

/-- `a || b`; the empty text is no value. -/
def orElse (a : Option Text) (b : Text) : Text :=
  match a with
  | some text => if text = [] then b else text
  | none => b

/-- `${n}`. -/
def decimal (n : ℕ) : Text := Nat.toDigits 10 n

/-- `lines.join('\n')`. -/
def joinLines (lines : List Text) : Text := List.flatten (lines.intersperse ['\n'])

/-! ### builders -/

def SOAP_HEADER : Text :=
  joinLines
    [r#"<?xml version="1.0" encoding="UTF-8"?>"#.toList,
     r#"<soapenv:Envelope xmlns:soapenv="http://schemas.xmlsoap.org/soap/envelope/""#.toList,
     r#"                  xmlns:cwmp="urn:dslforum-org:cwmp-1-0""#.toList,
     r#"                  xmlns:xsd="http://www.w3.org/2001/XMLSchema""#.toList,
     r#"                  xmlns:xsi="http://www.w3.org/2001/XMLSchema-instance">"#.toList]

def wrapEnvelope (messageId bodyContent : Text) : Text :=
  joinLines
    [SOAP_HEADER,
     "  <soapenv:Header>".toList,
     r#"    <cwmp:ID soapenv:mustUnderstand="1">"#.toList ++ xmlEscape messageId ++
       "</cwmp:ID>".toList,
     "  </soapenv:Header>".toList,
     "  <soapenv:Body>".toList,
     "    ".toList ++ bodyContent,
     "  </soapenv:Body>".toList,
     "</soapenv:Envelope>".toList]

def buildInformResponse (messageId : Text) : Text :=
  wrapEnvelope messageId (joinLines
    ["<cwmp:InformResponse>".toList,
     "      <MaxEnvelopes>".toList ++ ['1'] ++ "</MaxEnvelopes>".toList,
     "    </cwmp:InformResponse>".toList])

/-- `<string>` of one name. -/
def stringItem (name : Text) : Text :=
  "      <string>".toList ++ xmlEscape name ++ "</string>".toList

def buildGetParameterValues (messageId : Text) (parameterNames : List Text) : Text :=
  wrapEnvelope messageId (joinLines
    ["<cwmp:GetParameterValues>".toList,
     r#"      <ParameterNames soapenv:arrayType="xsd:string["#.toList ++
       decimal parameterNames.length ++ r#"]">"#.toList,
     joinLines (parameterNames.map stringItem),
     "      </ParameterNames>".toList,
     "    </cwmp:GetParameterValues>".toList])

/-- `{ name, value, type }`. -/
structure ParameterValue where
  name : Text
  value : Text
  type : Option Text

def ParameterValue.xsdType (p : ParameterValue) : Text := orElse p.type "xsd:string".toList

/-- `<ParameterValueStruct>` of one entry. -/
def structItem (p : ParameterValue) : Text :=
  joinLines
    ["      <ParameterValueStruct>".toList,
     "        <Name>".toList ++ xmlEscape p.name ++ "</Name>".toList,
     r#"        <Value xsi:type=""#.toList ++ xmlEscape p.xsdType ++ r#"">"#.toList ++
       xmlEscape p.value ++ "</Value>".toList,
     "      </ParameterValueStruct>".toList]

def buildSetParameterValues (messageId : Text) (parameterValueList : List ParameterValue) : Text :=
  wrapEnvelope messageId (joinLines
    ["<cwmp:SetParameterValues>".toList,
     r#"      <ParameterList soapenv:arrayType="cwmp:ParameterValueStruct["#.toList ++
       decimal parameterValueList.length ++ r#"]">"#.toList,
     joinLines (parameterValueList.map structItem),
     "      </ParameterList>".toList,
     "      <ParameterKey>".toList ++ "</ParameterKey>".toList,
     "    </cwmp:SetParameterValues>".toList])

def buildGetParameterNames (messageId : Text) (parameterPath : Option Text) (nextLevel : Bool) :
    Text :=
  wrapEnvelope messageId (joinLines
    ["<cwmp:GetParameterNames>".toList,
     "      <ParameterPath>".toList ++ xmlEscape (orElse parameterPath []) ++
       "</ParameterPath>".toList,
     "      <NextLevel>".toList ++ [if nextLevel then '1' else '0'] ++ "</NextLevel>".toList,
     "    </cwmp:GetParameterNames>".toList])

structure DownloadParams where
  commandKey : Option Text
  fileType : Option Text
  url : Option Text
  fileSize : Option Text

def buildDownload (messageId : Text) (params : DownloadParams) : Text :=
  wrapEnvelope messageId (joinLines
    ["<cwmp:Download>".toList,
     "      <CommandKey>".toList ++ xmlEscape (orElse params.commandKey []) ++
       "</CommandKey>".toList,
     "      <FileType>".toList ++
       xmlEscape (orElse params.fileType "1 Firmware Upgrade Image".toList) ++
       "</FileType>".toList,
     "      <URL>".toList ++ xmlEscape (orElse params.url []) ++ "</URL>".toList,
     "      <Username>".toList ++ "</Username>".toList,
     "      <Password>".toList ++ "</Password>".toList,
     "      <FileSize>".toList ++ orElse params.fileSize ['0'] ++ "</FileSize>".toList,
     "      <TargetFileName>".toList ++ "</TargetFileName>".toList,
     "      <DelaySeconds>".toList ++ ['0'] ++ "</DelaySeconds>".toList,
     "      <SuccessURL>".toList ++ "</SuccessURL>".toList,
     "      <FailureURL>".toList ++ "</FailureURL>".toList,
     "    </cwmp:Download>".toList])

def buildReboot (messageId : Text) : Text :=
  wrapEnvelope messageId (joinLines
    ["<cwmp:Reboot>".toList,
     "      <CommandKey>".toList ++ "reboot".toList ++ "</CommandKey>".toList,
     "    </cwmp:Reboot>".toList])

def buildFactoryReset (messageId : Text) : Text :=
  wrapEnvelope messageId ("<cwmp:FactoryReset>".toList ++ "</cwmp:FactoryReset>".toList)

structure PingParams where
  host : Option Text
  numberOfRepetitions : Option Text
  timeout : Option Text
  basePath : Option Text

/-- The `pvList` of a ping diagnostic. -/
def PingParams.pvList (params : PingParams) : List ParameterValue :=
  let basePath := orElse params.basePath "InternetGatewayDevice.IPPingDiagnostics.".toList
  [⟨basePath ++ "DiagnosticsState".toList, "Requested".toList, some "xsd:string".toList⟩,
   ⟨basePath ++ "Host".toList, orElse params.host "8.8.8.8".toList, some "xsd:string".toList⟩,
   ⟨basePath ++ "NumberOfRepetitions".toList, orElse params.numberOfRepetitions "3".toList,
    some "xsd:unsignedInt".toList⟩,
   ⟨basePath ++ "Timeout".toList, orElse params.timeout "1000".toList,
    some "xsd:unsignedInt".toList⟩]

def buildStartPingDiagnostic (messageId : Text) (params : PingParams) : Text :=
  buildSetParameterValues messageId params.pvList

structure TracerouteParams where
  host : Option Text
  maxHopCount : Option Text
  basePath : Option Text

/-- The `pvList` of a traceroute diagnostic. -/
def TracerouteParams.pvList (params : TracerouteParams) : List ParameterValue :=
  let basePath := orElse params.basePath "InternetGatewayDevice.TraceRouteDiagnostics.".toList
  [⟨basePath ++ "DiagnosticsState".toList, "Requested".toList, some "xsd:string".toList⟩,
   ⟨basePath ++ "Host".toList, orElse params.host "8.8.8.8".toList, some "xsd:string".toList⟩,
   ⟨basePath ++ "MaxHopCount".toList, orElse params.maxHopCount "30".toList,
    some "xsd:unsignedInt".toList⟩]

def buildStartTracerouteDiagnostic (messageId : Text) (params : TracerouteParams) : Text :=
  buildSetParameterValues messageId params.pvList

def buildGetDiagnosticResults (messageId : Text) (paths : List Text) : Text :=
  buildGetParameterValues messageId paths

def buildEmpty (messageId : Text) : Text := wrapEnvelope messageId []

def buildTransferCompleteResponse (messageId : Text) : Text :=
  wrapEnvelope messageId "<cwmp:TransferCompleteResponse/>".toList

/-- The type of a message with its parameters. -/
inductive Request
  | InformResponse
  | GetParameterValues (parameterNames : List Text)
  | SetParameterValues (parameterValueList : List ParameterValue)
  | GetParameterNames (parameterPath : Option Text) (nextLevel : Bool)
  | Download (params : DownloadParams)
  | Reboot
  | FactoryReset
  | StartPingDiagnostic (params : PingParams)
  | StartTracerouteDiagnostic (params : TracerouteParams)
  | GetDiagnosticResults (paths : List Text)
  | TransferCompleteResponse
  | Empty

def buildCwmpResponse (messageId : Text) : Request → Text
  | .InformResponse => buildInformResponse messageId
  | .GetParameterValues names => buildGetParameterValues messageId names
  | .SetParameterValues list => buildSetParameterValues messageId list
  | .GetParameterNames path nextLevel => buildGetParameterNames messageId path nextLevel
  | .Download params => buildDownload messageId params
  | .Reboot => buildReboot messageId
  | .FactoryReset => buildFactoryReset messageId
  | .StartPingDiagnostic params => buildStartPingDiagnostic messageId params
  | .StartTracerouteDiagnostic params => buildStartTracerouteDiagnostic messageId params
  | .GetDiagnosticResults paths => buildGetDiagnosticResults messageId paths
  | .TransferCompleteResponse => buildTransferCompleteResponse messageId
  | .Empty => buildEmpty messageId

/-! ### tasks -/

/-- An entry of the list of a set task, as it was stored. -/
structure Entry where
  name : Option Text
  path : Option Text
  value : Option Text
  type : Option Text

/-- The parameters of a set task: a list of entries, with or without the `{ parameters }` around
it, or a map of paths, in the order of `Object.entries`; a value that is null or an object is
`none`. -/
inductive SetParameters
  | list (entries : List Entry)
  | wrapped (parameters : List Entry)
  | map (entries : List (Text × Option Text))
  | other

/-- `{ name, value, type }` of an entry with a name and a value. -/
def Entry.parameterValue (p : Entry) : Option ParameterValue :=
  let name := orElse p.name (p.path.getD [])
  if name = [] then none
  else p.value.map fun value => ⟨name, value, some (orElse p.type "xsd:string".toList)⟩

def setParameterList : SetParameters → List ParameterValue
  | .list entries => entries.filterMap Entry.parameterValue
  | .wrapped entries => entries.filterMap Entry.parameterValue
  | .map entries =>
    entries.filterMap fun e => e.2.map fun value => ⟨e.1, value, some "xsd:string".toList⟩
  | .other => []

/-- `task_type` with what the parameters of the task hold for it. -/
inductive TaskType
  | get_parameter_values (paths : List Text)
  | set_parameter_values (params : SetParameters)
  | get_parameter_names (path : Option Text) (nextLevel : Option Bool)
  | download (fileType url fileSize : Option Text)
  | reboot
  | factory_reset
  | ping_diagnostic (params : PingParams)
  | traceroute_diagnostic (params : TracerouteParams)
  | wifi_diagnostics (paths : List Text)
  | wan_diagnostics (paths : List Text)
  | other

structure Task where
  id : ℕ
  task_type : TaskType

/-- The request that a task asks for. -/
def Task.request (task : Task) : Request :=
  match task.task_type with
  | .get_parameter_values paths => .GetParameterValues paths
  | .set_parameter_values params => .SetParameterValues (setParameterList params)
  | .get_parameter_names path nextLevel =>
    .GetParameterNames (some (orElse path [])) (nextLevel ≠ some false)
  | .download fileType url fileSize =>
    .Download
      { commandKey := some ("DL-".toList ++ decimal task.id)
        fileType := some (orElse fileType "1 Firmware Upgrade Image".toList)
        url := some (orElse url [])
        fileSize := some (orElse fileSize ['0']) }
  | .reboot => .Reboot
  | .factory_reset => .FactoryReset
  | .ping_diagnostic params => .StartPingDiagnostic params
  | .traceroute_diagnostic params => .StartTracerouteDiagnostic params
  | .wifi_diagnostics paths => .GetParameterValues paths
  | .wan_diagnostics paths => .GetParameterValues paths
  | .other => .Empty

def buildResponseForTask (task : Task) : Text :=
  buildCwmpResponse ("TASK-".toList ++ decimal task.id) task.request

end Vigabss.Cwmp

/-!
## What a request is to say

The element tree that each request is to be read as, written down without the builders: local names
in lower case, one element for each parameter, and the texts as they were given.
-/

namespace Vigabss.Cwmp

open Vigabss.Lib.JsText

mutual
/-- The tree with the white space around each text taken away. -/
def Node.trimmed : Node → Node
  | .mk name children text => .mk name (trimmedAll children) (trim text)
def trimmedAll : List Node → List Node
  | [] => []
  | node :: nodes => node.trimmed :: trimmedAll nodes
end

def leaf (name : String) (text : Text) : Node := .mk name [] text

def group (name : String) (children : List Node) : Node := .mk name children []

/-- `SetParameterValues` of a list of parameters. -/
def setParameterValues (list : List ParameterValue) : Node :=
  group "setparametervalues"
    [group "parameterlist"
      (list.map fun p =>
        group "parametervaluestruct" [leaf "name" p.name, leaf "value" p.value]),
     leaf "parameterkey" []]

/-- `GetParameterValues` of a list of names. -/
def getParameterValues (names : List Text) : Node :=
  group "getparametervalues" [group "parameternames" (names.map (leaf "string"))]

/-- The elements in the body of a request. -/
def Request.body : Request → List Node
  | .InformResponse => [group "informresponse" [leaf "maxenvelopes" ['1']]]
  | .GetParameterValues names => [getParameterValues names]
  | .SetParameterValues list => [setParameterValues list]
  | .GetParameterNames path nextLevel =>
    [group "getparameternames"
      [leaf "parameterpath" (orElse path []), leaf "nextlevel" [if nextLevel then '1' else '0']]]
  | .Download params =>
    [group "download"
      [leaf "commandkey" (orElse params.commandKey []),
       leaf "filetype" (orElse params.fileType "1 Firmware Upgrade Image".toList),
       leaf "url" (orElse params.url []),
       leaf "username" [],
       leaf "password" [],
       leaf "filesize" (orElse params.fileSize ['0']),
       leaf "targetfilename" [],
       leaf "delayseconds" ['0'],
       leaf "successurl" [],
       leaf "failureurl" []]]
  | .Reboot => [group "reboot" [leaf "commandkey" "reboot".toList]]
  | .FactoryReset => [group "factoryreset" []]
  | .StartPingDiagnostic params => [setParameterValues params.pvList]
  | .StartTracerouteDiagnostic params => [setParameterValues params.pvList]
  | .GetDiagnosticResults paths => [getParameterValues paths]
  | .TransferCompleteResponse => [group "transfercompleteresponse" []]
  | .Empty => []

mutual
/-- The number of elements of a tree. -/
def Node.size : Node → ℕ
  | .mk _ children _ => 1 + sizeAll children
def sizeAll : List Node → ℕ
  | [] => 0
  | node :: nodes => node.size + sizeAll nodes
end

/-- The whole document of a request. -/
def Request.intended (request : Request) (messageId : Text) : Node :=
  group "#document"
    [group "envelope" [group "header" [leaf "id" messageId], group "body" request.body]]

/-- The elements of that document. -/
def Request.elements (request : Request) (messageId : Text) : ℕ :=
  sizeAll [group "envelope" [group "header" [leaf "id" messageId], group "body" request.body]]

/-- The text is read as `tree` is to be read, each text up to the white space around it. -/
def ReadAs (text : Text) (tree : Node) : Prop :=
  ∃ read, parseTree text = .ok read ∧ read.trimmed = tree.trimmed

/-- The lines that open and close each element of constant tags, and its name. -/
def elementLines : List (String × String × String) :=
  [("  <soapenv:Header>", "  </soapenv:Header>", "header"),
   (r#"    <cwmp:ID soapenv:mustUnderstand="1">"#, "</cwmp:ID>", "id"),
   ("  <soapenv:Body>", "  </soapenv:Body>", "body"),
   ("<cwmp:InformResponse>", "    </cwmp:InformResponse>", "informresponse"),
   ("      <MaxEnvelopes>", "</MaxEnvelopes>", "maxenvelopes"),
   ("<cwmp:GetParameterValues>", "    </cwmp:GetParameterValues>", "getparametervalues"),
   ("      <string>", "</string>", "string"),
   ("<cwmp:SetParameterValues>", "    </cwmp:SetParameterValues>", "setparametervalues"),
   ("      <ParameterValueStruct>", "      </ParameterValueStruct>", "parametervaluestruct"),
   ("        <Name>", "</Name>", "name"),
   ("      <ParameterKey>", "</ParameterKey>", "parameterkey"),
   ("<cwmp:GetParameterNames>", "    </cwmp:GetParameterNames>", "getparameternames"),
   ("      <ParameterPath>", "</ParameterPath>", "parameterpath"),
   ("      <NextLevel>", "</NextLevel>", "nextlevel"),
   ("<cwmp:Download>", "    </cwmp:Download>", "download"),
   ("      <CommandKey>", "</CommandKey>", "commandkey"),
   ("      <FileType>", "</FileType>", "filetype"),
   ("      <URL>", "</URL>", "url"),
   ("      <Username>", "</Username>", "username"),
   ("      <Password>", "</Password>", "password"),
   ("      <FileSize>", "</FileSize>", "filesize"),
   ("      <TargetFileName>", "</TargetFileName>", "targetfilename"),
   ("      <DelaySeconds>", "</DelaySeconds>", "delayseconds"),
   ("      <SuccessURL>", "</SuccessURL>", "successurl"),
   ("      <FailureURL>", "</FailureURL>", "failureurl"),
   ("<cwmp:Reboot>", "    </cwmp:Reboot>", "reboot"),
   ("<cwmp:FactoryReset>", "</cwmp:FactoryReset>", "factoryreset")]

/-! ### trimmed trees -/

@[simp] theorem trimmedAll_nil : trimmedAll [] = [] := by rw [trimmedAll]

@[simp] theorem trimmedAll_cons (node : Node) (nodes : List Node) :
    trimmedAll (node :: nodes) = node.trimmed :: trimmedAll nodes := by rw [trimmedAll]

@[simp] theorem Node.trimmed_mk (name : String) (children : List Node) (text : Text) :
    (Node.mk name children text).trimmed = .mk name (trimmedAll children) (trim text) := by
  rw [Node.trimmed]

mutual
theorem Node.size_trimmed (node : Node) : node.trimmed.size = node.size := by
  rcases node with ⟨name, children, text⟩
  rw [Node.trimmed_mk, Node.size, Node.size, sizeAll_trimmedAll]
theorem sizeAll_trimmedAll (nodes : List Node) : sizeAll (trimmedAll nodes) = sizeAll nodes := by
  rcases nodes with _ | ⟨node, nodes⟩
  · rw [trimmedAll_nil]
  · rw [trimmedAll_cons, sizeAll, sizeAll, Node.size_trimmed, sizeAll_trimmedAll]
end

/-- The nodes are read as they are meant. -/
def Alike (as bs : List Node) : Prop := trimmedAll as = trimmedAll bs

theorem Alike.sizeAll_eq {as bs : List Node} (h : Alike as bs) : sizeAll as = sizeAll bs := by
  rw [← sizeAll_trimmedAll as, h, sizeAll_trimmedAll]

end Vigabss.Cwmp
