import Typewright.Defect
import Typewright.Files.Tree
import Typewright.Journal
import Typewright.Schema.Document
import Typewright.Web.Address
import Typewright.Web.Reply

/-!
# Loading of schemas

A schema is loaded from a file or from the web. Loading gives, besides its result, the journal and
the requests that were made on the way. What to load is asked for by a file, an address or both as
JSON values; one that does not count as set is not given, and one that is given has to be a text.

- `SchemaSource.load`: the schema of a source.
- `Loading.ofRequest`: what comes of asking for a schema.
-/

namespace Typewright

/-- Why a schema could not be loaded. -/
inductive LoadError where
  | noSource
  | twoSources
  | fileMissing (path : Path)
  | fileMalformed (path : Path) (error : Json.ReadError)
  | fileUnreadable (path : Path) (error : SystemError)
  | badAddress (url : String)
  | timeout (url : String)
  | noConnection (url : String)
  | badStatus (url : String) (status : Int)
  | requestFailed (url text : String)
  | badBody (url text : String)
  | badSchema (source : String) (fault : SchemaFault)

def LoadError.message : LoadError → String
  | .noSource => "Either file_path or url must be provided"
  | .twoSources => "Cannot specify both file_path and url"
  | .fileMissing path => s!"File not found: {path.text}"
  | .fileMalformed path e => s!"Invalid JSON in file {path.text}: {e.message}"
  | .fileUnreadable path e => s!"Error reading file {path.text}: {e.message}"
  | .badAddress url => s!"Invalid URL: {url}"
  | .timeout url => s!"Request timeout for URL: {url}"
  | .noConnection url => s!"Connection error for URL: {url}"
  | .badStatus url status => s!"HTTP error {status} for URL: {url}"
  | .requestFailed url text => s!"Request error for URL {url}: {text}"
  | .badBody url text => s!"Invalid JSON response from URL {url}: {text}"
  | .badSchema source fault => s!"Invalid schema in {source}: {fault.message}"

/-- How loading can fail: with an error that is reported as one, or at a defect. -/
inductive LoadFailure where
  | error (error : LoadError)
  | defect (defect : Defect)

/-- The outcome of loading, with what happened on the way. -/
structure Loading (α : Type) where
  journal : Journal
  requests : List Web.Request
  result : Except LoadFailure α

namespace Loading

variable {α β : Type}

/-- An outcome without anything on the way. -/
def ofResult (r : Except LoadFailure α) : Loading α :=
  ⟨[], [], r⟩

/-- An outcome with a remark before it. -/
def after (level : Level) (message : String) (l : Loading α) : Loading α :=
  { l with journal := ⟨level, message⟩ :: l.journal }

/-- A failure that is remarked on. -/
def failed (remark : String) (e : LoadError) : Loading α :=
  ⟨[⟨.error, remark⟩], [], .error (.error e)⟩

/-- A failure whose remark has the wording of the failure itself. -/
def failedAs (e : LoadError) : Loading α :=
  failed e.message e

/-- An outcome, and what follows if it is a value. -/
def andThen (l : Loading α) (f : α → Loading β) : Loading β :=
  match l.result with
  | .error e => ⟨l.journal, l.requests, .error e⟩
  | .ok a => ⟨l.journal ++ (f a).journal, l.requests ++ (f a).requests, (f a).result⟩

/-- The document that the text of a file holds. -/
def ofFileText (m : Machine) (path : Path) (text : String) : Loading (String × Json) :=
  match Json.parse m.schemaDepth text with
  | .ok j => .after .info s!"Loaded JSON from {path.text}" (ofResult (.ok (path.text, j)))
  | .error (.integerTooLong digits) => ofResult (.error (.defect (.integerTooLong digits)))
  | .error .tooDeep => ofResult (.error (.defect .tooDeep))
  | .error e => failedAs (.fileMalformed path e)

/-- The document that a file which is there holds. -/
def ofPresentFile (m : Machine) (t : FileTree) (path : Path) : Loading (String × Json) :=
  match t.read path with
  | .error e => failedAs (.fileUnreadable path e)
  | .ok bytes =>
    match fileText? bytes with
    | none => ofResult (.error (.defect .undecodable))
    | some text => ofFileText m path text

/-- The document that a file holds. -/
def ofFile (m : Machine) (t : FileTree) (path : Path) : Loading (String × Json) :=
  .after .debug s!"Attempting to load JSON from file: {path.text}" <|
    match t.pathExists path with
    | .error e => ofResult (.error (.defect (.system e.message)))
    | .ok false => failedAs (.fileMissing path)
    | .ok true =>
      if Text.lower path.suffix = ".json" then ofPresentFile m t path
      else .after .warning s!"File does not have .json extension: {path.text}"
        (ofPresentFile m t path)

/-- The document that the body of a reply holds, by what a client makes of it. -/
def ofBody (url : String) : Except Web.BodyFault Json → Loading (String × Json)
  | .ok j => .after .info s!"Loaded JSON from {url}" (ofResult (.ok (url, j)))
  | .error (.value text) => failedAs (.badBody url text)
  | .error .tooDeep => ofResult (.error (.defect .tooDeep))
  | .error (.request text) => failedAs (.requestFailed url text)

/-- Whether a reply, or else the address it is from, announces a JSON document. -/
def announcesJson (url contentType : String) : Bool :=
  Text.isWithin "application/json".toList contentType.toList ||
    ".json".toList.isSuffixOf url.toList

def ofReply (c : Web.Client) (url : String) (r : Web.Reply) : Loading (String × Json) :=
  if c.isError r then failedAs (.badStatus url r.status)
  else
    let contentType := Text.lower ((c.header? r "content-type").getD "")
    if announcesJson url contentType then ofBody url (c.document r)
    else .after .warning s!"URL {url} does not have JSON content type: {contentType}"
      (ofBody url (c.document r))

def ofTransportFault (url : String) : Web.TransportFault → Loading (String × Json)
  | .timeout => failedAs (.timeout url)
  | .connection text => failed s!"Connection error for URL {url}: {text}" (.noConnection url)
  | .refusal (some r) => failedAs (.badStatus url r.status)
  | .refusal none => ofResult (.error (.defect (.noMember .null "status_code")))
  | .request text => failedAs (.requestFailed url text)
  | .value text => failedAs (.badBody url text)

/-- The document at an address, which is asked once if it is complete. -/
def ofAddress (c : Web.Client) (reply : Except Web.TransportFault Web.Reply) (timeout : Json)
    (url : String) : Loading (String × Json) :=
  .after .debug s!"Attempting to load JSON from URL: {url}" <|
    match Web.Address.ofText? url with
    | none => ofResult (.error (.defect .badHost))
    | some a =>
      if !a.isComplete then failed s!"Invalid URL format: {url}" (.badAddress url)
      else
        let l := match reply with
          | .ok r => ofReply c url r
          | .error fault => ofTransportFault url fault
        { l with requests := [⟨url, timeout⟩] }

/-- The schema that a document describes. -/
def ofDocument (source : String) (document : Json) : Loading (String × Schema) :=
  match Schema.ofJson document with
  | .error fault => failedAs (.badSchema source fault)
  | .ok s =>
    .after .debug
      s!"Parsed schema {s.space} with {s.definitions.length} top-level definition(s)"
      (ofResult (.ok (source, s)))

end Loading

/-- Where a schema comes from. -/
inductive SchemaSource where
  | file (path : Path)
  | web (url : String)

/-- The source that a path or an address gives; an empty text gives none. -/
def SchemaSource.choose (path url : String) : Except LoadError SchemaSource :=
  match path, url with
  | "", "" => .error .noSource
  | path, "" => .ok (.file (.ofText path))
  | "", url => .ok (.web url)
  | _, _ => .error .twoSources

/-- The schema of a source, with the name of the source; `reply` is what the web answers. -/
def SchemaSource.load (m : Machine) (c : Web.Client) (t : FileTree)
    (reply : Except Web.TransportFault Web.Reply) (timeout : Json) :
    SchemaSource → Loading (String × Schema)
  | .file path => (Loading.ofFile m t path).andThen fun (source, j) => Loading.ofDocument source j
  | .web url =>
    (Loading.ofAddress c reply timeout url).andThen fun (source, j) => Loading.ofDocument source j

def loadSchema (m : Machine) (c : Web.Client) (t : FileTree)
    (reply : Except Web.TransportFault Web.Reply) (timeout : Json) (path url : String) :
    Loading (String × Schema) :=
  match SchemaSource.choose path url with
  | .error e => .ofResult (.error (.error e))
  | .ok source => source.load m c t reply timeout

/-! ## Requests -/

namespace Loading

/-- What comes of naming a file by a value that counts as set. -/
def ofPathValue (m : Machine) (c : Web.Client) (t : FileTree)
    (reply : Except Web.TransportFault Web.Reply) (timeout : Json) :
    Json → Loading (String × Schema)
  | .str path => (SchemaSource.file (.ofText path)).load m c t reply timeout
  | j => ofResult (.error (.defect (.notText j)))

/-- What comes of naming an address by a value that counts as set. -/
def ofAddressValue (m : Machine) (c : Web.Client) (t : FileTree)
    (reply : Except Web.TransportFault Web.Reply) (timeout : Json) :
    Json → Loading (String × Schema)
  | .str url => (SchemaSource.web url).load m c t reply timeout
  | j =>
    .after .debug s!"Attempting to load JSON from URL: {j.text}"
      (ofResult (.error (.defect (.noMember j "decode"))))

/-- What comes of a request that may name a file and an address. -/
def ofRequest (m : Machine) (c : Web.Client) (t : FileTree)
    (reply : Except Web.TransportFault Web.Reply) (timeout path url : Json) :
    Loading (String × Schema) :=
  match path.isTruthy, url.isTruthy with
  | false, false => ofResult (.error (.error .noSource))
  | true, false => ofPathValue m c t reply timeout path
  | false, true => ofAddressValue m c t reply timeout url
  | true, true => ofResult (.error (.error .twoSources))

end Loading

end Typewright
