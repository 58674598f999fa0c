import Typewright.Loading
import Typewright.Proofs.Fallible
import Typewright.Proofs.Files.Documents

/-!
# Outcomes of loading

A schema is loaded in two steps: a document is fetched from a file or from the web, and a schema is
read from it. Loading gives a schema, a fault that is reported or a defect; the defects all come up
when the document is fetched.

- `Loading.Finds`, `Loading.Escapes`: the document that is fetched, and the defects.
- `Loading.ofRequest_outcome`: what comes of a request for a schema.
-/

namespace Typewright

namespace Loading

open Web (Address)

variable {m : Machine} {c : Web.Client} {t : FileTree}
variable {reply : Except Web.TransportFault Web.Reply} {timeout : Json}
variable {α β : Type} {d : Defect}

/-! ## One step after another -/

@[simp] theorem after_result (level : Level) (message : String) (l : Loading α) :
    (l.after level message).result = l.result :=
  rfl

@[simp] theorem after_requests (level : Level) (message : String) (l : Loading α) :
    (l.after level message).requests = l.requests :=
  rfl

theorem andThen_result (l : Loading α) (f : α → Loading β) :
    (l.andThen f).result = l.result >>= fun a => (f a).result := by
  unfold andThen
  cases l.result <;> rfl

theorem andThen_requests {l : Loading α} {f : α → Loading β} (h : ∀ a, (f a).requests = []) :
    (l.andThen f).requests = l.requests := by
  unfold andThen
  cases l.result with
  | error e => rfl
  | ok a => exact (congrArg (l.requests ++ ·) (h a)).trans (List.append_nil _)

theorem ofDocument_result (source : String) (document : Json) :
    (ofDocument source document).result =
      (source, ·) <$> (Schema.ofJson document).mapError fun e => .error (.badSchema source e) := by
  unfold ofDocument
  cases Schema.ofJson document <;> rfl

theorem ofDocument_requests (source : String) (document : Json) :
    (ofDocument source document).requests = [] := by
  unfold ofDocument
  cases Schema.ofJson document <;> rfl

/-! ## Fetching a document -/

/-- The document of a source, with the name of the source. -/
def fetch (m : Machine) (c : Web.Client) (t : FileTree)
    (reply : Except Web.TransportFault Web.Reply) (timeout : Json) :
    SchemaSource → Loading (String × Json)
  | .file path => ofFile m t path
  | .web url => ofAddress c reply timeout url

theorem load_eq (source : SchemaSource) :
    source.load m c t reply timeout =
      (fetch m c t reply timeout source).andThen fun (name, j) => ofDocument name j := by
  cases source <;> rfl

/-- Whether an address is well formed and has the parts that it takes to ask it. -/
def isAskable (url : String) : Bool :=
  (Address.ofText? url).any Address.isComplete

/-- A document is fetched from a source under a name. -/
inductive Finds (m : Machine) (t : FileTree) (reply : Except Web.TransportFault Web.Reply) :
    SchemaSource → String → Json → Prop
  | file {path : Path} {j : Json} (hx : t.pathExists path = .ok true)
      (hh : t.Holds m.schemaDepth path j) : Finds m t reply (.file path) path.text j
  | web {url : String} {r : Web.Reply} {j : Json} (ha : isAskable url) (hr : reply = .ok r)
      (hs : ¬r.HasErrorStatus) (hb : Json.parse m.schemaDepth r.body = .ok j) :
      Finds m t reply (.web url) url j

/-- What fails when a document is fetched and is not reported. -/
inductive Escapes (m : Machine) (t : FileTree) (reply : Except Web.TransportFault Web.Reply) :
    SchemaSource → Defect → Prop
  /-- Whether the file is there cannot be told. -/
  | path {path : Path} {e : SystemError} (hx : t.pathExists path = .error e) :
      Escapes m t reply (.file path) (.system e.message)
  /-- The file holds no text or no document that can be followed. -/
  | garbled {path : Path} {d : Defect} (hx : t.pathExists path = .ok true)
      (hg : t.Garbles m.schemaDepth path d) : Escapes m t reply (.file path) d
  /-- The authority of the address is malformed. -/
  | badHost {url : String} (ha : Address.ofText? url = none) : Escapes m t reply (.web url) .badHost
  /-- The transport reports a status without the reply that has it. -/
  | refusal {url : String} (ha : isAskable url) (hr : reply = .error (.refusal none)) :
      Escapes m t reply (.web url) (.noMember .null "status_code")
  /-- The reply holds a document that cannot be followed. -/
  | tooDeep {url : String} {r : Web.Reply} (ha : isAskable url) (hr : reply = .ok r)
      (hs : ¬r.HasErrorStatus) (hb : Json.parse m.schemaDepth r.body = .error .tooDeep) :
      Escapes m t reply (.web url) .tooDeep

theorem ofPresentFile_requests (m : Machine) (t : FileTree) (path : Path) :
    (ofPresentFile m t path).requests = [] := by
  unfold ofPresentFile
  cases t.read path with
  | error e => rfl
  | ok bytes =>
    dsimp only
    cases fileText? bytes with
    | none => rfl
    | some text =>
      dsimp only
      unfold ofFileText
      cases Json.parse m.schemaDepth text with
      | ok j => rfl
      | error e => cases e <;> rfl

theorem ofFile_requests (m : Machine) (t : FileTree) (path : Path) :
    (ofFile m t path).requests = [] := by
  unfold ofFile
  cases t.pathExists path with
  | error e => rfl
  | ok present =>
    cases present with
    | false => rfl
    | true =>
      simp only [after_requests]
      split_ifs
      · exact ofPresentFile_requests m t path
      · exact ofPresentFile_requests m t path

/-- What the transport answers for an address that was asked. -/
def answered (c : Web.Client) (reply : Except Web.TransportFault Web.Reply) (url : String) :
    Loading (String × Json) :=
  match reply with
  | .ok r => ofReply c url r
  | .error fault => ofTransportFault url fault

theorem ofAddress_of_askable {url : String} (h : isAskable url) :
    (ofAddress c reply timeout url).result = (answered c reply url).result ∧
      (ofAddress c reply timeout url).requests = [⟨url, timeout⟩] := by
  unfold isAskable at h
  unfold ofAddress
  cases ha : Address.ofText? url with
  | none => simp [ha] at h
  | some a =>
    have hc : a.isComplete = true := by simpa [ha] using h
    simp only [after_result, after_requests, hc]
    exact ⟨rfl, rfl⟩

theorem ofAddress_of_not_askable {url : String} (h : isAskable url = false) :
    (ofAddress c reply timeout url).result =
        .error (if Address.ofText? url = none then .defect .badHost else .error (.badAddress url)) ∧
      (ofAddress c reply timeout url).requests = [] := by
  unfold isAskable at h
  unfold ofAddress
  cases ha : Address.ofText? url with
  | none => exact ⟨rfl, rfl⟩
  | some a =>
    have hc : a.isComplete = false := by simpa [ha] using h
    simp only [after_result, after_requests, hc]
    exact ⟨rfl, rfl⟩

theorem ofBody_ok_iff {url name : String} {x : Except Web.BodyFault Json} {j : Json} :
    (ofBody url x).result = .ok (name, j) ↔ name = url ∧ x = .ok j := by
  cases x with
  | ok j' => simp [ofBody, after, ofResult, eq_comm]
  | error e => cases e <;> simp [ofBody, failedAs, failed, ofResult]

theorem ofBody_defect_iff {url : String} {x : Except Web.BodyFault Json} :
    (ofBody url x).result = .error (.defect d) ↔ x = .error .tooDeep ∧ d = .tooDeep := by
  cases x with
  | ok j' => simp [ofBody, after, ofResult]
  | error e => cases e <;> simp [ofBody, failedAs, failed, ofResult, eq_comm]

theorem ofReply_result (c : Web.Client) (url : String) (r : Web.Reply) :
    (ofReply c url r).result =
      if c.isError r then .error (.error (.badStatus url r.status))
      else (ofBody url (c.document r)).result := by
  unfold ofReply
  dsimp only
  split_ifs <;> rfl

theorem answered_ok_iff (hc : c.Documented m.schemaDepth) {url name : String} {j : Json} :
    (answered c reply url).result = .ok (name, j) ↔
      name = url ∧
        ∃ r, reply = .ok r ∧ ¬r.HasErrorStatus ∧ Json.parse m.schemaDepth r.body = .ok j := by
  cases reply with
  | ok r =>
    rw [answered, ofReply_result]
    by_cases hs : c.isError r
    · simp [hs, (hc.isError_iff r).1 hs]
    · simp [hs, mt (hc.isError_iff r).2 hs, ofBody_ok_iff, hc.document_ok_iff]
  | error fault =>
    rcases fault with _ | _ | (_ | _) | _ | _ <;>
      simp [answered, ofTransportFault, failedAs, failed, ofResult]

theorem answered_defect_iff (hc : c.Documented m.schemaDepth) {url : String} :
    (answered c reply url).result = .error (.defect d) ↔
      (reply = .error (.refusal none) ∧ d = .noMember .null "status_code") ∨
        ∃ r, reply = .ok r ∧ ¬r.HasErrorStatus ∧
          Json.parse m.schemaDepth r.body = .error .tooDeep ∧ d = .tooDeep := by
  cases reply with
  | ok r =>
    rw [answered, ofReply_result]
    by_cases hs : c.isError r
    · simp [hs, (hc.isError_iff r).1 hs]
    · simp [hs, mt (hc.isError_iff r).2 hs, ofBody_defect_iff, hc.document_tooDeep_iff]
  | error fault =>
    -- a refused status is told apart by whether its reply came along
    rcases fault with _ | _ | (_ | _) | _ | _ <;>
      simp [answered, ofTransportFault, failedAs, failed, ofResult, @eq_comm _ d]

/-- No file is missed where none is asked for. -/
theorem answered_ne_fileMissing {url : String} {path : Path} :
    (answered c reply url).result ≠ .error (.error (.fileMissing path)) := by
  cases reply with
  | ok r =>
    rw [answered, ofReply_result]
    split_ifs
    · simp
    · cases c.document r with
      | ok j => simp [ofBody, after, ofResult]
      | error e => cases e <;> simp [ofBody, failedAs, failed, ofResult]
  | error fault =>
    rcases fault with _ | _ | (_ | _) | _ | _ <;>
      simp [answered, ofTransportFault, failedAs, failed, ofResult]

theorem ofFile_ok_iff {path : Path} {name : String} {j : Json} :
    (ofFile m t path).result = .ok (name, j) ↔
      name = path.text ∧ t.pathExists path = .ok true ∧ t.Holds m.schemaDepth path j := by
  rw [ofFile_result, ← FileTree.document_ok_iff]
  cases t.pathExists path with
  | error e => simp
  | ok present =>
    cases present with
    | false => simp
    | true =>
      cases t.document m.schemaDepth path with
      | ok j => simp [Fallible.mapError_of_ok, eq_comm]
      | error f => simp [Fallible.mapError_of_error]

theorem ofFile_defect_iff {path : Path} :
    (ofFile m t path).result = .error (.defect d) ↔
      (∃ e, t.pathExists path = .error e ∧ d = .system e.message) ∨
        t.pathExists path = .ok true ∧ t.Garbles m.schemaDepth path d := by
  rw [ofFile_result, ← FileTree.document_defect_iff]
  cases t.pathExists path with
  | error e => simp [@eq_comm _ d]
  | ok present =>
    cases present with
    | false => simp
    | true =>
      cases t.document m.schemaDepth path with
      | ok j => simp [Fallible.mapError_of_ok]
      | error f => cases f <;> simp [Fallible.mapError_of_error, ofDocumentFault]

theorem ofAddress_ok_iff (hc : c.Documented m.schemaDepth) {url name : String} {j : Json} :
    (ofAddress c reply timeout url).result = .ok (name, j) ↔
      name = url ∧ isAskable url ∧
        ∃ r, reply = .ok r ∧ ¬r.HasErrorStatus ∧ Json.parse m.schemaDepth r.body = .ok j := by
  cases ha : isAskable url with
  | true =>
    rw [(ofAddress_of_askable ha).1, answered_ok_iff hc]
    simp
  | false =>
    rw [(ofAddress_of_not_askable ha).1]
    simp

theorem ofAddress_defect_iff (hc : c.Documented m.schemaDepth) {url : String} :
    (ofAddress c reply timeout url).result = .error (.defect d) ↔
      Address.ofText? url = none ∧ d = .badHost ∨
        isAskable url ∧ ((reply = .error (.refusal none) ∧ d = .noMember .null "status_code") ∨
          ∃ r, reply = .ok r ∧ ¬r.HasErrorStatus ∧
            Json.parse m.schemaDepth r.body = .error .tooDeep ∧ d = .tooDeep) := by
  cases ha : isAskable url with
  | true =>
    have hn : Address.ofText? url ≠ none := by
      intro hn
      rw [isAskable, hn] at ha
      cases ha
    rw [(ofAddress_of_askable ha).1, answered_defect_iff hc]
    simp [hn]
  | false =>
    rw [(ofAddress_of_not_askable ha).1]
    by_cases hn : Address.ofText? url = none
    · simp [hn, @eq_comm _ d]
    · simp [hn]

theorem fetch_ok_iff (hc : c.Documented m.schemaDepth) {source : SchemaSource} {name : String}
    {j : Json} :
    (fetch m c t reply timeout source).result = .ok (name, j) ↔ Finds m t reply source name j := by
  cases source with
  | file path =>
    rw [fetch, ofFile_ok_iff]
    constructor
    · rintro ⟨rfl, hx, hh⟩
      exact .file hx hh
    · rintro ⟨hx, hh⟩
      exact ⟨rfl, hx, hh⟩
  | web url =>
    rw [fetch, ofAddress_ok_iff hc]
    constructor
    · rintro ⟨rfl, ha, r, hr, hs, hb⟩
      exact .web ha hr hs hb
    · rintro (_ | ⟨ha, hr, hs, hb⟩)
      exact ⟨rfl, ha, _, hr, hs, hb⟩

theorem fetch_defect_iff (hc : c.Documented m.schemaDepth) {source : SchemaSource} :
    (fetch m c t reply timeout source).result = .error (.defect d) ↔
      Escapes m t reply source d := by
  cases source with
  | file path =>
    rw [fetch, ofFile_defect_iff]
    constructor
    · rintro (⟨e, hx, rfl⟩ | ⟨hx, hg⟩)
      · exact .path hx
      · exact .garbled hx hg
    · rintro (hx | ⟨hx, hg⟩)
      · exact .inl ⟨_, hx, rfl⟩
      · exact .inr ⟨hx, hg⟩
  | web url =>
    rw [fetch, ofAddress_defect_iff hc]
    constructor
    · rintro (⟨hn, rfl⟩ | ⟨ha, ⟨hr, rfl⟩ | ⟨r, hr, hs, hb, rfl⟩⟩)
      · exact .badHost hn
      · exact .refusal ha hr
      · exact .tooDeep ha hr hs hb
    · rintro (_ | _ | hn | ⟨ha, hr⟩ | ⟨ha, hr, hs, hb⟩)
      · exact .inl ⟨hn, rfl⟩
      · exact .inr ⟨ha, .inl ⟨hr, rfl⟩⟩
      · exact .inr ⟨ha, .inr ⟨_, hr, hs, hb, rfl⟩⟩

theorem fetch_fileMissing_iff {source : SchemaSource} {path : Path} :
    (fetch m c t reply timeout source).result = .error (.error (.fileMissing path)) ↔
      source = .file path ∧ t.pathExists path = .ok false := by
  cases source with
  | file p =>
    rw [fetch, ofFile_result]
    constructor
    · intro h
      split at h
      · cases h
      · next hx =>
        cases h
        exact ⟨rfl, hx⟩
      · obtain ⟨f, -, heq⟩ := Fallible.mapError_error (Fallible.map_error h)
        cases f <;> cases heq
    · rintro ⟨heq, hx⟩
      obtain rfl := SchemaSource.file.inj heq
      rw [hx]
  -- no address is reported as a missing file
  | web url =>
    refine iff_of_false (fun h => ?_) (fun h => by cases h.1)
    rw [fetch] at h
    cases ha : isAskable url with
    | true => exact answered_ne_fileMissing ((ofAddress_of_askable ha).1.symm.trans h)
    | false =>
      rw [(ofAddress_of_not_askable ha).1] at h
      split_ifs at h <;> cases h

theorem fetch_requests (m : Machine) (c : Web.Client) (t : FileTree)
    (reply : Except Web.TransportFault Web.Reply) (timeout : Json) (source : SchemaSource) :
    (fetch m c t reply timeout source).requests =
      match source with
      | .file _ => []
      | .web url => if isAskable url then [⟨url, timeout⟩] else [] := by
  cases source with
  | file path => exact ofFile_requests m t path
  | web url =>
    dsimp only
    rw [fetch]
    split_ifs with ha
    · exact (ofAddress_of_askable ha).2
    · exact (ofAddress_of_not_askable (by simpa using ha)).2

/-! ## Requests for schemas -/

/-- A text that may be given, as a value. -/
def optional : Option String → Json
  | none => .null
  | some s => .str s

theorem load_ok_iff (hc : c.Documented m.schemaDepth) {source : SchemaSource} {name : String}
    {s : Schema} :
    (source.load m c t reply timeout).result = .ok (name, s) ↔
      ∃ document, Finds m t reply source name document ∧ Schema.ofJson document = .ok s := by
  rw [load_eq, andThen_result]
  constructor
  · intro h
    obtain ⟨⟨found, j⟩, hf, h⟩ := Fallible.bind_ok h
    rw [ofDocument_result] at h
    obtain ⟨s', hs, heq⟩ := Fallible.map_ok h
    obtain ⟨rfl, rfl⟩ := Prod.mk.inj heq
    exact ⟨j, (fetch_ok_iff hc).1 hf, Fallible.mapError_ok hs⟩
  · rintro ⟨j, hf, hs⟩
    rw [(fetch_ok_iff hc).2 hf]
    simp only [bind, Except.bind, ofDocument_result, hs]
    rfl

/-- What fails other than for a fault of the schema fails when the document is fetched. -/
theorem load_error_iff {source : SchemaSource} {f : LoadFailure}
    (hf : ∀ name fault, f ≠ .error (.badSchema name fault)) :
    (source.load m c t reply timeout).result = .error f ↔
      (fetch m c t reply timeout source).result = .error f := by
  rw [load_eq, andThen_result]
  constructor
  · intro h
    obtain h | ⟨⟨name, j⟩, -, h⟩ := Fallible.bind_error h
    · exact h
    · rw [ofDocument_result] at h
      obtain ⟨fault, -, heq⟩ := Fallible.mapError_error (Fallible.map_error h)
      exact absurd heq.symm (hf name fault)
  · intro h
    rw [h]
    rfl

theorem load_requests (source : SchemaSource) :
    (source.load m c t reply timeout).requests = (fetch m c t reply timeout source).requests := by
  rw [load_eq]
  exact andThen_requests fun a => ofDocument_requests a.1 a.2

theorem choose_eq (path url : String) :
    SchemaSource.choose path url =
      if path = "" then if url = "" then .error .noSource else .ok (.web url)
      else if url = "" then .ok (.file (.ofText path)) else .error .twoSources := by
  unfold SchemaSource.choose
  split <;> simp_all

theorem choose_error {path url : String} {e : LoadError}
    (h : SchemaSource.choose path url = .error e) : e = .noSource ∨ e = .twoSources := by
  rw [choose_eq] at h
  split_ifs at h
  · exact .inl (Except.error.inj h).symm
  · exact .inr (Except.error.inj h).symm

/-- The web is asked only if no file is named, and only for an address that can be asked. -/
theorem loadSchema_requests (m : Machine) (c : Web.Client) (t : FileTree)
    (reply : Except Web.TransportFault Web.Reply) (timeout : Json) (path url : String) :
    (loadSchema m c t reply timeout path url).requests =
      if path = "" ∧ isAskable url then [⟨url, timeout⟩] else [] := by
  have hempty : isAskable "" = false := by decide
  rw [loadSchema, choose_eq]
  by_cases hp : path = "" <;> by_cases hu : url = ""
  · simp [hp, hu, hempty, ofResult]
  · simp [hp, hu, load_requests, fetch_requests]
  · simp [hp, hu, load_requests, fetch_requests]
  · simp [hp, hu, ofResult]

theorem ofRequest_optional (path url : Option String) :
    ofRequest m c t reply timeout (optional path) (optional url) =
      loadSchema m c t reply timeout (path.getD "") (url.getD "") := by
  have ht : ∀ o : Option String, (optional o).isTruthy = !decide (o.getD "" = "") := by
    intro o
    cases o <;> rfl
  have hs : ∀ o : Option String, o.getD "" ≠ "" → optional o = .str (o.getD "") := by
    intro o ho
    cases o with
    | none => exact absurd rfl ho
    | some s => rfl
  rw [ofRequest, loadSchema, choose_eq, ht, ht]
  by_cases hp : path.getD "" = "" <;> by_cases hu : url.getD "" = ""
  · simp [hp, hu]
  · simp [hp, hu, hs url hu, ofAddressValue]
  · simp [hp, hu, hs path hp, ofPathValue]
  · simp [hp, hu]

/--
A request gives the schema of the document that is fetched, or says that a file is missing when it
is, or brings up one of the defects of fetching; whatever else fails is reported. The web is asked
once, and only for an address that is well formed when no file is named.
-/
theorem ofRequest_outcome (m : Machine) {c : Web.Client} (hc : c.Documented m.schemaDepth)
    (t : FileTree) (reply : Except Web.TransportFault Web.Reply) (timeout : Json)
    (path url : Option String) :
    (∀ name s, (ofRequest m c t reply timeout (optional path) (optional url)).result =
      .ok (name, s) ↔
      ∃ source document, SchemaSource.choose (path.getD "") (url.getD "") = .ok source ∧
        Finds m t reply source name document ∧ Schema.ofJson document = .ok s) ∧
    (∀ p, (ofRequest m c t reply timeout (optional path) (optional url)).result =
        .error (.error (.fileMissing p)) ↔
      SchemaSource.choose (path.getD "") (url.getD "") = .ok (.file p) ∧
        t.pathExists p = .ok false) ∧
    (∀ d, (ofRequest m c t reply timeout (optional path) (optional url)).result =
      .error (.defect d) ↔
      ∃ source, SchemaSource.choose (path.getD "") (url.getD "") = .ok source ∧
        Escapes m t reply source d) ∧
    (ofRequest m c t reply timeout (optional path) (optional url)).requests =
      if path.getD "" = "" ∧ isAskable (url.getD "") then [⟨url.getD "", timeout⟩] else [] := by
  rw [ofRequest_optional]
  generalize path.getD "" = path, url.getD "" = url
  refine ⟨fun name s => ?_, fun p => ?_, fun d => ?_,
    loadSchema_requests m c t reply timeout path url⟩
  · rw [loadSchema]
    cases SchemaSource.choose path url with
    | error e => simp [ofResult]
    | ok source => simp [load_ok_iff hc]
  · rw [loadSchema]
    cases hc : SchemaSource.choose path url with
    | error e => obtain rfl | rfl := choose_error hc <;> simp [ofResult]
    | ok source =>
      rw [load_error_iff (by simp), fetch_fileMissing_iff]
      simp
  · rw [loadSchema]
    cases SchemaSource.choose path url with
    | error e => simp [ofResult]
    | ok source =>
      rw [load_error_iff (by simp), fetch_defect_iff hc]
      simp

/-- A reply whose body is no schema is not a defect. -/
theorem ofRequest_outcome_text :
    (Web.Client.standard 1).Documented (Machine.ample 1).schemaDepth ∧
      ∀ d, (ofRequest (.ample 1) (.standard 1) .empty (.ok ⟨200, [], "\"x\""⟩) (.int 30) .null
        (.str "http://h/s.json")).result ≠ .error (.defect d) := by
  have hc := Web.Client.documented_standard (Machine.ample 1).schemaDepth
  have ha : Address.ofText? "http://h/s.json" ≠ none := by decide
  have hp : Json.parse 1 "\"x\"" = .ok (.str "x") := by cbv
  refine ⟨hc, fun d h => ?_⟩
  obtain ⟨source, hs, he⟩ := ((ofRequest_outcome (.ample 1) hc .empty (.ok ⟨200, [], "\"x\""⟩)
    (.int 30) none (some "http://h/s.json")).2.2.1 d).1 h
  obtain rfl := Except.ok.inj hs
  cases he with
  | badHost hn => exact ha hn
  | refusal _ hr => cases hr
  | tooDeep _ hr _ hb =>
    obtain rfl := Except.ok.inj hr
    cases hp.symm.trans hb

/-- Bytes that hold no text and an address with half a pair of brackets are not reported. -/
theorem ofRequest_escapes :
    (ofRequest (.ample 1) (.standard 1) ⟨[(⟨.above 0, ["s.json"]⟩, .file [0xff])]⟩ (.error .timeout)
        (.int 30) (.str "s.json") .null).result = .error (.defect .undecodable) ∧
      (ofRequest (.ample 1) (.standard 1) .empty (.error .timeout) (.int 30) .null
        (.str "http://[bad")).result = .error (.defect .badHost) :=
  ⟨rfl, rfl⟩

end Loading

end Typewright
