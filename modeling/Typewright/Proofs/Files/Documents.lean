import Typewright.Loading
import Typewright.Proofs.Fallible
import Typewright.Settings.Layers

/-!
# Documents in files

Files of settings and files of schemas are read in the same way: the bytes of the file hold a text,
and the text a document. What can be wrong with the system or the text is reported as a fault of the
file. What is not is a defect: bytes that hold no text, an integer of too many digits, and arrays
and objects too deep in one another.

- `FileTree.document`: the document in a file.
- `FileTree.Holds`, `FileTree.Garbles`: which document a file holds, and which defect it brings up.
- `Settings.readFile_eq`, `Loading.ofPresentFile_result`: what both readers make of it.
- `Settings.Rejects`, `Settings.readFile_config_iff`: what is wrong with a file of settings.
-/

namespace Typewright

/-- Why a file gives no document. -/
inductive DocumentFault where
  | unreadable (error : SystemError)
  | malformed (error : Json.ReadError)
  | defect (defect : Defect)

namespace FileTree

variable {depth : Nat} {t : FileTree} {path : Path} {j : Json} {d : Defect}

/-- The document in a file. -/
def document (depth : Nat) (t : FileTree) (path : Path) : Except DocumentFault Json :=
  match t.read path with
  | .error e => .error (.unreadable e)
  | .ok bytes =>
    match fileText? bytes with
    | none => .error (.defect .undecodable)
    | some text =>
      match Json.parse depth text with
      | .ok j => .ok j
      | .error (.integerTooLong digits) => .error (.defect (.integerTooLong digits))
      | .error .tooDeep => .error (.defect .tooDeep)
      | .error e => .error (.malformed e)

/-- The bytes of a file hold a text, and the text a document. -/
def Holds (depth : Nat) (t : FileTree) (path : Path) (j : Json) : Prop :=
  ∃ bytes text, t.read path = .ok bytes ∧ fileText? bytes = some text ∧
    Json.parse depth text = .ok j

/-- A defect that reading the document in a file brings up. -/
inductive Garbles (depth : Nat) (t : FileTree) (path : Path) : Defect → Prop
  | undecodable {bytes : List UInt8} (hr : t.read path = .ok bytes)
      (ht : fileText? bytes = none) : Garbles depth t path .undecodable
  | integerTooLong {bytes : List UInt8} {text : String} {digits : Nat}
      (hr : t.read path = .ok bytes) (ht : fileText? bytes = some text)
      (hp : Json.parse depth text = .error (.integerTooLong digits)) :
      Garbles depth t path (.integerTooLong digits)
  | tooDeep {bytes : List UInt8} {text : String} (hr : t.read path = .ok bytes)
      (ht : fileText? bytes = some text) (hp : Json.parse depth text = .error .tooDeep) :
      Garbles depth t path .tooDeep

theorem document_ok_iff : t.document depth path = .ok j ↔ t.Holds depth path j := by
  constructor
  · intro h
    unfold FileTree.document at h
    split at h
    · cases h
    next bytes hr =>
    split at h
    · cases h
    next text ht =>
    split at h
    · next j hp =>
      obtain rfl := Except.ok.inj h
      exact ⟨bytes, text, hr, ht, hp⟩
    · cases h
    · cases h
    · cases h
  · rintro ⟨bytes, text, hr, ht, hp⟩
    simp only [FileTree.document, hr, ht, hp]

theorem document_defect_iff :
    t.document depth path = .error (.defect d) ↔ t.Garbles depth path d := by
  constructor
  · intro h
    unfold FileTree.document at h
    split at h
    · cases h
    next bytes hr =>
    split at h
    · next ht =>
      cases h
      exact .undecodable hr ht
    next text ht =>
    split at h
    · cases h
    · next digits hp =>
      cases h
      exact .integerTooLong hr ht hp
    · next hp =>
      cases h
      exact .tooDeep hr ht hp
    · cases h
  · rintro (⟨hr, ht⟩ | ⟨hr, ht, hp⟩ | ⟨hr, ht, hp⟩)
    · simp only [FileTree.document, hr, ht]
    · simp only [FileTree.document, hr, ht, hp]
    · simp only [FileTree.document, hr, ht, hp]

end FileTree

namespace Settings

variable {m : Machine} {t : FileTree} {path : Path} {d : Defect} {e : ConfigError}

/-- The settings that a document gives, or the failure for want of one. -/
def ofDocument (path : Path) :
    Except DocumentFault Json → Except ConfigFailure (List (String × Json))
  | .ok (.obj members) => .ok members
  | .ok _ => .error (.config (.fileNotObject path))
  | .error (.unreadable e) => .error (.config (.fileUnreadable path e))
  | .error (.malformed e) => .error (.config (.fileMalformed path e))
  | .error (.defect d) => .error (.defect d)

/-- A file of settings has to be there and to bear the right name before its document counts. -/
theorem readFile_eq (m : Machine) (t : FileTree) (path : Path) :
    readFile m t path =
      match t.pathExists path with
      | .error e => .error (.defect (.system e.message))
      | .ok false => .error (.config (.fileMissing path))
      | .ok true =>
        if Text.lower path.suffix = ".json" then ofDocument path (t.document m.settingsDepth path)
        else .error (.config (.fileNotNamedJson path)) := by
  unfold readFile
  cases t.pathExists path with
  | error e => rfl
  | ok present =>
    cases present with
    | false => rfl
    | true =>
      by_cases hs : Text.lower path.suffix = ".json"
      -- the document is read and parsed by the same steps on both sides
      · simp only [hs, Fallible.mapError_of_ok, bind, Except.bind, FileTree.document]
        cases t.read path with
        | error e => rfl
        | ok bytes =>
          dsimp only [Fallible.mapError_of_ok]
          cases fileText? bytes with
          | none => rfl
          | some text =>
            dsimp only
            cases Json.parse m.settingsDepth text with
            | ok j => cases j <;> rfl
            | error e => cases e <;> rfl
      · rw [if_neg hs]
        dsimp only
        rw [if_pos hs]
        rfl

/--
A file gives the members of the object that it holds, if it is there and bears the right name.
-/
theorem readFile_ok_iff {members : List (String × Json)} :
    readFile m t path = .ok members ↔
      t.pathExists path = .ok true ∧ Text.lower path.suffix = ".json" ∧
        t.Holds m.settingsDepth path (.obj members) := by
  rw [readFile_eq, ← FileTree.document_ok_iff]
  cases t.pathExists path with
  | error e => simp
  | ok present =>
    cases present with
    | false => simp
    | true =>
      by_cases hs : Text.lower path.suffix = ".json"
      · cases t.document m.settingsDepth path with
        | ok j => cases j <;> simp [hs, ofDocument]
        | error f => cases f <;> simp [hs, ofDocument]
      · simp [hs]

/-- What is wrong with a file of settings and reported. -/
inductive Rejects (m : Machine) (t : FileTree) (path : Path) : ConfigError → Prop
  | missing (hx : t.pathExists path = .ok false) : Rejects m t path (.fileMissing path)
  | misnamed (hx : t.pathExists path = .ok true) (hs : Text.lower path.suffix ≠ ".json") :
      Rejects m t path (.fileNotNamedJson path)
  | unreadable {e : SystemError} (hx : t.pathExists path = .ok true)
      (hs : Text.lower path.suffix = ".json")
      (hd : t.document m.settingsDepth path = .error (.unreadable e)) :
      Rejects m t path (.fileUnreadable path e)
  | malformed {e : Json.ReadError} (hx : t.pathExists path = .ok true)
      (hs : Text.lower path.suffix = ".json")
      (hd : t.document m.settingsDepth path = .error (.malformed e)) :
      Rejects m t path (.fileMalformed path e)
  | notObject {j : Json} (hx : t.pathExists path = .ok true)
      (hs : Text.lower path.suffix = ".json") (hh : t.Holds m.settingsDepth path j)
      (hj : ∀ ms, j ≠ .obj ms) :
      Rejects m t path (.fileNotObject path)

theorem ofDocument_of_ne {j : Json} (hj : ∀ ms, j ≠ .obj ms) :
    ofDocument path (.ok j) = .error (.config (.fileNotObject path)) := by
  cases j with
  | obj ms => exact absurd rfl (hj ms)
  | _ => rfl

theorem readFile_config_iff : readFile m t path = .error (.config e) ↔ Rejects m t path e := by
  -- both directions follow the order in which the file is asked about
  rw [readFile_eq]
  constructor
  · intro h
    split at h
    · cases h
    · next hx =>
      cases h
      exact .missing hx
    · next hx =>
      split_ifs at h with hs
      · unfold ofDocument at h
        split at h
        · cases h
        · next j hj hd =>
          cases h
          exact .notObject hx hs (FileTree.document_ok_iff.1 hd) hj
        · next hd =>
          cases h
          exact .unreadable hx hs hd
        · next hd =>
          cases h
          exact .malformed hx hs hd
        · cases h
      · cases h
        exact .misnamed hx hs
  · rintro (hx | ⟨hx, hs⟩ | ⟨hx, hs, hd⟩ | ⟨hx, hs, hd⟩ | ⟨hx, hs, hh, hj⟩)
    · simp only [hx]
    · simp only [hx, hs, if_false]
    · simp only [hx, hs, if_true, hd, ofDocument]
    · simp only [hx, hs, if_true, hd, ofDocument]
    · simp only [hx, hs, if_true, FileTree.document_ok_iff.2 hh, ofDocument_of_ne hj]

/-- Reading a file of settings fails at a defect where its path or its document brings one up. -/
theorem readFile_defect_iff :
    readFile m t path = .error (.defect d) ↔
      (∃ e, t.pathExists path = .error e ∧ d = .system e.message) ∨
        t.pathExists path = .ok true ∧ Text.lower path.suffix = ".json" ∧
          t.Garbles m.settingsDepth path d := by
  rw [readFile_eq, ← FileTree.document_defect_iff]
  cases t.pathExists path with
  | error e => simp [eq_comm]
  | ok present =>
    cases present with
    | false => simp
    | true =>
      by_cases hs : Text.lower path.suffix = ".json"
      · cases t.document m.settingsDepth path with
        | ok j => cases j <;> simp [hs, ofDocument]
        | error f => cases f <;> simp [hs, ofDocument]
      · simp [hs]

end Settings

namespace Loading

/-- The document of a file with the name of the file, or the failure for want of one. -/
def ofDocumentFault (path : Path) : DocumentFault → LoadFailure
  | .unreadable e => .error (.fileUnreadable path e)
  | .malformed e => .error (.fileMalformed path e)
  | .defect d => .defect d

theorem ofPresentFile_result (m : Machine) (t : FileTree) (path : Path) :
    (ofPresentFile m t path).result =
      (path.text, ·) <$> (t.document m.schemaDepth path).mapError (ofDocumentFault path) := by
  unfold ofPresentFile FileTree.document
  cases t.read path with
  | error e => rfl
  | ok bytes =>
    dsimp only
    cases fileText? bytes with
    | none => rfl
    | some text =>
      dsimp only
      unfold ofFileText
      cases Json.parse m.schemaDepth text with
      | ok j => rfl
      | error e => cases e <;> rfl

/-- The document of a file that is there counts under any name. -/
theorem ofFile_result (m : Machine) (t : FileTree) (path : Path) :
    (ofFile m t path).result =
      match t.pathExists path with
      | .error e => .error (.defect (.system e.message))
      | .ok false => .error (.error (.fileMissing path))
      | .ok true =>
        (path.text, ·) <$> (t.document m.schemaDepth path).mapError (ofDocumentFault path) := by
  unfold ofFile
  rw [← ofPresentFile_result]
  cases t.pathExists path with
  | error e => rfl
  | ok present =>
    cases present with
    | false => rfl
    | true =>
      by_cases hs : Text.lower path.suffix = ".json"
      · simp [after, hs]
      · simp [after, hs]

end Loading

end Typewright
